import LowOrbit.Proofs.Punctuality
import LowOrbit.Proofs.Switches

/-!
# Blackouts one by one

Every handover window puts the retransmission deadline off when it closes the congestion window.
`Window.Recounts` says what a log of postponements holds at a moment of a run in the usual mode in
which timers fire exactly on time: of each handover window that is over, one postponement less than
a millisecond behind its start, and another at its very end if an acknowledgment came in there when
the timer had fired. Three things can happen: time passes (`Recounts.wait`), an acknowledgment is
looked at (`Recounts.heed`), or the timer fires (`Recounts.fire`).

Moments count from the beginning of the period of the adoption, and window `k` is the one that
starts in the `k`-th period from there.
-/

namespace LowOrbit.Handover

/-- A retransmission deadline is put off: when, and by how much. -/
structure Postponement where
  moment : Nat
  amount : Nat
  deriving DecidableEq, Repr

namespace Window

/-- The postponements in a log between the start of window `k` and the next start. -/
def share (w : Window) (k : Nat) (log : List Postponement) : List Postponement :=
  log.filter fun p => k * period + w.start ≤ p.moment ∧ p.moment < (k + 1) * period + w.start

/-- The postponement that goes with a step at a moment, if that closes the congestion window. -/
def extension (w : Window) (moment : Nat) (closed closed' : Bool) : List Postponement :=
  if closed = false ∧ closed' = true then [⟨moment, w.span⟩] else []

/-- The present, if it is the end of a handover window and the timer, which sleeps until `due`, has
fired there. -/
def straggling (w : Window) (present due : Nat) : List Nat :=
  if present % period = w.finish ∧ due ≠ present then [present] else []

/-- All is told about window `k`: the deadline was put off less than a millisecond behind the start,
and once more at the end if an acknowledgment came in there after the timer. -/
def Told (w : Window) (log : List Postponement) (late : List Nat) (k : Nat) : Prop :=
  ∃ moment, k * period + w.start ≤ moment ∧ moment < k * period + w.start + minDelay ∧
    w.share k log = ⟨moment, w.span⟩ ::
      if k * period + w.finish ∈ late then [⟨k * period + w.finish, w.span⟩] else []

/-- Nothing is told about window `k` yet. -/
def Untold (w : Window) (log : List Postponement) (late : List Nat) (k : Nat) : Prop :=
  w.share k log = [] ∧ k * period + w.finish ∉ late

/-- Where a run is on its way through window `k`. The timer sleeps until `due`. -/
inductive Stage (w : Window) (present due : Nat) (closed : Bool) (log : List Postponement)
    (late : List Nat) (k : Nat) : Prop where
  /-- The congestion window is still open, and the timer is going to close it. -/
  | ahead (hlow : k * period + w.start ≤ due) (hhigh : due < k * period + w.start + minDelay)
      (hpast : k * period + w.finish < present + period) (hopen : closed = false)
      (hlog : w.Untold log late k)
  /-- The congestion window is closed. The timer fires at the end of the handover window, or right
  after the start because an acknowledgment was faster. -/
  | within (hdue : due < k * period + w.start + minDelay ∨ due = k * period + w.finish)
      (hpast : k * period + w.start ≤ present) (hclosed : closed = true)
      (hlog : w.Told log late k) (hlate : k * period + w.finish ∉ late)
  /-- The timer has fired at the end of the handover window. At that moment the congestion window
  may be closed again. -/
  | behind (hdue : due = k * period + w.finish + minDelay) (hpast : k * period + w.finish ≤ present)
      (hlog : w.Told log late k)
      (hedge : present = k * period + w.finish →
        (closed = true ↔ k * period + w.finish ∈ late))

/-- What a log holds at a moment on the way through window `k`, if the phase was `first` at the
adoption: all about the windows before, and nothing about those after. -/
structure Recounts (w : Window) (first present due : Nat) (closed : Bool)
    (log : List Postponement) (late : List Nat) (k : Nat) : Prop where
  le_due : present ≤ due
  stage : w.Stage present due closed log late k
  past : ∀ j < k, first < j * period + w.start → w.Told log late j
  future : ∀ j, k < j → w.Untold log late j

variable {w : Window} {first present due k : Nat} {closed closed' : Bool}
  {log more : List Postponement} {late stragglers : List Nat}

/-! ## Logs -/

/-- What comes in the course of window `k` belongs to it. -/
theorem share_append_self (hmore : ∀ p ∈ more,
      k * period + w.start ≤ p.moment ∧ p.moment < (k + 1) * period + w.start) :
    w.share k (log ++ more) = w.share k log ++ more := by
  have hall : w.share k more = more :=
    List.filter_eq_self.mpr fun p hmem => decide_eq_true (hmore p hmem)
  calc w.share k (log ++ more)
      = w.share k log ++ w.share k more := List.filter_append ..
    _ = w.share k log ++ more := by rw [hall]

/-- What comes in the course of window `k` does not belong to another one. -/
theorem share_append_of_ne {j : Nat} (hne : j ≠ k) (hmore : ∀ p ∈ more,
      k * period + w.start ≤ p.moment ∧ p.moment < (k + 1) * period + w.start) :
    w.share j (log ++ more) = w.share j log := by
  have hnone : w.share j more = [] := by
    refine List.filter_eq_nil_iff.mpr fun p hmem => ?_
    have hwithin := hmore p hmem
    rw [decide_eq_true_eq]
    simp only [period] at *
    omega
  calc w.share j (log ++ more)
      = w.share j log ++ w.share j more := List.filter_append ..
    _ = w.share j log := by rw [hnone, List.append_nil]

/-- A straggler at the end of window `k` is none of another one. -/
theorem mem_append_of_ne {j : Nat} (hne : j ≠ k)
    (hlate : ∀ m ∈ stragglers, m = k * period + w.finish) :
    j * period + w.finish ∈ late ++ stragglers ↔ j * period + w.finish ∈ late := by
  refine ⟨fun hmem => ?_, fun hmem => List.mem_append_left _ hmem⟩
  rcases List.mem_append.mp hmem with hold | hnew
  · exact hold
  · have hsame := hlate _ hnew
    simp only [period] at hsame
    omega

/-- What comes in the course of window `k` leaves alone what is told about the windows before, and
that nothing is told about those after. -/
theorem Recounts.extend (h : w.Recounts first present due closed log late k)
    (hmore : ∀ p ∈ more, k * period + w.start ≤ p.moment ∧ p.moment < (k + 1) * period + w.start)
    (hlate : ∀ m ∈ stragglers, m = k * period + w.finish) {due' : Nat} (hle : present ≤ due')
    (hstage : w.Stage present due' closed' (log ++ more) (late ++ stragglers) k) :
    w.Recounts first present due' closed' (log ++ more) (late ++ stragglers) k where
  le_due := hle
  stage := hstage
  past j hlt hfirst := by
    obtain ⟨moment, hlow, hhigh, hshare⟩ := h.past j hlt hfirst
    refine ⟨moment, hlow, hhigh, ?_⟩
    rw [share_append_of_ne (Nat.ne_of_lt hlt) hmore, hshare]
    simp only [mem_append_of_ne (Nat.ne_of_lt hlt) hlate]
  future j hlt := by
    obtain ⟨hshare, hnone⟩ := h.future j hlt
    refine ⟨?_, mt (mem_append_of_ne (Nat.ne_of_gt hlt) hlate).mp hnone⟩
    rw [share_append_of_ne (Nat.ne_of_gt hlt) hmore, hshare]

/-- A postponement shortly behind the start is what there is to tell so far. -/
theorem Untold.tell (h : w.Untold log late k) {moment : Nat}
    (hlow : k * period + w.start ≤ moment) (hhigh : moment < k * period + w.start + minDelay) :
    w.Told (log ++ [⟨moment, w.span⟩]) late k := by
  refine ⟨moment, hlow, hhigh, ?_⟩
  rw [share_append_self, h.1, if_neg h.2]
  · rfl
  · intro p hmem
    rw [List.mem_singleton.mp hmem]
    simp only [period, minDelay] at *
    omega

/-- The first straggler at the end goes with another postponement. -/
theorem Told.tell (h : w.Told log late k) (hlate : k * period + w.finish ∉ late) :
    w.Told (log ++ [⟨k * period + w.finish, w.span⟩]) (late ++ [k * period + w.finish]) k := by
  obtain ⟨moment, hlow, hhigh, hshare⟩ := h
  refine ⟨moment, hlow, hhigh, ?_⟩
  rw [if_neg hlate] at hshare
  rw [share_append_self, hshare, if_pos (List.mem_append_right _ (List.mem_singleton.mpr rfl))]
  · rfl
  · intro p hmem
    have hedges := w.edges
    rw [List.mem_singleton.mp hmem]
    simp only [period]
    omega

/-- Another straggler at the end does not add anything. -/
theorem Told.straggle (h : w.Told log late k) (hlate : k * period + w.finish ∈ late) :
    w.Told log (late ++ [k * period + w.finish]) k := by
  obtain ⟨moment, hlow, hhigh, hshare⟩ := h
  refine ⟨moment, hlow, hhigh, ?_⟩
  rw [if_pos hlate] at hshare
  rw [hshare, if_pos (List.mem_append_left _ hlate)]

/-! ## Moments -/

/-- A closed window is not closed again. -/
theorem extension_of_closed (moment : Nat) (closed' : Bool) :
    w.extension moment true closed' = [] :=
  if_neg fun h => absurd h.1 (by decide)

/-- What leaves the window open does not put the deadline off. -/
theorem extension_of_open (moment : Nat) (closed : Bool) : w.extension moment closed false = [] :=
  if_neg fun h => absurd h.2 (by decide)

/-- What leaves the window as it is does not put the deadline off. -/
theorem extension_self (moment : Nat) (closed : Bool) : w.extension moment closed closed = [] := by
  cases closed with
  | false => exact extension_of_open moment false
  | true => exact extension_of_closed moment true

/-- A postponement comes at the moment of the step, and with a window that is closed then. -/
theorem of_mem_extension {moment : Nat} {p : Postponement}
    (h : p ∈ w.extension moment closed closed') : p.moment = moment ∧ closed' = true := by
  unfold extension at h
  split at h
  · rename_i hcloses
    rw [List.mem_singleton.mp h]
    exact ⟨rfl, hcloses.2⟩
  · cases h

/-- On its way through window `k` the present lies behind the end of the window before and ahead of
the next start. -/
theorem Stage.bounds (h : w.Stage present due closed log late k) (hle : present ≤ due) :
    k * period + w.finish < present + period ∧ present < (k + 1) * period + w.start := by
  have hedges := w.edges
  cases h with
  | ahead hlow hhigh hpast hopen hlog =>
      simp only [period, minDelay] at *
      omega
  | within hdue hpast hclosed hlog hlate =>
      simp only [period, minDelay] at *
      omega
  | behind hdue hpast hlog hedge =>
      simp only [period, minDelay] at *
      omega

/-- On the way through window `k`, the phase is that of the end at the end of that window only. -/
theorem mod_eq_finish_iff (hpast : k * period + w.finish < present + period)
    (hnext : present < (k + 1) * period + w.start) :
    present % period = w.finish ↔ present = k * period + w.finish := by
  have hedges := w.edges
  simp only [period] at *
  omega

/-- On the way through window `k`, the phase lies in the handover window between the edges of that
window only. -/
theorem contains_mod_iff (hpast : k * period + w.finish < present + period)
    (hnext : present < (k + 1) * period + w.start) :
    w.contains (present % period) = true ↔
      k * period + w.start ≤ present ∧ present ≤ k * period + w.finish := by
  have hedges := w.edges
  rw [contains_iff]
  simp only [period] at *
  omega

/-- Where the end of the window is no moment behind the firing of the timer, nothing is a
straggler. -/
theorem straggling_eq_nil (hpast : k * period + w.finish < present + period)
    (hnext : present < (k + 1) * period + w.start)
    (hend : present = k * period + w.finish → due = present) : w.straggling present due = [] :=
  if_neg fun h => h.2 (hend ((mod_eq_finish_iff hpast hnext).mp h.1))

/-- A straggler comes at the end of the window. -/
theorem eq_of_mem_straggling (hpast : k * period + w.finish < present + period)
    (hnext : present < (k + 1) * period + w.start) {m : Nat} (h : m ∈ w.straggling present due) :
    m = k * period + w.finish := by
  unfold straggling at h
  split at h
  · rename_i hend
    rw [List.mem_singleton.mp h]
    exact (mod_eq_finish_iff hpast hnext).mp hend.1
  · cases h

/-! ## Steps -/

/-- Time passes. -/
theorem Recounts.wait (h : w.Recounts first present due closed log late k) {later : Nat}
    (hle : present ≤ later) (hlater : later ≤ due) :
    w.Recounts first later due closed log late k := by
  refine ⟨hlater, ?_, h.past, h.future⟩
  cases h.stage with
  | ahead hlow hhigh hpast hopen hlog => exact .ahead hlow hhigh (by omega) hopen hlog
  | within hdue hpast hclosed hlog hlate => exact .within hdue (by omega) hclosed hlog hlate
  | behind hdue hpast hlog hedge =>
      exact .behind hdue (by omega) hlog fun hend => hedge (by omega)

/-- An acknowledgment that is looked at takes the run on its way: ahead of the start it does nothing,
shortly behind it it may be faster than the timer, at the end it may be a straggler. -/
theorem Stage.heed (h : w.Stage present due closed log late k) (hle : present ≤ due)
    (hwidth : w.start + jitter + 2 * minDelay ≤ w.finish) :
    let closed' := w.contains (present % period)
    w.Stage present due closed' (log ++ w.extension present closed closed')
      (late ++ w.straggling present due) k := by
  intro closed'
  obtain ⟨hpast', hnext⟩ := h.bounds hle
  have hin : closed' = true ↔ _ := contains_mod_iff hpast' hnext
  have hjitter : 0 < jitter ∧ 0 < minDelay := by decide
  cases h with
  | ahead hlow hhigh hpast hopen hlog =>
      have hnone : w.straggling present due = [] :=
        straggling_eq_nil hpast' hnext (by omega)
      rw [hnone, List.append_nil, hopen]
      cases hclosed' : closed' with
      | false =>
          rw [extension_of_open, List.append_nil]
          exact .ahead hlow hhigh hpast rfl hlog
      | true =>
          have hwithin := hin.mp hclosed'
          exact .within (.inl hhigh) hwithin.1 rfl
            (hlog.tell hwithin.1 (Nat.lt_of_le_of_lt hle hhigh)) hlog.2
  | within hdue hpast hclosed hlog hlate =>
      -- At the end itself, the timer has not fired yet.
      have hnone : w.straggling present due = [] :=
        straggling_eq_nil hpast' hnext (by omega)
      have hclosed' : closed' = true := hin.mpr (by omega)
      rw [hnone, List.append_nil, hclosed, extension_of_closed, List.append_nil, hclosed']
      exact .within hdue hpast rfl hlog hlate
  | behind hdue hpast hlog hedge =>
      rcases Nat.eq_or_lt_of_le hpast with rfl | hover
      · have hclosed' : closed' = true := hin.mpr (by omega)
        have hlate : w.straggling (k * period + w.finish) due = [k * period + w.finish] :=
          if_pos ⟨(mod_eq_finish_iff hpast' hnext).mpr rfl, by omega⟩
        rw [hlate, hclosed']
        cases hclosed : closed with
        | true =>
            have hmem := (hedge rfl).mp hclosed
            rw [extension_of_closed, List.append_nil]
            exact .behind hdue hpast (hlog.straggle hmem) fun _ => by simp
        | false =>
            have hnone : k * period + w.finish ∉ late := fun hmem => by
              rw [(hedge rfl).mpr hmem] at hclosed
              cases hclosed
            exact .behind hdue hpast (hlog.tell hnone) fun _ => by simp
      · have hnone : w.straggling present due = [] :=
          straggling_eq_nil hpast' hnext (by omega)
        have hclosed' : closed' = false := eq_false_of_ne_true fun h => by
          have hwithin := hin.mp h
          omega
        rw [hnone, List.append_nil, hclosed', extension_of_open, List.append_nil]
        exact .behind hdue hpast hlog fun hsame => by omega

/-- An acknowledgment is looked at. -/
theorem Recounts.heed (h : w.Recounts first present due closed log late k)
    (hwidth : w.start + jitter + 2 * minDelay ≤ w.finish) :
    let closed' := w.contains (present % period)
    w.Recounts first present due closed' (log ++ w.extension present closed closed')
      (late ++ w.straggling present due) k := by
  intro closed'
  obtain ⟨hpast, hnext⟩ := h.stage.bounds h.le_due
  refine h.extend (fun p hmem => ?_) (fun m hmem => eq_of_mem_straggling hpast hnext hmem)
    h.le_due (h.stage.heed h.le_due hwidth)
  obtain ⟨hmoment, hclosed'⟩ := of_mem_extension hmem
  rw [hmoment]
  exact ⟨((contains_mod_iff hpast hnext).mp hclosed').1, hnext⟩

/-- A firing shortly behind the start leaves the window closed, and the timer sleeps until the end. -/
theorem early_firing (hlow : k * period + w.start ≤ present)
    (hhigh : present < k * period + w.start + minDelay)
    (hwidth : w.start + jitter + 2 * minDelay ≤ w.finish) :
    (w.start ≤ present % period + jitter ∧ present % period + jitter < w.finish) ∧
      present + w.nextEdge (present % period) = k * period + w.finish := by
  have hedges := w.edges
  rw [mod_period (k := k) (by omega) (by simp only [period, minDelay] at *; omega)]
  rw [nextEdge_of_mem (by omega) (by omega)]
  simp only [jitter, minDelay] at *
  omega

/-- A firing at the end leaves the window open, and the timer sleeps for the shortest delay. -/
theorem final_firing (hpresent : present = k * period + w.finish) :
    ¬ present % period + jitter < w.finish ∧
      present + w.nextEdge (present % period) = k * period + w.finish + minDelay := by
  have hedges := w.edges
  have horder := w.start_le_finish
  have hphase : present % period = w.finish := by
    rw [hpresent, mod_period (k := k) (by omega) (by simp only [period]; omega)]
    omega
  rw [hphase, nextEdge_of_mem horder (Nat.le_refl _), Nat.sub_self, hpresent]
  exact ⟨Nat.not_lt.mpr (Nat.le_add_right _ _), rfl⟩

/-- A firing shortly behind the end leaves the window open, and the timer sleeps until the next
start. -/
theorem idle_firing (hpresent : present = k * period + w.finish + minDelay) :
    ¬ present % period + jitter < w.finish ∧
      present + w.nextEdge (present % period) = (k + 1) * period + w.start := by
  have hedges := w.edges
  have hphase : present % period = w.finish + minDelay := by
    rw [hpresent, mod_period (k := k) (by omega) (by simp only [period, minDelay]; omega)]
    omega
  rw [hphase, nextEdge_of_gt (Nat.lt_add_of_pos_right (by decide))
    (by simp only [period, minDelay]; omega), hpresent]
  simp only [period, minDelay]
  omega

/-- The timer fires. It closes the window shortly behind the start, if no acknowledgment was faster,
and opens it at the end. Shortly behind that it fires once more, and then waits for the next
window. -/
theorem Recounts.fire (h : w.Recounts first present present closed log late k)
    (hwidth : w.start + jitter + 2 * minDelay ≤ w.finish)
    (hclosed' : closed' = true ↔
      w.start ≤ present % period + jitter ∧ present % period + jitter < w.finish) :
    ∃ k', w.Recounts first present (present + w.nextEdge (present % period)) closed'
      (log ++ w.extension present closed closed') late k' := by
  have hle := Nat.le_add_right present (w.nextEdge (present % period))
  obtain ⟨hpast', hnext⟩ := h.stage.bounds (Nat.le_refl _)
  cases h.stage with
  | ahead hlow hhigh hpast hopen hlog =>
      obtain ⟨hcloses, hdue⟩ := early_firing hlow hhigh hwidth
      have hstage : w.Stage present (present + w.nextEdge (present % period)) true
          (log ++ [⟨present, w.span⟩]) (late ++ []) k := by
        rw [List.append_nil]
        exact .within (.inr hdue) hlow rfl (hlog.tell hlow hhigh) hlog.2
      have hextended := h.extend
        (fun p hmem => by rw [List.mem_singleton.mp hmem]; exact ⟨hlow, hnext⟩)
        (fun m hmem => absurd hmem List.not_mem_nil) hle hstage
      rw [List.append_nil] at hextended
      rw [hclosed'.mpr hcloses, hopen]
      exact ⟨k, hextended⟩
  | within hdue hpast hclosed hlog hlate =>
      rw [hclosed, extension_of_closed, List.append_nil]
      refine ⟨k, hle, ?_, h.past, h.future⟩
      rcases hdue with hhigh | hend
      · obtain ⟨hcloses, hdue⟩ := early_firing hpast hhigh hwidth
        exact .within (.inr hdue) hpast (hclosed'.mpr hcloses) hlog hlate
      · obtain ⟨hopens, hdue⟩ := final_firing hend
        refine .behind hdue (Nat.le_of_eq hend.symm) hlog fun _ => ?_
        exact ⟨fun hclosed => absurd (hclosed'.mp hclosed).2 hopens, fun hmem => absurd hmem hlate⟩
  | behind hdue hpast hlog hedge =>
      obtain ⟨hopens, hdue'⟩ := idle_firing hdue
      have hopen : closed' = false :=
        eq_false_of_ne_true fun hclosed => hopens (hclosed'.mp hclosed).2
      rw [hopen, extension_of_open, List.append_nil]
      refine ⟨k + 1, hle, ?_, fun j hlt hfirst => ?_, fun j hlt => h.future j (by omega)⟩
      · refine .ahead (Nat.le_of_eq hdue'.symm) ?_ ?_ rfl (h.future (k + 1) (Nat.lt_succ_self k))
        · rw [hdue']
          exact Nat.lt_add_of_pos_right (by decide)
        · rw [hdue, Nat.succ_mul]
          have hdelay : 0 < minDelay := by decide
          omega
      · rcases Nat.lt_succ_iff_lt_or_eq.mp hlt with hlt | rfl
        · exact h.past j hlt hfirst
        · exact hlog

/-- When the next window has started, all is told about one that started behind the adoption. -/
theorem Recounts.told (h : w.Recounts first present due closed log late k) {j : Nat}
    (hfirst : first < j * period + w.start) (hover : (j + 1) * period + w.start ≤ present) :
    w.Told log late j := by
  obtain ⟨-, hnext⟩ := h.stage.bounds h.le_due
  refine h.past j ?_ hfirst
  simp only [period] at *
  omega

/-- A log is empty at the adoption, which comes outside of the handover window. -/
theorem recounts_nil (w : Window) {first : Nat} (hfirst : first < period)
    (hout : w.contains first = false) :
    ∃ k, w.Recounts first first (first + w.nextEdge first) false [] [] k := by
  have hedges := w.edges
  have hnone : ∀ k, w.Untold [] [] k := fun _ => ⟨rfl, List.not_mem_nil⟩
  have hle := Nat.le_add_right first (w.nextEdge first)
  rcases (w.contains_eq_false_iff first).mp hout with hbefore | hafter
  · have hdue : w.start ≤ first + w.nextEdge first ∧
        first + w.nextEdge first < w.start + minDelay := by
      rw [nextEdge_of_lt hbefore]
      simp only [minDelay]
      omega
    refine ⟨0, hle, .ahead ?_ ?_ ?_ rfl (hnone 0), fun j hlt => absurd hlt (Nat.not_lt_zero j),
      fun j _ => hnone j⟩ <;>
      simp only [period] at * <;> omega
  · have hdue : first + w.nextEdge first = period + w.start := by
      rw [nextEdge_of_gt hafter hfirst]
      omega
    refine ⟨1, hle, .ahead ?_ ?_ ?_ rfl (hnone 1), fun j hlt hstart => ?_, fun j _ => hnone j⟩ <;>
      simp only [period, minDelay] at * <;> omega

end Window

end LowOrbit.Handover
