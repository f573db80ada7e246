import LowOrbit.Handover.Window
import Mathlib.Data.List.Chain

/-!
# The switches of a timer that works alone

A timer that works alone and fires exactly on time determines each switch of the gate by the one
before (`Window.following`). The list of them can be written down: one suspension per period, from
the start of the handover window to its end. A window that ends at the handover instant itself is
the exception. The timer takes the phase at which it reopens the gate for one before the handover,
and closes the gate again right after it (`Window.switches`). A log of switches that agrees with the
list has, of every period that is over, exactly the switches of the list
(`Window.Expects.filter`).
-/

namespace LowOrbit.Handover

/-- A switch of the gate: when it happens, counted from the beginning of the period of the
adoption, and whether transmission is suspended from then on. -/
structure Switch where
  moment : Nat
  suspended : Bool
  deriving DecidableEq, Repr

namespace Window

/-- The switch that a timer that works alone makes after another one, if it fires on time. -/
def following (w : Window) (x : Switch) : Switch where
  moment := x.moment + w.nextToggle (x.moment % period) x.suspended
  suspended := !x.suspended

/-- When the gate is closed in a period: at the start of the window. After an adoption at the phase
`first` right before it, the shortest delay comes in between. -/
def closing (w : Window) (first k : Nat) : Nat := max (k * period + w.start) (first + minDelay)

/-- When the gate is opened again: at the end of the window, but not before the shortest delay. -/
def reopening (w : Window) (first k : Nat) : Nat :=
  max (k * period + w.finish) (w.closing first k + minDelay)

/-- The switches in a period: a suspension and, if it ends at the handover instant, another one
that is as short as can be. -/
def switches (w : Window) (first k : Nat) : List Switch :=
  let suspension : List Switch := [⟨w.closing first k, true⟩, ⟨w.reopening first k, false⟩]
  let again : List Switch :=
    [⟨k * period + instant + minDelay, true⟩, ⟨k * period + instant + 2 * minDelay, false⟩]
  if w.reopening first k = k * period + instant then suspension ++ again else suspension

/-- The switches in all periods before a given one. -/
def switchesBefore (w : Window) (first : Nat) : Nat → List Switch
  | 0 => []
  | k + 1 => w.switchesBefore first k ++ w.switches first k

variable {w : Window} {first : Nat}

/-- The gate is closed within a millisecond of the start of the window, and not before it. -/
theorem closing_bounds (hfirst : first < w.start) (k : Nat) :
    k * period + w.start ≤ w.closing first k ∧
      w.closing first k < k * period + w.start + minDelay := by
  simp only [closing, period, minDelay]
  omega

/-- The gate is opened again at the end of the window or a little later, well before the period is
over. -/
theorem reopening_bounds (hfirst : first < w.start) (k : Nat) :
    k * period + w.finish ≤ w.reopening first k ∧
      w.closing first k + minDelay ≤ w.reopening first k ∧
      w.reopening first k + 2 * minDelay ≤ k * period + period := by
  have hedges := w.edges
  have hclosing := closing_bounds hfirst k
  simp only [reopening, period, minDelay] at *
  omega

/-- After an adoption before the window, it is at its very start that the gate is closed from the
next period on. -/
theorem closing_succ (hfirst : first < w.start) (k : Nat) :
    w.closing first (k + 1) = k * period + period + w.start := by
  have hedges := w.edges
  simp only [closing, period, minDelay]
  omega

/-- The phase within a given period. -/
theorem mod_period {k moment : Nat} (hlow : k * period ≤ moment)
    (hhigh : moment < k * period + period) : moment % period = moment - k * period := by
  simp only [period] at *
  omega

/-- A closed gate is opened at the end of the window, but not before the shortest delay. -/
theorem following_of_closed {k moment : Nat} (hlow : k * period ≤ moment)
    (hhigh : moment < k * period + period) :
    w.following ⟨moment, true⟩ = ⟨max (k * period + w.finish) (moment + minDelay), false⟩ := by
  show (⟨moment + w.nextToggle (moment % period) true, false⟩ : Switch) = _
  rw [nextToggle, mod_period hlow hhigh, if_pos rfl]
  congr 1
  omega

/-- A gate that is opened within the window, but not behind the handover instant, is closed after
the shortest delay. -/
theorem following_of_early {k moment : Nat} (hlow : k * period + w.start ≤ moment)
    (hhigh : moment ≤ k * period + instant) :
    w.following ⟨moment, false⟩ = ⟨moment + minDelay, true⟩ := by
  have hperiod : instant < period := by decide
  show (⟨moment + w.nextToggle (moment % period) false, true⟩ : Switch) = _
  rw [nextToggle, mod_period (k := k) (by omega) (by omega), if_neg (by decide),
    if_pos (by omega)]
  congr 1
  omega

/-- A gate that is opened behind the handover instant is closed at the start of the next window. -/
theorem following_of_late {k moment : Nat} (hlow : k * period + instant < moment)
    (hhigh : moment + minDelay ≤ k * period + period) :
    w.following ⟨moment, false⟩ = ⟨k * period + period + w.start, true⟩ := by
  have hmin : 0 < minDelay := by decide
  show (⟨moment + w.nextToggle (moment % period) false, true⟩ : Switch) = _
  rw [nextToggle, mod_period (k := k) (by omega) (by omega), if_neg (by decide),
    if_neg (by omega)]
  congr 1
  omega

/-- From the closing of the gate in one period to that in the next one, each switch follows the one
before. -/
theorem isChain_switches (hfirst : first < w.start) (k : Nat) :
    List.IsChain (fun x y => w.following x = y)
      (w.switches first k ++ [⟨w.closing first (k + 1), true⟩]) := by
  have hedges := w.edges
  obtain ⟨hclose, hclose'⟩ := closing_bounds hfirst k
  have hopen := reopening_bounds hfirst k
  have hfirst' : w.following ⟨w.closing first k, true⟩ = ⟨w.reopening first k, false⟩ :=
    following_of_closed (by omega) (by simp only [period, minDelay] at *; omega)
  unfold switches
  rw [closing_succ hfirst]
  split
  · rename_i hend
    rw [hend] at hfirst' hopen ⊢
    have hsecond : w.following ⟨k * period + instant, false⟩ =
        ⟨k * period + instant + minDelay, true⟩ := following_of_early (by omega) (Nat.le_refl _)
    have hthird : w.following ⟨k * period + instant + minDelay, true⟩ =
        ⟨k * period + instant + 2 * minDelay, false⟩ := by
      rw [following_of_closed (k := k) (by omega) (by simp only [period, instant, minDelay]; omega)]
      congr 1
      omega
    have hlast : w.following ⟨k * period + instant + 2 * minDelay, false⟩ =
        ⟨k * period + period + w.start, true⟩ :=
      following_of_late (by simp only [minDelay]; omega)
        (by simp only [period, instant, minDelay]; omega)
    simp [hfirst', hsecond, hthird, hlast]
  · rename_i hend
    have hlast : w.following ⟨w.reopening first k, false⟩ = ⟨k * period + period + w.start, true⟩ :=
      following_of_late (by simp only [instant] at *; omega) (by omega)
    simp [hfirst', hlast]

/-- In a period, the first switch is the closing of the gate. -/
theorem switches_eq_cons (w : Window) (first k : Nat) :
    ∃ rest, w.switches first k = ⟨w.closing first k, true⟩ :: rest := by
  unfold switches
  split <;> exact ⟨_, rfl⟩

/-- Each switch follows the one before, from period to period. -/
theorem isChain_switchesBefore (hfirst : first < w.start) (n : Nat) :
    List.IsChain (fun x y => w.following x = y)
      (w.switchesBefore first n ++ [⟨w.closing first n, true⟩]) := by
  induction n with
  | zero => exact .singleton _
  | succ k ih =>
      -- The closing of the gate in period `k` belongs to both chains.
      obtain ⟨rest, hrest⟩ := w.switches_eq_cons first k
      have hnext : List.IsChain (fun x y => w.following x = y)
          ([⟨w.closing first k, true⟩] ++ (rest ++ [⟨w.closing first (k + 1), true⟩])) := by
        simpa [hrest] using isChain_switches hfirst k
      have hboth := ih.append_overlap hnext (List.cons_ne_nil _ _)
      rw [switchesBefore, hrest]
      simpa using hboth

/-- The switches in a period happen in that period. -/
theorem moment_of_mem_switches (hfirst : first < w.start) {k : Nat} {x : Switch}
    (hmem : x ∈ w.switches first k) : x.moment / period = k := by
  obtain ⟨hclose, hclose'⟩ := closing_bounds hfirst k
  have hopen := reopening_bounds hfirst k
  have hmoment : x.moment = w.closing first k ∨ x.moment = w.reopening first k ∨
      x.moment = k * period + instant + minDelay ∨
      x.moment = k * period + instant + 2 * minDelay := by
    unfold switches at hmem
    split at hmem <;> simp only [List.mem_append, List.mem_cons, List.not_mem_nil, or_false] at hmem
    · obtain (rfl | rfl) | rfl | rfl := hmem <;> simp
    · obtain rfl | rfl := hmem <;> simp
  have hinstant : instant + 2 * minDelay < period := by decide
  have hrange : k * period ≤ x.moment ∧ x.moment < k * period + period := by omega
  simp only [period] at *
  omega

/-- Of the switches in a period, those that happen in a given one are all or none. -/
theorem filter_switches (hfirst : first < w.start) (n k : Nat) :
    (w.switches first n).filter (·.moment / period = k) =
      if k = n then w.switches first k else [] := by
  split
  · rename_i heq
    subst heq
    exact List.filter_eq_self.mpr fun x hmem => decide_eq_true (moment_of_mem_switches hfirst hmem)
  · rename_i hne
    refine List.filter_eq_nil_iff.mpr fun x hmem => ?_
    rw [moment_of_mem_switches hfirst hmem]
    simpa using Ne.symm hne

/-- The switches that happen in a given period. -/
theorem filter_switchesBefore (hfirst : first < w.start) (n k : Nat) :
    (w.switchesBefore first n).filter (·.moment / period = k) =
      if k < n then w.switches first k else [] := by
  induction n with
  | zero => rfl
  | succ n ih =>
      rw [switchesBefore, List.filter_append, ih, filter_switches hfirst]
      rcases Nat.lt_trichotomy k n with hlt | rfl | hgt
      · rw [if_pos hlt, if_neg (Nat.ne_of_lt hlt), if_pos (Nat.lt_succ_of_lt hlt), List.append_nil]
      · rw [if_neg (Nat.lt_irrefl _), if_pos rfl, if_pos (Nat.lt_succ_self _), List.nil_append]
      · rw [if_neg (Nat.not_lt_of_gt hgt), if_neg (Nat.ne_of_gt hgt),
          if_neg (Nat.not_lt_of_ge hgt), List.append_nil]

/-- The switches before a period happen before it. -/
theorem period_of_mem_switchesBefore (hfirst : first < w.start) {n : Nat} {x : Switch}
    (hmem : x ∈ w.switchesBefore first n) : x.moment / period < n := by
  have hfound : x ∈ (w.switchesBefore first n).filter (·.moment / period = x.moment / period) :=
    List.mem_filter.mpr ⟨hmem, decide_eq_true rfl⟩
  rw [filter_switchesBefore hfirst] at hfound
  split at hfound
  · assumption
  · cases hfound

/-- After the switches of a log comes the switch `x`, as in the list. -/
def Expects (w : Window) (first : Nat) (log : List Switch) (x : Switch) : Prop :=
  ∃ n, log ++ [x] <+: w.switchesBefore first n

variable {log : List Switch} {x : Switch}

/-- An adoption expects the gate to close for the first time. -/
theorem expects_nil (w : Window) (first : Nat) : w.Expects first [] ⟨w.closing first 0, true⟩ := by
  obtain ⟨rest, hrest⟩ := w.switches_eq_cons first 0
  exact ⟨1, rest, hrest.symm⟩

/-- Once the expected switch has happened, the one that follows it is expected. -/
theorem Expects.next (h : w.Expects first log x) (hfirst : first < w.start) :
    w.Expects first (log ++ [x]) (w.following x) := by
  obtain ⟨n, rest, hrest⟩ := h
  obtain ⟨more, hmore⟩ := w.switches_eq_cons first n
  have hchain := isChain_switchesBefore hfirst n
  rw [← hrest, List.append_assoc, List.append_assoc] at hchain
  have hpair := hchain.right_of_append
  cases rest with
  | nil =>
      refine ⟨n + 1, more, ?_⟩
      have hnext : w.following x = ⟨w.closing first n, true⟩ := by simpa using hpair
      rw [switchesBefore, ← hrest, hmore, hnext]
      simp
  | cons y rest =>
      refine ⟨n, rest, ?_⟩
      have hnext : w.following x = y := by
        simp only [List.cons_append, List.nil_append, List.isChain_cons_cons] at hpair
        exact hpair.1
      rw [← hrest, hnext]
      simp

/-- A switch happens before the one that follows it. -/
theorem moment_lt_following (w : Window) (x : Switch) : x.moment < (w.following x).moment :=
  Nat.lt_add_of_pos_right
    (Nat.lt_of_lt_of_le (by decide) (w.minDelay_le_nextToggle (x.moment % period) x.suspended))

/-- The switches that a log has of a period are the first ones of that period, and all of them if
the period is over before the next switch. -/
theorem Expects.filter (h : w.Expects first log x) (hfirst : first < w.start) (k : Nat) :
    log.filter (·.moment / period = k) <+: w.switches first k ∧
      ((k + 1) * period ≤ x.moment →
        log.filter (·.moment / period = k) = w.switches first k) := by
  obtain ⟨n, rest, hrest⟩ := h
  have hlisted := filter_switchesBefore hfirst n k
  rw [← hrest, List.append_assoc, List.filter_append] at hlisted
  refine ⟨?_, fun hover => ?_⟩
  · have hprefix : log.filter (·.moment / period = k) <+:
        if k < n then w.switches first k else [] := ⟨_, hlisted⟩
    split at hprefix
    · exact hprefix
    · rw [List.prefix_nil.mp hprefix]
      exact List.nil_prefix
  -- What is still to come happens after the period.
  · have hlater : ∀ y ∈ [x] ++ rest, x.moment ≤ y.moment := by
      have hchain := (isChain_switchesBefore hfirst n).left_of_append
      rw [← hrest, List.append_assoc] at hchain
      have hascending : ([x] ++ rest).Pairwise fun y z => y.moment < z.moment := by
        refine List.isChain_iff_pairwise.mp (hchain.right_of_append.imp fun y z hyz => ?_)
        rw [← hyz]
        exact w.moment_lt_following y
      intro y hmem
      rcases List.mem_cons.mp hmem with rfl | hmem
      · exact Nat.le_refl _
      · exact Nat.le_of_lt (List.rel_of_pairwise_cons hascending hmem)
    have hnone : ([x] ++ rest).filter (·.moment / period = k) = [] := by
      refine List.filter_eq_nil_iff.mpr fun y hmem => ?_
      have hle := hlater y hmem
      have hne : y.moment / period ≠ k := by
        simp only [period] at *
        omega
      simpa using hne
    have hk : k < n := by
      have hbefore := period_of_mem_switchesBefore (x := x) hfirst (n := n) (by simp [← hrest])
      simp only [period] at *
      omega
    rw [hnone, if_pos hk, List.append_nil] at hlisted
    exact hlisted

end Window

end LowOrbit.Handover
