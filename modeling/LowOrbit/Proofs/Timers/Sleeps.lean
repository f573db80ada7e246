import LowOrbit.Proofs.Lifecycle
import Mathlib.Data.List.Perm.Subperm

/-!
# Sleeps end on time

The ticker moves from the end of one sleep to the end of the next. Whoever is due at a moment has a
turn at that moment, and is gone after it or sleeps on to a later one. So nobody has a turn late,
and nobody is due anymore once time has passed (`Session.OnTime.run`). `Session.OnTime` lists what
has to be checked of a property of sessions for that: it is asked about the turn of a task only at
the very moment at which the sleep of the task ends.
-/

namespace LowOrbit

open Timer (Outcome Record ScriptStep Table Target Task)

/-- A connection never asks its timer to come back at once. -/
theorem Handover.Schedule.nextDelay_pos (sch : Handover.Schedule) (phase : Nat) (closed : Bool) :
    0 < sch.nextDelay phase closed := by
  refine Nat.lt_of_lt_of_le (by decide : 0 < Handover.minDelay) ?_
  unfold nextDelay
  split
  · exact sch.window.minDelay_le_nextToggle phase closed
  · exact sch.window.minDelay_le_nextEdge phase

/-- A connection that is fired stops the timer or asks for a delay. -/
theorem Connection.outcome_fire (c : Connection) (phase : Nat) :
    (c.fire phase).1 = .stop ∨ ∃ delay, 0 < delay ∧ (c.fire phase).1 = .rearm delay := by
  cases htimer : c.timer with
  | none =>
      left
      simp [fire, htimer]
  | some id =>
      simp only [fire, htimer, Handover.Schedule.fire]
      split
      · exact .inr ⟨_, c.schedule.nextDelay_pos phase _, rfl⟩
      · exact .inl rfl

/-- The operation lets time pass. -/
def Operation.TakesTime : Operation → Prop
  | .run _ _ _ => True
  | _ => False

/-- It takes no milliseconds to cover a delay only if there is none. -/
theorem Nanos.coveringMillis_eq_zero_iff {delay : Nat} : coveringMillis delay = 0 ↔ delay = 0 := by
  simp only [coveringMillis]
  omega

namespace Session

/-- The tasks whose sleeps have ended. -/
def pending (s : Session) : List Task :=
  s.timers.tasks.filter (·.sleep.due ≤ s.host.ticker.now)

/-- The sleeps that have ended. -/
def due (s : Session) : List Sleep := s.sleeps.filter (·.due ≤ s.host.ticker.now)

/-- No sleep has ended before now. -/
def Ahead (s : Session) : Prop := ∀ sleep ∈ s.sleeps, s.host.ticker.now ≤ sleep.due

/-- What a turn does to the sleeps: it takes no time, leaves the resynchronization asleep, and makes
no task wait for a turn that did not wait before. -/
structure Passes (s t : Session) : Prop where
  now_eq : t.host.ticker.now = s.host.ticker.now
  sync_eq : t.host.clock.sync = s.host.clock.sync
  pending : t.pending.Sublist s.pending

/-- What the turn of a task does to the sleeps: moreover, the task itself does not wait anymore. -/
structure Serves (s t : Session) (id : Nat) : Prop extends Passes s t where
  served : ∀ task ∈ t.pending, task.id ≠ id

variable {s t : Session} {locked : Bool} {id : Nat}

/-- A sleep is that of the resynchronization or that of a task. -/
theorem mem_sleeps_iff {sleep : Sleep} :
    sleep ∈ s.sleeps ↔
      s.host.clock.sync = some sleep ∨ ∃ task ∈ s.timers.tasks, task.sleep = sleep := by
  simp [sleeps]

/-- The sleeps that have ended are that of the resynchronization, if it has, and those of tasks. -/
theorem due_eq (s : Session) :
    s.due = s.host.clock.sync.toList.filter (·.due ≤ s.host.ticker.now) ++
      s.pending.map Task.sleep := by
  simp only [due, sleeps, pending, List.filter_append, List.filter_map]
  rfl

/-! ## What a turn does to the sleeps -/

/-- Nothing happens. -/
theorem Passes.refl (s : Session) : s.Passes s := ⟨rfl, rfl, .refl _⟩

/-- One thing happens after the other. -/
theorem Passes.trans {u : Session} (h : s.Passes t) (h' : t.Passes u) : s.Passes u where
  now_eq := h'.now_eq.trans h.now_eq
  sync_eq := h'.sync_eq.trans h.sync_eq
  pending := h'.pending.trans h.pending

/-- Something happens that leaves ticker, clock and tasks alone. -/
theorem passes_of_eq (hhost : t.host.ticker = s.host.ticker ∧ t.host.clock = s.host.clock)
    (htasks : t.timers.tasks = s.timers.tasks) : s.Passes t where
  now_eq := by rw [hhost.1]
  sync_eq := by rw [hhost.2]
  pending := by
    rw [Session.pending, Session.pending, htasks, hhost.1]

/-- No sleep has ended before now after something that takes no time. -/
theorem Passes.ahead (h : s.Passes t) (hs : s.Ahead) : t.Ahead := by
  intro sleep hmem
  rw [h.now_eq]
  rcases mem_sleeps_iff.mp hmem with hsync | ⟨task, htask, rfl⟩
  · exact hs sleep (mem_sleeps_iff.mpr (.inl (h.sync_eq ▸ hsync)))
  · refine Nat.le_of_not_lt fun hlt => ?_
    -- A task that should have had its turn is one that waits for it, and did so before.
    have hpending : task ∈ t.pending :=
      List.mem_filter.mpr ⟨htask, by simpa using h.now_eq ▸ Nat.le_of_lt hlt⟩
    have hold : task ∈ s.timers.tasks := (List.mem_filter.mp (h.pending.subset hpending)).1
    exact absurd hlt (Nat.not_lt.mpr (hs _ (mem_sleeps_iff.mpr (.inr ⟨task, hold, rfl⟩))))

/-- Something else happens before a turn. -/
theorem Passes.serves {u : Session} (h : s.Passes t) (h' : t.Serves u id) : s.Serves u id :=
  ⟨h.trans h'.toPasses, h'.served⟩

/-- A task that ends does not wait anymore. -/
theorem serves_endTask (s : Session) (id : Nat) : s.Serves (s.endTask id) id where
  now_eq := rfl
  sync_eq := rfl
  pending := List.Sublist.filter _ List.filter_sublist
  served task hmem := by
    have htask : task ∈ (s.timers.endTask id).tasks := (List.mem_filter.mp hmem).1
    simpa using (List.mem_filter.mp htask).2

/-- A task that goes to sleep for a while does not wait anymore. -/
theorem serves_resleep (s : Session) (id : Nat) {delay : Nat} (target : Target)
    (hdelay : Nanos.coveringMillis delay ≠ 0) : s.Serves (s.resleep id delay target) id := by
  have hlate : ¬ s.host.ticker.now + Nanos.coveringMillis delay ≤ s.host.ticker.now := by omega
  have hpending : (s.resleep id delay target).pending = s.pending.filter (·.id ≠ id) := by
    unfold Session.pending
    show (s.timers.tasks.map _).filter _ = _
    induction s.timers.tasks with
    | nil => rfl
    | cons task rest ih =>
        by_cases hid : task.id = id
        · by_cases hover : task.sleep.due ≤ s.host.ticker.now <;>
            simpa [hid, hover, hlate, resleep, Ticker.sleep, Ticker.slept] using ih
        · by_cases hover : task.sleep.due ≤ s.host.ticker.now <;>
            simpa [hid, hover, resleep, Ticker.slept] using ih
  refine ⟨⟨rfl, rfl, hpending ▸ List.filter_sublist⟩, fun task hmem => ?_⟩
  rw [hpending] at hmem
  simpa using (List.mem_filter.mp hmem).2

/-- Cancelling the timer of the connection leaves the host alone. -/
theorem host_cancelTimer (s : Session) : s.cancelTimer.host = s.host := by
  unfold cancelTimer
  split <;> rfl

/-- Adopting the algorithm takes no time and leaves the clock alone. -/
theorem host_adopt (s : Session) (target : Target) :
    (s.adopt target).host.ticker.now = s.host.ticker.now ∧
      (s.adopt target).host.clock = s.host.clock := by
  simp only [adopt, attach]
  split
  · split <;> simp [note, Host.note, Ticker.slept, host_cancelTimer]
  · simp [note, Host.note, host_cancelTimer]

/-- A new timer sleeps first. -/
theorem passes_adopt (s : Session) (target : Target) : s.Passes (s.adopt target) := by
  obtain ⟨hnow, hclock⟩ := s.host_adopt target
  refine ⟨hnow, by rw [hclock], ?_⟩
  unfold Session.pending
  rw [hnow]
  rcases s.adopt_cases target with ⟨-, htimers⟩ | ⟨-, htimers⟩ <;> rw [htimers]
  · rw [s.cancelTimer_frame.1]
  · have hdelay := (s.adopt target).connection.schedule.nextDelay_pos s.host.phase
      (s.adopt target).connection.link.isClosed
    have hlate : ¬ (s.host.ticker.sleep ((s.adopt target).connection.nextDelay s.host.phase)).due ≤
        s.host.ticker.now := by
      have hpos := mt Nanos.coveringMillis_eq_zero_iff.mp (Nat.pos_iff_ne_zero.mp hdelay)
      simp only [Ticker.sleep, Connection.nextDelay]
      omega
    simp [Table.arm, hlate, s.cancelTimer_frame.1]

/-- Cancelling the timer of the connection takes no time. -/
theorem passes_cancelTimer (s : Session) : s.Passes s.cancelTimer :=
  passes_of_eq (by rw [s.host_cancelTimer]; exact ⟨rfl, rfl⟩) s.cancelTimer_frame.1

/-- Dropping the algorithm takes no time. -/
theorem passes_release (s : Session) : s.Passes s.release :=
  s.passes_cancelTimer.trans (passes_of_eq ⟨rfl, rfl⟩ rfl)

/-- Replacing the congestion control state takes no time. -/
theorem passes_renew (s : Session) : s.Passes s.renew :=
  s.passes_cancelTimer.trans (passes_of_eq ⟨rfl, rfl⟩ rfl)

/-- Firing the connection takes no time. -/
theorem passes_tryFire (s : Session) (locked : Bool) : s.Passes (s.tryFire locked).2 := by
  refine passes_of_eq ?_ (by rw [(s.tryFire_frame locked).2])
  cases locked <;> exact ⟨rfl, rfl⟩

/-- A timer that fires the connection and is to fire again is to do so after a delay. -/
theorem delayAfter_tryFire_ne_zero {delay : Nat}
    (h : delayAfter (s.tryFire locked).1 = some delay) : delay ≠ 0 := by
  cases locked with
  | true =>
      cases h
      decide
  | false =>
      have hfire : delayAfter (s.connection.fire s.host.phase).1 = some delay := h
      rcases s.connection.outcome_fire s.host.phase with hstop | ⟨delay', hpos, hrearm⟩
      · rw [hstop] at hfire
        cases hfire
      · rw [hrearm] at hfire
        cases hfire
        exact Nat.pos_iff_ne_zero.mp hpos

/-- Playing a step of a script takes no time. -/
theorem passes_play (s : Session) (locked : Bool) (step : ScriptStep) :
    s.Passes (s.play locked step).2 := by
  cases step with
  | fire => exact s.passes_tryFire locked
  | release => exact s.passes_release
  | releaseStop => exact s.passes_release
  | readopt => exact s.passes_adopt .connection
  | _ => exact .refl s

/-- The end of a firing takes no time. If the timer is not to fire again, its task ends. -/
theorem passes_endFiring (s : Session) (id : Nat) (outcome : Outcome) :
    s.Passes (s.endFiring id outcome).1 ∧
      ((s.endFiring id outcome).2 = none → s.Serves (s.endFiring id outcome).1 id) := by
  have hupdate : ∀ f, s.Passes { s with timers := s.timers.update id f } :=
    fun f => passes_of_eq ⟨rfl, rfl⟩ rfl
  unfold endFiring
  split
  · have hserves := (hupdate (·.stop)).serves (serves_endTask _ id)
    exact ⟨hserves.toPasses, fun _ => hserves⟩
  · split
    · exact ⟨hupdate _, fun h => nomatch h⟩
    · exact ⟨(s.serves_endTask id).toPasses, fun _ => s.serves_endTask id⟩

/-- A timer that is to fire again got an answer that says so. -/
theorem delayAfter_of_endFiring {ended : Session} {outcome : Outcome} {delay : Nat}
    (h : s.endFiring id outcome = (ended, some delay)) : delayAfter outcome = some delay := by
  unfold endFiring at h
  split at h
  · cases h
  · rename_i delay' hdelay
    split at h
    · cases h
      exact hdelay
    · cases h

/-- The turn of a timer that fires the connection. -/
theorem serves_serveConnection (s : Session) (locked : Bool) (id : Nat) :
    s.Serves (s.serveConnection locked id) id := by
  unfold serveConnection
  split
  · rename_i begun hbegin
    obtain ⟨record, heq⟩ := beginFiring?_frame hbegin
    have hbegun : s.Passes begun := heq ▸ passes_of_eq ⟨rfl, rfl⟩ rfl
    have hfired := hbegun.trans (begun.passes_tryFire locked)
    have hlater : ∀ delay, delayAfter (begun.tryFire locked).1 = some delay → delay ≠ 0 :=
      fun _ => delayAfter_tryFire_ne_zero
    generalize begun.tryFire locked = answered at hfired hlater ⊢
    obtain ⟨outcome, fired⟩ := answered
    obtain ⟨hended, hstopped⟩ := fired.passes_endFiring id outcome
    rcases hend : fired.endFiring id outcome with ⟨ended, _ | delay⟩ <;>
      rw [hend] at hended hstopped <;> simp only [hend]
    · exact hfired.serves (hstopped rfl)
    · have hdelay := mt Nanos.coveringMillis_eq_zero_iff.mp
        (hlater delay (delayAfter_of_endFiring hend))
      exact (hfired.trans hended).serves (ended.serves_resleep id .connection hdelay)
  · exact s.serves_endTask id

/-- The turn of a timer with a scripted target. -/
theorem serves_serveScript (locked : Bool) (id : Nat) (steps : List ScriptStep) (s : Session) :
    s.Serves (serveScript locked id steps s) id := by
  induction steps generalizing s with
  | nil =>
      unfold serveScript
      split
      · rename_i begun hbegin
        obtain ⟨record, heq⟩ := beginFiring?_frame hbegin
        have hcalled : s.Passes (begun.recordCall .stop) := heq ▸ passes_of_eq ⟨rfl, rfl⟩ rfl
        exact hcalled.serves (((begun.recordCall .stop).passes_endFiring id .stop).2 rfl)
      · exact s.serves_endTask id
  | cons step rest ih =>
      unfold serveScript
      split
      · rename_i begun hbegin
        obtain ⟨record, heq⟩ := beginFiring?_frame hbegin
        have hcalled : s.Passes (begun.recordCall step) := heq ▸ passes_of_eq ⟨rfl, rfl⟩ rfl
        have hplayed := hcalled.trans ((begun.recordCall step).passes_play locked step)
        generalize (begun.recordCall step).play locked step = answered at hplayed ⊢
        obtain ⟨outcome, played⟩ := answered
        obtain ⟨hended, hstopped⟩ := played.passes_endFiring id outcome
        rcases hend : played.endFiring id outcome with ⟨ended, _ | delay⟩ <;>
          rw [hend] at hended hstopped <;> simp only [hend]
        · exact hplayed.serves (hstopped rfl)
        -- Without a delay the task stays awake, and the script goes on.
        · split
          · exact (hplayed.trans hended).serves (ih ended)
          · rename_i hdelay
            exact (hplayed.trans hended).serves (ended.serves_resleep id (.script rest) hdelay)
      · exact s.serves_endTask id

/-- The turn of a task. -/
theorem serves_serveTask (s : Session) (locked : Bool) (task : Task) :
    s.Serves (s.serveTask locked task) task.id := by
  unfold serveTask
  split
  · exact s.serves_serveConnection locked task.id
  · exact serves_serveScript locked task.id _ s

/-! ## Everyone in turn -/

/-- If no sleep has ended, all end later. -/
theorem lt_of_due_eq_nil (h : s.due = []) {sleep : Sleep} (hmem : sleep ∈ s.sleeps) :
    s.host.ticker.now < sleep.due := by
  refine Nat.lt_of_not_le fun hle => ?_
  have hdue : sleep ∈ s.due := List.mem_filter.mpr ⟨hmem, by simpa using hle⟩
  rw [h] at hdue
  cases hdue

/-- The turn of the resynchronization takes no time, and it sleeps again after it. -/
theorem due_serveSync {sleep : Sleep} (hdue : sleep.due ≤ s.host.ticker.now) (hahead : s.Ahead)
    (hsync : s.host.clock.sync = some sleep) :
    Ahead { s with host := s.host.serveSync } ∧
      ({ s with host := s.host.serveSync } : Session).due = s.due.erase sleep := by
  have hlate : ¬ s.host.ticker.now + Nanos.coveringMillis syncInterval ≤ s.host.ticker.now := by
    simp [Nanos.coveringMillis, syncInterval]
  constructor
  · intro other hmem
    rcases mem_sleeps_iff.mp hmem with hnew | ⟨task, htask, rfl⟩
    · cases hnew
      exact Nat.le_add_right _ _
    · exact hahead _ (mem_sleeps_iff.mpr (.inr ⟨task, htask, rfl⟩))
  · simp [due_eq, hsync, hdue, hlate, Host.serveSync, Host.scheduleSync, Host.resync, Host.note,
      Ticker.sleep, Ticker.slept, Session.pending]

/-- Serving a sleep that has ended takes no time, and takes it off the sleeps that have ended. -/
theorem due_serveSleep {sleep : Sleep} (hdue : sleep.due ≤ s.host.ticker.now) (hahead : s.Ahead) :
    (serveSleep locked s sleep).host.ticker.now = s.host.ticker.now ∧
      (serveSleep locked s sleep).Ahead ∧
      (serveSleep locked s sleep).due.Subperm (s.due.erase sleep) := by
  unfold serveSleep
  split
  · rename_i hsync
    obtain ⟨hahead', hdue'⟩ := due_serveSync hdue hahead hsync
    exact ⟨rfl, hahead', hdue' ▸ .refl _⟩
  · rename_i hsync
    -- The sleep is not that of the resynchronization, so it is to be found among the tasks.
    have hnot : sleep ∉ s.host.clock.sync.toList.filter (·.due ≤ s.host.ticker.now) := by
      intro hmem
      exact hsync (by simpa using (List.mem_filter.mp hmem).1)
    split
    · rename_i task hfind
      obtain rfl : task.sleep = sleep := by simpa using List.find?_some hfind
      have hserves := s.serves_serveTask locked task
      refine ⟨hserves.now_eq, hserves.ahead hahead, ?_⟩
      have hmem : task ∈ s.pending :=
        List.mem_filter.mpr ⟨List.mem_of_find?_eq_some hfind, by simpa using hdue⟩
      have hrest : (s.serveTask locked task).pending.Sublist (s.pending.erase task) := by
        have hgone : task ∉ s.pending.filter (·.id ≠ task.id) := by simp
        have hsub := hserves.pending.filter (·.id ≠ task.id)
        rw [List.filter_eq_self.mpr fun other hother => by simpa using hserves.served other hother,
          ← List.erase_of_not_mem hgone, List.erase_filter] at hsub
        exact hsub.trans List.filter_sublist
      have hsleeps : ((s.pending.erase task).map Task.sleep).Perm
          ((s.pending.map Task.sleep).erase task.sleep) := by
        have hperm := ((List.perm_cons_erase hmem).map Task.sleep).erase task.sleep
        simpa using hperm.symm
      rw [due_eq, due_eq, hserves.sync_eq, hserves.now_eq, List.erase_append_right _ hnot]
      exact (List.subperm_append_left _).mpr ((hrest.map Task.sleep).subperm.trans hsleeps.subperm)
    · rename_i hnone
      refine ⟨rfl, hahead, ?_⟩
      have hgone : sleep ∉ s.due := by
        rw [due_eq, List.mem_append]
        refine not_or.mpr ⟨hnot, fun hmem => ?_⟩
        obtain ⟨task, htask, hsleep⟩ := List.mem_map.mp hmem
        have hfind := List.find?_eq_none.mp hnone task (List.mem_filter.mp htask).1
        exact hfind (by simpa using hsleep)
      rw [List.erase_of_not_mem hgone]

/-- A property of sessions that every single turn keeps while time passes, where a task has its turn
at the very moment at which its sleep ends. -/
structure OnTime (I : Session → Prop) (locked : Bool) : Prop where
  moveTo : ∀ s moment, I s → I { s with host := s.host.moveTo moment }
  serveSync : ∀ s, I s → I { s with host := s.host.serveSync }
  serveTask : ∀ s task, I s → task ∈ s.timers.tasks →
    task.sleep.due = s.host.ticker.now → I (s.serveTask locked task)

namespace OnTime

variable {I : Session → Prop}

/-- The turn of whoever wakes up now keeps the property. -/
theorem serveSleep (h : OnTime I locked) (hs : I s) {sleep : Sleep}
    (hdue : sleep.due = s.host.ticker.now) : I (serveSleep locked s sleep) := by
  unfold Session.serveSleep
  split
  · exact h.serveSync s hs
  · split
    · rename_i task hfind
      obtain rfl : task.sleep = sleep := by simpa using List.find?_some hfind
      exact h.serveTask s task hs (List.mem_of_find?_eq_some hfind) hdue
    · exact hs

/-- After everyone who wakes up now has had a turn, all sleeps end later. -/
theorem foldl (h : OnTime I locked) {ended : List Sleep} (hs : I s) (hahead : s.Ahead)
    (hnow : ∀ sleep ∈ ended, sleep.due = s.host.ticker.now) (hdue : s.due.Subperm ended) :
    I (ended.foldl (Session.serveSleep locked) s) ∧
      ∀ sleep ∈ (ended.foldl (Session.serveSleep locked) s).sleeps,
        s.host.ticker.now < sleep.due := by
  induction ended generalizing s with
  | nil =>
      have hnil : s.due = [] := List.subperm_nil.mp hdue
      exact ⟨hs, fun sleep => lt_of_due_eq_nil hnil⟩
  | cons sleep rest ih =>
      have hsleep := hnow sleep (by simp)
      obtain ⟨hnow', hahead', hdue'⟩ :=
        @due_serveSleep s locked sleep (Nat.le_of_eq hsleep) hahead
      have hrest : (s.due.erase sleep).Subperm rest := by simpa using hdue.erase sleep
      have hall := ih (h.serveSleep hs hsleep) hahead'
        (fun other hmem => hnow' ▸ hnow other (by simp [hmem])) (hdue'.trans hrest)
      rw [hnow'] at hall
      exact hall

/-- Once everyone has had a turn who wakes up at a moment, all sleeps end later. -/
theorem serve (h : OnTime I locked) (hs : I s) {moment : Nat}
    (hmoment : ∀ sleep ∈ s.sleeps, moment ≤ sleep.due) :
    I (serve locked moment s) ∧ ∀ sleep ∈ (serve locked moment s).sleeps, moment < sleep.due := by
  refine h.foldl (s := { s with host := s.host.moveTo moment }) (h.moveTo s moment hs) hmoment
    (fun sleep hmem => ?_) (List.mergeSort_perm _ _).symm.subperm
  obtain ⟨hsleep, hdue⟩ := List.mem_filter.mp (List.mem_mergeSort.mp hmem)
  have hle : sleep.due ≤ moment := by simpa using hdue
  exact Nat.le_antisymm hle (hmoment sleep hsleep)

/-- Moment after moment up to `last` passes, and all sleeps end after it. There are enough rounds if
one is left for each millisecond from the first end of a sleep to `last`. -/
theorem drive (h : OnTime I locked) {last : Nat} (rounds : Nat) (hs : I s)
    (hrounds : ∀ sleep ∈ s.sleeps, last < rounds + sleep.due) :
    I (Ticker.drive sleeps (Session.serve locked) last rounds s) ∧
      ∀ sleep ∈ (Ticker.drive sleeps (Session.serve locked) last rounds s).sleeps,
        last < sleep.due := by
  induction rounds generalizing s with
  | zero => exact ⟨hs, fun sleep hmem => by simpa using hrounds sleep hmem⟩
  | succ rounds ih =>
      unfold Ticker.drive
      split
      · rename_i moment hnext
        obtain ⟨hmem, hleast⟩ := List.min?_eq_some_iff.mp hnext
        simp only [List.mem_map, List.mem_filter, decide_eq_true_eq] at hmem hleast
        obtain ⟨first, ⟨hfirst, hlast⟩, rfl⟩ := hmem
        have hmoment : ∀ sleep ∈ s.sleeps, first.due ≤ sleep.due := by
          intro sleep hsleep
          rcases Nat.lt_or_ge last sleep.due with hlate | hdue
          · exact Nat.le_trans hlast (Nat.le_of_lt hlate)
          · exact hleast sleep.due ⟨sleep, ⟨hsleep, hdue⟩, rfl⟩
        obtain ⟨hserved, hlater⟩ := h.serve hs hmoment
        refine ih hserved fun sleep hsleep => ?_
        have hfirst' := hrounds first hfirst
        have hsleep' := hlater sleep hsleep
        omega
      · rename_i hnext
        refine ⟨hs, fun sleep hmem => Nat.lt_of_not_le fun hdue => ?_⟩
        have hnil := List.min?_eq_none_iff.mp hnext
        have hsleep : sleep.due ∈ (s.sleeps.filter (·.due ≤ last)).map Sleep.due :=
          List.mem_map_of_mem (List.mem_filter.mpr ⟨hmem, by simpa using hdue⟩)
        rw [hnil] at hsleep
        cases hsleep

/-- Letting time pass keeps the property, if ending the tasks of all cancelled timers does, and all
sleeps end later than what has become of now. -/
theorem run (h : OnTime I locked) (hreap : I s.reap) (hahead : s.Ahead) (ms : Nat) :
    I (s.run ms locked) ∧
      ∀ sleep ∈ (s.run ms locked).sleeps, (s.run ms locked).host.ticker.now < sleep.due := by
  have hpasses : s.Passes s.reap :=
    reap_keeps (I := fun t => s.Passes t)
      (fun t id ht _ => ht.trans (t.serves_endTask id).toPasses) (.refl s)
  have hrounds : ∀ sleep ∈ s.reap.sleeps, s.host.ticker.now + ms < ms + 1 + sleep.due := by
    intro sleep hmem
    have hle := hpasses.ahead hahead sleep hmem
    rw [hpasses.now_eq] at hle
    omega
  obtain ⟨hdriven, hlater⟩ := h.drive (ms + 1) hreap hrounds
  exact ⟨h.moveTo _ _ hdriven, hlater⟩

end OnTime

/-! ## Histories -/

/-- A report that does not let time pass leaves ticker and calls alone, and the clock if it is not
about the clock. -/
theorem host_perform {op : Operation} (hop : op.Reports fun _ => True)
    (hrun : ∀ ms locked onSocket, op ≠ .run ms locked onSocket) (hclock : ∀ o, op ≠ .clock o) :
    (s.perform op).1.host.ticker = s.host.ticker ∧
      (s.perform op).1.host.clock = s.host.clock ∧ (s.perform op).1.calls = s.calls := by
  cases op with
  | adopt target => exact hop.elim
  | release => exact hop.elim
  | renew => exact hop.elim
  | run ms locked onSocket => exact absurd rfl (hrun ms locked onSocket)
  | clock o => exact absurd rfl (hclock o)
  | ack acked times step =>
      exact repeat_keeps (I := fun t => t.host.ticker = s.host.ticker ∧
          t.host.clock = s.host.clock ∧ t.calls = s.calls)
        (f := fun t => (t.mapSocket (·.advance step)).ack acked) (fun t ht => ht) times
        ⟨rfl, rfl, rfl⟩
  | sample x times step =>
      exact repeat_keeps (I := fun t => t.host.ticker = s.host.ticker ∧
          t.host.clock = s.host.clock ∧ t.calls = s.calls)
        (f := fun t => (t.mapSocket (·.advance step)).sample x) (fun t ht => ht) times
        ⟨rfl, rfl, rfl⟩
  | undo apply => cases apply <;> exact ⟨rfl, rfl, rfl⟩
  | callback =>
      simp only [perform]
      split <;> exact ⟨rfl, rfl, rfl⟩
  | fire locked => cases locked <;> exact ⟨rfl, rfl, rfl⟩
  | _ => exact ⟨rfl, rfl, rfl⟩

/-- What an operation on the clock leaves asleep has not ended before now. -/
theorem ahead_clock (hs : s.Ahead) (o : Host.ClockOp) : (s.perform (.clock o)).1.Ahead := by
  have hsame : ∀ h : Host, h.ticker.now = s.host.ticker.now →
      (∀ sleep, h.clock.sync = some sleep →
        s.host.clock.sync = some sleep ∨ s.host.ticker.now ≤ sleep.due) →
      Ahead { s with host := h } := by
    intro h hnow hsync sleep hmem
    show h.ticker.now ≤ sleep.due
    rw [hnow]
    rcases mem_sleeps_iff.mp hmem with hnew | htask
    · rcases hsync sleep hnew with hold | hlater
      · exact hs sleep (mem_sleeps_iff.mpr (.inl hold))
      · exact hlater
    · exact hs sleep (mem_sleeps_iff.mpr (.inr htask))
  cases o with
  | step x => exact hsame _ rfl fun _ => .inl
  | resync => exact hsame _ rfl fun _ => .inl
  | shutdown => exact hsame _ rfl fun _ h => nomatch h
  | start =>
      show Ahead { s with host := s.host.startClock }
      unfold Host.startClock
      split
      · refine hsame _ rfl fun sleep h => .inr ?_
        cases h
        exact Nat.le_add_right _ _
      · exact hs

/-- An operation that neither lets time pass nor is about the clock wakes nobody up. -/
theorem passes_perform {op : Operation} (hrun : ∀ ms locked onSocket, op ≠ .run ms locked onSocket)
    (hclock : ∀ o, op ≠ .clock o) : s.Passes (s.perform op).1 := by
  have hreports : op.Reports (fun _ => True) → s.Passes (s.perform op).1 := by
    intro hreports
    obtain ⟨hticker, hclock', -⟩ := host_perform (s := s) hreports hrun hclock
    exact passes_of_eq ⟨hticker, hclock'⟩ (by rw [(timers_perform hreports hrun).1])
  cases op with
  | adopt target => exact s.passes_adopt target
  | release => exact s.passes_release
  | renew => exact s.passes_renew
  | _ => exact hreports trivial

/-- An operation that does not let time pass makes no task wait for a turn. -/
theorem pending_perform {op : Operation}
    (hrun : ∀ ms locked onSocket, op ≠ .run ms locked onSocket) :
    (s.perform op).1.pending.Sublist s.pending := by
  cases op with
  | clock o =>
      have hnow : (s.host.perform o).ticker.now = s.host.ticker.now := by
        cases o with
        | start =>
            show s.host.startClock.ticker.now = s.host.ticker.now
            unfold Host.startClock
            split <;> rfl
        | _ => rfl
      show (s.timers.tasks.filter (·.sleep.due ≤ (s.host.perform o).ticker.now)).Sublist _
      rw [hnow]
      exact .refl _
  | _ => exact (passes_perform hrun (by simp)).pending

/-- No task waits for a turn once time has passed. -/
theorem pending_run (hs : s.Ahead) (ms : Nat) (locked : Bool) : (s.run ms locked).pending = [] := by
  have htrivial : OnTime (fun _ => True) locked := by constructor <;> intros <;> trivial
  refine List.filter_eq_nil_iff.mpr fun task hmem => ?_
  have hlater := (htrivial.run trivial hs ms).2 _ (mem_sleeps_iff.mpr (.inr ⟨task, hmem, rfl⟩))
  simpa using hlater

/-- Every operation leaves only sleeps that have not ended before now. -/
theorem ahead_perform (hs : s.Ahead) (op : Operation) : (s.perform op).1.Ahead := by
  cases op with
  | run ms locked onSocket =>
      have htrivial : OnTime (fun _ => True) locked := by constructor <;> intros <;> trivial
      have hlater := (htrivial.run trivial hs ms).2
      simp only [perform]
      split <;> exact fun sleep hmem => Nat.le_of_lt (hlater sleep hmem)
  | clock o => exact ahead_clock hs o
  | _ => exact (passes_perform (by simp) (by simp)).ahead hs

/-- No sleep has ever ended before now, whatever the history of a session. -/
theorem ahead_performAll (hs : s.Ahead) (ops : List Operation) : (s.performAll ops).Ahead :=
  Along.performAll (I := Ahead) (fun _ op ht _ => ahead_perform ht op) hs
    (along_of_forall (fun op _ => op.edits_any : ∀ op ∈ ops, op.Edits fun _ => True) s)

/-- A task that does not wait for a turn at first, or has had one because time has passed, does not
wait for one at the end. -/
theorem pending_performAll (hs : s.Ahead) {ops : List Operation}
    (h : (∀ task ∈ s.pending, task.id ≠ id) ∨ ∃ op ∈ ops, op.TakesTime) :
    ∀ task ∈ (s.performAll ops).pending, task.id ≠ id := by
  induction ops generalizing s with
  | nil => exact h.resolve_right (by simp)
  | cons op rest ih =>
      refine ih (ahead_perform hs op) ?_
      by_cases htime : op.TakesTime
      · left
        cases op with
        | run ms locked onSocket =>
            have hnone := pending_run hs ms locked
            have hsame : (s.perform (.run ms locked onSocket)).1.pending = [] := by
              simp only [perform]
              split <;> exact hnone
            simp [hsame]
        | _ => exact htime.elim
      · rcases h with hold | ⟨other, hmem, hother⟩
        · left
          intro task hmem
          refine hold task ((pending_perform fun ms locked onSocket heq => htime ?_).subset hmem)
          rw [heq]
          trivial
        · right
          rcases List.mem_cons.mp hmem with rfl | hrest
          · exact absurd hother htime
          · exact ⟨other, hrest, hother⟩

end Session

end LowOrbit
