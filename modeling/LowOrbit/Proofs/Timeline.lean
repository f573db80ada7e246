import LowOrbit.Host

/-!
# When the clock is resynchronized

A `Timeline` tells from the events of a host alone, without sleeps and bases, when its clock was
resynchronized last: at the creation, when it was asked to, when it was started, and every minute
from the latest start on until a shutdown. It also keeps book of the tasks that resynchronize the
clock. Each start spawns one and aborts the one before; of all these tasks at most one is alive
(`Timeline.Sound.length_live_le`).
-/

namespace LowOrbit

/-! ## Events -/

namespace Host

/-- What can happen to a host that has no connections. -/
inductive Event where
  /-- An operation on the clock. -/
  | clock (op : ClockOp)
  /-- Lets milliseconds pass. -/
  | run (ms : Nat)
  /-- The caller enters a runtime for timers, or leaves it. -/
  | enter (available : Bool)
  deriving DecidableEq, Repr

/-- The host after an event. -/
def handle (h : Host) : Event → Host
  | .clock op => h.perform op
  | .run ms => h.run ms
  | .enter available => { h with ticker := { h.ticker with available := available } }

/-- The host after a list of events. -/
def handleAll (h : Host) (events : List Event) : Host := events.foldl handle h

end Host

/-- The length of a minute in milliseconds, the time between two resynchronizations. -/
def minute : Nat := 60000

/-- The last instant up to `now` that is a whole number of minutes after `start`. -/
def lastMinute (start now : Nat) : Nat := start + minute * ((now - start) / minute)

/-- The minutes that are full at an instant are over by then, and the next one is not. -/
theorem lastMinute_bounds {start now : Nat} (h : start ≤ now) :
    lastMinute start now ≤ now ∧ now < lastMinute start now + minute := by
  simp only [lastMinute, minute]
  omega

/-- If the last full minute is over already, it has been the last one since. -/
theorem lastMinute_eq_of_le {start now later : Nat} (h : start ≤ now) (hle : now ≤ later)
    (hover : lastMinute start later ≤ now) : lastMinute start later = lastMinute start now := by
  simp only [lastMinute, minute] at *
  omega

/-- Until the next minute is full, the last full one stays the same. -/
theorem lastMinute_eq_of_lt {start now later : Nat} (h : start ≤ now) (hle : now ≤ later)
    (hbefore : later < lastMinute start now + minute) :
    lastMinute start later = lastMinute start now := by
  simp only [lastMinute, minute] at *
  omega

/-- When the next minute is full, it is the last full one. -/
theorem lastMinute_next {start now : Nat} :
    lastMinute start (lastMinute start now + minute) = lastMinute start now + minute := by
  simp only [lastMinute, minute]
  omega

/-- A full minute after a start is over at most at the last one. -/
theorem add_mul_le_lastMinute {start k now : Nat} (h : start + minute * k ≤ now) :
    start + minute * k ≤ lastMinute start now := by
  simp only [lastMinute, minute] at *
  omega

/-! ## Tasks -/

/-- A task that resynchronizes the clock every minute after its start, until it is aborted. -/
structure SyncTask where
  id : Nat
  start : Nat
  aborted : Bool := false
  deriving DecidableEq, Repr

/-- All tasks ever spawned to resynchronize a clock, and the one that the clock can abort. -/
structure SyncTasks where
  tasks : List SyncTask := []
  handle : Option Nat := none
  deriving DecidableEq, Repr

namespace SyncTasks

/-- Aborts a task. -/
def abort (t : SyncTasks) (id : Nat) : SyncTasks :=
  { t with tasks := t.tasks.map fun task =>
      if task.id = id then { task with aborted := true } else task }

/-- Aborts the task that the clock knows, if there is one. -/
def abortKnown (t : SyncTasks) : SyncTasks :=
  match t.handle with
  | some id => t.abort id
  | none => t

/-- The task that is spawned next. -/
def newTask (t : SyncTasks) (start : Nat) : SyncTask := { id := t.tasks.length, start := start }

/-- Spawns a task that becomes known to the clock, and aborts the one that it replaces. -/
def spawn (t : SyncTasks) (start : Nat) : SyncTasks :=
  let spawned := { t with tasks := t.tasks ++ [t.newTask start] }
  { spawned.abortKnown with handle := some (t.newTask start).id }

/-- Takes the task from the clock and aborts it. -/
def stop (t : SyncTasks) : SyncTasks := { t.abortKnown with handle := none }

/-- The tasks that have not been aborted. -/
def live (t : SyncTasks) : List SyncTask := t.tasks.filter fun task => !task.aborted

/-- The clock knows all tasks that are alive: none is left if it aborts the one that it knows. -/
structure Sound (t : SyncTasks) : Prop where
  handle_lt : ∀ id, t.handle = some id → id < t.tasks.length
  live_abortKnown : t.abortKnown.live = []

variable {t : SyncTasks}

/-- At first there are no tasks. -/
theorem sound_empty : ({} : SyncTasks).Sound where
  handle_lt _ h := nomatch h
  live_abortKnown := rfl

/-- A stopped clock has no tasks alive. -/
theorem live_stop (h : t.Sound) : t.stop.live = [] := h.live_abortKnown

/-- Stopping a clock leaves its tasks sound. -/
theorem Sound.stop (h : t.Sound) : t.stop.Sound where
  handle_lt _ hid := nomatch hid
  live_abortKnown := h.live_abortKnown

/-- Aborting the known task does not lose any. -/
theorem length_abortKnown (t : SyncTasks) : t.abortKnown.tasks.length = t.tasks.length := by
  unfold abortKnown
  split
  · exact List.length_map _
  · rfl

/-- The new task comes after those that were there, of which the known one has been aborted. -/
theorem tasks_spawn (h : t.Sound) (start : Nat) :
    (t.spawn start).tasks = t.abortKnown.tasks ++ [t.newTask start] := by
  simp only [spawn, abortKnown]
  cases hhandle : t.handle with
  | none => rfl
  | some id =>
      have hne : ¬ (t.newTask start).id = id := Nat.ne_of_gt (h.handle_lt id hhandle)
      simp [abort, hne]

/-- A task that was spawned is the only one alive. -/
theorem live_spawn (h : t.Sound) (start : Nat) :
    (t.spawn start).live = [t.newTask start] := by
  have hbefore : t.abortKnown.tasks.filter (fun task => !task.aborted) = [] := h.live_abortKnown
  rw [live, tasks_spawn h, List.filter_append, hbefore]
  rfl

/-- Spawning a task leaves the tasks sound. -/
theorem Sound.spawn (h : t.Sound) (start : Nat) : (t.spawn start).Sound where
  handle_lt id hid := by
    rw [tasks_spawn h, List.length_append, length_abortKnown, ← Option.some.inj hid]
    exact Nat.lt_succ_self _
  live_abortKnown := by
    have hbefore : ∀ task ∈ t.abortKnown.tasks, task.aborted = true := by
      simpa [live] using h.live_abortKnown
    show ((t.spawn start).tasks.map _).filter _ = []
    rw [tasks_spawn h]
    simp only [List.filter_eq_nil_iff, List.mem_map, List.mem_append, List.mem_singleton]
    rintro _ ⟨task, hold | rfl, rfl⟩
    · split <;> simp [hbefore task hold]
    · rw [if_pos rfl]
      simp

end SyncTasks

/-! ## Timelines -/

/-- What the events of a host say about its clock. Instants are milliseconds of ticker time. -/
structure Timeline where
  now : Nat := 0
  available : Bool
  source : TimeSource
  /-- Whether the clock has been shut down. -/
  stopped : Bool := false
  /-- The latest start of the clock, unless it has been shut down since. -/
  started : Option Nat := none
  tasks : SyncTasks := {}
  /-- The latest resynchronization. -/
  syncTime : Nat := 0
  /-- The source of the clock at that time. -/
  syncSource : TimeSource
  deriving DecidableEq, Repr

namespace Timeline

/-- The beginning: the clock of a new host has just been synchronized. -/
def create (source : TimeSource) (available : Bool) : Timeline where
  available := available
  source := source
  syncSource := source

/-- Whether the clock can be started. -/
def canStart (t : Timeline) : Bool := !t.stopped && t.available

/-- A resynchronization now. -/
def sync (t : Timeline) : Timeline := { t with syncTime := t.now, syncSource := t.source }

/-- The timeline after `ms` milliseconds. If a minute after the latest start is full by then, the
clock is resynchronized at the last one that is. -/
def pass (t : Timeline) (ms : Nat) : Timeline :=
  let later := { t with now := t.now + ms }
  match t.started with
  | some start =>
    if t.now < lastMinute start later.now then
      { later with syncTime := lastMinute start later.now, syncSource := t.source }
    else later
  | none => later

/-- The timeline after an event. -/
def next (t : Timeline) : Host.Event → Timeline
  | .clock (.step s) => { t with source := t.source.step s }
  | .clock .resync => t.sync
  | .clock .shutdown => { t with stopped := true, started := none, tasks := t.tasks.stop }
  | .clock .start =>
    if t.canStart then { t.sync with started := some t.now, tasks := t.tasks.spawn t.now } else t
  | .run ms => t.pass ms
  | .enter available => { t with available := available }

/-- The timeline after a list of events. -/
def nextAll (t : Timeline) (events : List Host.Event) : Timeline := events.foldl next t

/-- The clock is resynchronized at an instant in the course of an event: when it is asked to, when
it is started successfully, and at every full minute after the latest start that has not been
followed by a shutdown. -/
def Syncs (t : Timeline) (instant : Nat) : Host.Event → Prop
  | .clock .resync => instant = t.now
  | .clock .start => t.canStart = true ∧ instant = t.now
  | .run ms =>
    ∃ start k, t.started = some start ∧ 1 ≤ k ∧ instant = start + minute * k ∧
      t.now < instant ∧ instant ≤ t.now + ms
  | _ => False

/-- The latest start and the latest resynchronization are over. A clock in force has one task
alive, which was spawned at the latest start. A clock that is not in force has none. -/
structure Sound (t : Timeline) : Prop where
  started_le : ∀ start, t.started = some start → start ≤ t.now
  syncTime_le : t.syncTime ≤ t.now
  tasks : t.tasks.Sound
  live_eq : t.tasks.live.map SyncTask.start = t.started.toList

variable {t : Timeline}

/-- The beginning of a timeline is sound. -/
theorem sound_create (source : TimeSource) (available : Bool) :
    (create source available).Sound where
  started_le _ h := nomatch h
  syncTime_le := Nat.le_refl _
  tasks := SyncTasks.sound_empty
  live_eq := rfl

/-- Letting time pass changes the time and the latest resynchronization only. -/
theorem pass_frame (t : Timeline) (ms : Nat) :
    ∃ time source,
      t.pass ms = { t with now := t.now + ms, syncTime := time, syncSource := source } := by
  simp only [pass]
  split
  · split
    · exact ⟨_, _, rfl⟩
    · exact ⟨_, _, rfl⟩
  · exact ⟨_, _, rfl⟩

/-- If a minute after the start is full after some time, the clock has been resynchronized at the
last one that is. -/
theorem pass_of_full {start ms : Nat} (hstarted : t.started = some start)
    (hfull : t.now < lastMinute start (t.now + ms)) :
    t.pass ms = { t with
      now := t.now + ms
      syncTime := lastMinute start (t.now + ms)
      syncSource := t.source } := by
  simp only [pass, hstarted, if_pos hfull]

/-- If none is, the clock has been left alone. -/
theorem pass_of_quiet {ms : Nat}
    (hquiet : ∀ start, t.started = some start → lastMinute start (t.now + ms) ≤ t.now) :
    t.pass ms = { t with now := t.now + ms } := by
  simp only [pass]
  split
  · rename_i start hstarted
    rw [if_neg (Nat.not_lt.mpr (hquiet start hstarted))]
  · rfl

/-- Letting time pass leaves a timeline sound. -/
theorem Sound.pass (h : t.Sound) (ms : Nat) : (t.pass ms).Sound := by
  have hlater : ∀ {n}, n ≤ t.now → n ≤ t.now + ms := fun hn =>
    Nat.le_trans hn (Nat.le_add_right _ _)
  have hstarted := fun start hstart => hlater (h.started_le start hstart)
  simp only [Timeline.pass]
  split
  · rename_i start hstart
    split
    · exact ⟨hstarted, (lastMinute_bounds (hstarted start hstart)).1, h.tasks, h.live_eq⟩
    · exact ⟨hstarted, hlater h.syncTime_le, h.tasks, h.live_eq⟩
  · exact ⟨hstarted, hlater h.syncTime_le, h.tasks, h.live_eq⟩

/-- Every event leaves a timeline sound. -/
theorem Sound.next (h : t.Sound) (e : Host.Event) : (t.next e).Sound := by
  cases e with
  | clock op =>
      cases op with
      | step s => exact ⟨h.started_le, h.syncTime_le, h.tasks, h.live_eq⟩
      | resync => exact ⟨h.started_le, Nat.le_refl _, h.tasks, h.live_eq⟩
      | shutdown =>
          refine ⟨?_, h.syncTime_le, h.tasks.stop, ?_⟩
          · exact fun _ hstarted => nomatch hstarted
          · exact congrArg (List.map SyncTask.start) (SyncTasks.live_stop h.tasks)
      | start =>
          simp only [Timeline.next]
          split
          · refine ⟨fun start hstart => ?_, Nat.le_refl _, h.tasks.spawn t.now, ?_⟩
            · exact Nat.le_of_eq (Option.some.inj hstart).symm
            · exact congrArg (List.map SyncTask.start) (SyncTasks.live_spawn h.tasks t.now)
          · exact h
  | run ms => exact h.pass ms
  | enter available => exact ⟨h.started_le, h.syncTime_le, h.tasks, h.live_eq⟩

/-- A timeline is sound after every history. -/
theorem Sound.nextAll (h : t.Sound) (events : List Host.Event) : (t.nextAll events).Sound := by
  induction events generalizing t with
  | nil => exact h
  | cons e rest ih => exact ih (h.next e)

/-- Of all tasks ever spawned, at most one is alive. -/
theorem Sound.length_live_le (h : t.Sound) : t.tasks.live.length ≤ 1 := by
  rw [← List.length_map SyncTask.start, h.live_eq]
  cases t.started <;> simp

/-- A task is alive if and only if the clock is in force. -/
theorem Sound.live_ne_nil_iff (h : t.Sound) : t.tasks.live ≠ [] ↔ t.started.isSome = true := by
  have hlive : t.tasks.live = [] ↔ t.started.toList = [] := by
    rw [← h.live_eq, List.map_eq_nil_iff]
  rw [Ne, hlive]
  cases t.started <;> simp

/-- If a minute after the start is full in the course of some time, the clock is resynchronized at
the last one that is. -/
theorem Sound.syncs_lastMinute (h : t.Sound) {start ms : Nat} (hstarted : t.started = some start)
    (hfull : t.now < lastMinute start (t.now + ms)) :
    t.Syncs (lastMinute start (t.now + ms)) (.run ms) := by
  have hstart := h.started_le start hstarted
  have hbounds := lastMinute_bounds (Nat.le_trans hstart (Nat.le_add_right _ ms))
  refine ⟨start, (t.now + ms - start) / minute, hstarted, ?_, rfl, hfull, hbounds.1⟩
  simp only [lastMinute, minute] at *
  omega

/-- If the clock is resynchronized in the course of an event, the latest resynchronization is the
last one of those. -/
theorem Sound.syncs_next (h : t.Sound) {instant : Nat} {e : Host.Event}
    (hsyncs : t.Syncs instant e) :
    t.Syncs (t.next e).syncTime e ∧ instant ≤ (t.next e).syncTime ∧
      (t.next e).syncSource = t.source := by
  cases e with
  | clock op =>
      cases op with
      | resync => exact ⟨rfl, Nat.le_of_eq hsyncs, rfl⟩
      | start =>
          obtain ⟨hcan, rfl⟩ := hsyncs
          simp only [Timeline.next, hcan, if_true]
          exact ⟨⟨hcan, rfl⟩, Nat.le_refl _, rfl⟩
      | _ => exact hsyncs.elim
  | run ms =>
      obtain ⟨start, k, hstarted, hk, rfl, hafter, hbefore⟩ := hsyncs
      have hlast := add_mul_le_lastMinute hbefore
      have hfull := Nat.lt_of_lt_of_le hafter hlast
      show t.Syncs (t.pass ms).syncTime (.run ms) ∧ _ ≤ (t.pass ms).syncTime ∧
        (t.pass ms).syncSource = t.source
      rw [pass_of_full hstarted hfull]
      exact ⟨h.syncs_lastMinute hstarted hfull, hlast, rfl⟩
  | enter available => exact hsyncs.elim

/-- If the clock is not resynchronized in the course of an event, the latest resynchronization stays
the one that it was. -/
theorem Sound.sync_next_of_not_syncs (h : t.Sound) {e : Host.Event}
    (hnot : ∀ instant, ¬ t.Syncs instant e) :
    (t.next e).syncTime = t.syncTime ∧ (t.next e).syncSource = t.syncSource := by
  cases e with
  | clock op =>
      cases op with
      | resync => exact absurd rfl (hnot t.now)
      | start =>
          have hcan : ¬ t.canStart = true := fun hcan => hnot t.now ⟨hcan, rfl⟩
          simp only [Timeline.next, if_neg hcan]
          exact ⟨trivial, trivial⟩
      | _ => exact ⟨rfl, rfl⟩
  | run ms =>
      have hquiet : ∀ start, t.started = some start → lastMinute start (t.now + ms) ≤ t.now :=
        fun start hstarted => Nat.le_of_not_lt fun hfull =>
          hnot _ (h.syncs_lastMinute hstarted hfull)
      show (t.pass ms).syncTime = _ ∧ (t.pass ms).syncSource = _
      rw [pass_of_quiet hquiet]
      exact ⟨rfl, rfl⟩
  | enter available => exact ⟨rfl, rfl⟩

/-- Letting time pass twice is letting it pass once. -/
theorem Sound.pass_pass (h : t.Sound) (ms ms' : Nat) :
    (t.pass ms).pass ms' = t.pass (ms + ms') := by
  obtain ⟨time, source, hpass⟩ := t.pass_frame ms
  by_cases hlater : ∃ start, t.started = some start ∧
      t.now + ms < lastMinute start (t.now + ms + ms')
  · obtain ⟨start, hstarted, hfull⟩ := hlater
    have hfirst : t.now < lastMinute start (t.now + (ms + ms')) := by
      rw [← Nat.add_assoc]
      exact Nat.lt_of_le_of_lt (Nat.le_add_right _ _) hfull
    have hthen : (t.pass ms).pass ms' = { t.pass ms with
        now := t.now + ms + ms'
        syncTime := lastMinute start (t.now + ms + ms')
        syncSource := t.source } := by
      rw [hpass]
      exact pass_of_full hstarted hfull
    rw [hthen, hpass, pass_of_full hstarted hfirst, Nat.add_assoc]
  · have hquiet : ∀ start, t.started = some start →
        lastMinute start (t.now + ms + ms') ≤ t.now + ms := fun start hstarted =>
      Nat.le_of_not_lt fun hfull => hlater ⟨start, hstarted, hfull⟩
    have hthen : (t.pass ms).pass ms' = { t.pass ms with now := t.now + ms + ms' } := by
      rw [hpass]
      exact pass_of_quiet hquiet
    rw [hthen]
    cases hstarted : t.started with
    | none => simp [Timeline.pass, hstarted, Nat.add_assoc]
    | some start =>
        have hsame := lastMinute_eq_of_le (Nat.le_trans (h.started_le start hstarted)
          (Nat.le_add_right _ ms)) (Nat.le_add_right _ ms') (hquiet start hstarted)
        simp only [Timeline.pass, hstarted, ← Nat.add_assoc, hsame]
        split <;> rfl

/-- The clock has been shut down if and only if a shutdown is among the events. -/
theorem stopped_nextAll (t : Timeline) (events : List Host.Event) :
    (t.nextAll events).stopped = true ↔ t.stopped = true ∨ .clock .shutdown ∈ events := by
  induction events generalizing t with
  | nil => simp [Timeline.nextAll]
  | cons e rest ih =>
      have hnext : (t.next e).stopped = true ↔ t.stopped = true ∨ .clock .shutdown = e := by
        cases e with
        | clock op =>
            cases op with
            | start =>
                simp only [Timeline.next]
                split <;> simp [Timeline.sync]
            | _ => simp [Timeline.next, Timeline.sync]
        | run ms =>
            obtain ⟨time, source, hpass⟩ := t.pass_frame ms
            simp [Timeline.next, hpass]
        | enter available => simp [Timeline.next]
      rw [List.mem_cons, ← or_assoc, ← hnext]
      exact ih (t.next e)

/-- A clock that follows the ticker, and did so at the latest resynchronization. Since the start
only the skew can have changed. -/
structure Simulated (start : Nat) (t : Timeline) : Prop where
  source_eq : ∃ skew, t.source = .simulated start skew
  syncSource_eq : ∃ skew, t.syncSource = .simulated start skew

/-- A clock that follows the ticker goes on to follow it. -/
theorem Simulated.next {start : Nat} (h : t.Simulated start)
    (e : Host.Event) : (t.next e).Simulated start := by
  cases e with
  | clock op =>
      cases op with
      | step s =>
          obtain ⟨skew, hsource⟩ := h.source_eq
          refine ⟨?_, h.syncSource_eq⟩
          show ∃ skew, t.source.step s = .simulated start skew
          rw [hsource]
          cases s <;> exact ⟨_, rfl⟩
      | resync => exact ⟨h.source_eq, h.source_eq⟩
      | shutdown => exact ⟨h.source_eq, h.syncSource_eq⟩
      | start =>
          simp only [Timeline.next]
          split
          · exact ⟨h.source_eq, h.source_eq⟩
          · exact h
  | run ms =>
      simp only [Timeline.next, Timeline.pass]
      split
      · split
        · exact ⟨h.source_eq, h.source_eq⟩
        · exact ⟨h.source_eq, h.syncSource_eq⟩
      · exact ⟨h.source_eq, h.syncSource_eq⟩
  | enter available => exact ⟨h.source_eq, h.syncSource_eq⟩

/-- It does so through every history. -/
theorem Simulated.nextAll {start : Nat} (h : t.Simulated start)
    (events : List Host.Event) : (t.nextAll events).Simulated start := by
  induction events generalizing t with
  | nil => exact h
  | cons e rest ih => exact ih (h.next e)

end Timeline

end LowOrbit
