import LowOrbit.Proofs.Lifecycle

/-!
# Tasks and their holds on the connection

The task of a timer takes hold of the connection when the timer is armed and drops its hold when it
ends (`Session.Drops`). A step takes one hold, drops one, or leaves all of them alone
(`Moment.Step.change`), so in the course of any number of steps every task ends once at most
(`Moment.Course.perm`). The answer of a target ends the task if the target is to stop or if the
timer has been cancelled meanwhile (`Session.drops_endFiring`), and once time has passed, only the
timer of the connection still has a task (`Session.isArmed_run`). The main theorem,
`Session.timers_lifecycle`, says all this of every moment in the life of a session
(`Moment.Orderly`).
-/

namespace LowOrbit

open Timer (Outcome Record ScriptStep Table Target Task)

/-! ## A task ends -/

namespace Session

/-- The task of a timer ends between two sessions. It gives back its hold on the connection, and its
record owes none anymore. Nothing is fired, and nothing happens to other timers. -/
structure Drops (s s' : Session) (id : Nat) : Prop where
  had_task : id ∈ s.timers.taskIds
  mem_taskIds_iff : ∀ other, other ∈ s'.timers.taskIds ↔ other ∈ s.timers.taskIds ∧ other ≠ id
  holders_eq : s.holders = s'.holders + 1
  releasePending_eq : s'.timers.releasePending id = false
  isArmed_eq : (s'.timers.record? id).any Record.isArmed = false
  record?_eq : ∀ other, other ≠ id → s'.timers.record? other = s.timers.record? other
  nextId_eq : s'.timers.nextId = s.timers.nextId
  connection_eq : s'.connection = s.connection
  calls_eq : s'.calls = s.calls

/-- What a step does to the tasks of the timers and to their holds on the connection. -/
inductive HoldsChange (s s' : Session) : Prop where
  /-- No task begins or ends. -/
  | keeps (htasks : s'.timers.taskIds = s.timers.taskIds)
      (hnext : s'.timers.nextId = s.timers.nextId) (hholders : s'.holders = s.holders) :
      HoldsChange s s'
  /-- The task of a new timer begins, and takes hold of the connection. -/
  | takes (htasks : s'.timers.taskIds = s.timers.taskIds ++ [s.timers.nextId])
      (hnext : s'.timers.nextId = s.timers.nextId + 1) (hholders : s'.holders = s.holders + 1) :
      HoldsChange s s'
  /-- The task of a timer ends. -/
  | drops (id : Nat) (hdrops : s.Drops s' id) : HoldsChange s s'

variable {s s' : Session} {locked : Bool} {id : Nat}

/-- A task ends with `Table.endTask`, if its timer is not to fire anymore. What the record says then
is written first. -/
theorem drops_of_timers {current running : Option Nat} (h : s.timers.Sound current running)
    (hmem : id ∈ s.timers.taskIds) {f : Record → Record}
    (hover : ∀ record, s.timers.record? id = some record → (f record).isArmed = false)
    (htimers : s'.timers = (s.timers.update id f).endTask id)
    (hconnection : s'.connection = s.connection) (hcalls : s'.calls = s.calls) :
    s.Drops s' id where
  had_task := hmem
  mem_taskIds_iff other := by
    rw [htimers]
    exact Table.mem_taskIds_endTask
  holders_eq := by
    have hpos : 0 < s.timers.holds := by
      rw [h.holds_eq, ← List.length_map Task.id]
      exact List.length_pos_of_mem hmem
    have hholds : s'.timers.holds = s.timers.holds - 1 := by rw [htimers]; rfl
    simp only [holders, hholds]
    omega
  releasePending_eq := by
    rw [htimers, Table.releasePending, Table.record?_endTask_self]
    cases (s.timers.update id f).record? id <;> rfl
  isArmed_eq := by
    rw [htimers, Table.record?_endTask_self, Table.record?_update_self]
    cases hrecord : s.timers.record? id with
    | none => rfl
    | some record => exact hover record hrecord
  record?_eq other hne := by
    rw [htimers, Table.record?_endTask_of_ne _ _ hne, Table.record?_update_of_ne _ _ hne]
  nextId_eq := by simp [htimers, Table.nextId, Table.endTask, Table.update]
  connection_eq := hconnection
  calls_eq := hcalls

/-- The task of a cancelled timer drops its hold when it ends. -/
theorem drops_endTask {current running : Option Nat} (h : s.timers.Sound current running)
    (hmem : id ∈ s.timers.taskIds) (hcancelled : s.timers.isCancelled id = true) :
    s.Drops (s.endTask id) id := by
  refine drops_of_timers h hmem (f := fun record => record) (fun record hrecord => ?_) ?_ rfl rfl
  · obtain ⟨old, hold, hstatus⟩ := Table.isCancelled_iff.mp hcancelled
    obtain rfl : old = record := Option.some.inj (hold.symm.trans hrecord)
    simp [Record.isArmed, hstatus]
  · rw [Table.update_id]
    rfl

/-- The turn of the task of a cancelled timer does nothing but drop its hold. -/
theorem drops_serveTask {current running : Option Nat} (h : s.timers.Sound current running)
    {task : Task} (hmem : task ∈ s.timers.tasks)
    (hcancelled : s.timers.isCancelled task.id = true) :
    s.Drops (s.serveTask locked task) task.id := by
  rw [serveTask_of_isCancelled hcancelled]
  exact drops_endTask h (List.mem_map_of_mem hmem) hcancelled

/-- A firing that is answered by stopping, or in the course of which the timer was cancelled, is the
last one: the task drops its hold. -/
theorem drops_endFiring (h : Moment.Sound ⟨s, some id⟩) {outcome : Outcome}
    (hlast : outcome = .stop ∨ s.timers.isCancelled id = true) :
    s.Drops (s.endFiring id outcome).1 id := by
  obtain ⟨hmem, record, hrecord, hstatus⟩ := Table.Sound.of_running h
  rcases s.endFiring_cases id outcome with
    ⟨old, delay, hold, hfiring, heq⟩ | ⟨-, f, htimers, hf⟩
  -- The timer is not armed again, neither after a stop nor after a cancellation.
  · rcases hlast with rfl | hcancelled
    · have hnone : (s.endFiring id .stop).2 = none := rfl
      rw [heq] at hnone
      cases hnone
    · simp [Table.isCancelled, hold, hfiring] at hcancelled
  · refine drops_of_timers h hmem (fun other hother => ?_) htimers
      (s.connection_endFiring id outcome) (s.calls_endFiring id outcome)
    obtain rfl : record = other := Option.some.inj (hrecord.symm.trans hother)
    obtain ⟨hfiring, hnot⟩ := hf record hrecord
    rcases hstatus with ⟨hstatus, -⟩ | ⟨hstatus, -⟩
    · simp [Record.isArmed, hfiring hstatus]
    · rw [hnot (by rw [hstatus]; decide)]
      simp [Record.isArmed, hstatus]

/-- Any other answer arms the timer again, and its task goes on. -/
theorem armed_endFiring (h : Moment.Sound ⟨s, some id⟩) {outcome : Outcome}
    (hanswer : outcome ≠ .stop) (hnot : s.timers.isCancelled id = false) :
    (s.endFiring id outcome).1.timers.taskIds = s.timers.taskIds ∧
      (s.endFiring id outcome).1.timers.nextId = s.timers.nextId ∧
      (s.endFiring id outcome).1.timers.status? id = some .armed := by
  obtain ⟨-, record, hrecord, ⟨hfiring, -⟩ | ⟨hcancelled, -⟩⟩ := Table.Sound.of_running h
  · obtain ⟨delay, hdelay⟩ : ∃ delay, delayAfter outcome = some delay := by
      cases outcome with
      | busy => exact ⟨_, rfl⟩
      | rearm delay => exact ⟨_, rfl⟩
      | stop => exact absurd rfl hanswer
    rw [endFiring_of_firing hrecord hfiring hdelay]
    exact ⟨rfl, List.length_modify _ _ _, Table.status?_update_self hrecord _⟩
  · simp [Table.isCancelled, hrecord, hcancelled] at hnot

/-- A task that wakes up begins a firing, unless its timer has been cancelled. -/
theorem beginFiring?_of_mem (h : Moment.Sound ⟨s, none⟩) (hmem : id ∈ s.timers.taskIds)
    (hnot : s.timers.isCancelled id = false) : (s.beginFiring? id).isSome = true := by
  obtain ⟨record, hrecord, hstatus⟩ :=
    (Option.any_eq_true _ _).mp (Table.Sound.isArmed_of_mem h hmem hnot)
  cases hcases : record.status with
  | armed =>
      rw [beginFiring?_of_armed hrecord hcases]
      rfl
  | firing =>
      have hfiring := Table.isFiring_iff.mpr ⟨record, hrecord, hcases⟩
      cases Table.Sound.running_of_isFiring h hfiring
  | idle => simp [Record.isArmed, hcases] at hstatus
  | cancelled => simp [Record.isArmed, hcases] at hstatus

/-! ## A task begins -/

/-- Cancelling the timer of the connection begins and ends no task. -/
theorem taskIds_cancelTimer (s : Session) : s.cancelTimer.timers.taskIds = s.timers.taskIds := by
  rw [Table.taskIds, s.cancelTimer_frame.1]
  rfl

/-- Adopting the algorithm gives the connection a new timer if handover awareness is enabled and a
timer can be armed. -/
theorem timer_adopt_eq_some_iff (s : Session) (target : Target) :
    (s.adopt target).connection.timer = some id ↔
      id = s.timers.nextId ∧ s.connection.schedule.enabled = true ∧
        s.host.timersAvailable = .ok () := by
  have havailable : (s.cancelTimer.host.note s.cancelNotices).timersAvailable =
      s.host.timersAvailable := by
    unfold cancelTimer
    split <;> rfl
  simp only [adopt, note, havailable]
  split
  · rename_i henabled
    have henabled : s.connection.schedule.enabled = true := henabled
    split
    · rename_i hok
      rw [hok, ← s.cancelTimer_frame.2]
      refine ⟨fun h => ⟨(Option.some.inj h).symm, henabled, rfl⟩, ?_⟩
      rintro ⟨rfl, -⟩
      rfl
    · rename_i herror
      rw [herror]
      constructor
      · intro h
        cases h
      · rintro ⟨-, -, h⟩
        cases h
  · rename_i hdisabled
    constructor
    · intro h
      cases h
    · intro h
      exact absurd h.2.1 hdisabled

/-- Adopting the algorithm begins the task of the timer that it arms, if it arms one. -/
theorem taskIds_adopt (s : Session) (target : Target) :
    (s.adopt target).timers.taskIds =
      s.timers.taskIds ++ (s.adopt target).connection.timer.toList := by
  rcases s.adopt_cases target with ⟨heq, htimers⟩ | ⟨heq, htimers⟩ <;> rw [heq, htimers]
  · rw [taskIds_cancelTimer]
    exact (List.append_nil _).symm
  · rw [Table.taskIds_arm, taskIds_cancelTimer, s.cancelTimer_frame.2]
    rfl

/-- If every timer up to now either has a task or is in the list, this is so again after a step that
lengthens the list by the timers whose tasks end. -/
theorem HoldsChange.perm (h : s.HoldsChange s') (hnodup : s.timers.taskIds.Nodup)
    (hnodup' : s'.timers.taskIds.Nodup) {ended : List Nat}
    (hperm : (ended ++ s.timers.taskIds).Perm (List.range s.timers.nextId)) :
    (ended ++ s.timers.taskIds.filter (· ∉ s'.timers.taskIds) ++ s'.timers.taskIds).Perm
      (List.range s'.timers.nextId) := by
  cases h with
  | keeps htasks hnext =>
      have hnil : s.timers.taskIds.filter (· ∉ s'.timers.taskIds) = [] := by simp [htasks]
      rw [hnil, List.append_nil, htasks, hnext]
      exact hperm
  | takes htasks hnext =>
      have hnil : s.timers.taskIds.filter (· ∉ s'.timers.taskIds) = [] := by
        simp +contextual [htasks]
      rw [hnil, List.append_nil, htasks, hnext, List.range_succ, ← List.append_assoc]
      exact hperm.append_right _
  | drops id hdrops =>
      have hsplit : (s.timers.taskIds.filter (· ∉ s'.timers.taskIds) ++ s'.timers.taskIds).Perm
          s.timers.taskIds := by
        refine (List.perm_ext_iff_of_nodup ?_ hnodup).mpr fun other => ?_
        · refine List.nodup_append.mpr ⟨hnodup.filter _, hnodup', fun old hold new hnew heq => ?_⟩
          simp only [List.mem_filter, decide_eq_true_eq] at hold
          exact hold.2 (heq ▸ hnew)
        · simp only [List.mem_append, List.mem_filter, decide_eq_true_eq, hdrops.mem_taskIds_iff]
          tauto
      rw [hdrops.nextId_eq, List.append_assoc]
      exact (hsplit.append_left ended).trans hperm

end Session

namespace Moment

variable {m m' : Moment} {ended : List Nat}

/-- The connection is held by its host and by each task. -/
theorem Sound.holders_eq (h : m.Sound) :
    m.session.holders = 1 + m.session.timers.taskIds.length := by
  rw [Session.holders, Table.Sound.holds_eq h, Table.taskIds, List.length_map]

/-- A step takes a hold on the connection, drops one, or leaves all of them alone. -/
theorem Step.change (hstep : Step m m') (h : m.Sound) : m.session.HoldsChange m'.session := by
  have h' := h.step hstep
  have hkeeps : m'.session.timers.taskIds = m.session.timers.taskIds →
      m'.session.timers.nextId = m.session.timers.nextId →
      m.session.HoldsChange m'.session := by
    intro htasks hnext
    exact .keeps htasks hnext (by rw [h.holders_eq, h'.holders_eq, htasks])
  cases hstep with
  | elsewhere htimers => exact hkeeps (by rw [htimers]) (by rw [htimers])
  | adopt s running target =>
      have htasks := s.taskIds_adopt target
      have hnext : (s.adopt target).timers.nextId =
          s.timers.nextId + (s.adopt target).connection.timer.toList.length := by
        rcases s.adopt_cases target with ⟨heq, htimers⟩ | ⟨heq, htimers⟩ <;> rw [heq, htimers]
        · exact s.cancelTimer_frame.2
        · rw [Table.nextId_arm, s.cancelTimer_frame.2]
          rfl
      cases htimer : (s.adopt target).connection.timer with
      | none =>
          rw [htimer] at htasks hnext
          exact hkeeps (htasks.trans (List.append_nil _)) hnext
      | some id =>
          rw [htimer] at htasks hnext
          obtain ⟨rfl, -⟩ := (s.timer_adopt_eq_some_iff target).mp htimer
          refine .takes htasks hnext ?_
          rw [h.holders_eq, h'.holders_eq, htasks, List.length_append, ← Nat.add_assoc]
          rfl
  | release s running => exact hkeeps s.taskIds_cancelTimer s.cancelTimer_frame.2
  | renew s running => exact hkeeps s.taskIds_cancelTimer s.cancelTimer_frame.2
  | start hbegin =>
      obtain ⟨record, -, -, rfl⟩ := Session.beginFiring?_cases hbegin
      exact hkeeps rfl (List.length_modify _ _ _)
  | finish s id outcome =>
      by_cases hlast : outcome = .stop ∨ s.timers.isCancelled id = true
      · exact .drops id (Session.drops_endFiring h hlast)
      · obtain ⟨hanswer, hnot⟩ := not_or.mp hlast
        obtain ⟨htasks, hnext, -⟩ := Session.armed_endFiring h hanswer (by simpa using hnot)
        exact hkeeps htasks hnext
  | resleep s running id delay target => exact hkeeps (s.timers.taskIds_resleep id _ target) rfl
  | @leave s id htask hnone =>
      -- A task that cannot begin a firing is that of a cancelled timer.
      refine .drops id (Session.drops_endTask h htask ?_)
      by_contra hnot
      have hsome := Session.beginFiring?_of_mem h htask (by simpa using hnot)
      rw [hnone] at hsome
      cases hsome

/-- The course of any number of steps, with the timers whose tasks end, in this order. -/
inductive Course (m : Moment) : List Nat → Moment → Prop where
  | refl : Course m [] m
  | tail {ended : List Nat} {m' m'' : Moment} (hcourse : Course m ended m') (hstep : Step m' m'') :
      Course m (ended ++ m'.session.timers.taskIds.filter (· ∉ m''.session.timers.taskIds)) m''

/-- The course of steps takes steps. -/
theorem Course.steps (h : Course m ended m') : Steps m m' := by
  induction h with
  | refl => exact .refl
  | tail _ hstep ih => exact ih.tail hstep

/-- Steps take their course. -/
theorem Steps.course (hsteps : Steps m m') : ∃ ended, Course m ended m' := by
  induction hsteps with
  | refl => exact ⟨[], .refl⟩
  | tail _ hstep ih =>
      obtain ⟨ended, hcourse⟩ := ih
      exact ⟨_, hcourse.tail hstep⟩

/-- From the beginning, every timer ever armed either still has its task or is listed exactly once
among those whose tasks have ended. -/
theorem Course.perm (hcourse : Course m ended m') (h : m.Sound) (hempty : m.session.timers = {}) :
    (ended ++ m'.session.timers.taskIds).Perm (List.range m'.session.timers.nextId) := by
  induction hcourse with
  | refl =>
      rw [hempty]
      exact .refl _
  | tail hcourse hstep ih =>
      have hbefore := h.steps hcourse.steps
      exact (hstep.change hbefore).perm hbefore.nodup (hbefore.step hstep).nodup ih

end Moment

/-! ## Time passes -/

namespace Session

variable {s : Session} {locked : Bool} {id : Nat}

/-- Ending some tasks leaves those of the other timers. -/
theorem mem_taskIds_foldl_endTask (tasks : List Task) (s : Session) :
    id ∈ (tasks.foldl (fun t task => t.endTask task.id) s).timers.taskIds ↔
      id ∈ s.timers.taskIds ∧ id ∉ tasks.map Task.id := by
  induction tasks generalizing s with
  | nil => simp
  | cons task rest ih =>
      rw [List.foldl_cons, ih, List.map_cons, List.mem_cons, not_or, ← and_assoc]
      exact and_congr_left' Table.mem_taskIds_endTask

/-- No timer with a task has been cancelled, leaving aside the timer `id`. -/
def Live (id : Option Nat) (s : Session) : Prop :=
  ∀ other ∈ s.timers.taskIds, id ≠ some other → s.timers.isCancelled other = false

/-- The tasks of cancelled timers end when time begins to pass. -/
theorem live_reap (s : Session) : s.reap.Live none := by
  intro id hmem _
  obtain ⟨hmem, hnot⟩ := (mem_taskIds_foldl_endTask s.timers.cancelledTasks s).mp hmem
  have hsame : s.reap.timers.isCancelled id = s.timers.isCancelled id :=
    reap_keeps (I := fun t => t.timers.isCancelled id = s.timers.isCancelled id)
      (fun t other ht _ => (isCancelled_endTask t other id).trans ht) rfl
  rw [hsame]
  by_contra hcancelled
  obtain ⟨task, htask, rfl⟩ := List.mem_map.mp hmem
  refine hnot (List.mem_map_of_mem (List.mem_filter.mpr ⟨htask, ?_⟩))
  simpa using hcancelled

/-- Beginning a firing leaves the other timers alone. -/
theorem Live.beginFiring {begun : Session} (hs : s.Live none)
    (hbegin : s.beginFiring? id = some begun) :
    begun.Live (some id) ∧ begun.timers.isFiring id = true := by
  obtain ⟨record, hrecord, -, rfl⟩ := beginFiring?_cases hbegin
  refine ⟨fun other hmem hne => ?_, ?_⟩
  · rw [Table.isCancelled_update_of_ne _ _ (by simpa using Ne.symm hne)]
    exact hs other hmem (by simp)
  · refine Table.isFiring_iff.mpr ⟨{ record with status := .firing }, ?_, rfl⟩
    rw [Table.record?_update_self, hrecord]
    rfl

/-- In the course of a firing, a step of a script cancels no timer but the one that fires. -/
theorem Live.play (h : Moment.Sound ⟨s, some id⟩) (hfiring : s.timers.isFiring id = true)
    (hs : s.Live (some id)) (locked : Bool) (step : ScriptStep) :
    (s.play locked step).2.Live (some id) := by
  -- The timer that fires is that of the connection, so it is the one that a step may cancel.
  have htimer : s.connection.timer = some id :=
    Table.Sound.current_of_isArmed h (Table.isArmed_of_isFiring hfiring)
  have hcancel : s.cancelTimer.Live (some id) := by
    intro other hmem hne
    rw [taskIds_cancelTimer] at hmem
    simp only [cancelTimer, htimer]
    rw [Table.cancel, Table.isCancelled_update_of_ne _ _ (by simpa using Ne.symm hne)]
    exact hs other hmem hne
  cases step with
  | fire =>
      show (s.tryFire locked).2.Live (some id)
      unfold Live
      rw [(s.tryFire_frame locked).2]
      exact hs
  | release => exact hcancel
  | releaseStop => exact hcancel
  | readopt =>
      show (s.adopt .connection).Live (some id)
      unfold Live
      rcases s.adopt_cases .connection with ⟨-, htimers⟩ | ⟨-, htimers⟩ <;> rw [htimers]
      · exact hcancel
      · intro other hmem hne
        rw [Table.taskIds_arm] at hmem
        rw [Table.isCancelled, Table.record?_arm]
        rcases List.mem_append.mp hmem with hold | hnew
        · split
          · rfl
          · exact hcancel other hold hne
        · rw [if_pos (List.mem_singleton.mp hnew)]
          rfl
  | _ => exact hs

/-- At the end of a firing, the timer that fires is armed again, or its task ends. -/
theorem Live.endFiring (h : Moment.Sound ⟨s, some id⟩) (hs : s.Live (some id))
    (outcome : Outcome) : (s.endFiring id outcome).1.Live none := by
  intro other hmem _
  by_cases hsame : other = id
  · subst hsame
    by_cases hlast : outcome = .stop ∨ s.timers.isCancelled other = true
    · exact absurd rfl (((drops_endFiring h hlast).mem_taskIds_iff other).mp hmem).2
    · obtain ⟨hanswer, hnot⟩ := not_or.mp hlast
      have harmed := (armed_endFiring h hanswer (by simpa using hnot)).2.2
      obtain ⟨record, hrecord, hstatus⟩ := Option.map_eq_some_iff.mp harmed
      simp [Table.isCancelled, hrecord, hstatus]
  · obtain ⟨task, htask, rfl⟩ := List.mem_map.mp hmem
    rw [Table.isCancelled, record?_endFiring s outcome hsame]
    exact hs task.id (List.mem_map_of_mem (tasks_endFiring s id outcome task htask))
      (by simpa using Ne.symm hsame)

/-- Going to sleep cancels no timer. -/
theorem Live.resleep (hs : s.Live none) (id delay : Nat) (target : Target) :
    (s.resleep id delay target).Live none := by
  intro other hmem hne
  exact hs other ((s.timers.taskIds_resleep id _ target) ▸ hmem) hne

/-- The end of a task cancels no timer. -/
theorem Live.endTask (hs : s.Live none) (id : Nat) : (s.endTask id).Live none := by
  intro other hmem hne
  rw [isCancelled_endTask]
  exact hs other (Table.mem_taskIds_endTask.mp hmem).1 hne

/-- A firing in the course of which a step of a script is played leaves no cancelled timer with a
task. -/
theorem Live.endFiring_play (h : Moment.Sound ⟨s, some id⟩) (hfiring : s.timers.isFiring id = true)
    (hs : s.Live (some id)) (locked : Bool) (step : ScriptStep) (outcome : Outcome) :
    ((s.play locked step).2.endFiring id outcome).1.Live none :=
  (hs.play h hfiring locked step).endFiring (h.steps (s.steps_play (some id) locked step)) outcome

/-- The turn of a timer that fires the connection leaves no cancelled timer with a task. -/
theorem Live.serveConnection (h : Moment.Sound ⟨s, none⟩) (hs : s.Live none) (locked : Bool)
    (id : Nat) : (s.serveConnection locked id).Live none := by
  unfold Session.serveConnection
  split
  · rename_i begun hbegin
    obtain ⟨hbegun, hfiring⟩ := hs.beginFiring hbegin
    -- A firing of the connection is one of the steps that a script may play.
    have hended := hbegun.endFiring_play (h.step (.start hbegin)) hfiring locked .fire
      (begun.tryFire locked).1
    have hfire : begun.play locked .fire = begun.tryFire locked := rfl
    rw [hfire] at hended
    generalize begun.tryFire locked = answered at hended ⊢
    obtain ⟨outcome, fired⟩ := answered
    rcases heq : fired.endFiring id outcome with ⟨ended, _ | delay⟩ <;> rw [heq] at hended <;>
      simp only [heq]
    · exact hended
    · exact hended.resleep id delay .connection
  · exact hs.endTask id

/-- The turn of a timer with a scripted target leaves no cancelled timer with a task. -/
theorem Live.serveScript (steps : List ScriptStep) (h : Moment.Sound ⟨s, none⟩) (hs : s.Live none)
    (locked : Bool) (id : Nat) : (Session.serveScript locked id steps s).Live none := by
  induction steps generalizing s with
  | nil =>
      unfold Session.serveScript
      split
      · rename_i begun hbegin
        have hbegan : Moment.Sound ⟨begun, some id⟩ := h.step (.start hbegin)
        exact Live.endFiring (s := begun.recordCall .stop) hbegan (hs.beginFiring hbegin).1 .stop
      · exact hs.endTask id
  | cons step rest ih =>
      unfold Session.serveScript
      split
      · rename_i begun hbegin
        obtain ⟨hbegun, hfiring⟩ := hs.beginFiring hbegin
        have hbegan : Moment.Sound ⟨begun, some id⟩ := h.step (.start hbegin)
        have hcalled : Moment.Sound ⟨begun.recordCall step, some id⟩ := hbegan
        have hplayed : Moment.Sound ⟨((begun.recordCall step).play locked step).2, some id⟩ :=
          hcalled.steps ((begun.recordCall step).steps_play (some id) locked step)
        have hended := Live.endFiring_play hcalled hfiring hbegun locked step
          ((begun.recordCall step).play locked step).1
        generalize (begun.recordCall step).play locked step = answered at hplayed hended ⊢
        obtain ⟨outcome, played⟩ := answered
        have hsound := hplayed.step (.finish played id outcome)
        rcases heq : played.endFiring id outcome with ⟨ended, _ | delay⟩ <;>
          rw [heq] at hended hsound <;> simp only [heq]
        · exact hended
        -- Without a delay the script goes on in the same turn.
        · split
          · exact ih hsound hended
          · exact hended.resleep id delay (.script rest)
      · exact hs.endTask id

/-- Once time has passed, only the timer of the connection still has a task, and it is armed. -/
theorem isArmed_run (h : Moment.Sound ⟨s, none⟩) (ms : Nat) (locked : Bool)
    (hmem : id ∈ (s.run ms locked).timers.taskIds) :
    (s.run ms locked).connection.timer = some id ∧
      ((s.run ms locked).timers.record? id).any Record.isArmed = true := by
  have hwakes : Wakes (fun t => Moment.Sound ⟨t, none⟩ ∧ t.Live none) locked
      (s.host.ticker.now + ms) :=
    { moveTo := fun _ _ ht => ht
      serveSync := fun _ ht => ht
      serveTask := fun t task ht htask _ => by
        refine ⟨ht.1.steps (steps_serveTask ht.1 htask), ?_⟩
        unfold Session.serveTask
        split
        · exact ht.2.serveConnection ht.1 locked task.id
        · exact Live.serveScript _ ht.1 ht.2 locked task.id }
  obtain ⟨hsound, hlive⟩ := hwakes.drive (ms + 1) ⟨h.steps (steps_reap h), s.live_reap⟩
  have harmed := Table.Sound.isArmed_of_mem hsound hmem (hlive id hmem (by simp))
  exact ⟨Table.Sound.current_of_isArmed hsound harmed, harmed⟩

end Session

/-! ## At every moment -/

namespace Moment

/-- The timers of a session are in order at a moment, and stay in order from then on. -/
structure Orderly (m : Moment) : Prop where
  /-- One timer at most is armed or firing. -/
  one_armed : ∀ id other, (m.session.timers.record? id).any Record.isArmed = true →
    (m.session.timers.record? other).any Record.isArmed = true → id = other
  /-- A timer says that it is firing while it runs its target, until it is cancelled. -/
  isFiring_iff : ∀ id, m.session.timers.isFiring id = true ↔
    m.running = some id ∧ m.session.timers.isCancelled id = false
  /-- A timer owes the connection a hold while it runs its target although it has been cancelled. -/
  releasePending_iff : ∀ id, m.session.timers.releasePending id = true ↔
    m.running = some id ∧ m.session.timers.isCancelled id = true
  /-- A timer that runs its target still has its task. -/
  running_mem : ∀ id, m.running = some id → id ∈ m.session.timers.taskIds
  /-- The connection is held once by its host and once by each task that has not ended. -/
  holders_eq : m.session.holders = 1 + m.session.timers.tasks.length
  /-- No timer has two tasks. -/
  nodup : m.session.timers.taskIds.Nodup
  /-- A step takes a hold for the task of a new timer, drops that of a task that ends, or leaves the
  tasks alone. -/
  change : ∀ m', Step m m' → m.session.HoldsChange m'.session
  /-- A record owes the connection a hold from a cancellation that hits it during a firing until its
  task ends. -/
  owes_iff : ∀ m', Step m m' → ∀ id, m'.session.timers.releasePending id = true ↔
    id ∈ m'.session.timers.taskIds ∧ (m.session.timers.releasePending id = true ∨
      m.session.timers.isFiring id = true ∧ m'.session.timers.isCancelled id = true)
  /-- An adoption gives the connection a new timer if handover awareness is enabled and a timer can
  be armed, and none otherwise. -/
  arms_iff : ∀ target id, (m.session.adopt target).connection.timer = some id ↔
    id = m.session.timers.nextId ∧ m.session.connection.schedule.enabled = true ∧
      m.session.host.timersAvailable = .ok ()
  /-- An adoption begins the task of the timer that it gives to the connection, and no other. -/
  adopts : ∀ target, (m.session.adopt target).timers.taskIds =
    m.session.timers.taskIds ++ (m.session.adopt target).connection.timer.toList
  /-- A firing is the last one if its target stops the timer, or if the timer has been cancelled,
  whatever the answer is. -/
  ends : ∀ id outcome, m.running = some id →
    outcome = .stop ∨ m.session.timers.isCancelled id = true →
    m.session.Drops (m.session.endFiring id outcome).1 id
  /-- After any other firing the timer is armed again, and keeps its task. -/
  goesOn : ∀ id outcome, m.running = some id →
    outcome ≠ .stop → m.session.timers.isCancelled id = false →
    (m.session.endFiring id outcome).1.timers.taskIds = m.session.timers.taskIds ∧
      (m.session.endFiring id outcome).1.timers.status? id = some .armed
  /-- A task that wakes up begins a firing, unless its timer has been cancelled. -/
  wakes : m.running = none → ∀ id ∈ m.session.timers.taskIds,
    m.session.timers.isCancelled id = false → (m.session.beginFiring? id).isSome = true
  /-- A cancelled timer stays cancelled and begins no firing anymore, and the turn of its task does
  nothing but drop its hold. -/
  cancelled : ∀ m', Steps m m' → ∀ id, m.session.timers.isCancelled id = true →
    m'.session.timers.isCancelled id = true ∧ m'.session.beginFiring? id = none ∧
      ∀ locked, ∀ task ∈ m'.session.timers.tasks, task.id = id →
        m'.session.Drops (m'.session.serveTask locked task) id
  /-- A task that has ended does not come back. -/
  ended : ∀ m', Steps m m' → ∀ id, id < m.session.timers.nextId →
    id ∉ m.session.timers.taskIds → id ∉ m'.session.timers.taskIds
  /-- Once time has passed, only the timer of the connection still has a task, and it is armed. -/
  settles : m.running = none → ∀ ms locked, ∀ id ∈ (m.session.run ms locked).timers.taskIds,
    (m.session.run ms locked).connection.timer = some id ∧
      ((m.session.run ms locked).timers.record? id).any Record.isArmed = true

/-- Sound timers are in order. -/
theorem Sound.orderly {m : Moment} (h : m.Sound) : m.Orderly where
  one_armed id other hid hother := by
    have hcurrent := Table.Sound.current_of_isArmed h hid
    exact Option.some.inj (hcurrent.symm.trans (Table.Sound.current_of_isArmed h hother))
  isFiring_iff := Table.Sound.isFiring_iff h
  releasePending_iff := Table.Sound.releasePending_iff h
  running_mem id hrunning := by
    unfold Sound at h
    rw [hrunning] at h
    exact h.of_running.1
  holders_eq := by rw [h.holders_eq, Table.taskIds, List.length_map]
  nodup := Table.Sound.nodup h
  change m' hstep := hstep.change h
  owes_iff m' hstep := hstep.releasePending_iff h
  arms_iff target _ := m.session.timer_adopt_eq_some_iff target
  adopts target := m.session.taskIds_adopt target
  ends id outcome hrunning hlast := by
    have hfiring : Sound ⟨m.session, some id⟩ := hrunning ▸ h
    exact Session.drops_endFiring hfiring hlast
  goesOn id outcome hrunning hanswer hnot := by
    have hfiring : Sound ⟨m.session, some id⟩ := hrunning ▸ h
    obtain ⟨htasks, -, harmed⟩ := Session.armed_endFiring hfiring hanswer hnot
    exact ⟨htasks, harmed⟩
  wakes hrunning id hmem hnot := by
    have hidle : Sound ⟨m.session, none⟩ := hrunning ▸ h
    exact Session.beginFiring?_of_mem hidle hmem hnot
  cancelled m' hsteps id hid := by
    have hid' := hsteps.later.cancelled id hid
    refine ⟨hid', Session.beginFiring?_of_isCancelled hid', fun locked task hmem htask => ?_⟩
    subst htask
    exact Session.drops_serveTask (h.steps hsteps) hmem hid'
  ended m' hsteps id hlt hended hmem := hended (hsteps.later.ended id hlt hmem)
  settles hrunning ms locked id hmem := by
    have hidle : Sound ⟨m.session, none⟩ := hrunning ▸ h
    exact Session.isArmed_run hidle ms locked hmem

end Moment

namespace Session

open Moment (Course Step Steps)

/-- The life of the timers of a connection, whatever its host and the targets of its timers do. A
new session has none, and every history is a course of steps. In such a course every task ends once
at most, so that each timer ever armed has either its task or is listed once among those whose tasks
have ended. And at every moment the timers are in order (`Moment.Orderly`): one of them at most is
armed or firing, a cancelled one fires no more, the holds on the connection are those of its host
and of the tasks, each task drops its hold when it ends, and a record owes a hold from a
cancellation that hits it during a firing until then. -/
theorem timers_lifecycle {config : Config} {socket : Socket.Edit} {features : Socket.Features}
    {source : TimeSource} {tickerAvailable : Bool} {s : Session}
    (hcreate : create config socket features source tickerAvailable = .ok s) :
    s.timers = {} ∧ (∀ ops, ∃ ended, Course ⟨s, none⟩ ended ⟨s.performAll ops, none⟩) ∧
      ∀ ended m, Course ⟨s, none⟩ ended m →
        (ended ++ m.session.timers.taskIds).Perm (List.range m.session.timers.nextId) ∧
          m.Orderly := by
  have hempty : s.timers = {} := by rw [eq_of_create hcreate]
  have hs : Moment.Sound ⟨s, none⟩ := by
    rw [eq_of_create hcreate]
    exact Table.sound_empty
  refine ⟨hempty, fun ops => (steps_performAll hs ops).course, fun ended m hcourse => ?_⟩
  exact ⟨hcourse.perm hs hempty, (hs.steps hcourse.steps).orderly⟩

/-- The target of the first timer of the example adopts the algorithm anew in the middle of its
firing. There are two tasks then, and the first timer owes the connection a hold. It stays cancelled
for good, and its task drops the hold when the target answers, although the answer is to fire
again. -/
theorem timers_lifecycle_atHandover :
    let begun : Session := { atHandover.adopt (.script [.readopt]) with
      timers := (atHandover.adopt (.script [.readopt])).timers.update 0
        fun _ => { status := .firing } }
    let m : Moment := ⟨begun.adopt .connection, some 0⟩
    let answered := (m.session.endFiring 0 (.rearm 1000000)).1
    (∃ ended, Course ⟨atHandover, none⟩ ended m) ∧
      m.session.holders = 3 ∧ m.session.timers.releasePending 0 = true ∧
      (∀ m', Steps m m' → m'.session.timers.isCancelled 0 = true) ∧
      m.session.Drops answered 0 ∧ answered.holders = 2 := by
  intro begun m answered
  have hsteps : Steps ⟨atHandover, none⟩ m :=
    .tail (.tail (.single (.adopt atHandover none (.script [.readopt]))) (.start (by decide)))
      (.adopt begun (some 0) .connection)
  obtain ⟨ended, hcourse⟩ := hsteps.course
  obtain ⟨-, -, hmoments⟩ := timers_lifecycle create_atHandover
  obtain ⟨-, horderly⟩ := hmoments ended m hcourse
  refine ⟨⟨ended, hcourse⟩, by decide, by decide, fun m' hm' => ?_, ?_, by decide⟩
  · exact (horderly.cancelled m' hm' 0 (by decide)).1
  · exact horderly.ends 0 (.rearm 1000000) rfl (.inr (by decide))

end Session

end LowOrbit
