import LowOrbit.Proofs.Arming
import LowOrbit.Proofs.Soundness
import Mathlib.Logic.Relation

/-!
# The life of a timer

Owner and target of a timer may cancel it at any moment, a firing of it included, and the target may
drop or adopt the algorithm itself. `Moment.Step` takes all this apart into single steps: a firing
begins, something happens in the course of it, it ends with any answer, a task ends. Whatever is
done to a session is a sequence of such steps (`Session.steps_performAll`), and between any two of
them the timers are sound (`Timer.Table.Sound`). What follows for the timers and their tasks is in
`LowOrbit.Proofs.Timers.Holds`.
-/

namespace LowOrbit

open Timer (Outcome Record ScriptStep Status Table Target Task)

/-! ## Firings -/

namespace Session

variable {s begun : Session} {id : Nat}

/-- A firing begins on an armed record, which then says that it is firing. -/
theorem beginFiring?_cases (h : s.beginFiring? id = some begun) :
    ∃ record, s.timers.record? id = some record ∧ record.status = .armed ∧
      begun =
        { s with timers := s.timers.update id fun _ => { record with status := .firing } } := by
  unfold beginFiring? at h
  split at h
  · rename_i fired hfired
    obtain ⟨record, hrecord, hbegin⟩ := Option.bind_eq_some_iff.mp hfired
    unfold Record.beginFiring? at hbegin
    split at hbegin
    · rename_i harmed
      refine ⟨record, hrecord, harmed, ?_⟩
      rw [← Option.some.inj h, ← Option.some.inj hbegin]
    · cases hbegin
  · cases h

/-- A firing ends by arming the record again, or by ending the task once the record does not say
anymore that it is firing. -/
theorem endFiring_cases (s : Session) (id : Nat) (outcome : Outcome) :
    (∃ record delay, s.timers.record? id = some record ∧ record.status = .firing ∧
        s.endFiring id outcome =
          ({ s with timers := s.timers.update id fun _ => { record with status := .armed } },
            some delay)) ∨
      (s.endFiring id outcome).2 = none ∧
        ∃ f : Record → Record,
          (s.endFiring id outcome).1.timers = (s.timers.update id f).endTask id ∧
          ∀ record, s.timers.record? id = some record →
            (record.status = .firing → (f record).status = .idle) ∧
              (record.status ≠ .firing → f record = record) := by
  unfold endFiring
  split
  · refine .inr ⟨rfl, Record.stop, rfl, fun record _ => ⟨fun hfiring => ?_, fun hnot => ?_⟩⟩
    · rw [Record.stop, if_pos hfiring]
    · rw [Record.stop, if_neg hnot]
  · rename_i delay _
    split
    · rename_i armed harmed
      obtain ⟨record, hrecord, hend⟩ := Option.bind_eq_some_iff.mp harmed
      unfold Record.endFiring? at hend
      split at hend
      · rename_i hfiring
        refine .inl ⟨record, delay, hrecord, hfiring, ?_⟩
        rw [← Option.some.inj hend]
      · cases hend
    · rename_i hnone
      refine .inr ⟨rfl, fun record => record, ?_, fun record hrecord =>
        ⟨fun hfiring => ?_, fun _ => rfl⟩⟩
      · rw [Table.update_id]
        rfl
      · rw [hrecord] at hnone
        simp [Record.endFiring?, hfiring] at hnone

end Session

/-! ## Steps -/

/-- A session at a moment, possibly in the middle of a firing. -/
structure Moment where
  session : Session
  /-- The timer that is running its target. -/
  running : Option Nat := none

namespace Moment

/-- One step in the life of the timers of a session. The operations of the host may come at any
moment, also from within the target of a timer. -/
inductive Step : Moment → Moment → Prop where
  /-- Something that leaves the timers alone, such as an acknowledgment or the passing of time. -/
  | elsewhere {s s' : Session} {running : Option Nat} (htimers : s'.timers = s.timers)
      (htimer : s'.connection.timer = s.connection.timer) : Step ⟨s, running⟩ ⟨s', running⟩
  | adopt (s : Session) (running : Option Nat) (target : Target) :
      Step ⟨s, running⟩ ⟨s.adopt target, running⟩
  | release (s : Session) (running : Option Nat) : Step ⟨s, running⟩ ⟨s.release, running⟩
  | renew (s : Session) (running : Option Nat) : Step ⟨s, running⟩ ⟨s.renew, running⟩
  /-- A firing begins. -/
  | start {s begun : Session} {id : Nat} (h : s.beginFiring? id = some begun) :
      Step ⟨s, none⟩ ⟨begun, some id⟩
  /-- The target answers. -/
  | finish (s : Session) (id : Nat) (outcome : Outcome) :
      Step ⟨s, some id⟩ ⟨(s.endFiring id outcome).1, none⟩
  /-- A task goes to sleep. -/
  | resleep (s : Session) (running : Option Nat) (id delay : Nat) (target : Target) :
      Step ⟨s, running⟩ ⟨s.resleep id delay target, running⟩
  /-- A task that wakes up and cannot begin a firing ends. -/
  | leave {s : Session} {id : Nat} (htask : id ∈ s.timers.taskIds) (h : s.beginFiring? id = none) :
      Step ⟨s, none⟩ ⟨s.endTask id, none⟩

/-- Any number of steps. -/
def Steps : Moment → Moment → Prop := Relation.ReflTransGen Step

/-- The timers are sound at a moment. -/
def Sound (m : Moment) : Prop := m.session.timers.Sound m.session.connection.timer m.running

variable {m m' : Moment}

/-- Without its timer the connection has no armed one. -/
theorem sound_cancelTimer {s : Session} {running : Option Nat}
    (h : s.timers.Sound s.connection.timer running) : s.cancelTimer.timers.Sound none running := by
  unfold Session.cancelTimer
  cases htimer : s.connection.timer with
  | none =>
      rw [htimer] at h
      exact h
  | some id =>
      rw [htimer] at h
      exact h.cancel

/-- Every step leaves the timers sound. -/
theorem Sound.step (h : m.Sound) (hstep : Step m m') : m'.Sound := by
  cases hstep with
  | elsewhere htimers htimer =>
      unfold Sound
      rw [htimers, htimer]
      exact h
  | adopt s running target =>
      have hcancelled := sound_cancelTimer h
      unfold Sound
      rcases s.adopt_cases target with ⟨heq, htimers⟩ | ⟨heq, htimers⟩ <;> rw [heq, htimers]
      · exact hcancelled
      · have harmed := hcancelled.arm
          (s.host.ticker.sleep ((s.adopt target).connection.nextDelay s.host.phase)) target
        rw [s.cancelTimer_frame.2] at harmed
        exact harmed
  | release s running => exact sound_cancelTimer h
  | renew s running => exact sound_cancelTimer h
  | @start s begun id hbegin =>
      obtain ⟨record, hrecord, harmed, rfl⟩ := Session.beginFiring?_cases hbegin
      refine h.update (fun _ _ => Iff.rfl) (fun other hne => ?_) (fun _ => ?_) fun old hold => ?_
      · simpa using Ne.symm hne
      · exact Table.lt_nextId hrecord
      · obtain rfl : record = old := Option.some.inj (hrecord.symm.trans hold)
        have hfits := h.fits id record hrecord
        simp_all [Record.Fits]
  | finish s id outcome =>
      have hrunning : s.timers.Sound s.connection.timer (some id) := h
      obtain ⟨htask, record, hrecord, hstatus⟩ := hrunning.of_running
      unfold Sound
      rcases s.endFiring_cases id outcome with
        ⟨old, delay, hold, hfiring, heq⟩ | ⟨-, f, htimers, hf⟩
      · obtain rfl : record = old := Option.some.inj (hrecord.symm.trans hold)
        rw [heq]
        refine hrunning.update (fun _ _ => Iff.rfl) (fun other hne => ?_) (fun hnone => ?_)
          fun other hother => ?_
        · simpa using Ne.symm hne
        · cases hnone
        · obtain rfl : record = other := Option.some.inj (hrecord.symm.trans hother)
          simp_all [Record.Fits]
      · rw [htimers, s.connection_endFiring]
        refine hrunning.endTask (fun other hne => ?_) htask fun old hold => ?_
        · simpa using Ne.symm hne
        · obtain rfl : record = old := Option.some.inj (hrecord.symm.trans hold)
          obtain ⟨hfiring, hnot⟩ := hf record hrecord
          rcases hstatus with ⟨hstatus, -⟩ | ⟨hstatus, -⟩
          · exact .inl (hfiring hstatus)
          · rw [hnot (by rw [hstatus]; decide)]
            exact .inr hstatus
  | resleep s running id delay target => exact h.resleep id _ target
  | @leave s id htask hnone =>
      have hidle : s.timers.Sound s.connection.timer none := h
      show (s.timers.endTask id).Sound s.connection.timer none
      rw [← s.timers.update_id id]
      refine hidle.endTask (fun other _ hnone => ?_) htask fun record hrecord => ?_
      · cases hnone
      have hfits := hidle.fits id record hrecord
      unfold Record.Fits at hfits
      split at hfits
      · rename_i hstatus
        exact .inl hstatus
      · rename_i harmed
        rw [Session.beginFiring?_of_armed hrecord harmed] at hnone
        cases hnone
      · cases hfits.2.1
      · rename_i hstatus
        exact .inr hstatus

/-- Cancelling the timer of the connection makes the timers later. -/
theorem later_cancelTimer (s : Session) : s.timers.Later s.cancelTimer.timers := by
  unfold Session.cancelTimer
  split
  · exact Table.later_update fun _ _ _ => rfl
  · exact .refl _

/-- Every step makes the timers later. -/
theorem Step.later (hstep : Step m m') : m.session.timers.Later m'.session.timers := by
  cases hstep with
  | elsewhere htimers => exact htimers ▸ .refl _
  | adopt s running target =>
      show s.timers.Later (s.adopt target).timers
      rcases s.adopt_cases target with ⟨-, htimers⟩ | ⟨-, htimers⟩ <;> rw [htimers]
      · exact later_cancelTimer s
      · exact (later_cancelTimer s).trans (Table.later_arm _ _ _)
  | release s running => exact later_cancelTimer s
  | renew s running => exact later_cancelTimer s
  | @start s begun id hbegin =>
      obtain ⟨record, hrecord, harmed, rfl⟩ := Session.beginFiring?_cases hbegin
      refine Table.later_update fun old hold hcancelled => ?_
      obtain rfl : record = old := Option.some.inj (hrecord.symm.trans hold)
      rw [harmed] at hcancelled
      cases hcancelled
  | finish s id outcome =>
      show s.timers.Later (s.endFiring id outcome).1.timers
      rcases s.endFiring_cases id outcome with
        ⟨record, delay, hrecord, hfiring, heq⟩ | ⟨-, f, htimers, hf⟩
      · rw [heq]
        refine Table.later_update fun old hold hcancelled => ?_
        obtain rfl : record = old := Option.some.inj (hrecord.symm.trans hold)
        rw [hfiring] at hcancelled
        cases hcancelled
      · rw [htimers]
        refine (Table.later_update fun old hold hcancelled => ?_).trans (Table.later_endTask _ _)
        rw [(hf old hold).2 (by rw [hcancelled]; decide)]
        exact hcancelled
  | resleep s running id delay target =>
      refine ⟨Nat.le_refl _, fun _ h => h, fun other _ hmem => ?_⟩
      rw [← s.timers.taskIds_resleep id (s.host.ticker.sleep delay) target]
      exact hmem
  | leave => exact Table.later_endTask _ _

/-- A step begins a firing, ends one, or leaves the firing under way alone. -/
theorem Step.running_cases (hstep : Step m m') :
    m'.running = m.running ∨
      (∃ id, m.running = none ∧ m'.running = some id ∧ m'.session.timers.isCancelled id = false) ∨
      ∃ id, m.running = some id ∧ m'.running = none ∧
        (id ∉ m'.session.timers.taskIds ∨ m'.session.timers.isCancelled id = false) := by
  cases hstep with
  | @start s begun id hbegin =>
      obtain ⟨record, hrecord, harmed, rfl⟩ := Session.beginFiring?_cases hbegin
      refine .inr (.inl ⟨id, rfl, rfl, ?_⟩)
      simp [Table.isCancelled, Table.record?_update_self, hrecord]
  | finish s id outcome =>
      refine .inr (.inr ⟨id, rfl, rfl, ?_⟩)
      rcases s.endFiring_cases id outcome with
        ⟨record, delay, hrecord, hfiring, heq⟩ | ⟨-, f, htimers, hf⟩
      · rw [heq]
        refine .inr ?_
        simp [Table.isCancelled, Table.record?_update_self, hrecord]
      · rw [htimers]
        exact .inl (Table.notMem_taskIds_endTask _ id)
  | _ => exact .inl rfl

/-- A record owes the connection a hold from a cancellation that hits it during a firing until its
task ends. -/
theorem Step.releasePending_iff (hstep : Step m m') (h : m.Sound) (id : Nat) :
    m'.session.timers.releasePending id = true ↔
      id ∈ m'.session.timers.taskIds ∧ (m.session.timers.releasePending id = true ∨
        m.session.timers.isFiring id = true ∧ m'.session.timers.isCancelled id = true) := by
  have h' := h.step hstep
  rw [h'.releasePending_iff, h.releasePending_iff]
  constructor
  · rintro ⟨hrunning', hcancelled'⟩
    unfold Sound at h h'
    rw [hrunning'] at h'
    refine ⟨h'.of_running.1, ?_⟩
    rcases hstep.running_cases with hsame | ⟨other, -, hother, hnot⟩ | ⟨other, -, hother, -⟩
    · have hrunning : m.running = some id := hsame.symm.trans hrunning'
      rw [hrunning] at h
      obtain ⟨-, record, hrecord, ⟨hfiring, -⟩ | ⟨hcancelled, -⟩⟩ := h.of_running
      · exact .inr ⟨Table.isFiring_iff.mpr ⟨record, hrecord, hfiring⟩, hcancelled'⟩
      · exact .inl ⟨hrunning, Table.isCancelled_iff.mpr ⟨record, hrecord, hcancelled⟩⟩
    -- A firing that has just begun has not been cancelled.
    · obtain rfl : other = id := Option.some.inj (hother.symm.trans hrunning')
      rw [hcancelled'] at hnot
      cases hnot
    · rw [hother] at hrunning'
      cases hrunning'
  · rintro ⟨htask, hbefore⟩
    have hboth : m.running = some id ∧ m'.session.timers.isCancelled id = true := by
      rcases hbefore with ⟨hrunning, hcancelled⟩ | ⟨hfiring, hcancelled'⟩
      · exact ⟨hrunning, hstep.later.cancelled id hcancelled⟩
      · exact ⟨h.running_of_isFiring hfiring, hcancelled'⟩
    refine ⟨?_, hboth.2⟩
    rcases hstep.running_cases with hsame | ⟨other, hother, -⟩ | ⟨other, hother, -, hended⟩
    · exact hsame.trans hboth.1
    · rw [hboth.1] at hother
      cases hother
    -- The end of a cancelled firing is the end of the task.
    · obtain rfl : other = id := Option.some.inj (hother.symm.trans hboth.1)
      rcases hended with hgone | hnot
      · exact absurd htask hgone
      · rw [hboth.2] at hnot
        cases hnot

/-- The timers stay sound. -/
theorem Sound.steps (h : m.Sound) (hsteps : Steps m m') : m'.Sound := by
  induction hsteps with
  | refl => exact h
  | tail _ hstep ih => exact ih.step hstep

/-- The timers at a later moment are later. -/
theorem Steps.later (hsteps : Steps m m') : m.session.timers.Later m'.session.timers := by
  induction hsteps with
  | refl => exact .refl _
  | tail _ hstep ih => exact ih.trans hstep.later

end Moment

/-! ## Sessions take steps -/

namespace Session

open Moment (Step Steps)

variable {s : Session} {locked : Bool} {id : Nat}

/-- A cancelled timer begins no firing. -/
theorem beginFiring?_of_isCancelled (h : s.timers.isCancelled id = true) :
    s.beginFiring? id = none := by
  obtain ⟨record, hrecord, hcancelled⟩ := Table.isCancelled_iff.mp h
  simp [beginFiring?, hrecord, Record.beginFiring?, hcancelled]

/-- The task of a timer that begins no firing ends when it wakes up, without firing the target. -/
theorem serveTask_of_beginFiring? {task : Task} (h : s.beginFiring? task.id = none) :
    s.serveTask locked task = s.endTask task.id := by
  unfold serveTask
  split
  · unfold serveConnection
    rw [h]
  · rename_i steps _
    cases steps <;> (unfold serveScript; rw [h])

/-- The task of a cancelled timer ends when it wakes up, without firing the target. -/
theorem serveTask_of_isCancelled {task : Task} (h : s.timers.isCancelled task.id = true) :
    s.serveTask locked task = s.endTask task.id :=
  serveTask_of_beginFiring? (beginFiring?_of_isCancelled h)

/-- A firing of the connection leaves the timers alone. -/
theorem step_tryFire (s : Session) (running : Option Nat) (locked : Bool) :
    Step ⟨s, running⟩ ⟨(s.tryFire locked).2, running⟩ :=
  .elsewhere (s.tryFire_frame locked).2 (s.timer_tryFire locked)

/-- Playing a step of a script takes steps. -/
theorem steps_play (s : Session) (running : Option Nat) (locked : Bool) (step : ScriptStep) :
    Steps ⟨s, running⟩ ⟨(s.play locked step).2, running⟩ := by
  cases step with
  | rearm delay => exact .refl
  | busy => exact .refl
  | stop => exact .refl
  | fire => exact .single (s.step_tryFire running locked)
  | release => exact .single (.release s running)
  | releaseStop => exact .single (.release s running)
  | readopt => exact .single (.adopt s running .connection)

/-- The turn of a timer that fires the connection takes steps. -/
theorem steps_serveConnection (htask : id ∈ s.timers.taskIds) :
    Steps ⟨s, none⟩ ⟨s.serveConnection locked id, none⟩ := by
  unfold serveConnection
  split
  · rename_i begun hbegin
    have hfired : Steps ⟨s, none⟩ ⟨(begun.tryFire locked).2, some id⟩ :=
      .tail (.single (.start hbegin)) (begun.step_tryFire _ locked)
    generalize begun.tryFire locked = answered at hfired ⊢
    obtain ⟨outcome, fired⟩ := answered
    have hended : Steps ⟨s, none⟩ ⟨(fired.endFiring id outcome).1, none⟩ :=
      .tail hfired (.finish fired id outcome)
    rcases heq : fired.endFiring id outcome with ⟨ended, _ | delay⟩ <;> rw [heq] at hended <;>
      simp only [heq]
    · exact hended
    · exact .tail hended (.resleep ended none id delay .connection)
  · rename_i hnone
    exact .single (.leave htask hnone)

/-- A timer that is to fire again still has its task. -/
theorem mem_taskIds_of_endFiring {ended : Session} {outcome : Outcome} {delay : Nat}
    (hended : s.endFiring id outcome = (ended, some delay)) (h : Moment.Sound ⟨ended, none⟩) :
    id ∈ ended.timers.taskIds := by
  rcases s.endFiring_cases id outcome with ⟨record, _, hrecord, -, heq⟩ | ⟨hnone, -⟩
  · have hsame : ended =
        { s with timers := s.timers.update id fun _ => { record with status := .armed } } :=
      congrArg Prod.fst (hended.symm.trans heq)
    have harmed : ended.timers.record? id = some { record with status := .armed } := by
      rw [hsame, Table.record?_update_self, hrecord]
      rfl
    exact (h.fits id _ harmed).2.2.1
  · rw [hended] at hnone
    cases hnone

/-- The turn of a timer with a scripted target takes steps. -/
theorem steps_serveScript (steps : List ScriptStep) (h : Moment.Sound ⟨s, none⟩)
    (htask : id ∈ s.timers.taskIds) : Steps ⟨s, none⟩ ⟨serveScript locked id steps s, none⟩ := by
  induction steps generalizing s with
  | nil =>
      unfold serveScript
      split
      · rename_i begun hbegin
        have hcalled : Steps ⟨s, none⟩ ⟨begun.recordCall .stop, some id⟩ :=
          .tail (.single (.start hbegin)) (.elsewhere rfl rfl)
        exact .tail hcalled (.finish _ id .stop)
      · rename_i hnone
        exact .single (.leave htask hnone)
  | cons step rest ih =>
      unfold serveScript
      split
      · rename_i begun hbegin
        have hcalled : Steps ⟨s, none⟩ ⟨begun.recordCall step, some id⟩ :=
          .tail (.single (.start hbegin)) (.elsewhere rfl rfl)
        have hplayed := hcalled.trans ((begun.recordCall step).steps_play (some id) locked step)
        generalize (begun.recordCall step).play locked step = answered at hplayed ⊢
        obtain ⟨outcome, played⟩ := answered
        have hended : Steps ⟨s, none⟩ ⟨(played.endFiring id outcome).1, none⟩ :=
          .tail hplayed (.finish played id outcome)
        rcases heq : played.endFiring id outcome with ⟨ended, _ | delay⟩ <;> rw [heq] at hended <;>
          simp only [heq]
        · exact hended
        -- Without a delay the script goes on in the same turn.
        · split
          · have hsound := h.steps hended
            exact hended.trans (ih hsound (mem_taskIds_of_endFiring heq hsound))
          · exact .tail hended (.resleep ended none id delay (.script rest))
      · rename_i hnone
        exact .single (.leave htask hnone)

/-- The turn of a timer takes steps. -/
theorem steps_serveTask {task : Task} (h : Moment.Sound ⟨s, none⟩) (hmem : task ∈ s.timers.tasks) :
    Steps ⟨s, none⟩ ⟨s.serveTask locked task, none⟩ := by
  have htask : task.id ∈ s.timers.taskIds := List.mem_map_of_mem hmem
  unfold serveTask
  split
  · exact steps_serveConnection htask
  · exact steps_serveScript _ h htask

/-- Ending the tasks of all cancelled timers takes steps. -/
theorem steps_reap (h : Moment.Sound ⟨s, none⟩) : Steps ⟨s, none⟩ ⟨s.reap, none⟩ := by
  have hall : ∀ tasks : List Task, (tasks.map Task.id).Nodup → ∀ t : Session,
      (∀ task ∈ tasks, task.id ∈ t.timers.taskIds ∧ t.timers.isCancelled task.id = true) →
      Steps ⟨t, none⟩ ⟨tasks.foldl (fun t task => t.endTask task.id) t, none⟩ := by
    intro tasks
    induction tasks with
    | nil => exact fun _ _ _ => .refl
    | cons task rest ih =>
        intro hnodup t htasks
        obtain ⟨hnew, hnodup⟩ := List.nodup_cons.mp hnodup
        obtain ⟨htask, hcancelled⟩ := htasks task (by simp)
        refine .head (.leave htask (beginFiring?_of_isCancelled hcancelled))
          (ih hnodup (t.endTask task.id) fun other hother => ?_)
        obtain ⟨hmem, hcancelled'⟩ := htasks other (by simp [hother])
        -- The rest are tasks of other timers, and none of them is affected.
        refine ⟨Table.mem_taskIds_endTask.mpr ⟨hmem, fun heq => ?_⟩, ?_⟩
        · exact hnew (heq ▸ List.mem_map_of_mem hother)
        · rw [isCancelled_endTask]
          exact hcancelled'
  refine hall _ ?_ s fun task hmem => ?_
  · exact (List.filter_sublist.map Task.id).nodup h.nodup
  · obtain ⟨hmem, hcancelled⟩ := List.mem_filter.mp hmem
    exact ⟨List.mem_map_of_mem hmem, hcancelled⟩

/-- Letting time pass takes steps. -/
theorem steps_run (h : Moment.Sound ⟨s, none⟩) (ms : Nat) (locked : Bool) :
    Steps ⟨s, none⟩ ⟨s.run ms locked, none⟩ := by
  have hwakes : Wakes (fun t => Steps ⟨s, none⟩ ⟨t, none⟩) locked (s.host.ticker.now + ms) :=
    { moveTo := fun t moment ht => .tail ht (.elsewhere rfl rfl)
      serveSync := fun t ht => .tail ht (.elsewhere rfl rfl)
      serveTask := fun t task ht hmem _ => ht.trans (steps_serveTask (h.steps ht) hmem) }
  exact .tail (hwakes.drive (ms + 1) (steps_reap h)) (.elsewhere rfl rfl)

/-- Every operation takes steps. -/
theorem steps_perform (h : Moment.Sound ⟨s, none⟩) (op : Operation) :
    Steps ⟨s, none⟩ ⟨(s.perform op).1, none⟩ := by
  have helsewhere : op.Reports (fun _ => True) →
      (∀ ms locked onSocket, op ≠ .run ms locked onSocket) →
      Steps ⟨s, none⟩ ⟨(s.perform op).1, none⟩ := by
    intro hreports hrun
    obtain ⟨htimers, htimer⟩ := timers_perform hreports hrun
    exact .single (.elsewhere htimers htimer)
  cases op with
  | adopt target => exact .single (.adopt s none target)
  | release => exact .single (.release s none)
  | renew => exact .single (.renew s none)
  | run ms locked onSocket =>
      have hran := steps_run h ms locked
      simp only [perform]
      split
      · exact .tail hran (.elsewhere rfl rfl)
      · exact hran
  | _ => exact helsewhere trivial (by simp)

/-- Every history takes steps. -/
theorem steps_performAll (h : Moment.Sound ⟨s, none⟩) (ops : List Operation) :
    Steps ⟨s, none⟩ ⟨s.performAll ops, none⟩ :=
  Along.performAll (I := fun t => Steps ⟨s, none⟩ ⟨t, none⟩)
    (fun _ op ht _ => ht.trans (steps_perform (h.steps ht) op)) .refl
    (along_of_forall (fun op _ => op.edits_any : ∀ op ∈ ops, op.Edits fun _ => True) s)

end Session

end LowOrbit
