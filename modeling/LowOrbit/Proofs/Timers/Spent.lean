import LowOrbit.Proofs.Lifecycle

/-!
# Timers that have come to an end

A timer is spent once its target has stopped it or its owner has cancelled it. It stays so, and the
turn of its task does nothing but end the task. What time does to a session is therefore up to the
tasks of the timers that are not spent (`Session.Admits`, `Session.run_of_admits`). If they are
scripts that leave the connection to its owner, time that passes while the connection is locked does
not touch it (`Session.connection_run_locked`).
-/

namespace LowOrbit

open Timer (Outcome Record ScriptStep Status Table Target Task)

namespace Timer

/-- Whether a step of a script makes the connection drop the algorithm or adopt it anew, either of
which cancels the timer. -/
def ScriptStep.Cancels : ScriptStep → Prop
  | .release | .releaseStop | .readopt => True
  | _ => False

/-- The target does nothing to the connection but fire it. -/
def Target.Harmless : Target → Prop
  | .connection => True
  | .script steps => ∀ step ∈ steps, ¬ step.Cancels

/-- A kind of tasks that no turn of such a task leaves: a turn may arm a timer that fires the
connection, and goes on with the rest of a script. -/
structure Task.Closed (kind : Task → Prop) : Prop where
  connection : ∀ task, task.target = .connection → kind task
  suffix : ∀ task steps next rest, kind task → task.target = .script steps → rest <:+ steps →
    next.id = task.id → next.target = .script rest → kind next

/-- The rest of a harmless script is harmless. -/
theorem Task.closed_harmless : Closed fun task => task.target.Harmless where
  connection task h := h ▸ trivial
  suffix task steps next rest h htarget hrest _ hnext := by
    rw [htarget] at h
    rw [hnext]
    exact fun step hmem => h step (hrest.subset hmem)

namespace Table

/-- The timer has been stopped by its target or cancelled by its owner. -/
def Spent (t : Table) (id : Nat) : Prop :=
  ∃ record, t.record? id = some record ∧ (record.status = .idle ∨ record.status = .cancelled)

variable {t : Table} {id other : Nat}

/-- What a timer is doing says whether it is spent. -/
theorem spent_iff : t.Spent id ↔ t.status? id = some .idle ∨ t.status? id = some .cancelled := by
  unfold Spent status?
  cases t.record? id <;> simp

/-- A cancelled timer is spent. -/
theorem isCancelled_iff_status? : t.isCancelled id = true ↔ t.status? id = some .cancelled := by
  simp [isCancelled_iff, status?]

/-- A spent timer stays spent when a record changes, if the record does not come to life. -/
theorem Spent.update {f : Record → Record}
    (hf : ∀ record, t.record? id = some record →
      record.status = .idle ∨ record.status = .cancelled →
      (f record).status = .idle ∨ (f record).status = .cancelled)
    (h : t.Spent other) : (t.update id f).Spent other := by
  obtain ⟨record, hrecord, hspent⟩ := h
  by_cases hsame : other = id
  · subst hsame
    refine ⟨f record, ?_, hf record hrecord hspent⟩
    rw [record?_update_self, hrecord]
    rfl
  · refine ⟨record, ?_, hspent⟩
    rw [t.record?_update_of_ne id hsame]
    exact hrecord

/-- A spent timer stays spent when another timer is armed. -/
theorem Spent.arm (h : t.Spent id) (sleep : Sleep) (target : Target) :
    (t.arm sleep target).Spent id := by
  obtain ⟨record, hrecord, hspent⟩ := h
  refine ⟨record, ?_, hspent⟩
  rw [record?_arm, if_neg (Nat.ne_of_lt (lt_nextId hrecord))]
  exact hrecord

/-- The end of a task changes nothing about what timers are doing. -/
theorem status?_endTask (t : Table) (id other : Nat) :
    (t.endTask id).status? other = t.status? other := by
  unfold status?
  show ((t.update id Record.letGo).record? other).map _ = _
  by_cases hsame : other = id
  · subst hsame
    rw [record?_update_self, Option.map_map]
    rfl
  · rw [t.record?_update_of_ne id hsame]

/-- A spent timer stays spent when a task ends. -/
theorem Spent.endTask (h : t.Spent other) (id : Nat) : (t.endTask id).Spent other := by
  rw [spent_iff, status?_endTask, ← spent_iff]
  exact h

/-- A timer with a task is that of the connection, or spent. -/
theorem Sound.spent_of_ne {current : Option Nat} (h : t.Sound current none)
    (hmem : id ∈ t.taskIds) (hne : current ≠ some id) : t.Spent id := by
  have hrecord := List.getElem?_eq_getElem (h.task_lt id hmem)
  refine ⟨_, hrecord, ?_⟩
  have hfits := h.fits id _ hrecord
  unfold Record.Fits at hfits
  split at hfits
  · rename_i hstatus
    exact .inl hstatus
  · exact absurd hfits.1 hne
  · exact absurd hfits.1 hne
  · rename_i hstatus
    exact .inr hstatus

end Table

end Timer

namespace Moment

variable {m m' : Moment} {id : Nat}

/-- A spent timer stays spent when the timer of the connection is cancelled. -/
theorem spent_cancelTimer {s : Session} (h : s.timers.Spent id) :
    s.cancelTimer.timers.Spent id := by
  unfold Session.cancelTimer
  split
  · exact h.update fun _ _ _ => .inr rfl
  · exact h

/-- A spent timer stays spent with every step. -/
theorem Step.spent (hstep : Step m m') (h : m.session.timers.Spent id) :
    m'.session.timers.Spent id := by
  cases hstep with
  | elsewhere htimers => exact htimers ▸ h
  | adopt s running target =>
      show (s.adopt target).timers.Spent id
      rcases s.adopt_cases target with ⟨-, htimers⟩ | ⟨-, htimers⟩ <;> rw [htimers]
      · exact spent_cancelTimer h
      · exact (spent_cancelTimer h).arm _ _
  | release s running => exact spent_cancelTimer h
  | renew s running => exact spent_cancelTimer h
  | @start s begun id' hbegin =>
      obtain ⟨record, hrecord, harmed, rfl⟩ := Session.beginFiring?_cases hbegin
      refine h.update fun old hold hspent => ?_
      obtain rfl : record = old := Option.some.inj (hrecord.symm.trans hold)
      simp [harmed] at hspent
  | finish s id' outcome =>
      show (s.endFiring id' outcome).1.timers.Spent id
      rcases s.endFiring_cases id' outcome with
        ⟨record, delay, hrecord, hfiring, heq⟩ | ⟨-, f, htimers, hf⟩
      · rw [heq]
        refine h.update fun old hold hspent => ?_
        obtain rfl : record = old := Option.some.inj (hrecord.symm.trans hold)
        simp [hfiring] at hspent
      · rw [htimers]
        refine (h.update fun old hold hspent => ?_).endTask id'
        rw [(hf old hold).2 (by rcases hspent with hidle | hcancelled <;> simp_all)]
        exact hspent
  | resleep => exact h
  | leave => exact h.endTask _

/-- A spent timer stays spent. -/
theorem Steps.spent (hsteps : Steps m m') (h : m.session.timers.Spent id) :
    m'.session.timers.Spent id := by
  induction hsteps with
  | refl => exact h
  | tail _ hstep ih => exact hstep.spent ih

end Moment

namespace Session

variable {s : Session} {locked : Bool} {id : Nat} {kind : Task → Prop}

/-- A spent timer begins no firing. -/
theorem beginFiring?_of_spent (h : s.timers.Spent id) : s.beginFiring? id = none := by
  obtain ⟨record, hrecord, hidle | hcancelled⟩ := h
  · simp [beginFiring?, hrecord, Record.beginFiring?, hidle]
  · simp [beginFiring?, hrecord, Record.beginFiring?, hcancelled]

/-- The tasks of all timers that are not spent are of a kind. -/
def Admits (kind : Task → Prop) (s : Session) : Prop :=
  ∀ task ∈ s.timers.tasks, kind task ∨ s.timers.Spent task.id

/-- A step of a script that does not cancel the timer does nothing or fires the connection. -/
theorem play_of_not_cancels {step : ScriptStep} (h : ¬ step.Cancels) :
    (s.play locked step).2 = s ∨ (s.play locked step).2 = (s.tryFire locked).2 := by
  cases step with
  | fire => exact .inr rfl
  | release => exact absurd trivial h
  | releaseStop => exact absurd trivial h
  | readopt => exact absurd trivial h
  | _ => exact .inl rfl

/-- Playing a step of a script leaves the tasks alone, but for a new timer that fires the
connection. -/
theorem mem_tasks_play {step : ScriptStep} {task : Task}
    (hmem : task ∈ (s.play locked step).2.timers.tasks) :
    task ∈ s.timers.tasks ∨ task.target = .connection := by
  cases step with
  | fire => exact .inl ((s.tryFire_frame locked).2 ▸ hmem)
  | release => exact .inl (s.cancelTimer_frame.1 ▸ hmem)
  | releaseStop => exact .inl (s.cancelTimer_frame.1 ▸ hmem)
  | readopt =>
      have hadopt : task ∈ (s.adopt .connection).timers.tasks := hmem
      rcases s.adopt_cases .connection with ⟨-, htimers⟩ | ⟨-, htimers⟩ <;>
        rw [htimers] at hadopt
      · exact .inl (s.cancelTimer_frame.1 ▸ hadopt)
      · rcases List.mem_append.mp hadopt with hold | hnew
        · exact .inl (s.cancelTimer_frame.1 ▸ hold)
        · exact .inr (by rw [List.mem_singleton.mp hnew])
  | _ => exact .inl hmem

/-- The turn of a timer with a scripted target leaves the other tasks alone, but for a new timer
that fires the connection, and its own at most goes on with the rest of the script. -/
theorem mem_tasks_serveScript {steps : List ScriptStep} {task : Task}
    (hmem : task ∈ (serveScript locked id steps s).timers.tasks) :
    task ∈ s.timers.tasks ∨ task.target = .connection ∨
      task.id = id ∧ ∃ rest, rest <:+ steps ∧ task.target = .script rest := by
  induction steps generalizing s with
  | nil =>
      unfold serveScript at hmem
      split at hmem
      · rename_i begun hbegin
        obtain ⟨record, rfl⟩ := beginFiring?_frame hbegin
        exact .inl (tasks_endFiring _ id .stop task hmem)
      · exact .inl (List.mem_filter.mp hmem).1
  | cons step rest ih =>
      unfold serveScript at hmem
      split at hmem
      · rename_i begun hbegin
        have hplayed : ∀ other ∈ ((begun.recordCall step).play locked step).2.timers.tasks,
            other ∈ s.timers.tasks ∨ other.target = .connection := by
          intro other hother
          obtain ⟨record, rfl⟩ := beginFiring?_frame hbegin
          rcases mem_tasks_play hother with hold | hnew
          · exact .inl hold
          · exact .inr hnew
        generalize (begun.recordCall step).play locked step = answered at hmem hplayed
        obtain ⟨outcome, played⟩ := answered
        have hended := tasks_endFiring played id outcome
        rcases heq : played.endFiring id outcome with ⟨ended, _ | delay⟩ <;> rw [heq] at hended <;>
          simp only [heq] at hmem
        · exact (hplayed task (hended task hmem)).imp_right .inl
        · split at hmem
          · rcases ih hmem with hold | hnew | ⟨hid, left, hleft, htarget⟩
            · exact (hplayed task (hended task hold)).imp_right .inl
            · exact .inr (.inl hnew)
            · exact .inr (.inr ⟨hid, left, hleft.trans (List.suffix_cons step rest), htarget⟩)
          · rcases mem_tasks_resleep hmem with hold | rfl
            · exact (hplayed task (hended task hold)).imp_right .inl
            · exact .inr (.inr ⟨rfl, rest, List.suffix_cons step rest, rfl⟩)
      · exact .inl (List.mem_filter.mp hmem).1

/-- The turn of a timer leaves the other tasks alone, but for a new timer that fires the connection,
and its own at most goes on with the rest of its script. -/
theorem mem_tasks_serveTask {task other : Task}
    (hmem : other ∈ (s.serveTask locked task).timers.tasks) :
    other ∈ s.timers.tasks ∨ other.target = .connection ∨
      other.id = task.id ∧ ∃ steps rest, task.target = .script steps ∧ rest <:+ steps ∧
        other.target = .script rest := by
  unfold serveTask at hmem
  split at hmem
  · exact (mem_tasks_serveConnection hmem).imp_right fun h => .inl h.2
  · rename_i steps htarget
    rcases mem_tasks_serveScript hmem with hold | hnew | ⟨hid, rest, hrest, hother⟩
    · exact .inl hold
    · exact .inr (.inl hnew)
    · exact .inr (.inr ⟨hid, steps, rest, htarget, hrest, hother⟩)

/-- The end of a task leaves the other tasks as they are. -/
theorem admits_endTask (hs : s.Admits kind) (id : Nat) : (s.endTask id).Admits kind :=
  fun task hmem => (hs task (List.mem_filter.mp hmem).1).imp_right (·.endTask id)

/-- The turn of a task leaves only tasks of a kind to timers that are not spent, if that was so
before. -/
theorem admits_serveTask (hkind : Task.Closed kind) (hsound : Moment.Sound ⟨s, none⟩)
    (hs : s.Admits kind) {task : Task} (hmem : task ∈ s.timers.tasks) :
    (s.serveTask locked task).Admits kind := by
  have hspent : ∀ {id}, s.timers.Spent id → (s.serveTask locked task).timers.Spent id :=
    fun h => (steps_serveTask hsound hmem).spent h
  intro other hother
  rcases mem_tasks_serveTask hother with hold | hnew | ⟨hid, steps, rest, htarget, hrest, hother'⟩
  · exact (hs other hold).imp_right hspent
  · exact .inl (hkind.connection other hnew)
  · rcases hs task hmem with htask | htask
    · exact .inl (hkind.suffix task steps other rest htask htarget hrest hid hother')
    · exact .inr (hspent (hid ▸ htask))

/-- What the turns of tasks of a kind keep, and the passing of time and the ends of tasks, is kept
while time passes if the tasks of all timers that are not spent are of this kind. -/
theorem run_of_admits (hkind : Task.Closed kind) {P : Session → Prop}
    (hmove : ∀ t moment, P t → P { t with host := t.host.moveTo moment })
    (hsync : ∀ t, P t → P { t with host := t.host.serveSync })
    (hend : ∀ t id, P t → P (t.endTask id))
    (hturn : ∀ t task, P t → kind task → ¬ t.timers.Spent task.id → P (t.serveTask locked task))
    (hsound : Moment.Sound ⟨s, none⟩) (hs : s.Admits kind) (hP : P s) (ms : Nat) :
    P (s.run ms locked) ∧ (s.run ms locked).Admits kind := by
  have hwakes : Wakes (fun t => Moment.Sound ⟨t, none⟩ ∧ t.Admits kind ∧ P t) locked
      (s.host.ticker.now + ms) :=
    { moveTo := fun t moment ht => ⟨ht.1, ht.2.1, hmove t moment ht.2.2⟩
      serveSync := fun t ht => ⟨ht.1, ht.2.1, hsync t ht.2.2⟩
      serveTask := fun t task ht hmem _ => by
        refine ⟨ht.1.steps (steps_serveTask ht.1 hmem), admits_serveTask hkind ht.1 ht.2.1 hmem, ?_⟩
        by_cases hspent : t.timers.Spent task.id
        · rw [serveTask_of_beginFiring? (beginFiring?_of_spent hspent)]
          exact hend t task.id ht.2.2
        · exact hturn t task ht.2.2 ((ht.2.1 task hmem).resolve_right hspent) hspent }
  have hreap : s.reap.Admits kind ∧ P s.reap :=
    reap_keeps (I := fun t => t.Admits kind ∧ P t)
      (fun t id ht _ => ⟨admits_endTask ht.1 id, hend t id ht.2⟩) ⟨hs, hP⟩
  have hdriven := hwakes.drive (ms + 1) ⟨hsound.steps (steps_reap hsound), hreap⟩
  exact ⟨hmove _ _ hdriven.2.2, hdriven.2.1⟩

/-- An operation leaves only tasks of a kind to timers that are not spent, if that was so before and
if it adopts the algorithm, if at all, with the connection as target. -/
theorem admits_perform (hkind : Task.Closed kind) (hsound : Moment.Sound ⟨s, none⟩)
    (hs : s.Admits kind) {op : Operation} (hop : op.AdoptsItself) :
    (s.perform op).1.Admits kind := by
  have hspent : ∀ {id}, s.timers.Spent id → (s.perform op).1.timers.Spent id :=
    fun h => (steps_perform hsound op).spent h
  have hold : (∀ task ∈ (s.perform op).1.timers.tasks,
      task ∈ s.timers.tasks ∨ task.target = .connection) → (s.perform op).1.Admits kind := by
    intro htasks task hmem
    rcases htasks task hmem with hold | hnew
    · exact (hs task hold).imp_right hspent
    · exact .inl (hkind.connection task hnew)
  cases op with
  | adopt target =>
      cases hop
      exact hold fun task hmem => @mem_tasks_play s false .readopt task hmem
  | release => exact hold fun task hmem => .inl (s.cancelTimer_frame.1 ▸ hmem)
  | renew => exact hold fun task hmem => .inl (s.cancelTimer_frame.1 ▸ hmem)
  | run ms locked onSocket =>
      have hran : (s.run ms locked).Admits kind :=
        (run_of_admits (P := fun _ => True) hkind (by simp) (by simp) (by simp) (by simp) hsound hs
          trivial ms).2
      simp only [perform]
      split <;> exact hran
  | _ =>
      refine hold fun task hmem => .inl ?_
      rw [(timers_perform (by trivial) (by simp)).1] at hmem
      exact hmem

/-! ## Locked connections -/

/-- The turn of a timer that fires the connection leaves a locked connection alone. -/
theorem connection_serveConnection_locked (s : Session) (id : Nat) :
    (s.serveConnection true id).connection = s.connection := by
  refine s.serveConnection_keeps true id (I := fun t => t.connection = s.connection) rfl
    (fun begun hbegin => ?_) (fun _ ht => ht) (fun t outcome ht => ?_) fun _ _ ht => ht
  · obtain ⟨record, rfl⟩ := beginFiring?_frame hbegin
    rfl
  · rw [connection_endFiring]
    exact ht

/-- The turn of a timer with a harmless script leaves a locked connection alone. -/
theorem connection_serveScript_locked {steps : List ScriptStep}
    (hsteps : ∀ step ∈ steps, ¬ step.Cancels) (s : Session) (id : Nat) :
    (serveScript true id steps s).connection = s.connection := by
  refine serveScript_keeps (I := fun t => t.connection = s.connection) (fun _ ht => ht)
    (fun t begun ht hbegin => ?_) (fun _ _ ht => ht) (fun t step hmem ht => ?_)
    (fun t outcome ht => ?_) (fun _ _ _ ht => ht) rfl
  · obtain ⟨record, rfl⟩ := beginFiring?_frame hbegin
    exact ht
  · rcases play_of_not_cancels (hsteps step hmem) with heq | heq <;> rw [heq] <;> exact ht
  · rw [connection_endFiring]
    exact ht

/-- Time that passes while the connection is locked leaves it alone: window, socket, engine and all,
if no script of a timer that is not spent makes it drop or adopt the algorithm. -/
theorem connection_run_locked (hsound : Moment.Sound ⟨s, none⟩)
    (hs : s.Admits fun task => task.target.Harmless) (ms : Nat) :
    (s.run ms true).connection = s.connection := by
  refine (run_of_admits (P := fun t => t.connection = s.connection) Task.closed_harmless
    (fun _ _ ht => ht) (fun _ ht => ht) (fun _ _ ht => ht) (fun t task ht htask _ => ?_)
    hsound hs rfl ms).1
  rw [← ht]
  unfold serveTask
  split
  · exact t.connection_serveConnection_locked task.id
  · rename_i steps htarget
    rw [htarget] at htask
    exact connection_serveScript_locked htask t task.id

end Session

end LowOrbit
