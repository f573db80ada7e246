import LowOrbit.Proofs.Frame
import LowOrbit.Proofs.History

/-!
# The turn of a timer

A timer that fires the connection changes its own record and its own task, fires the connection at
most once, and leaves the rest of the session alone. It is armed again after its turn if the
connection asks it to come back (`Session.serveConnection_of_armed`).
-/

namespace LowOrbit

open Timer (Outcome Record ScriptStep Status Table Target Task)

/-! ## Records -/

namespace Timer.Table

/-- What a timer is doing, if there is such a timer. -/
def status? (t : Table) (id : Nat) : Option Status := (t.record? id).map Record.status

variable (t : Table) (id : Nat)

/-- Changing a record changes it. -/
theorem record?_update_self (f : Record → Record) :
    (t.update id f).record? id = (t.record? id).map f := by
  simp [update, record?]

/-- Changing a record leaves the others alone. -/
theorem record?_update_of_ne {other : Nat} (h : other ≠ id) (f : Record → Record) :
    (t.update id f).record? other = t.record? other := by
  simp [update, record?, h.symm]

/-- What a timer is doing after its record has changed. -/
theorem status?_update_self {t : Table} {id : Nat} {record : Record}
    (h : t.record? id = some record) (f : Record → Record) :
    (t.update id f).status? id = some (f record).status := by
  rw [status?, record?_update_self, h]
  rfl

/-- Changing a record neither cancels another timer nor revives it. -/
theorem isCancelled_update_of_ne {other : Nat} (h : other ≠ id) (f : Record → Record) :
    (t.update id f).isCancelled other = t.isCancelled other := by
  rw [isCancelled, record?_update_of_ne t id h]
  rfl

/-- The record of a timer whose task ends owes the connection nothing anymore. -/
theorem record?_endTask_self : (t.endTask id).record? id = (t.record? id).map Record.letGo :=
  t.record?_update_self id _

/-- Ending the task of a timer leaves the other records alone. -/
theorem record?_endTask_of_ne {other : Nat} (h : other ≠ id) :
    (t.endTask id).record? other = t.record? other :=
  t.record?_update_of_ne id h _

/-- A new timer is armed. -/
theorem status?_arm (sleep : Sleep) (target : Target) :
    (t.arm sleep target).status? t.nextId = some .armed := by
  simp [arm, status?, record?, nextId]

/-- A timer that is armed or firing has a record that says so. -/
theorem isArmed_of_status? {t : Table} {id : Nat} (h : t.status? id = some .armed) :
    (t.record? id).any Record.isArmed = true := by
  obtain ⟨record, hrecord, hstatus⟩ := Option.map_eq_some_iff.mp h
  rw [hrecord]
  simp [Record.isArmed, hstatus]

end Timer.Table

namespace Session

/-! ## The steps of a turn -/

variable {s : Session} {locked : Bool} {id : Nat}

/-- Beginning a firing changes the record of the timer, and nothing else. -/
theorem beginFiring?_frame {begun : Session} (h : s.beginFiring? id = some begun) :
    ∃ record, begun = { s with timers := s.timers.update id fun _ => record } := by
  unfold beginFiring? at h
  split at h
  · rename_i record hrecord
    exact ⟨record, (Option.some.inj h).symm⟩
  · cases h

/-- Ending a firing leaves the connection alone. -/
theorem connection_endFiring (s : Session) (id : Nat) (outcome : Outcome) :
    (s.endFiring id outcome).1.connection = s.connection := by
  unfold endFiring
  split
  · rfl
  · split <;> rfl

/-- Ending a firing calls nobody. -/
theorem calls_endFiring (s : Session) (id : Nat) (outcome : Outcome) :
    (s.endFiring id outcome).1.calls = s.calls := by
  unfold endFiring
  split
  · rfl
  · split <;> rfl

/-- Ending a firing takes tasks away at most. -/
theorem tasks_endFiring (s : Session) (id : Nat) (outcome : Outcome) :
    ∀ task ∈ (s.endFiring id outcome).1.timers.tasks, task ∈ s.timers.tasks := by
  intro task hmem
  unfold endFiring at hmem
  split at hmem
  · exact (List.mem_filter.mp hmem).1
  · split at hmem
    · exact hmem
    · exact (List.mem_filter.mp hmem).1

/-- Ending a firing leaves the records of other timers alone. -/
theorem record?_endFiring (s : Session) (outcome : Outcome) {other : Nat} (h : other ≠ id) :
    (s.endFiring id outcome).1.timers.record? other = s.timers.record? other := by
  unfold endFiring
  split
  · exact (Table.record?_endTask_of_ne _ id h).trans (s.timers.record?_update_of_ne id h _)
  · split
    · exact s.timers.record?_update_of_ne id h _
    · exact s.timers.record?_endTask_of_ne id h

/-- A firing that must not wait fires the connection or leaves it alone, and leaves the timers
alone. -/
theorem tryFire_frame (s : Session) (locked : Bool) :
    ((s.tryFire locked).2.connection = s.connection ∨
      ∃ phase, (s.tryFire locked).2.connection = (s.connection.fire phase).2) ∧
      (s.tryFire locked).2.timers = s.timers := by
  unfold tryFire
  split
  · exact ⟨.inl rfl, rfl⟩
  · exact ⟨.inr ⟨s.host.phase, rfl⟩, rfl⟩

/-- A firing that must not wait leaves the connection its timer. -/
theorem timer_tryFire (s : Session) (locked : Bool) :
    (s.tryFire locked).2.connection.timer = s.connection.timer := by
  rcases (s.tryFire_frame locked).1 with heq | ⟨phase, heq⟩ <;> rw [heq]
  exact s.connection.timer_fire phase

/-- The tasks after one of them went to sleep again. -/
theorem mem_tasks_resleep {delay : Nat} {target : Target} {task : Task}
    (hmem : task ∈ (s.resleep id delay target).timers.tasks) :
    task ∈ s.timers.tasks ∨
      task = { id := id, sleep := s.host.ticker.sleep delay, target := target } := by
  obtain ⟨old, hold, heq⟩ := List.mem_map.mp hmem
  by_cases hid : old.id = id
  · rw [if_pos hid] at heq
    exact .inr heq.symm
  · rw [if_neg hid] at heq
    exact .inl (heq ▸ hold)

/-- A task that went to sleep again. -/
theorem eq_of_mem_tasks_resleep {delay : Nat} {target : Target} {task : Task}
    (hmem : task ∈ (s.resleep id delay target).timers.tasks) (hid : task.id = id) :
    task = { id := id, sleep := s.host.ticker.sleep delay, target := target } := by
  obtain ⟨old, -, heq⟩ := List.mem_map.mp hmem
  by_cases hold : old.id = id
  · rw [if_pos hold] at heq
    exact heq.symm
  · rw [if_neg hold] at heq
    exact absurd (heq ▸ hid) hold

/-! ## A whole turn -/

/-- What each step of a turn keeps, the turn keeps. -/
theorem serveConnection_keeps (s : Session) (locked : Bool) (id : Nat) {I : Session → Prop}
    (hnone : I (s.endTask id))
    (hbegin : ∀ begun, s.beginFiring? id = some begun → I begun)
    (hfire : ∀ t, I t → I (t.tryFire locked).2)
    (hend : ∀ t outcome, I t → I (t.endFiring id outcome).1)
    (hsleep : ∀ t delay, I t → I (t.resleep id delay .connection)) :
    I (s.serveConnection locked id) := by
  unfold serveConnection
  split
  · rename_i begun hbegun
    have hfired := hfire _ (hbegin begun hbegun)
    generalize begun.tryFire locked = answered at hfired ⊢
    obtain ⟨outcome, fired⟩ := answered
    have hended := hend fired outcome hfired
    rcases heq : fired.endFiring id outcome with ⟨ended, _ | delay⟩ <;> rw [heq] at hended <;>
      simp only [heq]
    · exact hended
    · exact hsleep ended delay hended
  · exact hnone

/-- What each step of the turn of a timer with a scripted target keeps, the turn keeps. -/
theorem serveScript_keeps {I : Session → Prop} {steps : List ScriptStep}
    (hnone : ∀ t, I t → I (t.endTask id))
    (hbegin : ∀ t begun, I t → t.beginFiring? id = some begun → I begun)
    (hcall : ∀ t step, I t → I (t.recordCall step))
    (hplay : ∀ t, ∀ step ∈ steps, I t → I (t.play locked step).2)
    (hend : ∀ t outcome, I t → I (t.endFiring id outcome).1)
    (hsleep : ∀ t delay rest, I t → I (t.resleep id delay (.script rest))) (hs : I s) :
    I (serveScript locked id steps s) := by
  induction steps generalizing s with
  | nil =>
      unfold serveScript
      split
      · rename_i begun hbegun
        exact hend _ .stop (hcall begun .stop (hbegin s begun hs hbegun))
      · exact hnone s hs
  | cons step rest ih =>
      unfold serveScript
      split
      · rename_i begun hbegun
        have hplayed := hplay _ step (by simp) (hcall begun step (hbegin s begun hs hbegun))
        generalize (begun.recordCall step).play locked step = answered at hplayed ⊢
        obtain ⟨outcome, played⟩ := answered
        have hended := hend played outcome hplayed
        rcases heq : played.endFiring id outcome with ⟨ended, _ | delay⟩ <;> rw [heq] at hended <;>
          simp only [heq]
        · exact hended
        -- Without a delay the script goes on in the same turn.
        · split
          · exact ih (fun t other hmem => hplay t other (by simp [hmem])) hended
          · exact hsleep ended delay rest hended
      · exact hnone s hs

/-- The turn of a timer keeps what firing the connection keeps. -/
theorem connection_serveConnection {P : Connection → Prop}
    (hfire : ∀ c phase, P c → P (c.fire phase).2) (hs : P s.connection) (locked : Bool) (id : Nat) :
    P (s.serveConnection locked id).connection := by
  refine s.serveConnection_keeps locked id (I := fun t => P t.connection) hs
    (fun begun h => ?_) (fun t ht => ?_) (fun t outcome ht => ?_) fun t delay ht => ht
  · obtain ⟨record, rfl⟩ := beginFiring?_frame h
    exact hs
  · rcases (t.tryFire_frame locked).1 with heq | ⟨phase, heq⟩ <;> rw [heq]
    · exact ht
    · exact hfire _ phase ht
  · rw [connection_endFiring]
    exact ht

/-- The turn of a timer leaves the records of other timers alone. -/
theorem record?_serveConnection (s : Session) (locked : Bool) {other : Nat} (h : other ≠ id) :
    (s.serveConnection locked id).timers.record? other = s.timers.record? other := by
  refine s.serveConnection_keeps locked id
    (I := fun t => t.timers.record? other = s.timers.record? other)
    (s.timers.record?_endTask_of_ne id h) (fun begun hbegin => ?_) (fun t ht => ?_)
    (fun t outcome ht => ?_) fun t delay ht => ht
  · obtain ⟨record, rfl⟩ := beginFiring?_frame hbegin
    exact s.timers.record?_update_of_ne id h _
  · rw [(t.tryFire_frame locked).2]
    exact ht
  · rw [record?_endFiring t outcome h]
    exact ht

/-- The turn of a timer leaves the other tasks alone, and its own at most goes on to fire the
connection. -/
theorem mem_tasks_serveConnection {task : Task}
    (hmem : task ∈ (s.serveConnection locked id).timers.tasks) :
    task ∈ s.timers.tasks ∨ task.id = id ∧ task.target = .connection := by
  refine s.serveConnection_keeps locked id
    (I := fun t => ∀ task ∈ t.timers.tasks,
      task ∈ s.timers.tasks ∨ task.id = id ∧ task.target = .connection)
    (fun task hmem => .inl (List.mem_filter.mp hmem).1) (fun begun hbegin => ?_)
    (fun t ht => ?_) (fun t outcome ht => ?_) (fun t delay ht => ?_) task hmem
  · obtain ⟨record, rfl⟩ := beginFiring?_frame hbegin
    exact fun task hmem => .inl hmem
  · rw [(t.tryFire_frame locked).2]
    exact ht
  · exact fun task hmem => ht task (tasks_endFiring t id outcome task hmem)
  · intro task hmem
    rcases mem_tasks_resleep hmem with hold | rfl
    · exact ht task hold
    · exact .inr ⟨rfl, rfl⟩

/-- An armed timer begins a firing. -/
theorem beginFiring?_of_armed {record : Record} (hrecord : s.timers.record? id = some record)
    (hstatus : record.status = .armed) :
    s.beginFiring? id = some
      { s with timers := s.timers.update id fun _ => { record with status := .firing } } := by
  simp [beginFiring?, hrecord, Record.beginFiring?, hstatus]

/-- A timer that is firing is armed again, if the answer is to come back. -/
theorem endFiring_of_firing {record : Record} (hrecord : s.timers.record? id = some record)
    (hstatus : record.status = .firing) {outcome : Outcome} {delay : Nat}
    (hdelay : delayAfter outcome = some delay) :
    s.endFiring id outcome =
      ({ s with timers := s.timers.update id fun _ => { record with status := .armed } },
        some delay) := by
  simp [endFiring, hdelay, hrecord, Record.endFiring?, hstatus]

/-- A firing of a locked connection, or of an established one with a timer, is to come back. -/
theorem delayAfter_tryFire (htimer : s.connection.timer.isSome = true)
    (h : locked = true ∨ s.connection.socket.established = true) :
    ∃ delay, delayAfter (s.tryFire locked).1 = some delay := by
  cases locked with
  | true => exact ⟨_, rfl⟩
  | false =>
      have hestablished : s.connection.socket.established = true := by simpa using h
      show ∃ delay, delayAfter (s.connection.fire s.host.phase).1 = some delay
      rw [Connection.fire_of_established htimer hestablished]
      exact ⟨_, rfl⟩

/-- The turn of an armed timer whose firing is answered by coming back: the connection has been
fired, the timer is armed again, and its task sleeps for as long as the answer says. -/
theorem serveConnection_of_armed (harmed : s.timers.status? id = some .armed) {delay : Nat}
    (hdelay : delayAfter (s.tryFire locked).1 = some delay) :
    (s.serveConnection locked id).connection = (s.tryFire locked).2.connection ∧
      (s.serveConnection locked id).timers.status? id = some .armed ∧
      ∀ task ∈ (s.serveConnection locked id).timers.tasks,
        task.id = id → task.sleep = s.host.ticker.sleep delay := by
  obtain ⟨record, hrecord, hstatus⟩ := Option.map_eq_some_iff.mp harmed
  generalize hbegun :
    { s with timers := s.timers.update id fun _ => { record with status := .firing } } = begun
  have hbegin : s.beginFiring? id = some begun := by
    rw [← hbegun]
    exact beginFiring?_of_armed hrecord hstatus
  -- A firing looks at the host and at the connection only, which beginning it leaves alone.
  have hfired : (begun.tryFire locked).1 = (s.tryFire locked).1 ∧
      (begun.tryFire locked).2.connection = (s.tryFire locked).2.connection ∧
      (begun.tryFire locked).2.host.ticker = s.host.ticker := by
    subst hbegun
    cases locked <;> exact ⟨rfl, rfl, rfl⟩
  have hfiring : (begun.tryFire locked).2.timers.record? id =
      some { record with status := .firing } := by
    rw [(begun.tryFire_frame locked).2, ← hbegun, Table.record?_update_self, hrecord]
    rfl
  have hended := endFiring_of_firing hfiring rfl (hfired.1 ▸ hdelay)
  unfold serveConnection
  rw [hbegin]
  simp only [hended]
  refine ⟨hfired.2.1, Table.status?_update_self hfiring _, fun task hmem hid => ?_⟩
  rw [eq_of_mem_tasks_resleep hmem hid, ← hfired.2.2]

end Session

end LowOrbit
