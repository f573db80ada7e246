import LowOrbit.Proofs.Suspension

/-!
# A suspended connection has an armed timer

Whatever suspends a connection leaves it a timer that is armed, and a firing arms the timer again,
also if the connection is locked. The exception is a firing that finds the connection no longer
established: it stops the timer and leaves the gate as it is. `Session.isArmed_of_not_strands` says
that this is the only one.
-/

namespace LowOrbit

open Socket (Edit Features)
open Timer (Record Table Task)

/-- The operation lets the timer of the connection fire while the connection is neither locked nor
established. -/
def Operation.Strands (s : Session) : Operation → Prop
  | .run ms locked _ =>
    locked = false ∧ s.connection.socket.established = false ∧
      ∃ task ∈ s.timers.tasks, s.connection.timer = some task.id ∧
        task.sleep.due ≤ s.host.ticker.now + ms
  | _ => False

namespace Session

/-- The timer of the connection is armed if it has one. -/
def Armed (s : Session) : Prop :=
  ∀ id, s.connection.timer = some id → s.timers.status? id = some .armed

/-- No firing of the connection's timer up to the moment `last` finds a connection that is neither
locked nor established. -/
def Spared (s : Session) (locked : Bool) (last : Nat) : Prop :=
  locked = true ∨ s.connection.socket.established = true ∨
    ∀ task ∈ s.timers.tasks, s.connection.timer = some task.id → last < task.sleep.due

/-- Time that passes without stranding the connection spares it. -/
theorem spared_of_not_strands {s : Session} {ms : Nat} {locked onSocket : Bool}
    (h : ¬ (Operation.run ms locked onSocket).Strands s) :
    s.Spared locked (s.host.ticker.now + ms) := by
  cases locked with
  | true => exact .inl rfl
  | false =>
      cases hestablished : s.connection.socket.established with
      | true => exact .inr (.inl hestablished)
      | false =>
          refine .inr (.inr fun task hmem htimer => Nat.lt_of_not_le fun hdue => h ?_)
          exact ⟨rfl, hestablished, task, hmem, htimer, hdue⟩

/-! ## A turn -/

/-- A turn leaves the connection its timer, and as established as it was. -/
theorem connection_serveConnection_frame (s : Session) (locked : Bool) (id : Nat) :
    (s.serveConnection locked id).connection.timer = s.connection.timer ∧
      (s.serveConnection locked id).connection.socket.established =
        s.connection.socket.established := by
  refine connection_serveConnection
    (P := fun c => c.timer = s.connection.timer ∧
      c.socket.established = s.connection.socket.established)
    (fun c phase hc => ?_) ⟨rfl, rfl⟩ locked id
  obtain ⟨cwnd, rto, wakeUps, hframe⟩ := c.fire_frame phase
  have hestablished : (c.fire phase).2.socket.established = c.socket.established := by
    show (c.fire phase).2.link.socket.established = c.link.socket.established
    rw [hframe]
  exact ⟨(c.timer_fire phase).trans hc.1, hestablished.trans hc.2⟩

/-- Ending the task of a cancelled timer leaves the timer of the connection armed: it is another
one. -/
theorem armed_endTask {s : Session} {id : Nat} (hs : s.Armed)
    (hcancelled : s.timers.isCancelled id = true) : (s.endTask id).Armed := by
  intro other htimer
  have hother : s.timers.status? other = some .armed := hs other htimer
  have hne : other ≠ id := by
    rintro rfl
    obtain ⟨record, hrecord, hstatus⟩ := Option.map_eq_some_iff.mp hother
    simp [Table.isCancelled, hrecord, hstatus] at hcancelled
  show ((s.timers.endTask id).record? other).map Record.status = some .armed
  rw [Table.record?_endTask_of_ne _ _ hne]
  exact hother

/-- A turn leaves the timer of the connection armed if it is the turn of another timer, or if the
connection is locked or established. -/
theorem armed_serveConnection {s : Session} {locked : Bool} {id : Nat} (hs : s.Armed)
    (hanswered : s.connection.timer = some id →
      locked = true ∨ s.connection.socket.established = true) :
    (s.serveConnection locked id).Armed := by
  intro other htimer
  rw [(s.connection_serveConnection_frame locked id).1] at htimer
  -- A turn arms its own timer again, and does not touch the records of the others.
  by_cases hsame : other = id
  · subst hsame
    obtain ⟨delay, hdelay⟩ := delayAfter_tryFire (by rw [htimer]; rfl) (hanswered htimer)
    exact (serveConnection_of_armed (hs other htimer) hdelay).2.1
  · show ((s.serveConnection locked id).timers.record? other).map Record.status = some .armed
    rw [record?_serveConnection s locked hsame]
    exact hs other htimer

/-- The turn of a timer spares the connection if it was spared before, and the timer of the
connection sleeps on if it was to. -/
theorem spared_serveConnection {s : Session} {locked : Bool} {last : Nat}
    (hs : s.Spared locked last) {task : Task} (hmem : task ∈ s.timers.tasks)
    (hdue : task.sleep.due ≤ last) : (s.serveConnection locked task.id).Spared locked last := by
  obtain ⟨htimer, hestablished⟩ := s.connection_serveConnection_frame locked task.id
  rcases hs with hlocked | hest | hlate
  · exact .inl hlocked
  · exact .inr (.inl (hestablished.trans hest))
  · refine .inr (.inr fun other hother hid => ?_)
    rw [htimer] at hid
    rcases mem_tasks_serveConnection hother with hold | ⟨hnew, -⟩
    · exact hlate other hold hid
    · exact absurd hdue (Nat.not_le.mpr (hlate task hmem (hnew ▸ hid)))

/-- While time passes that spares the connection, its timer is armed after every turn. -/
theorem turns_armed (locked : Bool) (last : Nat) :
    Turns (fun s => s.Armed ∧ s.OwnTimers ∧ s.Spared locked last) locked last where
  moveTo _ _ hs := hs
  serveSync _ hs := hs
  endTask s id hs hcancelled := by
    obtain ⟨harmed, hown, hspared⟩ := hs
    have htasks : ∀ task ∈ (s.endTask id).timers.tasks, task ∈ s.timers.tasks :=
      fun task hmem => (List.mem_filter.mp hmem).1
    refine ⟨armed_endTask harmed hcancelled, fun task hmem => hown task (htasks task hmem), ?_⟩
    exact hspared.imp_right (.imp_right fun hlate task hmem => hlate task (htasks task hmem))
  serveTask s task hs hmem hdue := by
    obtain ⟨harmed, hown, hspared⟩ := hs
    rw [serveTask, hown task hmem]
    refine ⟨armed_serveConnection harmed fun htimer => ?_,
      ownTimers_serveConnection hown locked task.id, spared_serveConnection hspared hmem hdue⟩
    rcases hspared with hlocked | hest | hlate
    · exact .inl hlocked
    · exact .inr hest
    · exact absurd hdue (Nat.not_le.mpr (hlate task hmem htimer))

/-! ## An operation -/

/-- A report that does not let time pass leaves the timers alone. -/
theorem timers_perform {s : Session} {op : Operation} (hop : op.Reports fun _ => True)
    (hrun : ∀ ms locked onSocket, op ≠ .run ms locked onSocket) :
    (s.perform op).1.timers = s.timers ∧
      (s.perform op).1.connection.timer = s.connection.timer := by
  cases op with
  | adopt target => exact hop.elim
  | release => exact hop.elim
  | renew => exact hop.elim
  | run ms locked onSocket => exact absurd rfl (hrun ms locked onSocket)
  | ack acked times step =>
      refine repeat_keeps
        (I := fun t => t.timers = s.timers ∧ t.connection.timer = s.connection.timer)
        (f := fun t => (t.mapSocket (·.advance step)).ack acked) (fun t ht => ?_) times ⟨rfl, rfl⟩
      exact ⟨ht.1, (Connection.timer_ack _ _ _).trans ht.2⟩
  | sample x times step =>
      exact repeat_keeps
        (I := fun t => t.timers = s.timers ∧ t.connection.timer = s.connection.timer)
        (f := fun t => (t.mapSocket (·.advance step)).sample x) (fun t ht => ht) times ⟨rfl, rfl⟩
  | undo apply => cases apply <;> exact ⟨rfl, rfl⟩
  | callback =>
      simp only [perform]
      split
      · exact ⟨rfl, s.connection.timer_fire _⟩
      · exact ⟨rfl, rfl⟩
  | fire locked => exact ⟨(s.tryFire_frame locked).2, s.timer_tryFire locked⟩
  | _ => exact ⟨rfl, rfl⟩

/-- A new timer is armed. -/
theorem armed_adopt (s : Session) (target : Timer.Target) : (s.adopt target).Armed := by
  intro id hid
  rcases s.adopt_cases target with ⟨heq, -⟩ | ⟨heq, htimers⟩ <;> rw [heq] at hid
  · cases hid
  · cases hid
    rw [htimers, ← s.cancelTimer_frame.2]
    exact s.cancelTimer.timers.status?_arm _ _

/-- The timer of the connection is armed after every operation that does not strand it. -/
theorem armed_perform {s : Session} {op : Operation} (hs : s.Armed ∧ s.OwnTimers)
    (hop : op.AdoptsItself ∧ ¬ op.Strands s) :
    (s.perform op).1.Armed ∧ (s.perform op).1.OwnTimers := by
  refine ⟨?_, ownTimers_perform hs.2 hop.1⟩
  have hreports : op.Reports (fun _ => True) →
      (∀ ms locked onSocket, op ≠ .run ms locked onSocket) → (s.perform op).1.Armed := by
    intro hreports hrun id hid
    obtain ⟨htimers, htimer⟩ := timers_perform hreports hrun
    rw [htimers]
    exact hs.1 id (htimer ▸ hid)
  cases op with
  | adopt target => exact armed_adopt s target
  -- Without the algorithm there is no timer to be armed.
  | release => exact fun id hid => nomatch hid
  | renew => exact fun id hid => nomatch hid
  | run ms locked onSocket =>
      have hran := (turns_armed locked (s.host.ticker.now + ms)).run
        ⟨hs.1, hs.2, spared_of_not_strands hop.2⟩
      simp only [perform]
      split
      · exact hran.1
      · exact hran.1
  | _ => exact hreports trivial (by simp)

/-- From an adoption that has the connection as target, the timer of the connection is armed, and a
suspended connection has a timer. This is so after every history, whatever the host writes, as long
as no firing finds the connection neither locked nor established. -/
theorem isArmed_of_not_strands {config : Config} {socket : Edit} {features : Features}
    {source : TimeSource} {tickerAvailable : Bool} {s : Session}
    (hcreate : create config socket features source tickerAvailable = .ok s)
    (before after : List Operation) (hbefore : ∀ op ∈ before, op.AdoptsItself)
    (hafter : Along (fun s op => op.AdoptsItself ∧ ¬ op.Strands s)
      ((s.performAll before).adopt .connection) after) :
    let t := ((s.performAll before).adopt .connection).performAll after
    (t.connection.isSuspended = true → t.connection.timer.isSome = true) ∧
      ∀ id, t.connection.timer = some id → (t.timers.record? id).any Record.isArmed = true := by
  intro t
  have hown := ownTimers_adopt (ownTimers_performAll (ownTimers_create hcreate) hbefore)
  have ht : t.Armed ∧ t.OwnTimers :=
    hafter.performAll (I := fun s => s.Armed ∧ s.OwnTimers) (fun _ _ => armed_perform)
      ⟨armed_adopt _ _, hown⟩
  have hcreated : s.connection.Guarded := by
    rw [eq_of_create hcreate]
    exact Connection.guarded_of_not_suspended rfl
  have hguarded : t.connection.Guarded :=
    performAll_of_lasting Connection.lasting_guarded
      (adopt_of_lasting Connection.lasting_guarded
        (performAll_of_lasting Connection.lasting_guarded hcreated fun op _ => op.edits_any) _)
      fun op _ => op.edits_any
  exact ⟨hguarded, fun id hid => Table.isArmed_of_status? (ht.1 id hid)⟩

/-- The timer of the example is armed in the middle of the handover, after a firing that found the
connection locked. -/
theorem isArmed_of_not_strands_atHandover :
    let after : List Operation :=
      [.edit { established := some false }, .run 210 true false, .edit { established := some true }]
    let t := (atHandover.adopt .connection).performAll after
    (t.connection.isSuspended = true → t.connection.timer.isSome = true) ∧
      ∀ id, t.connection.timer = some id → (t.timers.record? id).any Record.isArmed = true :=
  isArmed_of_not_strands create_atHandover [] _ (by simp)
    ⟨⟨trivial, id⟩, ⟨trivial, fun h => nomatch h.1⟩, ⟨trivial, id⟩, trivial⟩

/-- The timer of the example stops for good when it fires after the connection has been closed: the
gate stays suspended, and no timer is left to open it. -/
theorem not_isArmed_atHandover :
    let t := atHandover.performAll
      [.adopt .connection, .edit { established := some false }, .run 300 false false]
    t.connection.isSuspended = true ∧ t.connection.timer = some 0 ∧
      (t.timers.record? 0).any Record.isArmed = false := by
  decide +kernel

end Session

end LowOrbit
