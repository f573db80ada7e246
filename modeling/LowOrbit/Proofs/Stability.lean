import LowOrbit.Proofs.Turn

/-!
# Properties of a connection that histories keep

`Connection.Stable` lists what has to be checked of a property of connections so that it survives
every report, every firing and every answer that a host carries out; `Connection.Lasting` adds
adopting and dropping the algorithm. `Session.performAll_of_stable` and
`Session.performAll_of_lasting` turn these checks into a statement about whole histories.
-/

namespace LowOrbit

/-- The operation neither adopts nor drops the algorithm, and if it edits the socket, then as
allowed. -/
def Operation.Reports (allowed : Socket.Edit → Prop) : Operation → Prop
  | .adopt _ | .release | .renew => False
  | .edit e => allowed e
  | _ => True

/-- A report with an edit that is allowed in one sense is one with an edit that is allowed in a
weaker sense. -/
theorem Operation.Reports.imp {allowed weaker : Socket.Edit → Prop}
    (h : ∀ e, allowed e → weaker e) {op : Operation} (hop : op.Reports allowed) :
    op.Reports weaker := by
  cases op with
  | edit e => exact h e hop
  | _ => exact hop

/-- If the operation edits the socket, then as allowed. -/
def Operation.Edits (allowed : Socket.Edit → Prop) : Operation → Prop
  | .edit e => allowed e
  | _ => True

/-- Every operation edits the socket as allowed if everything is allowed. -/
theorem Operation.edits_any (op : Operation) : op.Edits fun _ => True := by
  cases op <;> trivial

/-- If the operation adopts the algorithm, then with a timer that fires the connection itself. -/
def Operation.AdoptsItself : Operation → Prop
  | .adopt target => target = .connection
  | _ => True

/-- An operation is a report unless it adopts or drops the algorithm. -/
theorem Operation.Edits.cases {allowed : Socket.Edit → Prop} {op : Operation}
    (h : op.Edits allowed) :
    op.Reports allowed ∨ (∃ target, op = .adopt target) ∨ op = .release ∨ op = .renew := by
  cases op with
  | adopt target => exact .inr (.inl ⟨target, rfl⟩)
  | release => exact .inr (.inr (.inl rfl))
  | renew => exact .inr (.inr (.inr rfl))
  | _ => exact .inl h

namespace Connection

/-- A property of connections that every report, every firing and every write of the host keeps.
The host writes its socket by carrying out an answer, by letting time pass, or by an allowed
edit. -/
structure Stable (allowed : Socket.Edit → Prop) (P : Connection → Prop) : Prop where
  ack : ∀ c phase acked, P c → P (c.ack phase acked)
  sample : ∀ c x, P c → P (c.sample x)
  reduce : ∀ c, P c → P c.reduce
  undo : ∀ c, P c → P c.undo
  changeState : ∀ c state, P c → P (c.changeState state)
  windowEvent : ∀ c event, P c → P (c.windowEvent event)
  fire : ∀ c phase, P c → P (c.fire phase).2
  shrink : ∀ c (features : Socket.Features), P c →
    P (c.reduce.mapSocket fun s => features.present (Session.shrink c.lossThreshold s))
  restore : ∀ c (features : Socket.Features), P c →
    P (c.undo.mapSocket fun s => features.present { s with cwnd := c.undoCwnd })
  advance : ∀ c (features : Socket.Features) d, P c →
    P (c.mapSocket fun s => features.present (s.advance d))
  edit : ∀ c (features : Socket.Features) e, allowed e → P c →
    P (c.mapSocket fun s => features.present (s.edit e))

/-- A stable property that adopting and dropping the algorithm keep too. -/
structure Lasting (allowed : Socket.Edit → Prop) (P : Connection → Prop) : Prop
    extends Stable allowed P where
  release : ∀ c, P c → P c.release
  adopt : ∀ c, P c → P c.adopt
  attach : ∀ c timer phase, P c → P (c.attach timer phase)
  renew : ∀ c config, P c → P { c.release with engine := Engine.ofConfig config }

end Connection

namespace Session

open Timer (Target)

/-- The tasks of all timers fire the connection itself. -/
def OwnTimers (s : Session) : Prop := ∀ task ∈ s.timers.tasks, task.target = .connection

variable {allowed : Socket.Edit → Prop} {P : Connection → Prop}

/-- A firing keeps what firing the connection keeps. -/
theorem tryFire_of_stable (h : Connection.Stable allowed P) {s : Session} (hs : P s.connection)
    (locked : Bool) : P (s.tryFire locked).2.connection := by
  rcases (s.tryFire_frame locked).1 with heq | ⟨phase, heq⟩ <;> rw [heq]
  · exact hs
  · exact h.fire _ phase hs

/-- The turn of a timer that fires the connection starts no other kind of timer. -/
theorem ownTimers_serveConnection {s : Session} (hs : s.OwnTimers) (locked : Bool) (id : Nat) :
    (s.serveConnection locked id).OwnTimers := by
  intro task hmem
  rcases mem_tasks_serveConnection hmem with hold | ⟨-, hnew⟩
  · exact hs task hold
  · exact hnew

/-- A stable property survives the passing of time if all timers fire the connection itself. -/
theorem turns_of_stable (h : Connection.Stable allowed P) (locked : Bool) (last : Nat) :
    Turns (fun s => P s.connection ∧ s.OwnTimers) locked last where
  moveTo _ _ hs := hs
  endTask _ _ hs _ := ⟨hs.1, fun task hmem => hs.2 task (List.mem_filter.mp hmem).1⟩
  serveSync _ hs := hs
  serveTask s task hs hmem _ := by
    rw [serveTask, hs.2 task hmem]
    exact ⟨connection_serveConnection h.fire hs.1 locked task.id,
      ownTimers_serveConnection hs.2 locked task.id⟩

/-! ## What an operation does to the connection -/

/-- Cancelling the timer of the connection leaves the tasks and the number of timers alone. -/
theorem cancelTimer_frame (s : Session) :
    s.cancelTimer.timers.tasks = s.timers.tasks ∧
      s.cancelTimer.timers.nextId = s.timers.nextId := by
  unfold cancelTimer
  split
  · exact ⟨rfl, List.length_modify _ _ _⟩
  · exact ⟨rfl, rfl⟩

/-- Adopting the algorithm starts the engine over, and arms a new timer or none. -/
theorem adopt_cases (s : Session) (target : Target) :
    (s.adopt target).connection = s.connection.adopt ∧
        (s.adopt target).timers = s.cancelTimer.timers ∨
      (s.adopt target).connection = s.connection.adopt.attach s.timers.nextId s.host.phase ∧
        (s.adopt target).timers = s.cancelTimer.timers.arm
          (s.host.ticker.sleep ((s.adopt target).connection.nextDelay s.host.phase)) target := by
  have hhost : s.cancelTimer.host = s.host := by
    unfold cancelTimer
    split <;> rfl
  simp only [adopt]
  split
  · split
    · right
      simp only [attach, note, Host.note, Host.phase, Host.nowInCycle, hhost]
      rw [s.cancelTimer_frame.2]
      exact ⟨rfl, trivial⟩
    · exact .inl ⟨rfl, rfl⟩
  · exact .inl ⟨rfl, rfl⟩

/-- An adoption that leaves the connection with a timer brings handover awareness on. -/
theorem connection_adopt_of_armed {s : Session} {target : Target}
    (harmed : (s.adopt target).connection.timer.isSome = true) :
    (s.adopt target).connection = s.connection.adopt.attach s.timers.nextId s.host.phase := by
  rcases s.adopt_cases target with ⟨heq, -⟩ | ⟨heq, -⟩
  · rw [heq] at harmed
    cases harmed
  · exact heq

/-- Adopting the algorithm keeps a lasting property. -/
theorem adopt_of_lasting (h : Connection.Lasting allowed P) {s : Session} (hs : P s.connection)
    (target : Target) : P (s.adopt target).connection := by
  have hadopted : P s.connection.adopt := h.adopt _ hs
  rcases s.adopt_cases target with ⟨heq, -⟩ | ⟨heq, -⟩ <;> rw [heq]
  · exact hadopted
  · exact h.attach _ _ _ hadopted

/-- Playing a step of a script keeps a lasting property. -/
theorem play_of_lasting (h : Connection.Lasting allowed P) {s : Session} (hs : P s.connection)
    (locked : Bool) (step : Timer.ScriptStep) : P (s.play locked step).2.connection := by
  cases step with
  | rearm delay => exact hs
  | busy => exact hs
  | stop => exact hs
  | fire => exact tryFire_of_stable h.toStable hs locked
  | release => exact h.release _ hs
  | releaseStop => exact h.release _ hs
  | readopt => exact adopt_of_lasting h hs .connection

/-- The turn of a timer with a scripted target keeps a lasting property. -/
theorem serveScript_of_lasting (h : Connection.Lasting allowed P) (locked : Bool) (id : Nat)
    (steps : List Timer.ScriptStep) {s : Session} (hs : P s.connection) :
    P (serveScript locked id steps s).connection := by
  refine serveScript_keeps (I := fun t => P t.connection) (fun _ ht => ht)
    (fun t begun ht hbegin => ?_) (fun _ _ ht => ht)
    (fun t step _ ht => play_of_lasting h ht locked step) (fun t outcome ht => ?_)
    (fun _ _ _ ht => ht) hs
  · obtain ⟨record, rfl⟩ := beginFiring?_frame hbegin
    exact ht
  · rw [connection_endFiring]
    exact ht

/-- A lasting property survives the passing of time, whatever the targets of the timers are. -/
theorem turns_of_lasting (h : Connection.Lasting allowed P) (locked : Bool) (last : Nat) :
    Turns (fun s => P s.connection) locked last where
  moveTo _ _ hs := hs
  endTask _ _ hs _ := hs
  serveSync _ hs := hs
  serveTask s task hs _ _ := by
    unfold serveTask
    split
    · exact connection_serveConnection h.fire hs locked task.id
    · exact serveScript_of_lasting h locked task.id _ hs

/-- An operation that only reports keeps a stable property and whatever the timers satisfy, if
letting time pass keeps both. -/
theorem perform_reports (h : Connection.Stable allowed P) {T : Timer.Table → Prop}
    (hturns : ∀ locked last, Turns (fun s => P s.connection ∧ T s.timers) locked last)
    {s : Session} {op : Operation} (hs : P s.connection ∧ T s.timers) (hop : op.Reports allowed) :
    P (s.perform op).1.connection ∧ T (s.perform op).1.timers := by
  cases op with
  | adopt target => exact hop.elim
  | release => exact hop.elim
  | renew => exact hop.elim
  | ack acked times step =>
      exact repeat_keeps (I := fun s => P s.connection ∧ T s.timers)
        (f := fun s => (s.mapSocket (·.advance step)).ack acked)
        (fun s hs => ⟨h.ack _ _ _ (h.advance _ _ _ hs.1), hs.2⟩) times hs
  | sample x times step =>
      exact repeat_keeps (I := fun s => P s.connection ∧ T s.timers)
        (f := fun s => (s.mapSocket (·.advance step)).sample x)
        (fun s hs => ⟨h.sample _ _ (h.advance _ _ _ hs.1), hs.2⟩) times hs
  | recalc => exact ⟨h.reduce _ hs.1, hs.2⟩
  | reduce => exact ⟨h.shrink _ _ hs.1, hs.2⟩
  | undo apply =>
      cases apply with
      | false => exact ⟨h.undo _ hs.1, hs.2⟩
      | true => exact ⟨h.restore _ _ hs.1, hs.2⟩
  | changeState state => exact ⟨h.changeState _ _ hs.1, hs.2⟩
  | windowEvent event => exact ⟨h.windowEvent _ _ hs.1, hs.2⟩
  | edit e => exact ⟨h.edit _ _ e hop hs.1, hs.2⟩
  | advance d => exact ⟨h.advance _ _ _ hs.1, hs.2⟩
  | callback =>
      simp only [perform]
      split
      · exact ⟨h.fire _ _ hs.1, hs.2⟩
      · exact hs
  | fire locked =>
      refine ⟨tryFire_of_stable h hs.1 locked, ?_⟩
      show T (s.tryFire locked).2.timers
      rw [(s.tryFire_frame locked).2]
      exact hs.2
  | run ms locked onSocket =>
      have hrun := (hturns locked (s.host.ticker.now + ms)).run hs
      simp only [perform]
      split
      · exact ⟨h.advance _ _ _ hrun.1, hrun.2⟩
      · exact hrun
  | clock op => exact hs

/-- A stable property outlives every history of reports if all timers fire the connection
itself. -/
theorem performAll_of_stable (h : Connection.Stable allowed P) {s : Session}
    {ops : List Operation} (hs : P s.connection) (hown : s.OwnTimers)
    (hops : ∀ op ∈ ops, op.Reports allowed) : P (s.performAll ops).connection := by
  have hstep : ∀ (s : Session) (op : Operation), P s.connection ∧ s.OwnTimers →
      op.Reports allowed →
      P (s.perform op).1.connection ∧ (s.perform op).1.OwnTimers :=
    fun _ _ hs hop => perform_reports h
      (T := fun t => ∀ task ∈ t.tasks, task.target = .connection) (turns_of_stable h) hs hop
  exact (Along.performAll hstep ⟨hs, hown⟩ (along_of_forall hops s)).1

/-- Dropping the algorithm starts no other kind of timer. -/
theorem ownTimers_cancelTimer {s : Session} (hs : s.OwnTimers) : s.cancelTimer.OwnTimers := by
  intro task hmem
  rw [s.cancelTimer_frame.1] at hmem
  exact hs task hmem

/-- Adopting the algorithm with the connection as target starts no other kind of timer. -/
theorem ownTimers_adopt {s : Session} (hs : s.OwnTimers) : (s.adopt .connection).OwnTimers := by
  have hcancelled := ownTimers_cancelTimer hs
  intro task hmem
  rcases s.adopt_cases .connection with ⟨-, heq⟩ | ⟨-, heq⟩ <;> rw [heq] at hmem
  · exact hcancelled task hmem
  · rcases List.mem_append.mp hmem with hold | hnew
    · exact hcancelled task hold
    · rw [List.mem_singleton.mp hnew]

/-- An operation that adopts the algorithm, if at all, with the connection as target starts no other
kind of timer. -/
theorem ownTimers_perform {s : Session} {op : Operation} (hs : s.OwnTimers)
    (hop : op.AdoptsItself) : (s.perform op).1.OwnTimers := by
  have htrivial : Connection.Stable (fun _ => True) (fun _ => True) := by
    constructor <;> intros <;> trivial
  have hreports := fun hreports : op.Reports fun _ => True =>
    (perform_reports htrivial (T := fun t => ∀ task ∈ t.tasks, task.target = .connection)
      (turns_of_stable htrivial) ⟨trivial, hs⟩ hreports).2
  cases op with
  | adopt target =>
      cases hop
      exact ownTimers_adopt hs
  | release => exact ownTimers_cancelTimer hs
  | renew => exact ownTimers_cancelTimer hs
  | _ => exact hreports trivial

/-- While every adoption has the connection as target, all timers fire the connection itself. -/
theorem ownTimers_performAll {s : Session} (hs : s.OwnTimers) {ops : List Operation}
    (hops : ∀ op ∈ ops, op.AdoptsItself) : (s.performAll ops).OwnTimers :=
  Along.performAll (fun _ _ => ownTimers_perform) hs (along_of_forall hops s)

/-- What a new session is: its gate is open, and it has no timers. -/
theorem eq_of_create {config : Config} {socket : Socket.Edit} {features : Socket.Features}
    {source : TimeSource} {tickerAvailable : Bool} {s : Session}
    (h : create config socket features source tickerAvailable = .ok s) :
    s = { host := Host.create source tickerAvailable
          config := config
          features := features
          connection :=
            { link := { socket := features.present (Socket.create socket) }
              engine := Engine.ofConfig config
              schedule := Handover.Schedule.ofConfig config } } := by
  unfold create Connection.create at h
  cases hvalid : config.validate with
  | ok => simpa [hvalid] using h.symm
  | error e => simp [hvalid] at h

/-- A new session has no timers. -/
theorem ownTimers_create {config : Config} {socket : Socket.Edit} {features : Socket.Features}
    {source : TimeSource} {tickerAvailable : Bool} {s : Session}
    (h : create config socket features source tickerAvailable = .ok s) : s.OwnTimers := by
  rw [eq_of_create h]
  exact fun task hmem => absurd hmem List.not_mem_nil

/-- An operation keeps a lasting property. -/
theorem perform_of_lasting (h : Connection.Lasting allowed P) {s : Session} {op : Operation}
    (hs : P s.connection) (hop : op.Edits allowed) : P (s.perform op).1.connection := by
  have hturns : ∀ locked last, Turns (fun s => P s.connection ∧ True) locked last := by
    intro locked last
    simpa using turns_of_lasting h locked last
  rcases hop.cases with hreport | ⟨target, rfl⟩ | rfl | rfl
  · exact (perform_reports (T := fun _ => True) h.toStable hturns ⟨hs, trivial⟩ hreport).1
  · exact adopt_of_lasting h hs target
  · exact h.release _ hs
  · exact h.renew _ _ hs

/-- A lasting property outlives every history. -/
theorem performAll_of_lasting (h : Connection.Lasting allowed P) {s : Session}
    {ops : List Operation} (hs : P s.connection) (hops : ∀ op ∈ ops, op.Edits allowed) :
    P (s.performAll ops).connection :=
  Along.performAll (I := fun s => P s.connection) (fun _ _ => perform_of_lasting h) hs
    (along_of_forall hops s)

/-- A connection with a window of 40 packets, at the instant of a handover. -/
def atHandover : Session where
  host := Host.create (.simulated Handover.instant 0) true
  config := {}
  features := .full
  connection :=
    { link := { socket := Socket.create { cwnd := some 40 } }
      engine := Engine.ofConfig {}
      schedule := Handover.Schedule.ofConfig {} }

/-- The example is a new session. -/
theorem create_atHandover :
    create {} { cwnd := some 40 } .full (.simulated Handover.instant 0) true = .ok atHandover := rfl

/-- A connection with a window of 40 packets, a second before a handover. -/
def secondBefore (config : Config) (socket : Socket.Edit) : Session where
  host := Host.create (.simulated 11000000000 0) true
  config := config
  features := .full
  connection :=
    { link := { socket := Socket.create { socket with cwnd := some 40 } }
      engine := Engine.ofConfig config
      schedule := Handover.Schedule.ofConfig config }

/-- With a valid configuration, the example is a new session. -/
theorem create_secondBefore {config : Config} (h : config.validate = .ok ())
    (socket : Socket.Edit) :
    create config { socket with cwnd := some 40 } .full (.simulated 11000000000 0) true =
      .ok (secondBefore config socket) := by
  simp only [create, Connection.create, h]
  rfl

end Session

end LowOrbit
