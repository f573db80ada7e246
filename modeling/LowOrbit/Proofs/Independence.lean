import LowOrbit.Proofs.Accounts
import LowOrbit.Proofs.Outline

/-!
# Suspension does not depend on the algorithm

Two connections with the same host, the same schedule and the same history are suspended, resumed
and woken up together, whatever algorithms grow their windows and however far these have drifted
apart (`Session.schedule_independent`). What an operation does to the outline of a session depends
on the outline alone (`Session.outline_perform`), because an engine never opens or closes a window:
both engines grow open windows only, and an open window stays open.
-/

namespace LowOrbit

open Socket (Edit Features)

/-- Two configurations ask for the same suspension. They may name different algorithms, give these
different parameters, and differ in what they log. -/
structure Config.SamePlan (c d : Config) : Prop where
  handover : c.handover = d.handover
  timerOnly : c.timerOnly = d.timerOnly
  window : Handover.Window.ofOffsets c.startOffset c.endOffset =
    Handover.Window.ofOffsets d.startOffset d.endOffset

/-! ## Connections -/

namespace Connection

variable {logged : Bool} {c : Connection}

/-- Growing an open window does not show in the outline. -/
theorem outline_grow (hopen : 0 < c.link.socket.cwnd) (hclamp : 0 < c.link.socket.clamp)
    (acked : Nat) : (c.grow acked).outline logged = c.outline logged := by
  have hgrown := Engine.cwnd_grow_pos hopen hclamp c.engine acked
  obtain ⟨cwnd, credit, hframe⟩ := c.engine.grow_frame c.link.socket acked
  have hsocket : (c.engine.grow c.link.socket acked).2.outline = c.link.socket.outline := by
    refine Socket.outline_eq_of_frame (by omega) ?_
    exact ⟨cwnd, credit, c.link.socket.ssthresh, c.link.socket.priorCwnd, hframe⟩
  simp only [outline, grow, Handover.Link.outline, hsocket]

/-- A sample does not show in the outline. -/
theorem outline_sample (c : Connection) (x : RttSample) :
    (c.sample x).outline logged = c.outline logged := by
  obtain ⟨ssthresh, hframe⟩ := c.engine.sample_frame c.link.socket x
  simp only [outline, sample, Handover.Link.outline, hframe]
  rfl

/-- Of an acknowledgment the outline shows that the gate is brought in line with the clock, and not
that the window grows. -/
theorem Attended.outline_ack (h : c.Attended) (phase acked : Nat) :
    (c.ack phase acked).outline logged =
      if c.link.socket.cwndLimited then (c.outline logged).reconcile phase
      else c.outline logged := by
  rcases c.ack_cases phase acked with
    ⟨hlimited, heq⟩ | ⟨hlimited, -, heq⟩ | ⟨hlimited, hout, heq⟩ <;> rw [heq, hlimited]
  · rfl
  · exact c.outline_reconcile phase
  · have hclamp : 0 < (c.reconcile phase).link.socket.clamp := by
      rw [clamp_reconcile]
      exact h.elim (·.clamp_pos) (·.clamp_pos)
    rw [outline_grow (h.cwnd_reconcile_pos hout) hclamp]
    exact c.outline_reconcile phase

/-- The answer to a loss, carried out, does not show in the outline: only an open window shrinks,
and not to zero. -/
theorem outline_shrink (c : Connection) :
    (Session.shrink c.lossThreshold c.link.socket).outline = c.link.socket.outline := by
  have hthreshold := c.lossThreshold_pos
  refine Socket.outline_eq_of_frame ?_ ⟨_, c.link.socket.credit, _, _, rfl⟩
  simp only [Session.shrink]
  split <;> omega

/-- The answer to a loss that did not happen, carried out, does not show in the outline: an open
window does not shrink, and a closed one stays closed. -/
theorem Attended.outline_restore (h : c.Attended) :
    { c.link.socket with cwnd := c.undoCwnd }.outline = c.link.socket.outline :=
  Socket.outline_eq_of_frame h.undoCwnd_eq_zero_iff
    ⟨_, c.link.socket.credit, c.link.socket.ssthresh, c.link.socket.priorCwnd, rfl⟩

end Connection

/-! ## Operations -/

namespace Session

/-- What of an acknowledgment does not depend on the engine: it is checked against the clock. -/
def check (s : Session) : Session :=
  { s with
    connection :=
      if s.connection.link.socket.cwndLimited then s.connection.reconcile s.host.phase
      else s.connection }.note (s.connection.ackNotices s.host.phase)

variable {logged : Bool} {s : Session}

/-- What a write of the host leaves of the outline depends on the outline of the socket. -/
theorem outline_mapSocket {f g : Socket → Socket}
    (h : (f s.connection.link.socket).outline = g s.connection.link.socket.outline) :
    (s.mapSocket f).outline logged = (s.outline logged).mapSocket g := by
  have hpresent : (s.features.present (f s.connection.link.socket)).outline =
      s.features.present (g s.connection.link.socket.outline) := by
    rw [Socket.outline_present, h]
  simp only [outline, mapSocket, Connection.mapSocket, Connection.outline, Handover.Link.outline,
    hpresent]

/-- The passing of time on the socket shows as such. -/
theorem outline_advance (s : Session) (d : Nat) :
    (s.mapSocket (·.advance d)).outline logged = (s.outline logged).mapSocket (·.advance d) :=
  outline_mapSocket rfl

/-- Of an acknowledgment the outline shows the check. -/
theorem outline_ack (h : s.connection.Attended) (acked : Nat) :
    (s.ack acked).outline logged = (s.outline logged).check := by
  have hlimited : (s.outline logged).connection.link.socket.cwndLimited =
      s.connection.link.socket.cwndLimited := rfl
  have hconnection : (s.outline logged).connection = s.connection.outline logged := rfl
  simp only [ack, outline_note, check, phase_outline, hlimited]
  rw [hconnection, Connection.ackNotices_outline, ← h.outline_ack s.host.phase acked]
  rfl

/-- Nothing of a sample shows in the outline. -/
theorem outline_sample (s : Session) (x : RttSample) :
    (s.sample x).outline logged = s.outline logged := by
  have hsilent : (s.outline logged).note [] = s.outline logged := by simp [note, Host.note]
  unfold sample
  rw [outline_note, Connection.filterMap_sampleNotices]
  simp only [outline, s.connection.outline_sample x]
  exact hsilent

/-- Nothing of a loss that did not happen shows in the outline. -/
theorem outline_undo (s : Session) :
    { s with connection := s.connection.undo }.outline logged = s.outline logged := by
  simp only [outline, Connection.outline, Connection.undo, Handover.Link.outline_raiseSaved]

/-- If the outline after each single step depends on the outline before it, then so it does for a
repetition, as long as what this relies on is kept. -/
theorem outline_repeat {I : Session → Prop} {f g : Session → Session}
    (hstep : ∀ s, I s → (f s).outline logged = g (s.outline logged))
    (hkeeps : ∀ s, I s → I (f s)) (n : Nat) (hs : I s) :
    (Nat.repeat f n s).outline logged = Nat.repeat g n (s.outline logged) := by
  induction n with
  | zero => rfl
  | succ n ih =>
      show (f (Nat.repeat f n s)).outline logged = g (Nat.repeat g n (s.outline logged))
      rw [hstep _ (repeat_keeps hkeeps n hs), ih]

/-- What is kept of a session whose connection is attended and whose timers fire it themselves. -/
def Tended (s : Session) : Prop := s.connection.Attended ∧ s.OwnTimers

/-- A report to a tended session leaves it tended. -/
theorem Tended.perform (h : s.Tended) {op : Operation} (hop : op.Reports Edit.SparesWindow) :
    (s.perform op).1.Tended :=
  perform_reports Connection.stable_attended
    (T := fun t => ∀ task ∈ t.tasks, task.target = .connection)
    (turns_of_stable Connection.stable_attended) h hop

/-- What a report leaves of the outline of a tended session depends on the outline alone. -/
theorem outline_perform {op : Operation} (hop : op.Reports Edit.SparesWindow) :
    ∃ next : Session → Session, ∀ s : Session, s.Tended →
      (s.perform op).1.outline logged = next (s.outline logged) := by
  have hstable := Connection.stable_attended
  cases op with
  | adopt target => exact hop.elim
  | release => exact hop.elim
  | renew => exact hop.elim
  | ack acked times step =>
      refine ⟨Nat.repeat (fun s => (s.mapSocket (·.advance step)).check) times, fun s hs => ?_⟩
      refine outline_repeat (I := fun s => s.connection.Attended)
        (f := fun s => (s.mapSocket (·.advance step)).ack acked) (fun t ht => ?_) (fun t ht => ?_)
        times hs.1
      · rw [outline_ack (hstable.advance _ _ _ ht), outline_advance]
      · exact hstable.ack _ _ _ (hstable.advance _ _ _ ht)
  | sample x times step =>
      refine ⟨Nat.repeat (fun s => s.mapSocket (·.advance step)) times, fun s _ => ?_⟩
      refine outline_repeat (I := fun _ => True)
        (f := fun s => (s.mapSocket (·.advance step)).sample x) (fun t _ => ?_) (fun _ _ => trivial)
        times trivial
      rw [outline_sample, outline_advance]
  | recalc => exact ⟨id, fun _ _ => rfl⟩
  | reduce =>
      refine ⟨(·.mapSocket id), fun s _ => ?_⟩
      exact outline_mapSocket (s := s.recalc.1) s.connection.outline_shrink
  | undo apply =>
      cases apply with
      | false => exact ⟨id, fun s _ => s.outline_undo⟩
      | true =>
          refine ⟨(·.mapSocket id), fun s hs => ?_⟩
          have hsocket : s.connection.undo.link.socket = s.connection.link.socket :=
            s.connection.link.socket_raiseSaved _
          rw [← s.outline_undo]
          refine outline_mapSocket (s := { s with connection := s.connection.undo })
            (f := fun socket => { socket with cwnd := s.connection.undoCwnd }) (g := id) ?_
          rw [hsocket]
          exact hs.1.outline_restore
  | changeState state => exact ⟨id, fun _ _ => rfl⟩
  | windowEvent event => exact ⟨id, fun _ _ => rfl⟩
  | edit e =>
      refine ⟨(·.mapSocket fun socket => (socket.edit e).outline), fun s _ => ?_⟩
      exact outline_mapSocket (Socket.outline_edit _ e)
  | advance d => exact ⟨(·.mapSocket (·.advance d)), fun s _ => s.outline_advance d⟩
  | callback =>
      refine ⟨fun s => if s.connection.timer.isSome then s.fire.2 else s, fun s _ => ?_⟩
      have htimer : (s.outline logged).connection.timer = s.connection.timer := rfl
      simp only [Session.perform, htimer, fire_outline]
      split <;> rfl
  | fire locked =>
      refine ⟨fun s => (s.tryFire locked).2, fun s _ => ?_⟩
      simp only [tryFire_outline]
      rfl
  | run ms locked onSocket =>
      refine ⟨fun s =>
        if onSocket then (s.run ms locked).mapSocket (·.advance (Nanos.millis ms))
        else s.run ms locked, fun s _ => ?_⟩
      simp only [Session.perform, ← outline_run, ← outline_advance]
      split <;> rfl
  | clock op =>
      refine ⟨fun s => { s with host := s.host.perform op }, fun s _ => ?_⟩
      simp only [Session.perform, outline, Host.outline_perform]

/-- Tended sessions with the same outline have the same outline after the same reports. The
induction is on the operations. -/
theorem outline_performAll {s t : Session} (hs : s.Tended) (ht : t.Tended)
    (houtline : s.outline logged = t.outline logged) {ops : List Operation}
    (hops : ∀ op ∈ ops, op.Reports Edit.SparesWindow) :
    (s.performAll ops).outline logged = (t.performAll ops).outline logged := by
  induction ops generalizing s t with
  | nil => exact houtline
  | cons op rest ih =>
      have hop := hops op List.mem_cons_self
      obtain ⟨next, hnext⟩ := outline_perform hop
      have hstep : (s.perform op).1.outline logged = (t.perform op).1.outline logged := by
        rw [hnext s hs, hnext t ht, houtline]
      exact ih (hs.perform hop) (ht.perform hop) hstep fun other hmem =>
        hops other (List.mem_cons_of_mem _ hmem)

/-- Reports leave a tended session tended. -/
theorem Tended.performAll (h : s.Tended) {ops : List Operation}
    (hops : ∀ op ∈ ops, op.Reports Edit.SparesWindow) : (s.performAll ops).Tended :=
  Along.performAll (fun _ _ hs hop => hs.perform hop) h (along_of_forall hops s)

/-- A new session with a positive window and clamp has no handover awareness and is open. -/
theorem unaware_create {config : Config} {socket : Edit} {features : Features}
    {source : TimeSource} {tickerAvailable : Bool}
    (hcreate : create config socket features source tickerAvailable = .ok s)
    (hcwnd : 0 < s.connection.socket.cwnd) (hclamp : 0 < s.connection.socket.clamp) :
    s.connection.Unaware :=
  ⟨hcwnd, hclamp, by rw [eq_of_create hcreate]⟩

/-- Adopting the algorithm on an open window leaves the session tended. -/
theorem tended_adopt (hcwnd : 0 < s.connection.socket.cwnd) (hclamp : 0 < s.connection.socket.clamp)
    (hown : s.OwnTimers) : (s.adopt .connection).Tended := by
  refine ⟨?_, ownTimers_adopt hown⟩
  rcases s.adopt_cases .connection with ⟨heq, -⟩ | ⟨heq, -⟩ <;> rw [heq]
  · exact Connection.attended_adopt hcwnd hclamp none
  · exact Connection.attended_adopt hcwnd hclamp (some (s.timers.nextId, s.host.phase))

/-- Whether a session is suspended can be told from its outline. -/
theorem isSuspended_outline (s : Session) (logged : Bool) :
    (s.outline logged).connection.isSuspended = s.connection.isSuspended :=
  s.connection.link.gate.isSuspended_outline

/-- The answer to the check of an acknowledgment can be told from the outline. -/
theorem inBlackout_outline (s : Session) (logged : Bool) :
    (s.outline logged).connection.inBlackout (s.outline logged).host.phase =
      s.connection.inBlackout s.host.phase :=
  s.connection.inBlackout_outline s.host.phase

/-! ## Two sessions -/

/-- New sessions have the same outline if their configurations ask for the same suspension and, in
case the outline tells what is logged, for the same logging. -/
theorem outline_create {config₁ config₂ : Config} {socket : Edit} {features : Features}
    {source : TimeSource} {tickerAvailable : Bool} {s₁ s₂ : Session}
    (hplan : config₁.SamePlan config₂) (hdebug : logged = true → config₁.debug = config₂.debug)
    (hcreate₁ : create config₁ socket features source tickerAvailable = .ok s₁)
    (hcreate₂ : create config₂ socket features source tickerAvailable = .ok s₂) :
    s₁.outline logged = s₂.outline logged := by
  have hlogs : (logged && config₁.debug) = (logged && config₂.debug) := by
    cases logged with
    | true => exact hdebug rfl
    | false => rfl
  rw [eq_of_create hcreate₁, eq_of_create hcreate₂]
  simp only [outline, Connection.outline, Handover.Schedule.ofConfig, hplan.handover,
    hplan.timerOnly, hplan.window, hlogs]

/-- Let two sessions begin on the same socket, with the same source of time and the same plan of
suspension, and with any algorithms and parameters. Give both the same reports, let both adopt the
algorithm, and give both the same reports again: acknowledgments, samples, losses, events, clock
operations, edits of the socket, firings, and time during which the connection is locked or not. The
host writes the window by carrying out answers only, and the clamp is never zero. Then both are
suspended or both are open, both give the same answer to the check of an acknowledgment, their
timers are in the same state and sleep until the same moments, a firing now asks for the same delay,
and the deadline and the number of wake-ups are the same. If both log their schedule or neither
does, their logs, which then tell every delay that a timer was armed for, differ in the sizes of
windows and in what engines have to say only. -/
theorem schedule_independent {config₁ config₂ : Config} {socket : Edit} {features : Features}
    {source : TimeSource} {tickerAvailable : Bool} {s₁ s₂ : Session}
    (hplan : config₁.SamePlan config₂)
    (hcreate₁ : create config₁ socket features source tickerAvailable = .ok s₁)
    (hcreate₂ : create config₂ socket features source tickerAvailable = .ok s₂)
    (hcwnd : 0 < s₁.connection.socket.cwnd) (hclamp : 0 < s₁.connection.socket.clamp)
    (before after : List Operation) (hbefore : ∀ op ∈ before, op.Reports Edit.SparesWindow)
    (hafter : ∀ op ∈ after, op.Reports Edit.SparesWindow) :
    let finish (s : Session) := ((s.performAll before).adopt .connection).performAll after
    let one := finish s₁
    let other := finish s₂
    one.connection.isSuspended = other.connection.isSuspended ∧
      one.connection.inBlackout one.host.phase = other.connection.inBlackout other.host.phase ∧
      one.connection.timer = other.connection.timer ∧ one.timers = other.timers ∧
      (∀ locked, (one.tryFire locked).1 = (other.tryFire locked).1) ∧
      one.connection.socket.rto = other.connection.socket.rto ∧
      one.connection.socket.wakeUps = other.connection.socket.wakeUps ∧
      (config₁.debug = config₂.debug →
        one.host.log.filterMap (Notice.outline? true) =
          other.host.log.filterMap (Notice.outline? true)) := by
  intro finish one other
  have hsocket : s₁.connection.socket = s₂.connection.socket := by
    rw [eq_of_create hcreate₁, eq_of_create hcreate₂]
    rfl
  have hown₁ := ownTimers_create hcreate₁
  have hown₂ := ownTimers_create hcreate₂
  have hnew₁ := unaware_create hcreate₁ hcwnd hclamp
  have hnew₂ := unaware_create hcreate₂ (hsocket ▸ hcwnd) (hsocket ▸ hclamp)
  -- Up to the adoption both sessions stay open, so that the adoption finds an open window.
  have hready₁ := performAll_of_stable Connection.stable_unaware hnew₁ hown₁ hbefore
  have hready₂ := performAll_of_stable Connection.stable_unaware hnew₂ hown₂ hbefore
  have htended₁ := tended_adopt hready₁.cwnd_pos hready₁.clamp_pos
    (Tended.performAll ⟨.inr hnew₁, hown₁⟩ hbefore).2
  have htended₂ := tended_adopt hready₂.cwnd_pos hready₂.clamp_pos
    (Tended.performAll ⟨.inr hnew₂, hown₂⟩ hbefore).2
  have hfinish : ∀ logged, (logged = true → config₁.debug = config₂.debug) →
      one.outline logged = other.outline logged := by
    intro logged hdebug
    have hadopted : ((s₁.performAll before).adopt .connection).outline logged =
        ((s₂.performAll before).adopt .connection).outline logged := by
      rw [outline_adopt, outline_adopt,
        outline_performAll ⟨.inr hnew₁, hown₁⟩ ⟨.inr hnew₂, hown₂⟩
          (outline_create hplan hdebug hcreate₁ hcreate₂) hbefore]
    exact outline_performAll htended₁ htended₂ hadopted hafter
  have hsilent : one.outline false = other.outline false := hfinish false (by simp)
  refine ⟨?_, ?_, ?_, ?_, fun locked => ?_, ?_, ?_, fun hdebug => ?_⟩
  · rw [← one.isSuspended_outline false, ← other.isSuspended_outline false, hsilent]
  · rw [← one.inBlackout_outline false, ← other.inBlackout_outline false, hsilent]
  · exact congrArg (·.connection.timer) hsilent
  · exact congrArg (·.timers) hsilent
  · have hanswer : ∀ t : Session,
        ((t.outline false).tryFire locked).1 = (t.tryFire locked).1 := fun t => by
      rw [tryFire_outline]
    rw [← hanswer one, ← hanswer other, hsilent]
  · exact congrArg (·.connection.socket.rto) hsilent
  · exact congrArg (·.connection.socket.wakeUps) hsilent
  · exact congrArg (·.host.log) (hfinish true fun _ => hdebug)

/-- The connection of the example with either algorithm: it is closed when it adopts the algorithm,
opened after the handover, reduced by a loss and closed again for the next handover, at the same
moments, but with 28 packets saved in one case and 20 in the other. -/
theorem schedule_independent_atHandover :
    let reno : Config := { algorithm := .reno }
    let after : List Operation :=
      [.ack 3 2 0, .run 300 true false, .run 300 false false, .reduce, .run 14300 false true]
    let second : Session :=
      { atHandover with
        config := reno, connection := { atHandover.connection with engine := .reno } }
    let finish (s : Session) := (s.adopt .connection).performAll after
    (finish atHandover).connection.isSuspended = (finish second).connection.isSuspended ∧
      (finish atHandover).timers = (finish second).timers ∧
      (finish atHandover).connection.link.gate = .suspended 28 ∧
      (finish second).connection.link.gate = .suspended 20 := by
  intro reno after second finish
  have hplan : Config.SamePlan {} reno := ⟨rfl, rfl, rfl⟩
  have hcreate : create reno { cwnd := some 40 } .full (.simulated Handover.instant 0) true =
      .ok second := rfl
  have hall := schedule_independent hplan create_atHandover hcreate (by decide) (by decide)
    [] after (by simp) (by simp [after, Operation.Reports])
  exact ⟨hall.1, hall.2.2.2.1, by decide +kernel, by decide +kernel⟩

end Session

end LowOrbit
