import LowOrbit.Proofs.Calls
import LowOrbit.Proofs.Stability

/-!
# A suspension leaves no trace

While a connection is suspended, its host goes on to report losses, losses that did not happen,
changes of state and transmissions. The window in force is with the gate then and not with the
socket. A suspended connection nevertheless follows, call by call, one that is not suspended
(`Connection.Shadows`), as long as acknowledgments find the handover under way; and once it has been
resumed, nothing tells the two apart but the retransmission deadline and the count of wake-ups
(`Connection.suspension_transparent`).
-/

namespace LowOrbit

open Handover (Action Gate Link Schedule Window)
open Socket (Edit)

namespace Connection

/-- The connection with its gate shut. -/
def suspend (c : Connection) (extend : Nat) : Connection := { c with link := c.link.suspend extend }

/-- The connection with its gate opened. -/
def resume (c : Connection) : Connection := { c with link := c.link.resume }

/-- A call that suspension hides from the network: an acknowledgment during the handover, or
anything else but a write to the window. -/
def Call.Covered (c : Connection) : Call → Prop
  | .ack phase _ => c.inBlackout phase = true
  | .edit e => e.cwnd = none
  | _ => True

/-- The suspended connection `held` has with its gate the window that `plain` has with its socket,
and is the same otherwise, up to the retransmission deadline. -/
structure Shadows (held plain : Connection) : Prop where
  engine : held.engine = plain.engine
  opened : plain.link.gate = .opened
  cwnd_pos : 0 < plain.link.socket.cwnd
  gate : held.link.gate = .suspended plain.link.socket.cwnd
  socket : ∃ rto, held.link.socket = { plain.link.socket with cwnd := 0, rto := rto }

variable {held plain : Connection}

/-- A connection with an open gate and an open window is shadowed by itself, suspended. -/
theorem shadows_suspend {c : Connection} (hopen : c.link.gate = .opened)
    (hcwnd : 0 < c.link.socket.cwnd) (extend : Nat) : (c.suspend extend).Shadows c := by
  have hlink : (c.suspend extend).link =
      { gate := .suspended c.link.socket.cwnd
        socket := { c.link.socket with cwnd := 0, rto := c.link.socket.rto.map (· + extend) } } :=
    if_neg (by rw [(Link.isClosed_eq_false_iff _).mpr hcwnd]; decide)
  exact ⟨rfl, hopen, hcwnd, by rw [hlink], _, by rw [hlink]⟩

/-- A shadow has the same window in force. -/
theorem Shadows.effectiveCwnd_eq (h : held.Shadows plain) :
    held.link.effectiveCwnd = plain.link.effectiveCwnd := by
  simp only [Link.effectiveCwnd, h.gate, h.opened]

/-- During the handover, acknowledgments leave a connection with a closed window alone. -/
theorem ack_of_inBlackout {c : Connection} (hclosed : c.link.isClosed = true) {phase : Nat}
    (hblackout : c.inBlackout phase = true) (acked : Nat) : c.ack phase acked = c := by
  have hkeep : c.schedule.ackAction phase true = .keep := by
    simp only [inBlackout, Schedule.inBlackout, hclosed, Bool.and_eq_true] at hblackout
    unfold Schedule.ackAction Window.ackAction
    split at hblackout
    · rename_i hmode
      rw [if_pos hmode]
    · rename_i hmode
      rw [if_neg hmode, if_pos hblackout.2, if_pos rfl]
  have hreconcile : c.reconcile phase = c := by
    unfold reconcile Schedule.reconcile
    rw [hclosed, hkeep]
    split <;> rfl
  rcases c.ack_cases phase acked with ⟨-, heq⟩ | ⟨-, -, heq⟩ | ⟨-, hout, -⟩
  · exact heq
  · rw [heq, hreconcile]
  · rw [hblackout] at hout
    cases hout

/-- A write that commutes with closing the window and with setting the deadline leaves a shadow a
shadow. -/
theorem Shadows.mapSocket (h : held.Shadows plain) {f : Socket → Socket}
    (hcwnd : ∀ s, (f s).cwnd = s.cwnd)
    (hf : ∀ s rto, ∃ rto', f { s with cwnd := 0, rto := rto } =
      { f s with cwnd := 0, rto := rto' }) :
    (held.mapSocket f).Shadows (plain.mapSocket f) := by
  obtain ⟨rto, hsocket⟩ := h.socket
  refine ⟨h.engine, h.opened, ?_, ?_, ?_⟩
  · show 0 < (f plain.link.socket).cwnd
    rw [hcwnd]
    exact h.cwnd_pos
  · show held.link.gate = .suspended (f plain.link.socket).cwnd
    rw [hcwnd]
    exact h.gate
  · show ∃ rto', f held.link.socket = { f plain.link.socket with cwnd := 0, rto := rto' }
    rw [hsocket]
    exact hf plain.link.socket rto

/-- Undoing a loss raises the window of the gate as it raises that of the socket. -/
theorem Shadows.undo (h : held.Shadows plain) : (held.call .undo).Shadows (plain.call .undo) := by
  obtain ⟨rto, hsocket⟩ := h.socket
  have hheld : (held.call .undo).link =
      { gate := .suspended (max plain.link.socket.cwnd plain.link.socket.priorCwnd)
        socket := held.link.socket } := by
    simp [call, Connection.undo, Connection.mapSocket, Link.raiseSaved, undoCwnd, isSuspended,
      h.gate, Gate.isSuspended, hsocket]
  have hplain : (plain.call .undo).link =
      { gate := .opened
        socket := { plain.link.socket with
          cwnd := max plain.link.socket.cwnd plain.link.socket.priorCwnd } } := by
    simp [call, Connection.undo, Connection.mapSocket, Link.raiseSaved, undoCwnd, isSuspended,
      h.opened, Gate.isSuspended, Socket.undoWindow]
  refine ⟨h.engine, ?_, ?_, ?_, rto, ?_⟩
  · rw [hplain]
  · rw [hplain]
    exact Nat.lt_of_lt_of_le h.cwnd_pos (Nat.le_max_left _ _)
  · rw [hheld, hplain]
  · rw [hheld, hplain]
    exact hsocket

/-- A shadow answers a call as its original does, and stays a shadow. Acknowledgments reach the
shadow only. -/
theorem Shadows.call (h : held.Shadows plain) {call : Call} (hcall : call.Covered held) :
    held.threshold? call = plain.threshold? call ∧
      (held.call call).Shadows (if call.isAck then plain else plain.call call) := by
  obtain ⟨rto, hsocket⟩ := h.socket
  cases call with
  | ack phase acked =>
      have hclosed : held.link.isClosed = true := (Link.isClosed_iff _).mpr (by rw [hsocket])
      refine ⟨rfl, ?_⟩
      show (held.ack phase acked).Shadows plain
      rw [ack_of_inBlackout hclosed hcall]
      exact h
  | reduce =>
      refine ⟨?_, ?_, h.opened, h.cwnd_pos, h.gate, rto, hsocket⟩
      · show some held.lossThreshold = some plain.lossThreshold
        rw [lossThreshold, lossThreshold, h.engine, h.effectiveCwnd_eq]
      · show held.engine.reduce held.link.effectiveCwnd =
          plain.engine.reduce plain.link.effectiveCwnd
        rw [h.engine, h.effectiveCwnd_eq]
  | undo => exact ⟨rfl, h.undo⟩
  -- The engine looks at the time and the next sequence number of the socket only.
  | changeState state =>
      refine ⟨rfl, ?_, h.opened, h.cwnd_pos, h.gate, rto, hsocket⟩
      show held.engine.changeState held.link.socket state =
        plain.engine.changeState plain.link.socket state
      rw [h.engine, hsocket]
      cases plain.engine <;> cases state <;> rfl
  | windowEvent event =>
      refine ⟨rfl, ?_, h.opened, h.cwnd_pos, h.gate, rto, hsocket⟩
      show held.engine.windowEvent held.link.socket event =
        plain.engine.windowEvent plain.link.socket event
      rw [h.engine, hsocket]
      cases plain.engine <;> cases event <;> rfl
  | advance d =>
      exact ⟨rfl, h.mapSocket (f := (·.advance d)) (fun _ => rfl) fun _ rto => ⟨rto, rfl⟩⟩
  | edit e =>
      have he : e.cwnd = none := hcall
      refine ⟨rfl, h.mapSocket (Socket.cwnd_edit he) fun s rto => ⟨e.rto.getD rto, ?_⟩⟩
      simp only [Socket.edit, he, Option.getD_none]

/-- A shadow gives the answers of its original in the course of all calls, and stays a shadow. -/
theorem Shadows.callAll {calls : List Call} (h : held.Shadows plain)
    (hcalls : Along (fun c call => call.Covered c) held calls) :
    held.thresholds calls = plain.thresholds (calls.filter (!·.isAck)) ∧
      (held.callAll calls).Shadows (plain.callAll (calls.filter (!·.isAck))) := by
  induction calls generalizing held plain with
  | nil => exact ⟨rfl, h⟩
  | cons call rest ih =>
      obtain ⟨hanswer, hstep⟩ := h.call hcalls.1
      obtain ⟨hanswers, hsteps⟩ := ih hstep hcalls.2
      cases hack : call.isAck with
      | true =>
          have hsilent : held.threshold? call = none := by
            cases call with
            | ack phase acked => rfl
            | _ => cases hack
          simp only [hack, if_true] at hanswers hsteps
          simp only [List.filter_cons, hack, Bool.not_true, Bool.false_eq_true, if_false]
          refine ⟨?_, hsteps⟩
          rw [thresholds, hsilent]
          exact hanswers
      | false =>
          simp only [hack, Bool.false_eq_true, if_false] at hanswers hsteps
          simp only [List.filter_cons, hack, Bool.not_false, if_true]
          refine ⟨?_, hsteps⟩
          rw [thresholds, thresholds, hanswer, hanswers]

/-- Once a shadow is resumed, it has the window of its original, and nothing tells the links apart
but the deadline and the count of wake-ups. -/
theorem Shadows.link_resume (h : held.Shadows plain) :
    held.resume.link =
      { plain.link with
        socket := { plain.link.socket with
          rto := held.resume.link.socket.rto
          wakeUps := held.resume.link.socket.wakeUps } } := by
  obtain ⟨rto, hsocket⟩ := h.socket
  have hcwnd : max held.link.gate.saved Handover.minCwnd = plain.link.socket.cwnd := by
    rw [h.gate]
    exact Nat.max_eq_left h.cwnd_pos
  have hclosed : held.link.isClosed = true := (Link.isClosed_iff _).mpr (by rw [hsocket])
  have hopen := h.opened
  obtain ⟨⟨gate, socket⟩, engine, schedule, timer⟩ := plain
  subst hopen
  show held.link.resume = _
  simp only [resume, Link.resume, hclosed, if_true, hcwnd, Socket.wakeWriters, hsocket]
  split <;> rfl

/-- Whatever a host reports to a suspended connection, apart from samples, shows after its
resumption as if there had been no suspension: all answers are the same, and so are the engine and
the link, up to the retransmission deadline and the count of wake-ups. This holds of every engine,
and the acknowledgments that arrive during the handover may as well not have arrived. -/
theorem suspension_transparent {c : Connection} (hopen : c.link.gate = .opened)
    (hcwnd : 1 ≤ c.link.socket.cwnd) (extend : Nat) (calls : List Call)
    (hcalls : Along (fun c call => call.Covered c) (c.suspend extend) calls) :
    let resumed := ((c.suspend extend).callAll calls).resume
    let plain := c.callAll (calls.filter (!·.isAck))
    (c.suspend extend).thresholds calls = c.thresholds (calls.filter (!·.isAck)) ∧
      resumed.engine = plain.engine ∧
      resumed.link =
        { plain.link with
          socket := { plain.link.socket with
            rto := resumed.link.socket.rto
            wakeUps := resumed.link.socket.wakeUps } } := by
  obtain ⟨hanswers, hshadows⟩ := (shadows_suspend hopen hcwnd extend).callAll hcalls
  exact ⟨hanswers, hshadows.engine, hshadows.link_resume⟩

/-- The connection of the example is suspended with its 40 packets, loses some of them, learns that
it did not, and loses some of the 90 packets that it has then. -/
theorem suspension_transparent_atHandover :
    let c : Connection := { Session.atHandover.connection with timer := some 0 }
    let calls : List Call :=
      [.ack Handover.instant 5, .reduce, .edit { priorCwnd := some 90, sndNxt := some 7 }, .undo,
        .advance 30000000, .windowEvent .sendStart, .reduce, .ack Handover.instant 2]
    let resumed := ((c.suspend 400000000).callAll calls).resume
    let plain := c.callAll (calls.filter (!·.isAck))
    (c.suspend 400000000).thresholds calls = c.thresholds (calls.filter (!·.isAck)) ∧
      resumed.engine = plain.engine ∧
      resumed.link =
        { plain.link with
          socket := { plain.link.socket with
            rto := resumed.link.socket.rto
            wakeUps := resumed.link.socket.wakeUps } } :=
  suspension_transparent rfl (by decide) 400000000 _
    ⟨rfl, trivial, rfl, trivial, trivial, trivial, trivial, rfl, trivial⟩

end Connection

end LowOrbit
