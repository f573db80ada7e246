import LowOrbit.Session.Run

/-!
# Operations on a session

Everything that can happen to a connection: what its host does with the algorithm and the socket,
what the network reports, and the passing of time. Each operation has an answer.
-/

namespace LowOrbit

/-- An operation on a session. -/
inductive Operation where
  /-- The connection adopts the algorithm, with this target for its timer. -/
  | adopt (target : Timer.Target)
  /-- The connection drops the algorithm. -/
  | release
  /-- The congestion control state is replaced by a new one. -/
  | renew
  /-- Acknowledgments of `acked` packets each, with `step` nanoseconds of socket time before
  each. -/
  | ack (acked times step : Nat)
  /-- Round-trip time samples, with `step` nanoseconds of socket time before each. -/
  | sample (sample : RttSample) (times step : Nat)
  /-- The host asks for the slow start threshold after a loss. -/
  | recalc
  /-- The same, and the host reduces its window to it. -/
  | reduce
  /-- The host asks for the window to restore after a loss that did not happen, and restores it
  if `apply`. -/
  | undo (apply : Bool)
  | changeState (state : AvoidanceState)
  | windowEvent (event : WindowEvent)
  /-- The host writes the socket. -/
  | edit (e : Socket.Edit)
  /-- Lets nanoseconds of socket time pass. -/
  | advance (d : Nat)
  /-- The host calls the timer callback of the handover schedule if there is one. -/
  | callback
  /-- The host fires the connection as a timer would, locked or not. -/
  | fire (locked : Bool)
  /-- Lets milliseconds of ticker time pass, with the connection locked or not, and then the same
  on the socket if `onSocket`. -/
  | run (ms : Nat) (locked onSocket : Bool)
  /-- An operation on the phase clock. -/
  | clock (op : Host.ClockOp)
  deriving DecidableEq, Repr

/-- The answer to an operation. -/
inductive Answer where
  | nothing
  | count (n : Nat)
  | outcome (o : Timer.Outcome)
  | result (r : Except Error Unit)

namespace Session

/-- The session after the host has asked for the slow start threshold after a loss, and the
threshold. -/
def recalc (s : Session) : Session × Nat :=
  ({ s with connection := s.connection.reduce }, s.connection.lossThreshold)

/-- The host's answer to a loss: an open window shrinks to the slow start threshold. -/
def shrink (threshold : Nat) (socket : Socket) : Socket :=
  { socket with
    priorCwnd := socket.cwnd
    ssthresh := threshold
    cwnd := if socket.cwnd = 0 then 0 else threshold }

/-- Performs an operation. -/
def perform (s : Session) : Operation → Session × Answer
  | .adopt target => (s.adopt target, .nothing)
  | .release => (s.release, .nothing)
  | .renew => (s.renew, .nothing)
  | .ack acked times step =>
    (Nat.repeat (fun s => (s.mapSocket (·.advance step)).ack acked) times s, .nothing)
  | .sample sample times step =>
    (Nat.repeat (fun s => (s.mapSocket (·.advance step)).sample sample) times s, .nothing)
  | .recalc =>
    let (s, threshold) := s.recalc
    (s, .count threshold)
  | .reduce =>
    let (s, threshold) := s.recalc
    (s.mapSocket (shrink threshold), .count threshold)
  | .undo apply =>
    let cwnd := s.connection.undoCwnd
    let s := { s with connection := s.connection.undo }
    (if apply then s.mapSocket fun socket => { socket with cwnd := cwnd } else s, .count cwnd)
  | .changeState state =>
    ({ s with connection := s.connection.changeState state }, .nothing)
  | .windowEvent event =>
    ({ s with connection := s.connection.windowEvent event }, .nothing)
  | .edit e => (s.mapSocket (·.edit e), .nothing)
  | .advance d => (s.mapSocket (·.advance d), .nothing)
  | .callback =>
    if s.connection.timer.isSome then
      let (outcome, s) := s.fire
      (s, .outcome outcome)
    else (s, .nothing)
  | .fire locked =>
    let (outcome, s) := s.tryFire locked
    (s, .outcome outcome)
  | .run ms locked onSocket =>
    let s := s.run ms locked
    (if onSocket then s.mapSocket (·.advance (Nanos.millis ms)) else s, .nothing)
  | .clock op =>
    let answer := match s.host.answer? op with
      | some result => .result result
      | none => .nothing
    ({ s with host := s.host.perform op }, answer)

end Session

end LowOrbit
