import LowOrbit.Proofs.Frame

/-!
# Calls on a connection

What a host asks of a connection that has adopted the algorithm, one call after another, together
with its writes to the socket. Times and phases are whatever the host's clocks show: each
acknowledgment brings the phase at which it arrives.
-/

namespace LowOrbit.Connection

/-- A call on a connection, or a write to its socket. -/
inductive Call where
  /-- An acknowledgment of `acked` packets at a phase. -/
  | ack (phase acked : Nat)
  /-- The host asks for the slow start threshold after a loss. -/
  | reduce
  /-- The host asks for the window to restore after a loss that did not happen, and writes it to
  the socket. -/
  | undo
  | changeState (state : AvoidanceState)
  | windowEvent (event : WindowEvent)
  /-- Time passes on the socket. -/
  | advance (d : Nat)
  /-- The host writes the socket. -/
  | edit (e : Socket.Edit)
  deriving DecidableEq, Repr

/-- Whether a call is an acknowledgment. -/
def Call.isAck : Call → Bool
  | .ack _ _ => true
  | _ => false

/-- The connection after a call. -/
def call (c : Connection) : Call → Connection
  | .ack phase acked => c.ack phase acked
  | .reduce => c.reduce
  | .undo => c.undo.mapSocket fun s => { s with cwnd := c.undoCwnd }
  | .changeState state => c.changeState state
  | .windowEvent event => c.windowEvent event
  | .advance d => c.mapSocket (·.advance d)
  | .edit e => c.mapSocket (·.edit e)

/-- The connection after calls in order. -/
def callAll (c : Connection) (calls : List Call) : Connection := calls.foldl call c

/-- The answer to a host that asks for the slow start threshold after a loss. -/
def threshold? (c : Connection) : Call → Option Nat
  | .reduce => some c.lossThreshold
  | _ => none

/-- All such answers in the course of some calls. -/
def thresholds (c : Connection) : List Call → List Nat
  | [] => []
  | call :: rest => (c.threshold? call).toList ++ (c.call call).thresholds rest

/-- Each call of a list meets a condition on it and on the connection that is called. -/
def Along (condition : Connection → Call → Prop) : Connection → List Call → Prop
  | _, [] => True
  | c, call :: rest => condition c call ∧ Along condition (c.call call) rest

/-- A call first, then the rest. -/
theorem callAll_cons (c : Connection) (call : Call) (rest : List Call) :
    c.callAll (call :: rest) = (c.call call).callAll rest := rfl

end LowOrbit.Connection
