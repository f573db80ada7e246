import LowOrbit.Cubic
import LowOrbit.Reno

/-!
# Window engines

An engine is the algorithm of a connection with all that it remembers. It answers every report of
the host with its own new state and with the new state of the socket, and knows nothing of
handovers: where a window is asked for, the caller decides which one is in force.
-/

namespace LowOrbit

/-- The algorithm of a connection with its memory. Reno has none. -/
inductive Engine where
  | reno
  | cubic (cubic : Cubic)
  deriving DecidableEq, Repr

namespace Engine

/-- A new engine of the configured algorithm. -/
def ofConfig (c : Config) : Engine :=
  match c.algorithm with
  | .reno => .reno
  | .cubic => .cubic (Cubic.ofConfig c)

/-- The engine and the socket when the connection adopts the algorithm. -/
def adopt (e : Engine) (s : Socket) : Engine × Socket :=
  match e with
  | .reno => (.reno, s)
  | .cubic c => (.cubic (c.adopt s), { s with ssthresh := c.adoptedSsthresh s })

/-- The slow start threshold after a loss at window `cwnd`. -/
def lossThreshold (e : Engine) (cwnd : Nat) : Nat :=
  match e with
  | .reno => Reno.lossThreshold cwnd
  | .cubic c => c.lossThreshold cwnd

/-- The engine after a loss at window `cwnd`. -/
def reduce (e : Engine) (cwnd : Nat) : Engine :=
  match e with
  | .reno => .reno
  | .cubic c => .cubic (c.reduce cwnd)

/-- Grows the window by an acknowledgment of `acked` packets. -/
def grow (e : Engine) (s : Socket) (acked : Nat) : Engine × Socket :=
  match e with
  | .reno => (.reno, Reno.grow s acked)
  | .cubic c => let (c, s) := c.grow s acked; (.cubic c, s)

/-- The engine after a change of the congestion avoidance state. -/
def changeState (e : Engine) (s : Socket) (state : AvoidanceState) : Engine :=
  match e, state with
  | .cubic c, .loss => .cubic (c.startOver s)
  | e, _ => e

/-- The engine after a congestion window event. -/
def windowEvent (e : Engine) (s : Socket) (event : WindowEvent) : Engine :=
  match e, event with
  | .cubic c, .sendStart => .cubic (c.skipIdle s)
  | e, _ => e

/-- The reasons to leave slow start that a sample brings up. -/
def exits (e : Engine) (s : Socket) (sample : RttSample) : List Exit :=
  match e with
  | .reno => []
  | .cubic c => c.exits s sample

/-- The engine and the socket after a round-trip time sample. A reason to leave slow start lowers
the threshold to the window. -/
def sample (e : Engine) (s : Socket) (sample : RttSample) : Engine × Socket :=
  match e with
  | .reno => (.reno, s)
  | .cubic c =>
    (.cubic (c.sample s sample),
      if (c.exits s sample).isEmpty then s else { s with ssthresh := s.cwnd })

/-- How often slow start was left early. -/
def exitCounters : Engine → ExitCounters
  | .reno => {}
  | .cubic c => c.hystart.counters

end Engine

end LowOrbit
