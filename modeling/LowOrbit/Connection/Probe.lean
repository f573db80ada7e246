import LowOrbit.Connection

/-!
# Opening an epoch after a loss

What the CUBIC engine makes of a loss, seen from outside: the slow start threshold, and the curve
of the epoch that the next acknowledgment opens.
-/

namespace LowOrbit.Connection

/-- The outcome of a loss and one acknowledgment after it. -/
structure EpochProbe where
  /-- The slow start threshold after the loss. -/
  threshold : Nat
  /-- The time from the start of the epoch to its origin. -/
  k : Nat
  origin : Nat
  /-- The acknowledged packets per packet of growth. -/
  pace : Nat
  deriving DecidableEq, Repr

/-- The outcome of a loss of a new connection at window `lastMax`, whose host then sets the window
to `cwnd` in congestion avoidance, and of one acknowledged packet. There is none with Reno. -/
def probeEpoch (config : Config) (lastMax cwnd : Nat) : Except Error (Option EpochProbe) :=
  match create { config with handover := false } (Socket.create { cwnd := some lastMax }) with
  | .ok c =>
    let reduced := c.reduce.mapSocket fun s => { s with cwnd := cwnd, ssthresh := 0 }
    match (reduced.ack 0 1).engine with
    | .cubic cubic =>
      .ok (some { threshold := c.lossThreshold, k := cubic.state.k, origin := cubic.state.origin,
                  pace := cubic.state.pace })
    | .reno => .ok none
  | .error e => .error e

end LowOrbit.Connection
