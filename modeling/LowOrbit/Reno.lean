import LowOrbit.Growth

/-!
# Reno

Reno halves the window on loss and otherwise grows it by one packet per window of acknowledged
packets.
-/

namespace LowOrbit.Reno

/-- The slow start threshold after a loss at this window. -/
def lossThreshold (cwnd : Nat) : Nat := max (cwnd / 2) Growth.minThreshold

/-- Grows the window by an acknowledgment of `acked` packets. -/
def grow (s : Socket) (acked : Nat) : Socket :=
  match Growth.throughSlowStart s acked with
  | (s, none) => s
  | (s, some rest) => Growth.additive s.cwnd rest s

end LowOrbit.Reno
