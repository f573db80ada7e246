import LowOrbit.Socket

/-!
# Window growth

The two rules by which acknowledged packets enlarge a congestion window. In slow start the window
grows by one packet per acknowledged packet until it reaches the slow start threshold. Beyond it
the window grows by one packet for every `divisor` acknowledged packets, and the packets counted
towards the next step are kept on the socket as credit.
-/

namespace LowOrbit.Growth

/-- The smallest slow start threshold after a loss. -/
def minThreshold : Nat := 2

/-- The window that slow start reaches with `acked` packets, before the clamp. It may lie below
the present window if the threshold does. -/
def slowStartTarget (s : Socket) (acked : Nat) : Nat :=
  min (countAdd s.cwnd acked) s.ssthresh

/-- Grows the window by one packet per acknowledged packet, up to the slow start threshold. -/
def slowStart (s : Socket) (acked : Nat) : Socket :=
  { s with cwnd := min (max (slowStartTarget s acked) s.cwnd) s.clamp }

/-- The acknowledged packets that slow start does not need to reach the threshold. -/
def slowStartRest (s : Socket) (acked : Nat) : Nat :=
  acked - min (slowStartTarget s acked - s.cwnd) acked

/-- The slow start part of an acknowledgment: the socket after it, and the packets that remain
for congestion avoidance. `none` says that slow start used them all. -/
def throughSlowStart (s : Socket) (acked : Nat) : Socket × Option Nat :=
  if s.inSlowStart then
    let rest := slowStartRest s acked
    (slowStart s acked, if rest = 0 then none else some rest)
  else (s, some acked)

/-- Turns credit that was saved under a larger divisor into a single packet. -/
def settleStale (divisor : Nat) (s : Socket) : Socket :=
  if divisor ≤ s.credit then { s with cwnd := countAdd s.cwnd 1, credit := 0 } else s

/-- Adds acknowledged packets to the credit. -/
def earn (acked : Nat) (s : Socket) : Socket :=
  { s with credit := countAdd s.credit acked }

/-- Turns every full `divisor` of credit into a packet and keeps the remainder. -/
def redeem (divisor : Nat) (s : Socket) : Socket :=
  if divisor ≤ s.credit then
    { s with cwnd := countAdd s.cwnd (s.credit / divisor),
             credit := s.credit - s.credit / divisor * divisor }
  else s

/-- Redeeming leaves less than a full divisor of credit. -/
theorem credit_redeem_lt {divisor : Nat} (h : 0 < divisor) (s : Socket) :
    (redeem divisor s).credit < divisor := by
  simp only [redeem]
  split
  · rename_i hle
    have hmod := Nat.mod_lt s.credit h
    have hdiv := Nat.div_add_mod' s.credit divisor
    simp only
    omega
  · omega

/-- Holds the window at its clamp. -/
def clampWindow (s : Socket) : Socket := { s with cwnd := min s.cwnd s.clamp }

/-- Grows the window by one packet for every `divisor` acknowledged packets. A divisor of zero
counts as one. -/
def additive (divisor acked : Nat) (s : Socket) : Socket :=
  let divisor := max divisor 1
  clampWindow (redeem divisor (earn acked (settleStale divisor s)))

/-- The window never passes its clamp. -/
theorem cwnd_additive_le_clamp (divisor acked : Nat) (s : Socket) :
    (additive divisor acked s).cwnd ≤ (additive divisor acked s).clamp :=
  Nat.min_le_right _ _

/-- Less credit remains than leads to the next step. -/
theorem credit_additive_lt (divisor acked : Nat) (s : Socket) :
    (additive divisor acked s).credit < max divisor 1 :=
  credit_redeem_lt (by omega) _

end LowOrbit.Growth
