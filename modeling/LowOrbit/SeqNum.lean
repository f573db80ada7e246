/-!
# Sequence numbers

Sequence numbers count sent data modulo `2 ^ 32`, so their order is that of a circle: of two
numbers, the later is the one reached by going forward at most half way around.
-/

namespace LowOrbit

/-- A sequence number, modulo `2 ^ 32`. -/
abbrev SeqNum := UInt32

/-- Whether `a` comes after `b`. Two numbers exactly half a circle apart come after each
other. -/
def SeqNum.after (a b : SeqNum) : Bool := 0x80000000 ≤ b - a

example : SeqNum.after 3 4294967293 = true ∧ SeqNum.after 4294967293 3 = false := by decide
example : SeqNum.after 7 7 = false := by decide

end LowOrbit
