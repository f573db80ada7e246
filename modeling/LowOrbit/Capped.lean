/-!
# Counts that stop at their largest value

Windows and counters have a fixed width, and arithmetic that would leave it stops at the largest
value instead of wrapping around. Counts are natural numbers, and each operation names the width
at which it stops.
-/

namespace LowOrbit

/-- The largest window or packet count: 32 binary ones. -/
def maxCount : Nat := 4294967295

/-- The largest number of 64 binary digits. -/
def maxCount64 : Nat := 18446744073709551615

/-- The largest number of 128 binary digits. -/
def maxCount128 : Nat := 340282366920938463463374607431768211455

/-- The sum of two counts, stopping at the largest count. -/
def countAdd (a b : Nat) : Nat := min (a + b) maxCount

/-- The product of two counts, stopping at the largest count. -/
def countMul (a b : Nat) : Nat := min (a * b) maxCount

/-- The product of two numbers of 64 digits, stopping at the largest. -/
def mul64 (a b : Nat) : Nat := min (a * b) maxCount64

/-- The product of two numbers of 128 digits, stopping at the largest. -/
def mul128 (a b : Nat) : Nat := min (a * b) maxCount128

/-- A sum is the usual one as long as it fits. -/
theorem countAdd_of_le {a b : Nat} (h : a + b ≤ maxCount) : countAdd a b = a + b :=
  Nat.min_eq_left h

/-- A sum never exceeds the usual one. -/
theorem countAdd_le_add (a b : Nat) : countAdd a b ≤ a + b := Nat.min_le_left _ _

/-- A sum is a count. -/
theorem countAdd_le_maxCount (a b : Nat) : countAdd a b ≤ maxCount := Nat.min_le_right _ _

/-- Adding to a count does not make it smaller. -/
theorem le_countAdd {a : Nat} (h : a ≤ maxCount) (b : Nat) : a ≤ countAdd a b :=
  Nat.le_min.mpr ⟨Nat.le_add_right a b, h⟩

/-- Two sums in a row are one. -/
theorem countAdd_countAdd (a b c : Nat) : countAdd (countAdd a b) c = countAdd a (b + c) := by
  unfold countAdd
  omega

/-- A product is the usual one as long as it fits. -/
theorem countMul_of_le {a b : Nat} (h : a * b ≤ maxCount) : countMul a b = a * b :=
  Nat.min_eq_left h

end LowOrbit
