import Mathlib.Algebra.Group.Nat.Defs
import LowOrbit.Capped

/-!
# Checked arithmetic

Arithmetic on numbers of a fixed width that says what went wrong instead of wrapping around or
stopping. Each operation gives the result of the same operation on natural numbers if that fits
(`Checked.add_ok` and its like), and a `Fault` otherwise. Operations that stop at the largest count,
such as `countAdd`, and operations that wrap around have no faults and stay as they are.
-/

namespace LowOrbit

/-- What can go wrong in an arithmetic operation. -/
inductive Fault where
  /-- The result, or the distance of a shift, does not fit the width. -/
  | overflow
  /-- The result would be negative. -/
  | underflow
  /-- A length of time would be negative. -/
  | negativeDuration
  | divisionByZero
  /-- A table has no entry at the index. -/
  | outOfBounds
  deriving DecidableEq, Repr

/-- The result of a computation, or the first fault in it. -/
abbrev Checked := Except Fault

namespace Checked

/-- The sum of two numbers. -/
def add (limit a b : Nat) : Checked Nat := if a + b ≤ limit then .ok (a + b) else .error .overflow

/-- The product of two numbers. -/
def mul (limit a b : Nat) : Checked Nat := if a * b ≤ limit then .ok (a * b) else .error .overflow

/-- The difference of two numbers. -/
def sub (a b : Nat) : Checked Nat := if b ≤ a then .ok (a - b) else .error .underflow

/-- The difference of two lengths of time. -/
def subTime (a b : Nat) : Checked Nat := if b ≤ a then .ok (a - b) else .error .negativeDuration

/-- The whole quotient of two numbers. -/
def div (a b : Nat) : Checked Nat := if b = 0 then .error .divisionByZero else .ok (a / b)

/-- The remainder of two numbers. -/
def rem (a b : Nat) : Checked Nat := if b = 0 then .error .divisionByZero else .ok (a % b)

/-- A number of `bits` binary digits, shifted to the left without losing any. -/
def shiftLeft (bits a distance : Nat) : Checked Nat :=
  if distance < bits ∧ a <<< distance < 2 ^ bits then .ok (a <<< distance) else .error .overflow

/-- A number of `bits` binary digits, shifted to the right. -/
def shiftRight (bits a distance : Nat) : Checked Nat :=
  if distance < bits then .ok (a >>> distance) else .error .overflow

/-- A number in a narrower width. -/
def narrow (limit a : Nat) : Checked Nat := if a ≤ limit then .ok a else .error .overflow

/-- The entry of a table at an index. -/
def entry (table : List Nat) (i : Nat) : Checked Nat :=
  match table[i]? with
  | some value => .ok value
  | none => .error .outOfBounds

variable {limit a b : Nat}

/-- A sum that fits is the sum. -/
theorem add_ok (h : a + b ≤ limit) : add limit a b = .ok (a + b) := if_pos h

/-- A product that fits is the product. -/
theorem mul_ok (h : a * b ≤ limit) : mul limit a b = .ok (a * b) := if_pos h

/-- The difference to a smaller number is the difference. -/
theorem sub_ok (h : b ≤ a) : sub a b = .ok (a - b) := if_pos h

/-- The difference to a shorter length of time is the difference. -/
theorem subTime_ok (h : b ≤ a) : subTime a b = .ok (a - b) := if_pos h

/-- A quotient by a positive number is the quotient. -/
theorem div_ok (h : 0 < b) : div a b = .ok (a / b) := if_neg (Nat.ne_of_gt h)

/-- A remainder by a positive number is the remainder. -/
theorem rem_ok (h : 0 < b) : rem a b = .ok (a % b) := if_neg (Nat.ne_of_gt h)

/-- A shift to the left that loses no digits is a multiplication. -/
theorem shiftLeft_ok {bits distance : Nat} (hdistance : distance < bits)
    (hfits : a * 2 ^ distance < 2 ^ bits) : shiftLeft bits a distance = .ok (a * 2 ^ distance) := by
  rw [← Nat.shiftLeft_eq] at hfits ⊢
  exact if_pos ⟨hdistance, hfits⟩

/-- A shift to the right is a division. -/
theorem shiftRight_ok {bits distance : Nat} (h : distance < bits) :
    shiftRight bits a distance = .ok (a / 2 ^ distance) := by
  rw [← Nat.shiftRight_eq_div_pow]
  exact if_pos h

/-- A number that fits a narrower width stays as it is. -/
theorem narrow_ok (h : a ≤ limit) : narrow limit a = .ok a := if_pos h

/-- The entry at an index within a table is the entry. -/
theorem entry_ok {table : List Nat} {i : Nat} (h : i < table.length) :
    entry table i = .ok (table.getD i 0) := by
  simp [entry, h]

/-- A computation goes on with the result of one that went well. -/
@[simp]
theorem ok_bind {α β : Type} (a : α) (f : α → Checked β) : (Except.ok a >>= f : Checked β) = f a :=
  rfl

end Checked

end LowOrbit
