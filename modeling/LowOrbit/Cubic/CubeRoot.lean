/-!
# Integer cube roots

A fast approximate cube root of a 64-bit number: the leading bits select a first guess from a
table, and one Newton step refines it. The guess is within a few percent, and the step leaves an
error below one unit for small arguments and of a few thousandths for large ones.
-/

namespace LowOrbit.CubeRoot

/-- The first guesses: entry `i` is about `64 * cbrt i - 10`, and a little more where that makes
the refined root better. -/
def table : List Nat :=
  [0, 54, 54, 54, 118, 118, 118, 118, 123, 129, 134, 138, 143, 147, 151,
   156, 157, 161, 164, 168, 170, 173, 176, 179, 181, 185, 187, 190, 192,
   194, 197, 199, 200, 202, 204, 206, 209, 211, 213, 215, 217, 219, 221,
   222, 224, 225, 227, 229, 231, 232, 234, 236, 237, 239, 240, 242, 244,
   245, 246, 248, 250, 251, 252, 254]

/-- The entry of the table at `i`, and zero outside it. -/
def entry (i : Nat) : Nat := table.getD i 0

/-- The number of binary digits of `a`. -/
def bitLength (a : Nat) : Nat := if a = 0 then 0 else a.log2 + 1

/-- About a third of the binary digits of `a`, by which `a` is scaled to the table. -/
def exponent (a : Nat) : Nat := bitLength a * 84 / 256 - 1

/-- The place in the table that `a` selects: `a` without three times `exponent a` of its low
digits. -/
def index (a : Nat) : Nat := a >>> (exponent a * 3)

/-- The first guess for `a`. -/
def guess (a : Nat) : Nat := ((entry (index a) + 10) <<< exponent a) >>> 6

/-- A Newton step for the cube root of `a` from `x`: a third of `2 * x + a / x ^ 2`, with `x ^ 2`
replaced by `x * (x - 1)` and the third by 341/1024. -/
def refine (a x : Nat) : Nat := (2 * x + a / max (x * (x - 1)) 1) * 341 / 1024

/-- The approximate cube root of `a`. Numbers below 64 are looked up. -/
def cubeRoot (a : Nat) : Nat :=
  if a < 64 then (entry a + 35) / 64 else refine a (guess a)

example : cubeRoot 1000000 = 100 := by decide

end LowOrbit.CubeRoot
