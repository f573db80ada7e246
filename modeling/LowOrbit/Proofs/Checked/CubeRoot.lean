import Mathlib.Tactic.Ring
import LowOrbit.Cubic.CubeRoot
import LowOrbit.Proofs.Checked.Arithmetic

/-!
# Cube roots without faults

The cube root of a 64-bit number, computed with checked arithmetic. The leading digits of a number
of 64 or more select a place between 8 and 63 of the table (`CubeRoot.index_bounds`), so that the
first guess is at least 4 and its square, less than itself, does not vanish. The main theorem is
`CubeRoot.cubeRootChecked_eq`.
-/

namespace LowOrbit.CubeRoot

/-- The number of zeros in front of the binary digits of a 64-bit number. -/
def leadingZeros (a : Nat) : Nat := 64 - bitLength a

/-- The root of a number that is looked up. -/
def lookUpChecked (a : Nat) : Checked Nat := do
  let value ← Checked.entry table a
  let sum ← Checked.add maxCount value 35
  Checked.shiftRight 32 sum 6

/-- The first guess for a number of so many binary digits. -/
def guessChecked (a digits : Nat) : Checked Nat := do
  let scaled ← Checked.mul maxCount digits 84
  let third ← Checked.shiftRight 32 scaled 8
  let exponent ← Checked.sub third 1
  let distance ← Checked.mul maxCount exponent 3
  let index ← Checked.shiftRight 64 a distance
  let value ← Checked.entry table index
  let sum ← Checked.add maxCount64 value 10
  let scaledUp ← Checked.shiftLeft 64 sum exponent
  Checked.shiftRight 64 scaledUp 6

/-- The Newton step from `x`. -/
def refineChecked (a x : Nat) : Checked Nat := do
  let twice ← Checked.mul maxCount64 2 x
  let less ← Checked.sub x 1
  let square ← Checked.mul maxCount64 x less
  let quotient ← Checked.div a (max square 1)
  let sum ← Checked.add maxCount64 twice quotient
  let product ← Checked.mul maxCount64 sum 341
  let root ← Checked.shiftRight 64 product 10
  Checked.narrow maxCount root

/-- The approximate cube root of `a`. -/
def cubeRootChecked (a : Nat) : Checked Nat := do
  let digits ← Checked.sub 64 (leadingZeros a)
  if digits < 7 then lookUpChecked a
  else
    let x ← guessChecked a digits
    refineChecked a x

/-- The entries of the table are numbers of 8 binary digits. -/
theorem entry_le (i : Nat) : entry i ≤ 254 := by
  by_cases h : i < 64
  · have hall : ∀ j : Fin 64, entry j ≤ 254 := by decide
    exact hall ⟨i, h⟩
  · have houtside : table[i]? = none := List.getElem?_eq_none (Nat.le_of_not_lt h)
    simp [entry, houtside]

/-- From the place 8 on, the entries are at least 123. -/
theorem le_entry {i : Nat} (hlow : 8 ≤ i) (hhigh : i < 64) : 123 ≤ entry i := by
  have hall : ∀ j : Fin 64, 8 ≤ j.val → 123 ≤ entry j := by decide
  exact hall ⟨i, hhigh⟩ hlow

variable {a : Nat}

/-- A 64-bit number has at most 64 binary digits. -/
theorem bitLength_le (h : a ≤ maxCount64) : bitLength a ≤ 64 := by
  unfold bitLength
  split
  · exact Nat.zero_le _
  · rename_i hne
    have hlog : a.log2 < 64 := (Nat.log2_lt hne).mpr (Nat.lt_of_le_of_lt h (by decide))
    omega

/-- A number has seven or more binary digits if and only if it is 64 or more. -/
theorem bitLength_lt_iff : bitLength a < 7 ↔ a < 64 := by
  unfold bitLength
  split
  · omega
  · rename_i hne
    have hlog : a.log2 < 6 ↔ a < 64 := Nat.log2_lt hne
    omega

/-- A number has as many binary digits as it needs. -/
theorem bitLength_bounds (h : 0 < a) :
    2 ^ (bitLength a - 1) ≤ a ∧ a < 2 ^ bitLength a := by
  have hne := Nat.ne_of_gt h
  rw [bitLength, if_neg hne, Nat.add_sub_cancel]
  exact ⟨Nat.log2_self_le hne, Nat.lt_log2_self⟩

/-- For numbers of 64 or more, taking three times the exponent off leaves between four and six
binary digits. -/
theorem exponent_bounds (hlarge : 64 ≤ a) (hfits : a ≤ maxCount64) :
    1 ≤ exponent a ∧ exponent a ≤ 20 ∧ 3 + exponent a * 3 ≤ bitLength a - 1 ∧
      bitLength a ≤ 6 + exponent a * 3 := by
  have hlow : ¬ bitLength a < 7 := mt bitLength_lt_iff.mp (Nat.not_lt.mpr hlarge)
  have hhigh := bitLength_le hfits
  simp only [exponent]
  omega

/-- A number of 64 or more, in terms of the scale by which it is brought to the table. -/
theorem scale_bounds (hlarge : 64 ≤ a) (hfits : a ≤ maxCount64) :
    8 * 2 ^ (exponent a * 3) ≤ a ∧ a < 64 * 2 ^ (exponent a * 3) := by
  obtain ⟨-, -, hlow, hhigh⟩ := exponent_bounds hlarge hfits
  obtain ⟨hle, hlt⟩ := bitLength_bounds (a := a) (by omega)
  constructor
  · calc 8 * 2 ^ (exponent a * 3) = 2 ^ (3 + exponent a * 3) := by rw [Nat.pow_add]
      _ ≤ 2 ^ (bitLength a - 1) := Nat.pow_le_pow_right (by decide) hlow
      _ ≤ a := hle
  · calc a < 2 ^ bitLength a := hlt
      _ ≤ 2 ^ (6 + exponent a * 3) := Nat.pow_le_pow_right (by decide) hhigh
      _ = 64 * 2 ^ (exponent a * 3) := by rw [Nat.pow_add]

/-- The place in the table that a number of 64 or more selects is in its upper part. -/
theorem index_bounds (hlarge : 64 ≤ a) (hfits : a ≤ maxCount64) : 8 ≤ index a ∧ index a < 64 := by
  obtain ⟨hlow, hhigh⟩ := scale_bounds hlarge hfits
  have hpos : 0 < 2 ^ (exponent a * 3) := Nat.two_pow_pos _
  rw [index, Nat.shiftRight_eq_div_pow]
  exact ⟨(Nat.le_div_iff_mul_le hpos).mpr hlow, (Nat.div_lt_iff_lt_mul hpos).mpr hhigh⟩

/-- The first guess is a little more than the scale, and at most four times as much. -/
theorem guess_bounds (hlarge : 64 ≤ a) (hfits : a ≤ maxCount64) :
    2 * 2 ^ exponent a ≤ guess a ∧ guess a ≤ 5 * 2 ^ exponent a := by
  obtain ⟨hlow, hhigh⟩ := index_bounds hlarge hfits
  have hentry := le_entry hlow hhigh
  have hentry' := entry_le (index a)
  have hle := Nat.mul_le_mul_right (2 ^ exponent a) (show 133 ≤ entry (index a) + 10 by omega)
  have hge := Nat.mul_le_mul_right (2 ^ exponent a) (show entry (index a) + 10 ≤ 264 by omega)
  rw [guess, Nat.shiftLeft_eq, Nat.shiftRight_eq_div_pow]
  omega

/-- The quotient in the Newton step is about as large as the guess. -/
theorem quotient_lt (hlarge : 64 ≤ a) (hfits : a ≤ maxCount64) :
    a / max (guess a * (guess a - 1)) 1 < 32 * 2 ^ exponent a := by
  have hscale := (scale_bounds hlarge hfits).2
  have hguess := (guess_bounds hlarge hfits).1
  have hpos : 0 < 2 ^ exponent a := Nat.two_pow_pos _
  have hsquare : 2 * 2 ^ exponent a * 2 ^ exponent a ≤ guess a * (guess a - 1) :=
    Nat.mul_le_mul hguess (by omega)
  refine Nat.div_lt_of_lt_mul (Nat.lt_of_lt_of_le hscale ?_)
  calc 64 * 2 ^ (exponent a * 3) =
        2 * 2 ^ exponent a * 2 ^ exponent a * (32 * 2 ^ exponent a) := by
          rw [Nat.pow_mul]
          ring
    _ ≤ guess a * (guess a - 1) * (32 * 2 ^ exponent a) := Nat.mul_le_mul_right _ hsquare
    _ ≤ max (guess a * (guess a - 1)) 1 * (32 * 2 ^ exponent a) :=
        Nat.mul_le_mul_right _ (Nat.le_max_left _ _)

/-- The scale of a 64-bit number is small. -/
theorem two_pow_exponent_le (hlarge : 64 ≤ a) (hfits : a ≤ maxCount64) :
    2 ^ exponent a ≤ 1048576 :=
  Nat.pow_le_pow_right (by decide) (exponent_bounds hlarge hfits).2.1

/-- The cube root of a 64-bit number is a count. -/
theorem cubeRoot_le (hfits : a ≤ maxCount64) : cubeRoot a ≤ maxCount := by
  have hsmall := entry_le a
  unfold cubeRoot
  split
  · simp only [maxCount]
    omega
  · rename_i hlarge
    have hguess := (guess_bounds (Nat.le_of_not_lt hlarge) hfits).2
    have hquotient := quotient_lt (Nat.le_of_not_lt hlarge) hfits
    have hscale := two_pow_exponent_le (Nat.le_of_not_lt hlarge) hfits
    simp only [refine, maxCount]
    omega

/-- Small numbers are looked up without a fault. -/
theorem lookUpChecked_eq (hsmall : a < 64) : lookUpChecked a = .ok ((entry a + 35) / 64) := by
  have hvalue : Checked.entry table a = .ok (entry a) := Checked.entry_ok hsmall
  have hsum : Checked.add maxCount (entry a) 35 = .ok (entry a + 35) :=
    Checked.add_ok (Nat.le_trans (Nat.add_le_add_right (entry_le a) 35) (by decide))
  have hroot : Checked.shiftRight 32 (entry a + 35) 6 = .ok ((entry a + 35) / 64) :=
    Checked.shiftRight_ok (by decide)
  simp only [lookUpChecked, hvalue, hsum, hroot, Checked.ok_bind]

/-- The first guess for large numbers is found without a fault. -/
theorem guessChecked_eq (hlarge : 64 ≤ a) (hfits : a ≤ maxCount64) :
    guessChecked a (bitLength a) = .ok (guess a) := by
  obtain ⟨hexponent, hexponent', -, -⟩ := exponent_bounds hlarge hfits
  have hlength := bitLength_le hfits
  have hscale := two_pow_exponent_le hlarge hfits
  have hentry := entry_le (index a)
  have hscaled : Checked.mul maxCount (bitLength a) 84 = .ok (bitLength a * 84) :=
    Checked.mul_ok (by simp only [maxCount]; omega)
  have hthird : Checked.shiftRight 32 (bitLength a * 84) 8 = .ok (bitLength a * 84 / 256) :=
    Checked.shiftRight_ok (by decide)
  have hless : Checked.sub (bitLength a * 84 / 256) 1 = .ok (exponent a) :=
    Checked.sub_ok (by simp only [exponent] at hexponent; omega)
  have hdistance : Checked.mul maxCount (exponent a) 3 = .ok (exponent a * 3) :=
    Checked.mul_ok (by simp only [maxCount]; omega)
  have hindex : Checked.shiftRight 64 a (exponent a * 3) = .ok (index a) := if_pos (by omega)
  have hvalue : Checked.entry table (index a) = .ok (entry (index a)) :=
    Checked.entry_ok (index_bounds hlarge hfits).2
  have hsum : Checked.add maxCount64 (entry (index a)) 10 = .ok (entry (index a) + 10) :=
    Checked.add_ok (by simp only [maxCount64]; omega)
  have hproduct : (entry (index a) + 10) * 2 ^ exponent a ≤ 264 * 1048576 :=
    Nat.mul_le_mul (by omega) hscale
  have hscaledUp : Checked.shiftLeft 64 (entry (index a) + 10) (exponent a) =
      .ok ((entry (index a) + 10) * 2 ^ exponent a) :=
    Checked.shiftLeft_ok (by omega) (Nat.lt_of_le_of_lt hproduct (by decide))
  have hguess : Checked.shiftRight 64 ((entry (index a) + 10) * 2 ^ exponent a) 6 =
      .ok (guess a) := by
    rw [guess, Nat.shiftLeft_eq]
    exact if_pos (by decide)
  simp only [guessChecked, hscaled, hthird, hless, hdistance, hindex, hvalue, hsum, hscaledUp,
    hguess, Checked.ok_bind]

/-- The Newton step for large numbers is made without a fault. -/
theorem refineChecked_eq (hlarge : 64 ≤ a) (hfits : a ≤ maxCount64) :
    refineChecked a (guess a) = .ok (refine a (guess a)) := by
  obtain ⟨hguess, hguess'⟩ := guess_bounds hlarge hfits
  have hscale := two_pow_exponent_le hlarge hfits
  have hpos : 0 < 2 ^ exponent a := Nat.two_pow_pos _
  have hquotient := quotient_lt hlarge hfits
  have hroot := cubeRoot_le hfits
  rw [cubeRoot, if_neg (Nat.not_lt.mpr hlarge), refine] at hroot
  generalize guess a = x at *
  generalize hq : a / max (x * (x - 1)) 1 = q at *
  have htwice : Checked.mul maxCount64 2 x = .ok (2 * x) :=
    Checked.mul_ok (by simp only [maxCount64]; omega)
  have hless : Checked.sub x 1 = .ok (x - 1) := Checked.sub_ok (by omega)
  have hsmall : x * (x - 1) ≤ 5242880 * 5242880 := Nat.mul_le_mul (by omega) (by omega)
  have hsquare : Checked.mul maxCount64 x (x - 1) = .ok (x * (x - 1)) :=
    Checked.mul_ok (Nat.le_trans hsmall (by decide))
  have hdivided : Checked.div a (max (x * (x - 1)) 1) = .ok q := by
    rw [Checked.div_ok (Nat.lt_of_lt_of_le Nat.zero_lt_one (Nat.le_max_right _ _)), hq]
  have hsum : Checked.add maxCount64 (2 * x) q = .ok (2 * x + q) :=
    Checked.add_ok (by simp only [maxCount64]; omega)
  have hproduct : Checked.mul maxCount64 (2 * x + q) 341 = .ok ((2 * x + q) * 341) :=
    Checked.mul_ok (by simp only [maxCount64]; omega)
  have hshifted : Checked.shiftRight 64 ((2 * x + q) * 341) 10 = .ok ((2 * x + q) * 341 / 1024) :=
    Checked.shiftRight_ok (by decide)
  have hnarrow : Checked.narrow maxCount ((2 * x + q) * 341 / 1024) =
      .ok ((2 * x + q) * 341 / 1024) := Checked.narrow_ok hroot
  simp only [refineChecked, refine, htwice, hless, hsquare, hdivided, hq, hsum, hproduct, hshifted,
    hnarrow, Checked.ok_bind]

/-- The cube root of a 64-bit number is computed without a fault. -/
theorem cubeRootChecked_eq (hfits : a ≤ maxCount64) : cubeRootChecked a = .ok (cubeRoot a) := by
  have hzeros : 64 - leadingZeros a = bitLength a := by
    have := bitLength_le hfits
    simp only [leadingZeros]
    omega
  have hdigits : Checked.sub 64 (leadingZeros a) = .ok (bitLength a) := by
    rw [Checked.sub_ok (by simp only [leadingZeros]; omega), hzeros]
  simp only [cubeRootChecked, hdigits, Checked.ok_bind, bitLength_lt_iff, cubeRoot]
  split
  · rename_i hsmall
    exact lookUpChecked_eq hsmall
  · rename_i hlarge
    rw [guessChecked_eq (Nat.le_of_not_lt hlarge) hfits, Checked.ok_bind]
    exact refineChecked_eq (Nat.le_of_not_lt hlarge) hfits

end LowOrbit.CubeRoot
