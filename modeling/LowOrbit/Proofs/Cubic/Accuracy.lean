import Mathlib.Tactic.Ring
import Mathlib.Tactic.Linarith
import LowOrbit.Proofs.Checked.CubeRoot

/-!
# How close the cube root comes

The approximate cube root of a small number is less than one off, and that of a large number is
within 0.3% of the exact one (`CubeRoot.cubeRoot_accuracy`). All statements are about third powers
of whole numbers, so that the exact root does not occur in them.

The error has three sources. The first guess is within about 5% of the root (`guess_near`), and a
Newton step from there is too large by about the square of that, never too small (`mean_le`). The
step divides by `x * (x - 1)` instead of `x ^ 2`, which adds little for guesses as large as these
(`refine_le`). It takes 341/1024 for a third, and both divisions round down, which together takes
off up to a thousandth and a little more than one (`lt_refine`). Below 2 to the power of 29 that one
is more than the bound allows by itself, and for small numbers it is more than the bound itself.
There the places of the table are gone through one by one. All numbers at a place have the same
first guess, so that their roots depend on a few quotients only (`HoldsAt`).
-/

namespace LowOrbit.CubeRoot

variable {a x : Nat}

/-! ## The first guess -/

/-- If a number is at least 8 at one scale and below 64 at another, the second is no smaller. -/
theorem le_of_scales {m n : Nat} (hle : 8 * 2 ^ (m * 3) ≤ a) (hlt : a < 64 * 2 ^ (n * 3)) :
    m ≤ n := by
  by_contra hgreater
  have hscale : 2 ^ (n * 3 + 3) ≤ 2 ^ (m * 3) := Nat.pow_le_pow_right (by decide) (by omega)
  rw [Nat.pow_add] at hscale
  omega

/-- From 2 to the power of 26 on, numbers are scaled by at least seven times three digits. -/
theorem seven_le_exponent (hlarge : 67108864 ≤ a) (hfits : a ≤ maxCount64) : 7 ≤ exponent a := by
  have hlow : 8 * 2 ^ (7 * 3) ≤ a := Nat.le_trans (by decide) hlarge
  exact le_of_scales hlow (scale_bounds (by omega) hfits).2

/-- The scale of the table at an exponent of at least six, by the factor to the entries. -/
theorem two_pow_mul_three {e : Nat} (h : 6 ≤ e) : 2 ^ (e * 3) = (64 * 2 ^ (e - 6)) ^ 3 := by
  obtain ⟨d, rfl⟩ := Nat.exists_eq_add_of_le h
  rw [Nat.add_sub_cancel_left, Nat.pow_mul, Nat.pow_add]

/-- A number lies between the scaled places of the table before and after it. -/
theorem index_mul_bounds (a : Nat) :
    index a * 2 ^ (exponent a * 3) ≤ a ∧ a < (index a + 1) * 2 ^ (exponent a * 3) := by
  rw [index, Nat.shiftRight_eq_div_pow]
  exact ⟨Nat.div_mul_le_self _ _,
    (Nat.div_lt_iff_lt_mul (Nat.two_pow_pos _)).mp (Nat.lt_succ_self _)⟩

/-- At an exponent of at least six, the guess is the entry times a power of two, without loss. -/
theorem guess_eq_mul (h : 6 ≤ exponent a) :
    guess a = (entry (index a) + 10) * 2 ^ (exponent a - 6) := by
  obtain ⟨d, hd⟩ := Nat.exists_eq_add_of_le h
  rw [guess, Nat.shiftLeft_eq, Nat.shiftRight_eq_div_pow, hd, Nat.add_sub_cancel_left, Nat.pow_add,
    Nat.mul_left_comm, Nat.mul_div_cancel_left _ (Nat.two_pow_pos 6)]

/-- Third powers at both ends of a place of the table, against that of its entry. -/
theorem entry_near : ∀ i : Fin 64, 8 ≤ i.val →
    855 * (entry i + 10) ^ 3 ≤ 1000 * (i * 64 ^ 3) ∧
      1000 * ((i + 1) * 64 ^ 3) ≤ 1005 * (entry i + 10) ^ 3 := by
  decide

/-- The third power of the first guess for a large number is near that number. -/
theorem guess_near (hlarge : 67108864 ≤ a) (hfits : a ≤ maxCount64) :
    855 * guess a ^ 3 ≤ 1000 * a ∧ 1000 * a ≤ 1005 * guess a ^ 3 := by
  have hexponent : 6 ≤ exponent a := Nat.le_of_succ_le (seven_le_exponent hlarge hfits)
  obtain ⟨hindex, hindex'⟩ := index_bounds (a := a) (by omega) hfits
  obtain ⟨hlow, hhigh⟩ := entry_near ⟨index a, hindex'⟩ hindex
  obtain ⟨hle, hlt⟩ := index_mul_bounds a
  rw [two_pow_mul_three hexponent] at hle hlt
  rw [guess_eq_mul hexponent]
  generalize 2 ^ (exponent a - 6) = w at hle hlt
  have hlow' := Nat.mul_le_mul_right (w ^ 3) hlow
  have hhigh' := Nat.mul_le_mul_right (w ^ 3) hhigh
  rw [Nat.mul_pow] at hle hlt ⊢
  constructor
  · calc 855 * ((entry (index a) + 10) ^ 3 * w ^ 3)
        = 855 * (entry (index a) + 10) ^ 3 * w ^ 3 := by ring
      _ ≤ 1000 * (index a * 64 ^ 3) * w ^ 3 := hlow'
      _ = 1000 * (index a * (64 ^ 3 * w ^ 3)) := by ring
      _ ≤ 1000 * a := Nat.mul_le_mul_left _ hle
  · calc 1000 * a ≤ 1000 * ((index a + 1) * (64 ^ 3 * w ^ 3)) := Nat.mul_le_mul_left _ hlt.le
      _ = 1000 * ((index a + 1) * 64 ^ 3) * w ^ 3 := by ring
      _ ≤ 1005 * (entry (index a) + 10) ^ 3 * w ^ 3 := hhigh'
      _ = 1005 * ((entry (index a) + 10) ^ 3 * w ^ 3) := by ring

/-- The first guess for a large number is not small. -/
theorem le_guess (hlarge : 67108864 ≤ a) (hfits : a ≤ maxCount64) : 266 ≤ guess a := by
  have hexponent := seven_le_exponent hlarge hfits
  obtain ⟨hindex, hindex'⟩ := index_bounds (a := a) (by omega) hfits
  have hentry := le_entry hindex hindex'
  have hscale : 2 ^ 1 ≤ 2 ^ (exponent a - 6) := Nat.pow_le_pow_right (by decide) (by omega)
  rw [guess_eq_mul (Nat.le_of_succ_le hexponent)]
  calc 266 = 133 * 2 ^ 1 := by decide
    _ ≤ (entry (index a) + 10) * 2 ^ (exponent a - 6) := Nat.mul_le_mul (by omega) hscale

/-! ## The Newton step -/

/-- The mean of three numbers, two of them equal, is at least their geometric mean. -/
theorem mean_le (x z : Nat) : 27 * (x ^ 2 * z) ≤ (2 * x + z) ^ 3 := by
  have hgap : (0 : Int) ≤ ((z : Int) - x) ^ 2 * (z + 8 * x) := by positivity
  zify
  linarith [hgap]

/-- The refined root is not much below the exact one. -/
theorem lt_refine (hx : 2 ≤ x) (a : Nat) : 1023 ^ 3 * a < (1024 * refine a x + 1364) ^ 3 := by
  have hsquare : 0 < x * (x - 1) := Nat.mul_pos (by omega) (by omega)
  have hmax : max (x * (x - 1)) 1 = x * (x - 1) := Nat.max_eq_left hsquare
  rw [refine, hmax]
  generalize hq : a / (x * (x - 1)) = q
  have hquotient : a < (q + 1) * (x * (x - 1)) := by
    rw [← Nat.div_lt_iff_lt_mul hsquare, hq]
    exact Nat.lt_succ_self q
  have hless : (q + 1) * (x * (x - 1)) ≤ x ^ 2 * (q + 1) := by
    rw [Nat.mul_comm, Nat.pow_two]
    exact Nat.mul_le_mul_right _ (Nat.mul_le_mul_left _ (Nat.sub_le _ _))
  have hround : 341 * (2 * x + (q + 1)) ≤ 1024 * ((2 * x + q) * 341 / 1024) + 1364 := by omega
  calc 1023 ^ 3 * a < 1023 ^ 3 * (x ^ 2 * (q + 1)) :=
        Nat.mul_lt_mul_of_pos_left (hquotient.trans_le hless) (by decide)
    _ = 341 ^ 3 * (27 * (x ^ 2 * (q + 1))) := by ring
    _ ≤ 341 ^ 3 * (2 * x + (q + 1)) ^ 3 := Nat.mul_le_mul_left _ (mean_le x (q + 1))
    _ = (341 * (2 * x + (q + 1))) ^ 3 := by ring
    _ ≤ (1024 * ((2 * x + q) * 341 / 1024) + 1364) ^ 3 := Nat.pow_le_pow_left hround 3

/-- Within 5% of the root, a Newton step is too large by less than the bound. It is a matter of the
ratio of `a` to the third power `c` of the guess: the difference of the sides is concave in it, and
positive at both ends. -/
theorem newton_excess {a c : Int} (ha : 0 ≤ a) (hc : 0 ≤ c) (hlow : 855 * c ≤ 1000 * a)
    (hhigh : 1000 * a ≤ 1005 * c) :
    (341 * 1000) ^ 3 * (530 * c + 266 * a) ^ 3 ≤ (1003 * 1024) ^ 3 * 265 ^ 3 * (a * c ^ 2) := by
  have hends := mul_nonneg (sub_nonneg.mpr hlow) (sub_nonneg.mpr hhigh)
  have hlow' := mul_nonneg (mul_nonneg hc hc) (sub_nonneg.mpr hlow)
  have hhigh' := mul_nonneg (mul_nonneg hc hc) (sub_nonneg.mpr hhigh)
  nlinarith [mul_nonneg hends ha, mul_nonneg hends hc]

/-- The refined root is not much above the exact one, if the guess is near and large. -/
theorem refine_le (hx : 266 ≤ x) (hlow : 855 * x ^ 3 ≤ 1000 * a)
    (hhigh : 1000 * a ≤ 1005 * x ^ 3) : (1000 * refine a x) ^ 3 ≤ 1003 ^ 3 * a := by
  have hsquare : 0 < x * (x - 1) := Nat.mul_pos (by omega) (by omega)
  have hmax : max (x * (x - 1)) 1 = x * (x - 1) := Nat.max_eq_left hsquare
  rw [refine, hmax]
  generalize hq : a / (x * (x - 1)) = q
  have hquotient : x * (x - 1) * q ≤ a := by
    rw [← hq]
    exact Nat.mul_div_le a _
  have hless : 265 * x ^ 2 ≤ 266 * (x * (x - 1)) := by
    obtain ⟨d, rfl⟩ := Nat.exists_eq_add_of_le hx
    rw [show 266 + d - 1 = 265 + d by omega]
    nlinarith
  have hstep : 265 * x ^ 2 * (2 * x + q) ≤ 530 * x ^ 3 + 266 * a := by
    nlinarith [Nat.mul_le_mul_right q hless, hquotient]
  have hexcess := newton_excess (a := a) (c := (x ^ 3 : Nat)) (by positivity) (by positivity)
    (by exact_mod_cast hlow) (by exact_mod_cast hhigh)
  have hround : 1024 * ((2 * x + q) * 341 / 1024) ≤ 341 * (2 * x + q) := by omega
  have hpos : 0 < 1024 ^ 3 * 265 ^ 3 * (x ^ 3) ^ 2 := by positivity
  refine Nat.le_of_mul_le_mul_right ?_ hpos
  calc (1000 * ((2 * x + q) * 341 / 1024)) ^ 3 * (1024 ^ 3 * 265 ^ 3 * (x ^ 3) ^ 2)
      = 1000 ^ 3 * (1024 * ((2 * x + q) * 341 / 1024)) ^ 3 * (265 * x ^ 2) ^ 3 := by ring
    _ ≤ 1000 ^ 3 * (341 * (2 * x + q)) ^ 3 * (265 * x ^ 2) ^ 3 :=
        Nat.mul_le_mul_right _ (Nat.mul_le_mul_left _ (Nat.pow_le_pow_left hround 3))
    _ = (341 * 1000) ^ 3 * (265 * x ^ 2 * (2 * x + q)) ^ 3 := by ring
    _ ≤ (341 * 1000) ^ 3 * (530 * x ^ 3 + 266 * a) ^ 3 :=
        Nat.mul_le_mul_left _ (Nat.pow_le_pow_left hstep 3)
    _ ≤ (1003 * 1024) ^ 3 * 265 ^ 3 * (a * (x ^ 3) ^ 2) := by exact_mod_cast hexcess
    _ = 1003 ^ 3 * a * (1024 ^ 3 * 265 ^ 3 * (x ^ 3) ^ 2) := by ring

/-! ## Places of the table -/

/-- The first guess for a number that is not looked up is at least two. -/
theorem two_le_guess (hlarge : 64 ≤ a) (hfits : a ≤ maxCount64) : 2 ≤ guess a :=
  (Nat.le_mul_of_pos_right 2 (Nat.two_pow_pos _)).trans (guess_bounds hlarge hfits).1

/-- The first guess for the numbers at place `i` of the table, if they have the exponent `e`. -/
def placeGuess (e i : Nat) : Nat := ((entry i + 10) <<< e) >>> 6

/-- The property `P` holds of the first guess at place `i` of the table and exponent `e`, together
with each quotient that the Newton step may find for a number there. -/
def HoldsAt (P : Nat → Nat → Prop) (e i : Nat) : Prop :=
  ∀ j : Fin (2 ^ (e * 3) / (placeGuess e i * (placeGuess e i - 1)) + 2),
    P (placeGuess e i) (i * 2 ^ (e * 3) / (placeGuess e i * (placeGuess e i - 1)) + j)

instance (P : Nat → Nat → Prop) [∀ x q, Decidable (P x q)] (e i : Nat) :
    Decidable (HoldsAt P e i) :=
  inferInstanceAs (Decidable (∀ _ : Fin _, _))

/-- What holds at the place of a number holds of its own guess and quotient. -/
theorem HoldsAt.quotient {P : Nat → Nat → Prop} (hlarge : 64 ≤ a) (hfits : a ≤ maxCount64)
    (h : HoldsAt P (exponent a) (index a)) : P (guess a) (a / (guess a * (guess a - 1))) := by
  have hguess := two_le_guess hlarge hfits
  have hsquare : 0 < guess a * (guess a - 1) := Nat.mul_pos (by omega) (by omega)
  obtain ⟨hle, hlt⟩ := index_mul_bounds a
  have hplace : placeGuess (exponent a) (index a) = guess a := rfl
  rw [HoldsAt, hplace] at h
  rw [Nat.succ_mul] at hlt
  generalize guess a * (guess a - 1) = d at h hsquare ⊢
  generalize index a * 2 ^ (exponent a * 3) = low at h hle hlt
  generalize 2 ^ (exponent a * 3) = width at h hlt
  -- Rounding at both ends can add one to the quotients that fit into the width of the place.
  have hmono : low / d ≤ a / d := Nat.div_le_div_right hle
  have hnear : a / d ≤ low / d + (width / d + 1) := by
    rw [← Nat.add_mul_div_left _ _ hsquare]
    have hwidth : width ≤ d * (width / d + 1) := (Nat.lt_mul_div_succ width hsquare).le
    exact Nat.div_le_div_right (hlt.le.trans (Nat.add_le_add_left hwidth _))
  have hquotient := h ⟨a / d - low / d, by omega⟩
  rwa [Nat.add_sub_cancel' hmono] at hquotient

/-! ## The root of a large number -/

/-- The root of numbers with the quotient `q` at the guess `x` is not more than 0.3% too small. -/
def Tight (x q : Nat) : Prop :=
  997 ^ 3 * (x * (x - 1) * (q + 1)) ≤ (1000 * ((2 * x + q) * 341 / 1024)) ^ 3

instance (x q : Nat) : Decidable (Tight x q) := inferInstanceAs (Decidable (_ ≤ _))

/-- A number with a tight quotient has a root that is not more than 0.3% too small. -/
theorem Tight.le_refine (hx : 2 ≤ x) (h : Tight x (a / (x * (x - 1)))) :
    997 ^ 3 * a ≤ (1000 * refine a x) ^ 3 := by
  have hsquare : 0 < x * (x - 1) := Nat.mul_pos (by omega) (by omega)
  rw [refine, Nat.max_eq_left hsquare]
  exact (Nat.mul_le_mul_left _ (Nat.lt_mul_div_succ a hsquare).le).trans h

/-- All quotients are tight at the places from 2 to the power of 26 up to that of 29. -/
theorem tight_holdsAt : ∀ e : Fin 9, ∀ i : Fin 64, 8 ≤ i.val →
    67108864 ≤ i.val * 2 ^ (e.val * 3) → i.val * 2 ^ (e.val * 3) < 536870912 →
      HoldsAt Tight e i := by
  decide +kernel

/-- From 2 to the power of 26 up to that of 29, all quotients are tight. -/
theorem tight_of_lt (hlarge : 67108864 ≤ a) (hsmall : a < 536870912) :
    Tight (guess a) (a / (guess a * (guess a - 1))) := by
  have hfits : a ≤ maxCount64 := Nat.le_trans hsmall.le (by decide)
  have hseven := seven_le_exponent hlarge hfits
  have height : exponent a ≤ 8 :=
    le_of_scales (scale_bounds (by omega) hfits).1 (hsmall.trans (by decide))
  obtain ⟨hindex, hindex'⟩ := index_bounds (a := a) (by omega) hfits
  obtain ⟨hle, hlt⟩ := index_mul_bounds a
  -- The bound is the start of a place, both among numbers with the exponent 7 and with 8.
  have hstart : 67108864 ≤ index a * 2 ^ (exponent a * 3) := by
    have hexponent : exponent a = 7 ∨ exponent a = 8 := by omega
    rcases hexponent with he | he <;> rw [he] at hle hlt ⊢ <;> omega
  have htight : HoldsAt Tight (exponent a) (index a) :=
    tight_holdsAt ⟨exponent a, Nat.lt_succ_of_le height⟩ ⟨index a, hindex'⟩ hindex hstart
      (hle.trans_lt hsmall)
  exact htight.quotient (by omega) hfits

/-- From 2 to the power of 29 on, roundings are less than the bound. -/
theorem le_refine_of_le (hx : 2 ≤ x) (h : 536870912 ≤ a) :
    997 ^ 3 * a ≤ (1000 * refine a x) ^ 3 := by
  have hlt := lt_refine hx a
  generalize refine a x = k at hlt ⊢
  have hroot : 657 ≤ k := by
    by_contra hshort
    have hle : (1024 * k + 1364) ^ 3 ≤ (1024 * 656 + 1364) ^ 3 := Nat.pow_le_pow_left (by omega) 3
    omega
  have hround : 997 * (1024 * k + 1364) ≤ 1023 * (1000 * k) := by linarith only [hroot]
  have hpos : 0 < 1023 ^ 3 := by decide
  refine Nat.le_of_mul_le_mul_left ?_ hpos
  calc 1023 ^ 3 * (997 ^ 3 * a) = 997 ^ 3 * (1023 ^ 3 * a) := by ring
    _ ≤ 997 ^ 3 * (1024 * k + 1364) ^ 3 := Nat.mul_le_mul_left _ hlt.le
    _ = (997 * (1024 * k + 1364)) ^ 3 := (Nat.mul_pow _ _ _).symm
    _ ≤ (1023 * (1000 * k)) ^ 3 := Nat.pow_le_pow_left hround 3
    _ = 1023 ^ 3 * (1000 * k) ^ 3 := Nat.mul_pow _ _ _

/-- From 2 to the power of 26 on, the approximate cube root is within 0.3% of the exact one. -/
theorem cubeRoot_bounds (hlarge : 67108864 ≤ a) (hfits : a ≤ maxCount64) :
    997 ^ 3 * a ≤ (1000 * cubeRoot a) ^ 3 ∧ (1000 * cubeRoot a) ^ 3 ≤ 1003 ^ 3 * a := by
  have hguess := le_guess hlarge hfits
  obtain ⟨hlow, hhigh⟩ := guess_near hlarge hfits
  rw [cubeRoot, if_neg (by omega)]
  refine ⟨?_, refine_le hguess hlow hhigh⟩
  rcases Nat.lt_or_ge a 536870912 with hsmall | hbig
  · exact (tight_of_lt hlarge hsmall).le_refine (by omega)
  · exact le_refine_of_le (by omega) hbig

/-! ## The root of a small number -/

/-- The root of numbers with the quotient `q` at the guess `x` is less than one off. -/
def Close (x q : Nat) : Prop :=
  ((2 * x + q) * 341 / 1024 - 1) ^ 3 < x * (x - 1) * q ∧
    x * (x - 1) * (q + 1) ≤ ((2 * x + q) * 341 / 1024 + 1) ^ 3

instance (x q : Nat) : Decidable (Close x q) := inferInstanceAs (Decidable (_ ∧ _))

/-- A number with a close quotient has a root that is less than one off. -/
theorem Close.refine_bounds (hx : 2 ≤ x) (h : Close x (a / (x * (x - 1)))) :
    (refine a x - 1) ^ 3 < a ∧ a < (refine a x + 1) ^ 3 := by
  have hsquare : 0 < x * (x - 1) := Nat.mul_pos (by omega) (by omega)
  rw [refine, Nat.max_eq_left hsquare]
  exact ⟨h.1.trans_le (Nat.mul_div_le a _), (Nat.lt_mul_div_succ a hsquare).trans_le h.2⟩

/-- All quotients are close at the places up to exponent 6. -/
theorem close_holdsAt : ∀ e : Fin 7, 1 ≤ e.val → ∀ i : Fin 64, 8 ≤ i.val → HoldsAt Close e i := by
  decide +kernel

/-- Below 2 to the power of 24, the approximate cube root is less than one off. -/
theorem cubeRoot_close (hlarge : 64 ≤ a) (hsmall : a < 16777216) :
    (cubeRoot a - 1) ^ 3 < a ∧ a < (cubeRoot a + 1) ^ 3 := by
  have hfits : a ≤ maxCount64 := Nat.le_trans hsmall.le (by decide)
  obtain ⟨hone, -⟩ := exponent_bounds hlarge hfits
  have hsix : exponent a ≤ 6 :=
    le_of_scales (scale_bounds hlarge hfits).1 (hsmall.trans_le (by decide))
  obtain ⟨hindex, hindex'⟩ := index_bounds hlarge hfits
  have hclose : HoldsAt Close (exponent a) (index a) :=
    close_holdsAt ⟨exponent a, Nat.lt_succ_of_le hsix⟩ hone ⟨index a, hindex'⟩ hindex
  rw [cubeRoot, if_neg (by omega)]
  exact (hclose.quotient hlarge hfits).refine_bounds (two_le_guess hlarge hfits)

/-! ## All numbers -/

/-- The approximate cube root of a 64-bit number is less than one off for numbers from 64 up to 2 to
the power of 22, and within 0.3% of the exact one from 2 to the power of 26 on. It is computed
without a fault, from a place inside the table, and is a count. -/
theorem cubeRoot_accuracy (hfits : a ≤ maxCount64) :
    let r := cubeRoot a
    (64 ≤ a → a < 2 ^ 22 → (r - 1) ^ 3 < a ∧ a < (r + 1) ^ 3) ∧
      (2 ^ 26 ≤ a → 997 ^ 3 * a ≤ (1000 * r) ^ 3 ∧ (1000 * r) ^ 3 ≤ 1003 ^ 3 * a) ∧
      cubeRootChecked a = .ok r ∧ (if a < 64 then a else index a) < 64 ∧ r ≤ maxCount := by
  refine ⟨fun hlarge hsmall => ?_, fun hlarge => ?_, cubeRootChecked_eq hfits, ?_,
    cubeRoot_le hfits⟩
  · exact cubeRoot_close hlarge (hsmall.trans (by decide))
  · exact cubeRoot_bounds hlarge hfits
  · split
    · assumption
    · rename_i hlarge
      exact (index_bounds (Nat.le_of_not_lt hlarge) hfits).2

/-- The roots of the last number that the first bound covers and of the largest number. -/
theorem cubeRoot_accuracy_ends :
    160 ^ 3 < 4194303 ∧ 4194303 < 162 ^ 3 ∧
      997 ^ 3 * maxCount64 ≤ 2641850000 ^ 3 ∧ 2641850000 ^ 3 ≤ 1003 ^ 3 * maxCount64 ∧
      cubeRootChecked maxCount64 = .ok 2641850 := by
  obtain ⟨hsmall, -⟩ := cubeRoot_accuracy (a := 4194303) (by decide)
  obtain ⟨-, hlarge, hchecked, -⟩ := cubeRoot_accuracy (a := maxCount64) (Nat.le_refl _)
  have hroot : cubeRoot 4194303 = 161 := by decide
  have hroot' : cubeRoot maxCount64 = 2641850 := by decide
  rw [hroot] at hsmall
  rw [hroot'] at hlarge hchecked
  obtain ⟨hlow, hhigh⟩ := hsmall (by decide) (by decide)
  obtain ⟨hlow', hhigh'⟩ := hlarge (by decide)
  exact ⟨hlow, hhigh, hlow', hhigh', hchecked⟩

end LowOrbit.CubeRoot
