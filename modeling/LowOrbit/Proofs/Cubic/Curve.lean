import Mathlib.Algebra.Order.Ring.Nat
import LowOrbit.Cubic.Epoch

/-!
# The shape of the cubic curve

The products that the curve is computed from stop at their largest values. It makes no difference:
where one of them stops, the curve has already left the range of counts (`Params.rise_eq_min`). So
the curve is the same as over all natural numbers, it never falls (`Params.target_mono`), and the
pace that it asks for never gets slower as it rises (`paceTowards_antitone`).
-/

namespace LowOrbit

/-- A factor that has stopped at the largest number does not change a product that stops there. -/
theorem mul128_mul128_left (a b c : Nat) : mul128 (mul128 a b) c = mul128 (a * b) c := by
  rcases Nat.le_total (a * b) maxCount128 with hfits | hlarge
  · rw [show mul128 a b = a * b from Nat.min_eq_left hfits]
  · rw [show mul128 a b = maxCount128 from Nat.min_eq_right hlarge]
    rcases Nat.eq_zero_or_pos c with rfl | hpos
    · rfl
    · have hstops : maxCount128 ≤ maxCount128 * c := Nat.le_mul_of_pos_right _ hpos
      have hstops' : maxCount128 ≤ a * b * c := hstops.trans (Nat.mul_le_mul_right c hlarge)
      rw [mul128, mul128, Nat.min_eq_right hstops, Nat.min_eq_right hstops']

/-- The same for the second factor. -/
theorem mul128_mul128_right (a b c : Nat) : mul128 a (mul128 b c) = mul128 a (b * c) := by
  rw [mul128, Nat.mul_comm, ← mul128, mul128_mul128_left, mul128, Nat.mul_comm, ← mul128]

namespace Cubic

/-! ## The rise -/

namespace Params

variable {p : Params} {origin k : Nat}

/-- The product behind the rise stops at its end, if at all. -/
theorem mul128_cube (scale offset : Nat) :
    mul128 scale (mul128 (mul128 offset offset) offset) =
      min (scale * offset ^ 3) maxCount128 := by
  rw [mul128_mul128_left, mul128_mul128_right, ← Nat.pow_two, ← Nat.pow_succ, mul128]

/-- The rise is that of the curve over all natural numbers, up to the largest count. -/
theorem rise_eq_min (p : Params) (offset : Nat) :
    p.rise offset = min (p.riseScale * offset ^ 3 / riseUnit) maxCount := by
  rw [rise, mul128_cube]
  rcases Nat.le_total (p.riseScale * offset ^ 3) maxCount128 with hfits | hlarge
  · rw [Nat.min_eq_left hfits]
  · have hfar : maxCount ≤ maxCount128 / riseUnit := by decide
    have hfar' := hfar.trans (Nat.div_le_div_right (c := riseUnit) hlarge)
    rw [Nat.min_eq_right hlarge, Nat.min_eq_right hfar, Nat.min_eq_right hfar']

/-- The further from the origin, the larger the rise. -/
theorem rise_mono (p : Params) {offset offset' : Nat} (h : offset ≤ offset') :
    p.rise offset ≤ p.rise offset' := by
  rw [rise_eq_min, rise_eq_min]
  have hcube := Nat.mul_le_mul_left p.riseScale (Nat.pow_le_pow_left h 3)
  exact min_le_min_right _ (Nat.div_le_div_right hcube)

/-! ## The target -/

/-- The curve is at most at its origin before it gets there. -/
theorem target_le_origin (p : Params) (origin : Nat) {t : Nat} (h : t < k) :
    p.target origin k t ≤ origin := by
  rw [target, if_pos h]
  exact Nat.sub_le _ _

/-- The curve is at least at its origin from when it gets there. -/
theorem origin_le_target (p : Params) (horigin : origin ≤ maxCount) {t : Nat} (h : k ≤ t) :
    origin ≤ p.target origin k t := by
  rw [target, if_neg (Nat.not_lt.mpr h)]
  exact le_countAdd horigin _

/-- The curve never falls. -/
theorem target_mono (p : Params) (horigin : origin ≤ maxCount) {t t' : Nat} (h : t ≤ t') :
    p.target origin k t ≤ p.target origin k t' := by
  rcases Nat.lt_or_ge t k with hbefore | hafter
  · rcases Nat.lt_or_ge t' k with hbefore' | hafter'
    · rw [target, target, if_pos hbefore, if_pos hbefore']
      exact Nat.sub_le_sub_left (p.rise_mono (Nat.sub_le_sub_left h k)) origin
    · exact (p.target_le_origin origin hbefore).trans (p.origin_le_target horigin hafter')
  · rw [target, target, if_neg (Nat.not_lt.mpr hafter), if_neg (Nat.not_lt.mpr (hafter.trans h))]
    have hrise := p.rise_mono (Nat.sub_le_sub_right h k)
    exact min_le_min_right _ (Nat.add_le_add_left hrise origin)

end Params

/-! ## The pace -/

/-- Time on the curve goes with the age of the epoch. -/
theorem curveTime_mono {age age' : Nat} (h : age ≤ age') (delayMin : Nat) :
    curveTime age delayMin ≤ curveTime age' delayMin := by
  simp only [curveTime, Nanos.wholeMicros]
  have hmicros := Nat.div_le_div_right (c := 1000) (Nat.add_le_add_right h (Nanos.micros delayMin))
  exact Nat.div_le_div_right (Nat.mul_le_mul_right 1024 hmicros)

/-- A target that is further ahead does not slow down growth. -/
theorem paceTowards_antitone {cwnd target target' : Nat} (hcwnd : cwnd ≤ maxCount)
    (h : target ≤ target') : paceTowards cwnd target' ≤ paceTowards cwnd target := by
  rcases Nat.lt_or_ge cwnd target with hahead | hreached
  · rw [paceTowards, paceTowards, if_pos hahead, if_pos (hahead.trans_le h)]
    exact Nat.div_le_div_left (Nat.sub_le_sub_right h cwnd) (Nat.sub_pos_of_lt hahead)
  · have hsearch : cwnd ≤ countMul cwnd 100 :=
      Nat.le_min.mpr ⟨Nat.le_mul_of_pos_right cwnd (by decide), hcwnd⟩
    rw [paceTowards, paceTowards, if_neg (Nat.not_lt.mpr hreached)]
    split
    · exact (Nat.div_le_self _ _).trans hsearch
    · exact Nat.le_refl _

end Cubic

end LowOrbit
