import LowOrbit.Proofs.Cubic.Accuracy
import LowOrbit.Proofs.Cubic.Epochs

/-!
# Larger gaps take longer to climb

The approximate cube root does not decrease from 464 on (`CubeRoot.cubeRoot_mono`). Among the
numbers at one place of the table it does not, because they share their first guess. Where one place
ends and the next begins the guess jumps, and it takes a look at every such border to see that the
root does not fall there (`CubeRoot.cubeRoot_le_start`). Since the time to the origin of a curve is
such a root, an epoch that opens with a larger gap to the window of the last reduction never gets a
shorter time (`Cubic.State.k_update_mono`).
-/

namespace LowOrbit

namespace CubeRoot

variable {a b : Nat}

/-! ## Within a place of the table -/

/-- Newton steps from the same guess do not decrease. -/
theorem refine_mono (h : a ≤ b) (x : Nat) : refine a x ≤ refine b x :=
  Nat.div_le_div_right (Nat.mul_le_mul_right _ (Nat.add_le_add_left (Nat.div_le_div_right h) _))

/-- Unless a place of the table begins at the number after `a`, that number has the guess of `a`. -/
theorem guess_succ (hlarge : 64 ≤ a) (hfits : a + 1 ≤ maxCount64)
    (h : index (a + 1) * 2 ^ (exponent (a + 1) * 3) ≠ a + 1) : guess (a + 1) = guess a := by
  obtain ⟨hlow, hhigh⟩ := scale_bounds hlarge (Nat.le_of_succ_le hfits)
  obtain ⟨hlow', hhigh'⟩ := scale_bounds (a := a + 1) (by omega) hfits
  obtain ⟨hindex, -⟩ := index_bounds (a := a + 1) (by omega) hfits
  obtain ⟨hle, hlt⟩ := index_mul_bounds (a + 1)
  -- The place of the next number begins at `a` or before, so `a` is in it as well.
  have hplace : index (a + 1) * 2 ^ (exponent (a + 1) * 3) ≤ a := by omega
  have hscale : 8 * 2 ^ (exponent (a + 1) * 3) ≤ a :=
    (Nat.mul_le_mul_right _ hindex).trans hplace
  have hexponent : exponent (a + 1) = exponent a :=
    Nat.le_antisymm (le_of_scales hscale hhigh)
      (le_of_scales hlow ((Nat.lt_succ_self a).trans hhigh'))
  have hsame : index (a + 1) = index a := by
    rw [hexponent] at hplace hlt
    show _ = a >>> (exponent a * 3)
    rw [Nat.shiftRight_eq_div_pow]
    exact (Nat.div_eq_of_lt_le hplace ((Nat.lt_succ_self a).trans hlt)).symm
  rw [guess, hexponent, hsame, guess]

/-! ## From place to place -/

/-- Where a place of the table begins after 464, the root does not fall. -/
theorem cubeRoot_le_start : ∀ e : Fin 21, ∀ i : Fin 64, 8 ≤ i.val →
    464 < i.val * 2 ^ (e.val * 3) → i.val * 2 ^ (e.val * 3) ≤ maxCount64 →
      cubeRoot (i.val * 2 ^ (e.val * 3) - 1) ≤ cubeRoot (i.val * 2 ^ (e.val * 3)) := by
  decide +kernel

/-- From 464 on, the root of a number is at most that of the next one. -/
theorem cubeRoot_le_succ (hlow : 464 ≤ a) (hfits : a + 1 ≤ maxCount64) :
    cubeRoot a ≤ cubeRoot (a + 1) := by
  have hlarge : 64 ≤ a := by omega
  by_cases hstart : index (a + 1) * 2 ^ (exponent (a + 1) * 3) = a + 1
  · obtain ⟨hindex, hindex'⟩ := index_bounds (a := a + 1) (by omega) hfits
    obtain ⟨-, hexponent, -⟩ := exponent_bounds (a := a + 1) (by omega) hfits
    have hborder := cubeRoot_le_start ⟨exponent (a + 1), by omega⟩ ⟨index (a + 1), hindex'⟩ hindex
    rw [hstart, Nat.add_sub_cancel] at hborder
    exact hborder (by omega) hfits
  · rw [cubeRoot, cubeRoot, if_neg (by omega), if_neg (by omega), guess_succ hlarge hfits hstart]
    exact refine_mono (Nat.le_succ a) _

/-- From 464 on, the approximate cube root does not decrease. -/
theorem cubeRoot_mono (hlow : 464 ≤ a) (hle : a ≤ b) (hfits : b ≤ maxCount64) :
    cubeRoot a ≤ cubeRoot b := by
  induction b, hle using Nat.le_induction with
  | base => exact Nat.le_refl _
  | succ b hle ih => exact (ih (by omega)).trans (cubeRoot_le_succ (hlow.trans hle) hfits)

-- The place that begins at 464 itself begins with a fall.
example : cubeRoot 464 < cubeRoot 463 := by decide

end CubeRoot

namespace Cubic

/-- A larger gap does not take a shorter time to climb, even if the argument of the root stops at
the largest number. -/
theorem Params.climbTime_mono {p : Params} (hfactor : 464 ≤ p.cubeFactor) {gap gap' : Nat}
    (hgap : 0 < gap) (hle : gap ≤ gap') : p.climbTime gap ≤ p.climbTime gap' := by
  have hlow : 464 ≤ p.cubeFactor * gap := hfactor.trans (Nat.le_mul_of_pos_right _ hgap)
  have hstops : mul64 p.cubeFactor gap ≤ mul64 p.cubeFactor gap' :=
    min_le_min_right _ (Nat.mul_le_mul_left _ hle)
  exact CubeRoot.cubeRoot_mono (Nat.le_min.mpr ⟨hlow, by decide⟩) hstops (Nat.min_le_right _ _)

namespace State

/-- An acknowledgment opens an epoch: there is one after it, and was none before. -/
def Opens (p : Params) (cwnd acked now : Nat) (st : State) : Prop :=
  st.epochStart = none ∧ (st.update p cwnd acked now).epochStart ≠ none

/-- The time to the origin of a new epoch is that to climb the gap between the window of the last
reduction and the present one, if there is one. -/
theorem Opens.k_eq {p : Params} {cwnd acked now : Nat} {st : State}
    (h : st.Opens p cwnd acked now) :
    (st.update p cwnd acked now).k =
      if st.lastMax ≤ cwnd then 0 else p.climbTime (st.lastMax - cwnd) :=
  (sameEpoch_of_opens h.1 h.2).k_eq

/-- From 464 on, the approximate cube root of 64-bit numbers does not decrease. So if the factor from
a gap to the argument of its root is at least 464, an epoch that opens with a larger gap between the
window of the last reduction and the present one does not have a shorter time to its origin. -/
theorem k_update_mono :
    (∀ a b, 464 ≤ a → a ≤ b → b ≤ maxCount64 → CubeRoot.cubeRoot a ≤ CubeRoot.cubeRoot b) ∧
      ∀ (p : Params) (st st' : State) (cwnd cwnd' acked acked' now now' : Nat),
        464 ≤ p.cubeFactor → st.Opens p cwnd acked now → st'.Opens p cwnd' acked' now' →
          st.lastMax - cwnd ≤ st'.lastMax - cwnd' →
            (st.update p cwnd acked now).k ≤ (st'.update p cwnd' acked' now').k := by
  refine ⟨fun a b hlow hle hfits => CubeRoot.cubeRoot_mono hlow hle hfits, ?_⟩
  intro p st st' cwnd cwnd' acked acked' now now' hfactor hopens hopens' hgap
  rw [hopens.k_eq, hopens'.k_eq]
  by_cases hpassed : st.lastMax ≤ cwnd
  · rw [if_pos hpassed]
    exact Nat.zero_le _
  · rw [if_neg hpassed, if_neg (by omega)]
    exact Params.climbTime_mono hfactor (by omega) hgap

/-- The root does not fall where the exponent changes. With the smallest scale, the argument of the
root stops at the largest number for the larger of two gaps, which takes no less time. -/
theorem k_update_mono_stopped :
    let p := Params.ofConfig { bicScale := 1 }
    CubeRoot.cubeRoot 16777215 ≤ CubeRoot.cubeRoot 16777216 ∧
      maxCount64 < p.cubeFactor * 399999990 ∧
      (State.update p 10 1 0 { lastMax := 100000000 }).k ≤
        (State.update p 10 1 0 { lastMax := 400000000 }).k := by
  intro p
  obtain ⟨hroot, hk⟩ := k_update_mono
  have hopens : State.Opens p 10 1 0 { lastMax := 100000000 } := ⟨rfl, by decide⟩
  have hopens' : State.Opens p 10 1 0 { lastMax := 400000000 } := ⟨rfl, by decide⟩
  exact ⟨hroot _ _ (by decide) (by decide) (by decide), by decide,
    hk p _ _ 10 10 1 1 0 0 (by decide) hopens hopens' (by decide)⟩

end State

end Cubic

end LowOrbit
