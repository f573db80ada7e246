import LowOrbit.Proofs.Cubic.Accuracy
import LowOrbit.Proofs.Cubic.Curve
import LowOrbit.Proofs.Cubic.Epochs

/-!
# Where the curve of a new epoch starts

An epoch that opens below the window of the last reduction starts its curve at the present window,
up to 1% of the gap between the two and one packet (`Cubic.State.curve_starts_at_window`). The time
to climb the gap is a cube root, and the rise of the curve after that time is a third power
(`Cubic.Params.rise_climbTime`). Between them are the error of the root, which the third power
triples, and a factor that is rounded, as is the rise.
-/

namespace LowOrbit.Cubic

namespace Params

variable {p : Params} {gap : Nat}

/-! ## The scale and the factor -/

/-- Up to 1638, the scale of the configuration is that of the curve, times ten. -/
theorem riseScale_eq (hpos : 1 ≤ p.bicScale) (hle : p.bicScale ≤ 1638) :
    p.riseScale = p.bicScale * 10 := by
  simp only [riseScale, countMul, maxCount]
  omega

/-- The scale times the factor is the unit of the rise, except for what the division leaves over. -/
theorem riseScale_mul_cubeFactor (p : Params) :
    p.riseScale * p.cubeFactor ≤ riseUnit ∧
      riseUnit < p.riseScale * p.cubeFactor + p.riseScale := by
  have hpos : 0 < p.riseScale := Nat.le_max_right _ _
  have hlt := Nat.lt_mul_div_succ riseUnit hpos
  rw [Nat.mul_succ] at hlt
  exact ⟨Nat.mul_div_le _ _, hlt⟩

/-- For scales up to 1638, the factor is large. -/
theorem le_cubeFactor (hpos : 1 ≤ p.bicScale) (hle : p.bicScale ≤ 1638) :
    67108864 ≤ p.cubeFactor := by
  have hscale : 0 < p.riseScale := Nat.le_max_right _ _
  rw [cubeFactor, Nat.le_div_iff_mul_le hscale, riseScale_eq hpos hle, riseUnit]
  omega

/-! ## Climbing a gap -/

/-- The time to climb a gap is the cube root of the factor times the gap, up to 0.3%. -/
theorem climbTime_bounds (hpos : 1 ≤ p.bicScale) (hle : p.bicScale ≤ 1638) (hgap : 0 < gap)
    (hfits : p.cubeFactor * gap < 2 ^ 64) :
    997 ^ 3 * (p.cubeFactor * gap) ≤ (1000 * p.climbTime gap) ^ 3 ∧
      (1000 * p.climbTime gap) ^ 3 ≤ 1003 ^ 3 * (p.cubeFactor * gap) := by
  have hstops : p.cubeFactor * gap ≤ maxCount64 := Nat.le_of_lt_succ hfits
  have hlarge : 67108864 ≤ p.cubeFactor * gap :=
    (le_cubeFactor hpos hle).trans (Nat.le_mul_of_pos_right _ hgap)
  rw [climbTime, mul64, Nat.min_eq_left hstops]
  exact CubeRoot.cubeRoot_bounds hlarge hstops

/-- The product behind the rise after the time to climb a gap, in units of the rise, is the gap, up
to 1%. -/
theorem cube_climbTime (hpos : 1 ≤ p.bicScale) (hle : p.bicScale ≤ 1638) (hgap : 0 < gap)
    (hfits : p.cubeFactor * gap < 2 ^ 64) :
    99 * (riseUnit * gap) ≤ 100 * (p.riseScale * p.climbTime gap ^ 3) ∧
      100 * (p.riseScale * p.climbTime gap ^ 3) ≤ 101 * (riseUnit * gap) := by
  obtain ⟨hlow, hhigh⟩ := climbTime_bounds hpos hle hgap hfits
  obtain ⟨hfactor, hfactor'⟩ := p.riseScale_mul_cubeFactor
  have hscale : p.riseScale ≤ 16380 := by
    rw [riseScale_eq hpos hle]
    omega
  have hunit : (riseUnit - 16380) * gap ≤ p.riseScale * p.cubeFactor * gap :=
    Nat.mul_le_mul_right gap (by omega)
  have hthousand : 0 < 1000 ^ 3 := by decide
  constructor <;> refine Nat.le_of_mul_le_mul_left ?_ hthousand
  · calc 1000 ^ 3 * (99 * (riseUnit * gap))
        ≤ 100 * 997 ^ 3 * ((riseUnit - 16380) * gap) := by
          rw [riseUnit]
          omega
      _ ≤ 100 * 997 ^ 3 * (p.riseScale * p.cubeFactor * gap) := Nat.mul_le_mul_left _ hunit
      _ = 100 * p.riseScale * (997 ^ 3 * (p.cubeFactor * gap)) := by ring
      _ ≤ 100 * p.riseScale * (1000 * p.climbTime gap) ^ 3 := Nat.mul_le_mul_left _ hlow
      _ = 1000 ^ 3 * (100 * (p.riseScale * p.climbTime gap ^ 3)) := by ring
  · calc 1000 ^ 3 * (100 * (p.riseScale * p.climbTime gap ^ 3))
        = 100 * p.riseScale * (1000 * p.climbTime gap) ^ 3 := by ring
      _ ≤ 100 * p.riseScale * (1003 ^ 3 * (p.cubeFactor * gap)) := Nat.mul_le_mul_left _ hhigh
      _ = 100 * 1003 ^ 3 * (p.riseScale * p.cubeFactor * gap) := by ring
      _ ≤ 100 * 1003 ^ 3 * (riseUnit * gap) :=
          Nat.mul_le_mul_left _ (Nat.mul_le_mul_right gap hfactor)
      _ ≤ 1000 ^ 3 * (101 * (riseUnit * gap)) := by omega

/-- The rise after the time to climb a gap is the gap, up to 1% of it and one packet. -/
theorem rise_climbTime (hpos : 1 ≤ p.bicScale) (hle : p.bicScale ≤ 1638) (hgap : 0 < gap)
    (hcount : gap ≤ maxCount) (hfits : p.cubeFactor * gap < 2 ^ 64) :
    99 * gap < 100 * (p.rise (p.climbTime gap) + 1) ∧
      100 * p.rise (p.climbTime gap) ≤ 101 * gap := by
  obtain ⟨hlow, hhigh⟩ := cube_climbTime hpos hle hgap hfits
  rw [rise_eq_min]
  generalize hproduct : p.riseScale * p.climbTime gap ^ 3 = product at hlow hhigh
  have hunder : riseUnit * (product / riseUnit) ≤ product := Nat.mul_div_le _ _
  have hover : product < riseUnit * (product / riseUnit + 1) :=
    Nat.lt_mul_div_succ product (by decide)
  generalize product / riseUnit = rise at hunder hover
  rw [riseUnit] at *
  omega

/-- It takes time to climb a gap. -/
theorem climbTime_pos (hpos : 1 ≤ p.bicScale) (hle : p.bicScale ≤ 1638) (hgap : 0 < gap)
    (hfits : p.cubeFactor * gap < 2 ^ 64) : 0 < p.climbTime gap := by
  have hlow := (cube_climbTime hpos hle hgap hfits).1
  refine Nat.pos_of_ne_zero fun hzero => ?_
  rw [hzero, riseUnit] at hlow
  omega

end Params

namespace State

variable {p : Params} {st : State} {cwnd now : Nat}

/-- An epoch that opens below the window of the last reduction, without a round trip known, starts
its curve a whole climb before that window. -/
theorem curveTarget_openEpoch (hbelow : cwnd < st.lastMax) (hdelay : st.delayMin = 0)
    (hclimb : 0 < p.climbTime (st.lastMax - cwnd)) (acked now : Nat) :
    (st.openEpoch p cwnd acked now).curveTarget p now =
      st.lastMax - p.rise (p.climbTime (st.lastMax - cwnd)) := by
  have htime : curveTime (now - now) 0 = 0 := by
    rw [Nat.sub_self]
    rfl
  simp only [curveTarget, openEpoch, Option.getD_some, if_neg (Nat.not_le.mpr hbelow), hdelay,
    htime, Params.target, if_pos hclimb, Nat.sub_zero]

/-- The evaluation that opens an epoch after a reduction takes its pace from the curve there. -/
theorem pace_evaluate_of_closed (hclosed : st.epochStart = none) (hlast : st.lastMax ≠ 0)
    (p : Params) (cwnd acked now : Nat) :
    (st.evaluate p cwnd acked now).pace =
      paceTowards cwnd ((st.evaluate p cwnd acked now).curveTarget p now) := by
  rw [evaluate_of_closed hclosed]
  exact if_neg hlast

/-- The curve of an epoch that opens below the window of the last reduction starts at the present
window, up to 1% of the gap and one packet, if no round trip is known. The acknowledgment that opens
the epoch takes its pace from there. -/
theorem curve_starts_at_window (hpos : 1 ≤ p.bicScale) (hle : p.bicScale ≤ 1638)
    (hbelow : cwnd < st.lastMax) (hlast : st.lastMax ≤ maxCount)
    (hfits : p.cubeFactor * (st.lastMax - cwnd) < 2 ^ 64) (hclosed : st.epochStart = none)
    (hdelay : st.delayMin = 0) (hevaluates : st.Evaluates cwnd now) (acked : Nat) :
    ∃ opened,
      opened = (st.countAcked acked).evaluate p cwnd acked now ∧
      st.update p cwnd acked now = (opened.befriend p cwnd).limitPace ∧
      opened.epochStart = some now ∧
      opened.pace = paceTowards cwnd (opened.curveTarget p now) ∧
      cwnd ≤ opened.curveTarget p now + ((st.lastMax - cwnd) / 100 + 1) ∧
      opened.curveTarget p now ≤ cwnd + ((st.lastMax - cwnd) / 100 + 1) := by
  have hgap : 0 < st.lastMax - cwnd := Nat.sub_pos_of_lt hbelow
  have hcount : st.lastMax - cwnd ≤ maxCount := (Nat.sub_le _ _).trans hlast
  have hclimb := Params.climbTime_pos hpos hle hgap hfits
  obtain ⟨hlow, hhigh⟩ := Params.rise_climbTime hpos hle hgap hcount hfits
  have hclosed' : (st.countAcked acked).epochStart = none := hclosed
  have htarget : ((st.countAcked acked).evaluate p cwnd acked now).curveTarget p now =
      st.lastMax - p.rise (p.climbTime (st.lastMax - cwnd)) := by
    rw [evaluate_of_closed hclosed']
    exact curveTarget_openEpoch hbelow hdelay hclimb acked now
  refine ⟨_, rfl, update_of_evaluates hevaluates p acked, ?_,
    pace_evaluate_of_closed hclosed' (Nat.ne_zero_of_lt hbelow) p cwnd acked now, ?_⟩
  · rw [evaluate_of_closed hclosed']
    rfl
  · rw [htarget]
    omega

/-- With the usual scale, a window of 56 packets and a gap of 24 to the last one, the curve starts
at most a packet away. -/
theorem curve_starts_at_window_usual :
    let p : Params := Params.ofConfig {}
    let st : State := { lastMax := 80 }
    ∃ opened, opened = (st.countAcked 1).evaluate p 56 1 5000000 ∧
      56 ≤ opened.curveTarget p 5000000 + 1 ∧ opened.curveTarget p 5000000 ≤ 57 := by
  intro p st
  have hfits : p.cubeFactor * (st.lastMax - 56) < 2 ^ 64 := by decide +kernel
  have hevaluates : st.Evaluates 56 5000000 := by decide
  obtain ⟨opened, hopened, -, -, -, hlow, hhigh⟩ :=
    curve_starts_at_window (by decide) (by decide) (by decide) (by decide) hfits rfl rfl
      hevaluates 1
  have hslack : (st.lastMax - 56) / 100 + 1 = 1 := by decide
  rw [hslack] at hlow hhigh
  exact ⟨opened, hopened, hlow, hhigh⟩

end State

end LowOrbit.Cubic
