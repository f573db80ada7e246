import LowOrbit.Growth
import Mathlib.Algebra.GroupWithZero.Nat

/-!
# Acknowledgments one by one and in a batch

Hosts report acknowledged packets one by one or many at once, and neither of the two rules of growth
tells the difference (`Growth.batched_acks`). Additive increase carries the packets that do not yet
make up a full divisor over to the next acknowledgment as credit, and slow start hands back what it
has no use for. For both it is enough that two acknowledgments are worth one with their sum.
-/

namespace LowOrbit.Growth

variable {divisor a b acked : Nat} {acks : List Nat} {s : Socket}

/-! ## Additive increase -/

/-- Additive increase for each of several acknowledgments in turn, all with the same divisor. -/
def additiveAll (divisor : Nat) (acks : List Nat) (s : Socket) : Socket :=
  acks.foldl (fun s acked => additive divisor acked s) s

/-- The credit is not stale, and there is room for `acked` packets more: neither the credit nor the
window that it leads to stops at a largest value. -/
structure HasRoom (divisor acked : Nat) (s : Socket) : Prop where
  credit_lt : s.credit < divisor
  credit_le : s.credit + acked ≤ maxCount
  cwnd_le : s.cwnd + (s.credit + acked) / divisor ≤ s.clamp
  clamp_le : s.clamp ≤ maxCount

/-- With room for it, additive increase divides the credit and keeps the remainder. -/
theorem HasRoom.additive_eq (h : HasRoom divisor acked s) :
    additive divisor acked s =
      { s with cwnd := s.cwnd + (s.credit + acked) / divisor,
               credit := (s.credit + acked) % divisor } := by
  have hdivisor : max divisor 1 = divisor := Nat.max_eq_left (Nat.zero_lt_of_lt h.credit_lt)
  have hsettled : settleStale divisor s = s := if_neg (Nat.not_le.mpr h.credit_lt)
  have hearned : earn acked s = { s with credit := s.credit + acked } := by
    rw [earn, countAdd_of_le h.credit_le]
  have hfits : s.cwnd + (s.credit + acked) / divisor ≤ maxCount :=
    Nat.le_trans h.cwnd_le h.clamp_le
  have hredeemed : redeem divisor { s with credit := s.credit + acked } =
      { s with cwnd := s.cwnd + (s.credit + acked) / divisor,
               credit := (s.credit + acked) % divisor } := by
    unfold redeem
    split
    · simp only [countAdd_of_le hfits, Nat.mod_eq_sub_div_mul]
    · rename_i hless
      have hless' : s.credit + acked < divisor := Nat.lt_of_not_le hless
      rw [Nat.div_eq_of_lt hless', Nat.mod_eq_of_lt hless', Nat.add_zero]
  simp only [additive, hdivisor, hsettled, hearned, hredeemed, clampWindow,
    Nat.min_eq_left h.cwnd_le]

/-- Room for the sum of two acknowledgments is room for the first of them. -/
theorem HasRoom.first (h : HasRoom divisor (a + b) s) : HasRoom divisor a s := by
  have hquotient : (s.credit + a) / divisor ≤ (s.credit + (a + b)) / divisor :=
    Nat.div_le_div_right (by omega)
  have hcredit := h.credit_le
  have hcwnd := h.cwnd_le
  exact ⟨h.credit_lt, by omega, by omega, h.clamp_le⟩

/-- Two additive increases divide the same credit as one for the sum. -/
theorem HasRoom.div_add (h : HasRoom divisor (a + b) s) :
    (s.credit + a) / divisor + ((s.credit + a) % divisor + b) / divisor =
        (s.credit + (a + b)) / divisor ∧
      ((s.credit + a) % divisor + b) % divisor = (s.credit + (a + b)) % divisor := by
  -- What the first increase divides off is a multiple of the divisor.
  have hsum : s.credit + (a + b) =
      divisor * ((s.credit + a) / divisor) + ((s.credit + a) % divisor + b) := by
    have hdivided := Nat.div_add_mod (s.credit + a) divisor
    omega
  rw [hsum, Nat.mul_add_div (Nat.zero_lt_of_lt h.credit_lt), Nat.mul_add_mod]
  exact ⟨rfl, rfl⟩

/-- After the first of two acknowledgments there is still room for the second. -/
theorem HasRoom.second (h : HasRoom divisor (a + b) s) :
    HasRoom divisor b (additive divisor a s) := by
  have hfirst := h.first
  have hmod : (s.credit + a) % divisor ≤ s.credit + a := Nat.mod_le _ _
  have hcredit := h.credit_le
  rw [hfirst.additive_eq]
  refine ⟨Nat.mod_lt _ (Nat.zero_lt_of_lt h.credit_lt), ?_, ?_, h.clamp_le⟩
  · show (s.credit + a) % divisor + b ≤ maxCount
    omega
  · show s.cwnd + (s.credit + a) / divisor + ((s.credit + a) % divisor + b) / divisor ≤ s.clamp
    rw [Nat.add_assoc, h.div_add.1]
    exact h.cwnd_le

/-- Two additive increases with the same divisor are one for the sum. -/
theorem HasRoom.additive_additive (h : HasRoom divisor (a + b) s) :
    additive divisor b (additive divisor a s) = additive divisor (a + b) s := by
  rw [h.second.additive_eq, h.first.additive_eq, h.additive_eq]
  simp only [Nat.add_assoc s.cwnd, h.div_add]

/-- Several additive increases with the same divisor are one for the sum. -/
theorem HasRoom.additiveAll_eq (h : HasRoom divisor acks.sum s) :
    additiveAll divisor acks s = additive divisor acks.sum s := by
  induction acks generalizing s with
  | nil =>
      rw [h.additive_eq]
      simp [additiveAll, Nat.div_eq_of_lt h.credit_lt, Nat.mod_eq_of_lt h.credit_lt]
  | cons acked rest ih =>
      rw [List.sum_cons] at h ⊢
      rw [← h.additive_additive]
      exact ih h.second

/-! ## Slow start -/

/-- Slow start for each of several acknowledgments in turn. -/
def slowStartAll (acks : List Nat) (s : Socket) : Socket := acks.foldl slowStart s

/-- What slow start leaves over of each of several acknowledgments in turn. -/
def slowStartRests : List Nat → Socket → List Nat
  | [], _ => []
  | acked :: rest, s => slowStartRest s acked :: slowStartRests rest (slowStart s acked)

/-- The window is not beyond the slow start threshold, nor that beyond the clamp, which is a
count. -/
structure BelowThreshold (s : Socket) : Prop where
  cwnd_le : s.cwnd ≤ s.ssthresh
  ssthresh_le : s.ssthresh ≤ s.clamp
  clamp_le : s.clamp ≤ maxCount

/-- Below the threshold, slow start takes the window up to it, packet by packet. -/
theorem BelowThreshold.slowStart_eq (h : BelowThreshold s) (acked : Nat) :
    slowStart s acked = { s with cwnd := min (s.cwnd + acked) s.ssthresh } := by
  obtain ⟨hcwnd, hthreshold, hclamp⟩ := h
  have htarget : min (max (slowStartTarget s acked) s.cwnd) s.clamp =
      min (s.cwnd + acked) s.ssthresh := by
    unfold slowStartTarget countAdd
    omega
  rw [slowStart, htarget]

/-- Below the threshold, slow start leaves over what would carry the window past it. -/
theorem BelowThreshold.slowStartRest_eq (h : BelowThreshold s) (acked : Nat) :
    slowStartRest s acked = s.cwnd + acked - s.ssthresh := by
  obtain ⟨hcwnd, hthreshold, hclamp⟩ := h
  unfold slowStartRest slowStartTarget countAdd
  omega

/-- Slow start stays below the threshold. -/
theorem BelowThreshold.next (h : BelowThreshold s) (acked : Nat) :
    BelowThreshold (slowStart s acked) := by
  rw [h.slowStart_eq]
  exact ⟨Nat.min_le_right _ _, h.ssthresh_le, h.clamp_le⟩

/-- Slow start for two acknowledgments is slow start for their sum, and leaves as much over. -/
theorem BelowThreshold.slowStart_slowStart (h : BelowThreshold s) (a b : Nat) :
    slowStart (slowStart s a) b = slowStart s (a + b) ∧
      slowStartRest s a + slowStartRest (slowStart s a) b = slowStartRest s (a + b) := by
  have hcwnd := h.cwnd_le
  rw [(h.next a).slowStart_eq, (h.next a).slowStartRest_eq, h.slowStartRest_eq,
    h.slowStartRest_eq, h.slowStart_eq, h.slowStart_eq]
  constructor
  · have hwindow : min (min (s.cwnd + a) s.ssthresh + b) s.ssthresh =
        min (s.cwnd + (a + b)) s.ssthresh := by omega
    simp only [hwindow]
  · show s.cwnd + a - s.ssthresh + (min (s.cwnd + a) s.ssthresh + b - s.ssthresh) = _
    omega

/-- Slow start for several acknowledgments is slow start for their sum, and leaves as much over. -/
theorem BelowThreshold.slowStartAll_eq (h : BelowThreshold s) (acks : List Nat) :
    slowStartAll acks s = slowStart s acks.sum ∧
      (slowStartRests acks s).sum = slowStartRest s acks.sum := by
  induction acks generalizing s with
  | nil =>
      rw [List.sum_nil, h.slowStart_eq, h.slowStartRest_eq, Nat.add_zero,
        Nat.min_eq_left h.cwnd_le, Nat.sub_eq_zero_of_le h.cwnd_le]
      exact ⟨rfl, rfl⟩
  | cons acked rest ih =>
      obtain ⟨hsocket, hrest⟩ := h.slowStart_slowStart acked rest.sum
      obtain ⟨ihsocket, ihrest⟩ := ih (h.next acked)
      rw [List.sum_cons, ← hsocket, ← hrest, slowStartRests, List.sum_cons, ihrest]
      exact ⟨ihsocket, rfl⟩

/-! ## Both rules -/

/-- Neither rule of growth tells acknowledgments one by one from a batch. Additive increase with a
fixed divisor divides all packets together, if the credit is not stale and neither the clamp nor the
largest count is in the way. Slow start below its threshold takes the window as far and leaves as
many packets over, and every packet either enlarges the window or is left over. -/
theorem batched_acks (acks : List Nat) (s : Socket) (hclamp : s.clamp ≤ maxCount) :
    (∀ divisor, s.credit < divisor → s.credit + acks.sum ≤ maxCount →
      s.cwnd + (s.credit + acks.sum) / divisor ≤ s.clamp →
        additiveAll divisor acks s = additive divisor acks.sum s ∧
          additive divisor acks.sum s =
            { s with cwnd := s.cwnd + (s.credit + acks.sum) / divisor,
                     credit := (s.credit + acks.sum) % divisor }) ∧
      (s.cwnd ≤ s.ssthresh → s.ssthresh ≤ s.clamp →
        slowStartAll acks s = slowStart s acks.sum ∧
          (slowStartRests acks s).sum = slowStartRest s acks.sum ∧
          s.cwnd ≤ (slowStartAll acks s).cwnd ∧
          (slowStartAll acks s).cwnd - s.cwnd + (slowStartRests acks s).sum = acks.sum) := by
  refine ⟨fun divisor hcredit hfits hcwnd => ?_, fun hcwnd hthreshold => ?_⟩
  · have hroom : HasRoom divisor acks.sum s := ⟨hcredit, hfits, hcwnd, hclamp⟩
    exact ⟨hroom.additiveAll_eq, hroom.additive_eq⟩
  · have hbelow : BelowThreshold s := ⟨hcwnd, hthreshold, hclamp⟩
    obtain ⟨hsocket, hrest⟩ := hbelow.slowStartAll_eq acks
    have hwindow : (slowStartAll acks s).cwnd = min (s.cwnd + acks.sum) s.ssthresh := by
      rw [hsocket, hbelow.slowStart_eq]
    have hleft := hbelow.slowStartRest_eq acks.sum
    refine ⟨hsocket, hrest, ?_, ?_⟩ <;> omega

/-- Three acknowledgments of 13 packets together. As additive increase with a divisor of 4 and 3
packets of credit they are worth 4 packets of growth, and as slow start 10, with 3 left over. -/
theorem batched_acks_three :
    let s : Socket := { cwnd := 10, ssthresh := 20, credit := 3 }
    additiveAll 4 [4, 0, 9] s = { s with cwnd := 14, credit := 0 } ∧
      slowStartAll [4, 0, 9] s = { s with cwnd := 20 } ∧ (slowStartRests [4, 0, 9] s).sum = 3 := by
  intro s
  obtain ⟨hadditive, hslow⟩ := batched_acks [4, 0, 9] s (by decide)
  obtain ⟨heach, htotal⟩ := hadditive 4 (by decide) (by decide) (by decide)
  obtain ⟨hsocket, hrest, -⟩ := hslow (by decide) (by decide)
  exact ⟨heach.trans (htotal.trans (by decide)), hsocket.trans (by decide), hrest.trans (by decide)⟩

end LowOrbit.Growth
