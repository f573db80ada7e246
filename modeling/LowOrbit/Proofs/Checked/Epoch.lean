import LowOrbit.Cubic.Epoch
import LowOrbit.Proofs.Checked.CubeRoot

/-!
# The cubic curve without faults

The curve and the epochs of the cubic engine, computed with checked arithmetic. Differences are
taken only where a comparison has shown that they are positive, quotients by such differences, and
products only of what a quotient has left over. The main theorem is `Cubic.State.updateChecked_eq`:
an acknowledgment finds the pace without a fault.
-/

namespace LowOrbit

/-- The longest time that a length of time can be: 64 binary ones of seconds, and a nanosecond
less than another. -/
def maxDuration : Nat := 18446744073709551615999999999

namespace Cubic

/-! ## Parameters -/

namespace Params

variable {p : Params}

/-- The growth that makes up for the smaller reduction, in units of 1/8. -/
def friendlyScaleChecked (p : Params) : Checked Nat := do
  let sum ← Checked.add maxCount 1024 p.beta
  let eightfold ← Checked.mul maxCount 8 sum
  let third ← Checked.div eightfold 3
  let rest ← Checked.sub 1024 p.beta
  Checked.div third rest

/-- It is computed without a fault, since part of the window is lost. -/
theorem friendlyScaleChecked_eq (h : p.beta < 1024) :
    p.friendlyScaleChecked = .ok p.friendlyScale := by
  have hsum : Checked.add maxCount 1024 p.beta = .ok (1024 + p.beta) :=
    Checked.add_ok (by simp only [maxCount]; omega)
  have heightfold : Checked.mul maxCount 8 (1024 + p.beta) = .ok (8 * (1024 + p.beta)) :=
    Checked.mul_ok (by simp only [maxCount]; omega)
  have hrest : Checked.sub 1024 p.beta = .ok (1024 - p.beta) := Checked.sub_ok (Nat.le_of_lt h)
  have hscale : Checked.div (8 * (1024 + p.beta) / 3) (1024 - p.beta) = .ok p.friendlyScale :=
    Checked.div_ok (Nat.sub_pos_of_lt h)
  simp only [friendlyScaleChecked, hsum, heightfold, Checked.div_ok (show 0 < 3 by decide), hrest,
    hscale, Checked.ok_bind]

/-- If nothing were lost, this would be a division by zero. -/
example (p : Params) (h : p.beta = 1024) : p.friendlyScaleChecked = .error .divisionByZero := by
  simp only [friendlyScaleChecked, h]
  rfl

/-- The factor from a window gap to the cube of the time to close it. -/
def cubeFactorChecked (p : Params) : Checked Nat := do
  let unit ← Checked.shiftLeft 64 1 40
  Checked.div unit p.riseScale

/-- It is computed without a fault, since the scale of the curve is at least one. -/
theorem cubeFactorChecked_eq (p : Params) : p.cubeFactorChecked = .ok p.cubeFactor := by
  have hunit : Checked.shiftLeft 64 1 40 = .ok riseUnit :=
    Checked.shiftLeft_ok (by decide) (by decide)
  have hfactor : Checked.div riseUnit p.riseScale = .ok p.cubeFactor :=
    Checked.div_ok (Nat.lt_of_lt_of_le Nat.zero_lt_one (Nat.le_max_right _ _))
  simp only [cubeFactorChecked, hunit, hfactor, Checked.ok_bind]

/-- The time that the curve takes to climb from `cwnd` to `lastMax`. -/
def climbTimeChecked (p : Params) (lastMax cwnd : Nat) : Checked Nat := do
  let gap ← Checked.sub lastMax cwnd
  CubeRoot.cubeRootChecked (mul64 p.cubeFactor gap)

/-- It is computed without a fault if there is something to climb. -/
theorem climbTimeChecked_eq {lastMax cwnd : Nat} (h : cwnd ≤ lastMax) :
    p.climbTimeChecked lastMax cwnd = .ok (p.climbTime (lastMax - cwnd)) := by
  have hroot := CubeRoot.cubeRootChecked_eq
    (Nat.min_le_right (p.cubeFactor * (lastMax - cwnd)) maxCount64)
  simp only [climbTimeChecked, Checked.sub_ok h, Checked.ok_bind]
  exact hroot

/-- The distance of the curve from its origin. -/
def riseChecked (p : Params) (offset : Nat) : Checked Nat := do
  let rise ← Checked.shiftRight 128 (mul128 p.riseScale (mul128 (mul128 offset offset) offset)) 40
  pure (min rise maxCount)

/-- It is computed without a fault. -/
theorem riseChecked_eq (p : Params) (offset : Nat) :
    p.riseChecked offset = .ok (p.rise offset) := by
  have hshifted : Checked.shiftRight 128 (mul128 p.riseScale (mul128 (mul128 offset offset) offset))
      40 = .ok (mul128 p.riseScale (mul128 (mul128 offset offset) offset) / riseUnit) :=
    Checked.shiftRight_ok (by decide)
  simp only [riseChecked, hshifted, Checked.ok_bind]
  rfl

/-- The window on the curve at time `t`, when it passes `origin` at time `k`. -/
def targetChecked (p : Params) (origin k t : Nat) : Checked Nat := do
  let rise ← p.riseChecked (if t < k then k - t else t - k)
  pure (if t < k then origin - rise else countAdd origin rise)

/-- It is computed without a fault. -/
theorem targetChecked_eq (p : Params) (origin k t : Nat) :
    p.targetChecked origin k t = .ok (p.target origin k t) := by
  simp only [targetChecked, riseChecked_eq, Checked.ok_bind, target]
  split <;> rfl

end Params

/-! ## The curve -/

/-- The time on the curve, in units of 1/1024 s. -/
def curveTimeChecked (age delayMin : Nat) : Checked Nat := do
  let scaled ← Checked.shiftLeft 128 (Nanos.wholeMicros (age + Nanos.micros delayMin)) 10
  Checked.div scaled 1000000

/-- It is computed without a fault, however old the epoch is. -/
theorem curveTimeChecked_eq {age delayMin : Nat} (hage : age ≤ maxDuration)
    (hdelay : delayMin ≤ maxCount) :
    curveTimeChecked age delayMin = .ok (curveTime age delayMin) := by
  have hscaled : Checked.shiftLeft 128 (Nanos.wholeMicros (age + Nanos.micros delayMin)) 10 =
      .ok (Nanos.wholeMicros (age + Nanos.micros delayMin) * 1024) := by
    refine Checked.shiftLeft_ok (by decide) ?_
    simp only [Nanos.wholeMicros, Nanos.micros, maxDuration, maxCount] at *
    omega
  simp only [curveTimeChecked, hscaled, Checked.ok_bind,
    Checked.div_ok (show 0 < 1000000 by decide)]
  rfl

/-- The acknowledged packets per packet of growth that lead from `cwnd` to `target`. -/
def paceTowardsChecked (cwnd target : Nat) : Checked Nat :=
  if cwnd < target then do
    let gap ← Checked.sub target cwnd
    Checked.div cwnd gap
  else pure (countMul cwnd 100)

/-- They are computed without a fault: the division is made only if there is a gap. -/
theorem paceTowardsChecked_eq (cwnd target : Nat) :
    paceTowardsChecked cwnd target = .ok (paceTowards cwnd target) := by
  unfold paceTowardsChecked paceTowards
  split
  · rename_i hahead
    simp only [Checked.sub_ok (Nat.le_of_lt hahead), Checked.ok_bind,
      Checked.div_ok (Nat.sub_pos_of_lt hahead)]
  · rfl

/-- The window `cwnd * num / den`, at most the largest count. -/
def scaledChecked (cwnd num den : Nat) : Checked Nat := do
  let product ← Checked.mul maxCount64 cwnd num
  let quotient ← Checked.div product den
  pure (min quotient maxCount)

/-- It is computed without a fault for factors of 32 binary digits. -/
theorem scaledChecked_eq {cwnd num den : Nat} (hcwnd : cwnd ≤ maxCount) (hnum : num ≤ maxCount)
    (hden : 0 < den) : scaledChecked cwnd num den = .ok (scaled cwnd num den) := by
  have hproduct : Checked.mul maxCount64 cwnd num = .ok (cwnd * num) :=
    Checked.mul_ok (Nat.le_trans (Nat.mul_le_mul hcwnd hnum) (by decide))
  simp only [scaledChecked, hproduct, Checked.div_ok hden, Checked.ok_bind]
  rfl

/-! ## Epochs -/

namespace State

variable {p : Params} {st : State}

/-- The counters that the engine adds to and subtracts from are counts. -/
structure InRange (st : State) : Prop where
  delayMin_le : st.delayMin ≤ maxCount
  ackCount_le : st.ackCount ≤ maxCount

/-- Opens an epoch at the present window. -/
def openEpochChecked (p : Params) (cwnd acked now : Nat) (st : State) : Checked State :=
  if st.lastMax ≤ cwnd then
    pure { st with
      epochStart := some now, ackCount := acked, renoCwnd := cwnd, k := 0, origin := cwnd }
  else do
    let k ← p.climbTimeChecked st.lastMax cwnd
    pure { st with
      epochStart := some now, ackCount := acked, renoCwnd := cwnd, k := k, origin := st.lastMax }

/-- An epoch opens without a fault. -/
theorem openEpochChecked_eq (p : Params) (cwnd acked now : Nat) (st : State) :
    st.openEpochChecked p cwnd acked now = .ok (st.openEpoch p cwnd acked now) := by
  unfold openEpochChecked openEpoch
  split
  · rfl
  · rename_i hbelow
    rw [Params.climbTimeChecked_eq (Nat.le_of_not_le hbelow)]
    rfl

/-- Opens an epoch unless one is open. -/
def ensureEpochChecked (p : Params) (cwnd acked now : Nat) (st : State) : Checked State :=
  if st.epochStart.isSome then pure st else st.openEpochChecked p cwnd acked now

/-- An epoch is open after this, without a fault. -/
theorem ensureEpochChecked_eq (p : Params) (cwnd acked now : Nat) (st : State) :
    st.ensureEpochChecked p cwnd acked now = .ok (st.ensureEpoch p cwnd acked now) := by
  unfold ensureEpochChecked ensureEpoch
  split
  · rfl
  · exact st.openEpochChecked_eq p cwnd acked now

/-- The pace that the curve asks for. -/
def curvePaceChecked (p : Params) (st : State) (cwnd now : Nat) : Checked Nat := do
  let t ← curveTimeChecked (now - st.epochStart.getD now) st.delayMin
  let target ← p.targetChecked st.origin st.k t
  let pace ← paceTowardsChecked cwnd target
  pure (if st.lastMax = 0 then min pace blindPace else pace)

/-- The pace is computed without a fault. -/
theorem curvePaceChecked_eq {now : Nat} (hdelay : st.delayMin ≤ maxCount) (hnow : now ≤ maxDuration)
    (p : Params) (cwnd : Nat) : st.curvePaceChecked p cwnd now = .ok (st.curvePace p cwnd now) := by
  have hage : now - st.epochStart.getD now ≤ maxDuration := Nat.le_trans (Nat.sub_le _ _) hnow
  simp only [curvePaceChecked, curveTimeChecked_eq hage hdelay, Params.targetChecked_eq,
    paceTowardsChecked_eq, Checked.ok_bind]
  rfl

/-- Evaluates the curve, in a new epoch if none is open. -/
def evaluateChecked (p : Params) (cwnd acked now : Nat) (st : State) : Checked State := do
  let st ← { st with lastCwnd := cwnd, lastUpdate := some now }.ensureEpochChecked p cwnd acked now
  let pace ← st.curvePaceChecked p cwnd now
  pure { st with pace := pace }

/-- Opening an epoch leaves the smallest round trip alone. -/
theorem delayMin_ensureEpoch (p : Params) (cwnd acked now : Nat) (st : State) :
    (st.ensureEpoch p cwnd acked now).delayMin = st.delayMin := by
  unfold ensureEpoch
  split <;> rfl

/-- The curve is evaluated without a fault. -/
theorem evaluateChecked_eq {now : Nat} (hdelay : st.delayMin ≤ maxCount) (hnow : now ≤ maxDuration)
    (p : Params) (cwnd acked : Nat) :
    st.evaluateChecked p cwnd acked now = .ok (st.evaluate p cwnd acked now) := by
  have hopened : ({ st with lastCwnd := cwnd, lastUpdate := some now }.ensureEpoch
      p cwnd acked now).delayMin ≤ maxCount := by
    rw [delayMin_ensureEpoch]
    exact hdelay
  simp only [evaluateChecked, ensureEpochChecked_eq, Checked.ok_bind,
    curvePaceChecked_eq hopened hnow]
  rfl

/-- The acknowledged packets per packet of growth of the Reno window. -/
def renoQuotaChecked (p : Params) (cwnd : Nat) : Checked Nat := do
  let eighth ← Checked.shiftRight 32 (countMul cwnd p.friendlyScale) 3
  pure (max eighth 1)

/-- They are computed without a fault. -/
theorem renoQuotaChecked_eq (p : Params) (cwnd : Nat) :
    renoQuotaChecked p cwnd = .ok (renoQuota p cwnd) := by
  simp only [renoQuotaChecked, Checked.shiftRight_ok (show 3 < 32 by decide), Checked.ok_bind]
  rfl

/-- Credits the Reno window with every full quota counted. -/
def creditRenoChecked (quota : Nat) (st : State) : Checked State :=
  if quota < st.ackCount then do
    let less ← Checked.sub st.ackCount 1
    let steps ← Checked.div less quota
    let spent ← Checked.mul maxCount steps quota
    let rest ← Checked.sub st.ackCount spent
    pure { st with ackCount := rest, renoCwnd := countAdd st.renoCwnd steps }
  else pure st

/-- The Reno window is credited without a fault: what is spent was counted. -/
theorem creditRenoChecked_eq {quota : Nat} (hquota : 0 < quota) (hcount : st.ackCount ≤ maxCount) :
    st.creditRenoChecked quota = .ok (st.creditReno quota) := by
  unfold creditRenoChecked creditReno
  split
  · rename_i hfull
    have hspent : (st.ackCount - 1) / quota * quota ≤ st.ackCount - 1 := Nat.div_mul_le_self _ _
    simp only [Checked.sub_ok (show 1 ≤ st.ackCount by omega), Checked.div_ok hquota,
      Checked.mul_ok (show (st.ackCount - 1) / quota * quota ≤ maxCount by omega),
      Checked.sub_ok (show (st.ackCount - 1) / quota * quota ≤ st.ackCount by omega),
      Checked.ok_bind]
    rfl
  · rfl

/-- Speeds up to reach the Reno window within a round trip if it is ahead. -/
def followRenoChecked (cwnd : Nat) (st : State) : Checked State :=
  if cwnd < st.renoCwnd then do
    let gap ← Checked.sub st.renoCwnd cwnd
    let limit ← Checked.div cwnd gap
    pure { st with pace := min st.pace limit }
  else pure st

/-- The Reno window is followed without a fault. -/
theorem followRenoChecked_eq (cwnd : Nat) (st : State) :
    st.followRenoChecked cwnd = .ok (st.followReno cwnd) := by
  unfold followRenoChecked followReno
  split
  · rename_i hahead
    simp only [Checked.sub_ok (Nat.le_of_lt hahead), Checked.div_ok (Nat.sub_pos_of_lt hahead),
      Checked.ok_bind]
    rfl
  · rfl

/-- Keeps up with the window that a Reno flow would have. -/
def befriendChecked (p : Params) (cwnd : Nat) (st : State) : Checked State :=
  if p.tcpFriendliness then do
    let quota ← renoQuotaChecked p cwnd
    let st ← st.creditRenoChecked quota
    st.followRenoChecked cwnd
  else pure st

/-- Keeping up with a Reno flow has no faults. -/
theorem befriendChecked_eq (hcount : st.ackCount ≤ maxCount) (p : Params) (cwnd : Nat) :
    st.befriendChecked p cwnd = .ok (st.befriend p cwnd) := by
  have hquota : 0 < renoQuota p cwnd := Nat.lt_of_lt_of_le Nat.zero_lt_one (Nat.le_max_right _ _)
  unfold befriendChecked befriend
  split
  · simp only [renoQuotaChecked_eq, creditRenoChecked_eq hquota hcount, followRenoChecked_eq,
      Checked.ok_bind]
  · rfl

/-- Finds the pace for an acknowledgment of `acked` packets at time `now`. -/
def updateChecked (p : Params) (cwnd acked now : Nat) (st : State) : Checked State :=
  let st := st.countAcked acked
  if st.isFresh cwnd now then pure st
  else do
    let st ← if st.inSameTick now then pure st else st.evaluateChecked p cwnd acked now
    let st ← st.befriendChecked p cwnd
    pure st.limitPace

/-- Counting acknowledged packets keeps the counters in range. -/
theorem InRange.countAcked (h : st.InRange) (acked : Nat) : (st.countAcked acked).InRange :=
  ⟨h.delayMin_le, countAdd_le_maxCount _ _⟩

/-- Evaluating the curve keeps the counters in range. -/
theorem InRange.evaluate (h : st.InRange) {acked : Nat} (hacked : acked ≤ maxCount) (p : Params)
    (cwnd now : Nat) : (st.evaluate p cwnd acked now).InRange := by
  simp only [State.evaluate, ensureEpoch]
  split
  · exact ⟨h.delayMin_le, h.ackCount_le⟩
  · exact ⟨h.delayMin_le, hacked⟩

/-- Keeping up with a Reno flow keeps the counters in range. -/
theorem InRange.befriend (h : st.InRange) (p : Params) (cwnd : Nat) :
    (st.befriend p cwnd).InRange := by
  have hcredited : (st.creditReno (renoQuota p cwnd)).InRange := by
    unfold creditReno
    split
    · exact ⟨h.delayMin_le, Nat.le_trans (Nat.sub_le _ _) h.ackCount_le⟩
    · exact h
  unfold State.befriend followReno
  split
  · split
    · exact ⟨hcredited.delayMin_le, hcredited.ackCount_le⟩
    · exact hcredited
  · exact h

/-- An acknowledgment keeps the counters in range. -/
theorem InRange.update (h : st.InRange) {acked : Nat} (hacked : acked ≤ maxCount) (p : Params)
    (cwnd now : Nat) : (st.update p cwnd acked now).InRange := by
  have hcounted := h.countAcked acked
  simp only [State.update]
  split
  · exact hcounted
  · have hbefriended : ∀ st' : State, st'.InRange → (st'.befriend p cwnd).limitPace.InRange :=
      fun _ h' => ⟨(h'.befriend p cwnd).delayMin_le, (h'.befriend p cwnd).ackCount_le⟩
    split
    · exact hbefriended _ hcounted
    · exact hbefriended _ (hcounted.evaluate hacked p cwnd now)

/-- An acknowledgment finds the pace without a fault. -/
theorem updateChecked_eq (h : st.InRange) {acked now : Nat} (hacked : acked ≤ maxCount)
    (hnow : now ≤ maxDuration) (p : Params) (cwnd : Nat) :
    st.updateChecked p cwnd acked now = .ok (st.update p cwnd acked now) := by
  have hcounted := h.countAcked acked
  simp only [updateChecked, State.update]
  split
  · rfl
  · split
    · rw [show (pure (st.countAcked acked) : Checked State) = .ok (st.countAcked acked) from rfl,
        Checked.ok_bind, befriendChecked_eq hcounted.ackCount_le]
      rfl
    · have hevaluated := hcounted.evaluate hacked p cwnd now
      rw [evaluateChecked_eq hcounted.delayMin_le hnow, Checked.ok_bind,
        befriendChecked_eq hevaluated.ackCount_le]
      rfl

/-- Ends the epoch on a loss at window `cwnd` and remembers that window, or less of it. -/
def reduceChecked (p : Params) (cwnd : Nat) (st : State) : Checked State := do
  let lastMax ←
    if cwnd < st.lastMax ∧ p.fastConvergence = true then do
      let num ← Checked.add maxCount 1024 p.beta
      let den ← Checked.mul maxCount 2 1024
      scaledChecked cwnd num den
    else pure cwnd
  pure { st with epochStart := none, lastMax := lastMax }

/-- A loss is remembered without a fault. -/
theorem reduceChecked_eq {cwnd : Nat} (hcwnd : cwnd ≤ maxCount) (hbeta : p.beta < 1024)
    (st : State) : st.reduceChecked p cwnd = .ok (st.reduce p cwnd) := by
  have hnum : 1024 + p.beta ≤ maxCount := by
    simp only [maxCount]
    omega
  have hden : Checked.mul maxCount 2 1024 = .ok 2048 := Checked.mul_ok (by decide)
  unfold reduceChecked State.reduce
  split
  · simp only [Checked.add_ok hnum, hden, scaledChecked_eq hcwnd hnum (show 0 < 2048 by decide),
      Checked.ok_bind]
    rfl
  · rfl

/-- Recording a round trip keeps the counters in range. -/
theorem InRange.recordDelay (h : st.InRange) {delay : Nat} (hdelay : delay ≤ maxCount) :
    (st.recordDelay delay).InRange := by
  unfold State.recordDelay
  split
  · exact ⟨hdelay, h.ackCount_le⟩
  · exact h

/-- Idle time does not change the counters. -/
theorem InRange.shiftEpoch (h : st.InRange) (idle now : Nat) :
    (st.shiftEpoch idle now).InRange := by
  unfold State.shiftEpoch
  split
  · split
    · exact h
    · exact ⟨h.delayMin_le, h.ackCount_le⟩
  · exact h

end State

end Cubic

end LowOrbit
