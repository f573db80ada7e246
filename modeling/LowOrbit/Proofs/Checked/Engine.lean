import LowOrbit.Proofs.Checked.Epoch
import LowOrbit.Proofs.Frame

/-!
# Window engines without faults

Window growth, hybrid slow start and the two engines, computed with checked arithmetic. What the
host reports may be anything that its types can hold: `Socket.InRange` and `Engine.InRange` say what
that is for the numbers that matter. The main theorems are those for the reports that an engine
answers: `Engine.growChecked_eq`, `Engine.sampleChecked_eq`, `Engine.reduceChecked_eq` and
`Engine.lossThresholdChecked_eq`.
-/

namespace LowOrbit

/-- Windows and bursts have 32 binary digits, and the time is one that a length of time can be. -/
structure Socket.InRange (s : Socket) : Prop where
  cwnd_le : s.cwnd ≤ maxCount
  priorCwnd_le : s.priorCwnd ≤ maxCount
  gsoSize_le : s.gsoSize ≤ maxCount
  now_le : s.now ≤ maxDuration

/-! ## Growth -/

namespace Growth

variable {s : Socket}

/-- The acknowledged packets that slow start does not need to reach the threshold. -/
def slowStartRestChecked (s : Socket) (acked : Nat) : Checked Nat :=
  Checked.sub acked (min (slowStartTarget s acked - s.cwnd) acked)

/-- The slow start part of an acknowledgment. -/
def throughSlowStartChecked (s : Socket) (acked : Nat) : Checked (Socket × Option Nat) :=
  if s.inSlowStart then do
    let rest ← slowStartRestChecked s acked
    pure (slowStart s acked, if rest = 0 then none else some rest)
  else pure (s, some acked)

/-- Slow start has no faults: no more packets are taken off than there are. -/
theorem throughSlowStartChecked_eq (s : Socket) (acked : Nat) :
    throughSlowStartChecked s acked = .ok (throughSlowStart s acked) := by
  have hrest : slowStartRestChecked s acked = .ok (slowStartRest s acked) :=
    Checked.sub_ok (Nat.min_le_right _ _)
  simp only [throughSlowStartChecked, throughSlowStart, hrest, Checked.ok_bind]
  split <;> rfl

/-- Turns every full `divisor` of credit into a packet and keeps the remainder. -/
def redeemChecked (divisor : Nat) (s : Socket) : Checked Socket :=
  if divisor ≤ s.credit then do
    let steps ← Checked.div s.credit divisor
    let spent ← Checked.mul maxCount steps divisor
    let rest ← Checked.sub s.credit spent
    pure { s with cwnd := countAdd s.cwnd steps, credit := rest }
  else pure s

/-- Credit is redeemed without a fault: what is spent was there. -/
theorem redeemChecked_eq {divisor : Nat} (hdivisor : 0 < divisor) (hcredit : s.credit ≤ maxCount) :
    redeemChecked divisor s = .ok (redeem divisor s) := by
  have hspent : s.credit / divisor * divisor ≤ s.credit := Nat.div_mul_le_self _ _
  unfold redeemChecked redeem
  split
  · simp only [Checked.div_ok hdivisor, Checked.mul_ok (Nat.le_trans hspent hcredit),
      Checked.sub_ok hspent, Checked.ok_bind]
    rfl
  · rfl

/-- Grows the window by one packet for every `divisor` acknowledged packets. -/
def additiveChecked (divisor acked : Nat) (s : Socket) : Checked Socket := do
  let divisor := max divisor 1
  let s ← redeemChecked divisor (earn acked (settleStale divisor s))
  pure (clampWindow s)

/-- Additive increase has no faults. -/
theorem additiveChecked_eq (divisor acked : Nat) (s : Socket) :
    additiveChecked divisor acked s = .ok (additive divisor acked s) := by
  have hdivisor : 0 < max divisor 1 := Nat.lt_of_lt_of_le Nat.zero_lt_one (Nat.le_max_right _ _)
  simp only [additiveChecked]
  rw [redeemChecked_eq hdivisor (countAdd_le_maxCount _ _)]
  rfl

/-- Slow start leaves no more packets over than there were. -/
theorem rest_throughSlowStart_le {acked rest : Nat}
    (h : (throughSlowStart s acked).2 = some rest) : rest ≤ acked := by
  by_cases hslow : s.inSlowStart = true
  · simp only [throughSlowStart, if_pos hslow] at h
    by_cases hzero : slowStartRest s acked = 0
    · rw [if_pos hzero] at h
      cases h
    · rw [if_neg hzero] at h
      rw [← Option.some.inj h]
      exact Nat.sub_le _ _
  · simp only [throughSlowStart, if_neg hslow] at h
    exact Nat.le_of_eq (Option.some.inj h).symm

/-- Slow start keeps the window a count. -/
theorem cwnd_throughSlowStart_le (hcwnd : s.cwnd ≤ maxCount) (acked : Nat) :
    (throughSlowStart s acked).1.cwnd ≤ maxCount := by
  unfold throughSlowStart
  split
  · have htarget : slowStartTarget s acked ≤ maxCount :=
      Nat.le_trans (Nat.min_le_left _ _) (countAdd_le_maxCount _ _)
    exact Nat.le_trans (Nat.min_le_left _ _) (Nat.max_le.mpr ⟨htarget, hcwnd⟩)
  · exact hcwnd

/-- Additive increase keeps the window a count. -/
theorem cwnd_additive_le (hcwnd : s.cwnd ≤ maxCount) (divisor acked : Nat) :
    (additive divisor acked s).cwnd ≤ maxCount := by
  refine Nat.le_trans (Nat.min_le_left _ _) ?_
  unfold redeem
  split
  · exact countAdd_le_maxCount _ _
  · simp only [earn, settleStale]
    split
    · exact countAdd_le_maxCount _ _
    · exact hcwnd

end Growth

namespace Reno

/-- The slow start threshold after a loss at this window. -/
def lossThresholdChecked (cwnd : Nat) : Checked Nat := do
  let half ← Checked.shiftRight 32 cwnd 1
  pure (max half Growth.minThreshold)

/-- It is computed without a fault. -/
theorem lossThresholdChecked_eq (cwnd : Nat) :
    lossThresholdChecked cwnd = .ok (lossThreshold cwnd) := by
  simp only [lossThresholdChecked, Checked.shiftRight_ok (show 1 < 32 by decide), Checked.ok_bind]
  rfl

/-- Grows the window by an acknowledgment of `acked` packets. -/
def growChecked (s : Socket) (acked : Nat) : Checked Socket := do
  let (s, rest) ← Growth.throughSlowStartChecked s acked
  match rest with
  | none => pure s
  | some rest => Growth.additiveChecked s.cwnd rest s

/-- The window grows without a fault. -/
theorem growChecked_eq (s : Socket) (acked : Nat) : growChecked s acked = .ok (grow s acked) := by
  simp only [growChecked, Growth.throughSlowStartChecked_eq, Checked.ok_bind, grow]
  rcases Growth.throughSlowStart s acked with ⟨started, _ | rest⟩
  · rfl
  · exact Growth.additiveChecked_eq _ _ _

end Reno

/-! ## Hybrid slow start -/

namespace Hystart

variable {h : Hystart} {s : Socket} {delay delayMin : Nat}

/-- The samples of a round are counted up to the number that is needed. -/
structure InRange (h : Hystart) : Prop where
  sampleCount_le : h.sampleCount ≤ minSamples

/-- The allowance in microseconds for delays by segmentation offload and aggregation. -/
def cushionChecked (s : Socket) : Checked Nat :=
  if s.pacingRate = 0 then pure 0
  else do
    let product ← Checked.mul maxCount64 s.gsoSize 4000000
    let quotient ← Checked.div product s.pacingRate
    pure (min 1000 quotient)

/-- It is computed without a fault. -/
theorem cushionChecked_eq (hgso : s.gsoSize ≤ maxCount) : cushionChecked s = .ok (cushion s) := by
  unfold cushionChecked cushion
  split
  · rfl
  · rename_i hrate
    have hproduct : s.gsoSize * 4000000 ≤ maxCount64 :=
      Nat.le_trans (Nat.mul_le_mul_right _ hgso) (by decide)
    simp only [Checked.mul_ok hproduct, Checked.div_ok (Nat.pos_of_ne_zero hrate), Checked.ok_bind]
    rfl

/-- The product comes before the division, and does not fit for bursts of 64 binary digits. -/
example : cushionChecked { gsoSize := maxCount64, pacingRate := 1 } = .error .overflow := by decide

/-- The length in microseconds that a train has to exceed. -/
def trainThresholdChecked (s : Socket) (delayMin : Nat) : Checked Nat := do
  let cushion ← cushionChecked s
  let sum ← Checked.add maxCount64 delayMin cushion
  if s.paced then pure sum else Checked.shiftRight 64 sum 1

/-- It is computed without a fault. -/
theorem trainThresholdChecked_eq (hgso : s.gsoSize ≤ maxCount) (hdelay : delayMin ≤ maxCount) :
    trainThresholdChecked s delayMin = .ok (trainThreshold s delayMin) := by
  have hcushion : cushion s ≤ 1000 := by
    unfold cushion
    split
    · exact Nat.zero_le _
    · exact Nat.min_le_left _ _
  have hsum : delayMin + cushion s ≤ maxCount64 :=
    Nat.le_trans (Nat.add_le_add hdelay hcushion) (by decide)
  simp only [trainThresholdChecked, cushionChecked_eq hgso, Checked.add_ok hsum, Checked.ok_bind,
    trainThreshold]
  split
  · rfl
  · exact Checked.shiftRight_ok (by decide)

/-- The exit that the train detector finds. -/
def trainExitChecked (h : Hystart) (s : Socket) (delayMin : Nat) : Checked (Option Exit) :=
  if h.continuesTrain s then do
    let length := s.now - h.roundStart.getD s.now
    let threshold ← trainThresholdChecked s delayMin
    pure (if Nanos.micros threshold < length then some (.train length threshold delayMin) else none)
  else pure none

/-- Trains are watched without a fault. -/
theorem trainExitChecked_eq (hgso : s.gsoSize ≤ maxCount) (hdelay : delayMin ≤ maxCount)
    (h : Hystart) : h.trainExitChecked s delayMin = .ok (h.trainExit? s delayMin) := by
  unfold trainExitChecked trainExit?
  split
  · simp only [trainThresholdChecked_eq hgso hdelay, Checked.ok_bind]
    rfl
  · rfl

/-- The length in microseconds that every round trip of a round has to exceed. -/
def delayThresholdChecked (delayMin : Nat) : Checked Nat := do
  let eighth ← Checked.shiftRight 32 delayMin 3
  pure (countAdd delayMin (max 4000 (min eighth 16000)))

/-- It is computed without a fault. -/
theorem delayThresholdChecked_eq (delayMin : Nat) :
    delayThresholdChecked delayMin = .ok (delayThreshold delayMin) := by
  simp only [delayThresholdChecked, Checked.shiftRight_ok (show 3 < 32 by decide), Checked.ok_bind]
  rfl

/-- The exit that the delay detector finds. -/
def delayExitChecked (h : Hystart) (delay delayMin : Nat) : Checked (Option Exit) :=
  let rtt := min h.currRtt delay
  if h.watchDelay ∧ minSamples ≤ h.sampleCount then do
    let threshold ← delayThresholdChecked delayMin
    pure (if threshold < rtt then some (.delay rtt threshold) else none)
  else pure none

/-- Delays are watched without a fault. -/
theorem delayExitChecked_eq (h : Hystart) (delay delayMin : Nat) :
    h.delayExitChecked delay delayMin = .ok (h.delayExit? delay delayMin) := by
  simp only [delayExitChecked, delayThresholdChecked_eq, Checked.ok_bind, delayExit?]
  by_cases hseen : h.watchDelay = true ∧ minSamples ≤ h.sampleCount
  · simp only [hseen.1, hseen.2, true_and]
    rfl
  · rw [if_neg hseen, if_neg fun hall => hseen ⟨hall.1, hall.2.1⟩]
    rfl

/-- Adds a round trip to those of the round. -/
def noteDelayChecked (h : Hystart) (delay : Nat) : Checked Hystart :=
  if h.watchDelay then do
    let count ← if h.sampleCount < minSamples then Checked.add 255 h.sampleCount 1
      else pure h.sampleCount
    pure { h with currRtt := min h.currRtt delay, sampleCount := count }
  else pure h

/-- Round trips are counted without a fault. -/
theorem noteDelayChecked_eq (hrange : h.InRange) (delay : Nat) :
    h.noteDelayChecked delay = .ok (h.noteDelay delay) := by
  have hcount := hrange.sampleCount_le
  unfold noteDelayChecked noteDelay
  split
  · by_cases hfew : h.sampleCount < minSamples
    · have hfits : h.sampleCount + 1 ≤ 255 := Nat.le_trans hfew (by decide)
      rw [if_pos hfew, Checked.add_ok hfits, Nat.min_eq_left hfew]
      rfl
    · have hsame : min (h.sampleCount + 1) minSamples = h.sampleCount := by omega
      rw [if_neg hfew, hsame]
      rfl
  · rfl

/-- Takes a round trip of `delay` microseconds into account. -/
def sampleChecked (h : Hystart) (s : Socket) (delay delayMin : Nat) :
    Checked (Hystart × List Exit) := do
  let h := h.enterRound s
  let train ← h.trainExitChecked s delayMin
  let delays ← h.delayExitChecked delay delayMin
  let noted ← (h.noteAck s).noteDelayChecked delay
  let found := train.toList ++ delays.toList
  pure (noted.noteExits s.cwnd found, found)

/-- Entering a round keeps the count of samples in range. -/
theorem InRange.enterRound (hrange : h.InRange) (s : Socket) : (h.enterRound s).InRange := by
  unfold Hystart.enterRound
  split
  · exact ⟨Nat.zero_le _⟩
  · exact hrange

/-- A train does not change the count of samples. -/
theorem InRange.noteAck (hrange : h.InRange) (s : Socket) : (h.noteAck s).InRange := by
  unfold Hystart.noteAck
  split
  · exact ⟨hrange.sampleCount_le⟩
  · exact hrange

/-- Taking a round trip into account keeps the count of samples in range. -/
theorem InRange.sample (hrange : h.InRange) (s : Socket) (delay delayMin : Nat) :
    (h.sample s delay delayMin).InRange := by
  have hnoted := (hrange.enterRound s).noteAck s
  refine ⟨?_⟩
  show (((h.enterRound s).noteAck s).noteDelay delay).sampleCount ≤ minSamples
  unfold noteDelay
  split
  · exact Nat.min_le_right _ _
  · exact hnoted.sampleCount_le

/-- A round trip is taken into account without a fault. -/
theorem sampleChecked_eq (hrange : h.InRange) (hgso : s.gsoSize ≤ maxCount)
    (hdelay : delayMin ≤ maxCount) (delay : Nat) :
    h.sampleChecked s delay delayMin =
      .ok (h.sample s delay delayMin, h.sampleExits s delay delayMin) := by
  simp only [sampleChecked, trainExitChecked_eq hgso hdelay, delayExitChecked_eq,
    noteDelayChecked_eq ((hrange.enterRound s).noteAck s), Checked.ok_bind]
  rfl

end Hystart

/-! ## The CUBIC engine -/

namespace Cubic

variable {c : Cubic} {s : Socket}

/-- Less than the whole window is kept after a loss, and counters are in range. -/
structure InRange (c : Cubic) : Prop where
  beta_lt : c.params.beta < 1024
  state : c.state.InRange
  hystart : c.hystart.InRange

/-- A new state is in range. -/
theorem State.inRange_empty : ({} : State).InRange := ⟨by decide, by decide⟩

/-- Grows the window by an acknowledgment of `acked` packets. -/
def growChecked (c : Cubic) (s : Socket) (acked : Nat) : Checked (Cubic × Socket) := do
  let (s, rest) ← Growth.throughSlowStartChecked s acked
  match rest with
  | none => pure (c, s)
  | some rest =>
    let state ← c.state.updateChecked c.params s.cwnd rest s.now
    let s ← Growth.additiveChecked state.pace rest s
    pure ({ c with state := state }, s)

/-- The window grows without a fault. -/
theorem growChecked_eq (hrange : c.InRange) (hnow : s.now ≤ maxDuration) {acked : Nat}
    (hacked : acked ≤ maxCount) : c.growChecked s acked = .ok (c.grow s acked) := by
  obtain ⟨cwnd, hframe⟩ := Growth.throughSlowStart_frame s acked
  simp only [growChecked, Growth.throughSlowStartChecked_eq, Checked.ok_bind, grow]
  rcases hstart : Growth.throughSlowStart s acked with ⟨started, _ | rest⟩
  · rfl
  · have hrest : rest ≤ acked := Growth.rest_throughSlowStart_le (congrArg Prod.snd hstart)
    have hnow' : started.now ≤ maxDuration := by
      rw [hstart] at hframe
      rw [show started = { s with cwnd := cwnd } from hframe]
      exact hnow
    simp only [State.updateChecked_eq hrange.state (Nat.le_trans hrest hacked) hnow',
      Growth.additiveChecked_eq, Checked.ok_bind]
    rfl

/-- Growing keeps the engine in range. -/
theorem InRange.grow (hrange : c.InRange) (s : Socket) {acked : Nat} (hacked : acked ≤ maxCount) :
    (c.grow s acked).1.InRange := by
  simp only [Cubic.grow]
  rcases hstart : Growth.throughSlowStart s acked with ⟨started, _ | rest⟩
  · exact hrange
  · have hrest : rest ≤ acked := Growth.rest_throughSlowStart_le (congrArg Prod.snd hstart)
    exact ⟨hrange.beta_lt, hrange.state.update (Nat.le_trans hrest hacked) _ _ _, hrange.hystart⟩

/-- The slow start threshold after a loss at this window. -/
def lossThresholdChecked (c : Cubic) (cwnd : Nat) : Checked Nat := do
  let kept ← scaledChecked cwnd c.params.beta 1024
  pure (max kept Growth.minThreshold)

/-- It is computed without a fault. -/
theorem lossThresholdChecked_eq (hbeta : c.params.beta < 1024) {cwnd : Nat}
    (hcwnd : cwnd ≤ maxCount) : c.lossThresholdChecked cwnd = .ok (c.lossThreshold cwnd) := by
  have hnum : c.params.beta ≤ maxCount := Nat.le_trans (Nat.le_of_lt hbeta) (by decide)
  simp only [lossThresholdChecked, scaledChecked_eq hcwnd hnum (show 0 < 1024 by decide),
    Checked.ok_bind]
  rfl

/-- Takes a round-trip time sample into account, and lists the reasons to leave slow start that it
brings up. -/
def sampleChecked (c : Cubic) (s : Socket) (x : RttSample) : Checked (Cubic × List Exit) :=
  match c.acceptedDelay? s x with
  | some delay =>
    let state := c.state.recordDelay delay
    if c.watches s then do
      let (hystart, exits) ← c.hystart.sampleChecked s delay state.delayMin
      pure ({ c with state := state, hystart := hystart }, exits)
    else pure ({ c with state := state }, [])
  | none => pure (c, [])

/-- A round trip that is taken into account is a count of microseconds. -/
theorem acceptedDelay_le {x : RttSample} {delay : Nat} (h : c.acceptedDelay? s x = some delay) :
    delay ≤ maxCount := by
  unfold acceptedDelay? at h
  split at h
  · rw [← Option.some.inj h]
    exact Nat.max_le.mpr ⟨Nat.min_le_right _ _, by decide⟩
  · cases h

/-- A sample is taken into account without a fault. -/
theorem sampleChecked_eq (hrange : c.InRange) (hgso : s.gsoSize ≤ maxCount) (x : RttSample) :
    c.sampleChecked s x = .ok (c.sample s x, c.exits s x) := by
  unfold sampleChecked Cubic.sample exits
  cases haccepted : c.acceptedDelay? s x with
  | none => rfl
  | some delay =>
      have hstate := hrange.state.recordDelay (acceptedDelay_le haccepted)
      simp only [Hystart.sampleChecked_eq hrange.hystart hgso hstate.delayMin_le, Checked.ok_bind]
      cases c.watches s <;> rfl

/-- A sample keeps the engine in range. -/
theorem InRange.sample (hrange : c.InRange) (s : Socket) (x : RttSample) :
    (c.sample s x).InRange := by
  unfold Cubic.sample
  split
  · rename_i delay haccepted
    refine ⟨hrange.beta_lt, hrange.state.recordDelay (acceptedDelay_le haccepted), ?_⟩
    show (if c.watches s then _ else c.hystart : Hystart).InRange
    split
    · exact hrange.hystart.sample _ _ _
    · exact hrange.hystart
  · exact hrange

/-- An engine that is adopted is in range. -/
theorem InRange.adopt (hrange : c.InRange) (s : Socket) : (c.adopt s).InRange := by
  refine ⟨hrange.beta_lt, State.inRange_empty, ?_⟩
  show (if c.hystart.reset.enabled then c.hystart.reset.resetRound s
    else c.hystart.reset : Hystart).InRange
  split
  · exact ⟨Nat.zero_le _⟩
  · exact ⟨hrange.hystart.sampleCount_le⟩

end Cubic

/-! ## Engines -/

namespace Engine

variable {e : Engine} {s : Socket}

/-- The counters of the engine, if it has any, are in range. -/
def InRange : Engine → Prop
  | .reno => True
  | .cubic c => c.InRange

/-- A new engine is in range. -/
theorem inRange_ofConfig (config : Config) : (ofConfig config).InRange := by
  unfold ofConfig
  split
  · trivial
  · refine ⟨?_, Cubic.State.inRange_empty, ⟨Nat.zero_le _⟩⟩
    show min config.beta 1023 < 1024
    omega

/-- Grows the window by an acknowledgment of `acked` packets. -/
def growChecked (e : Engine) (s : Socket) (acked : Nat) : Checked (Engine × Socket) :=
  match e with
  | .reno => do
    let s ← Reno.growChecked s acked
    pure (.reno, s)
  | .cubic c => do
    let (c, s) ← c.growChecked s acked
    pure (.cubic c, s)

/-- The window grows without a fault. -/
theorem growChecked_eq (hrange : e.InRange) (hnow : s.now ≤ maxDuration) {acked : Nat}
    (hacked : acked ≤ maxCount) : e.growChecked s acked = .ok (e.grow s acked) := by
  cases e with
  | reno =>
      simp only [growChecked, Reno.growChecked_eq, Checked.ok_bind]
      rfl
  | cubic c =>
      simp only [growChecked, Cubic.growChecked_eq hrange hnow hacked, Checked.ok_bind]
      rfl

/-- The slow start threshold after a loss at window `cwnd`. -/
def lossThresholdChecked (e : Engine) (cwnd : Nat) : Checked Nat :=
  match e with
  | .reno => Reno.lossThresholdChecked cwnd
  | .cubic c => c.lossThresholdChecked cwnd

/-- The threshold is computed without a fault. -/
theorem lossThresholdChecked_eq (hrange : e.InRange) {cwnd : Nat} (hcwnd : cwnd ≤ maxCount) :
    e.lossThresholdChecked cwnd = .ok (e.lossThreshold cwnd) := by
  cases e with
  | reno => exact Reno.lossThresholdChecked_eq cwnd
  | cubic c => exact Cubic.lossThresholdChecked_eq hrange.beta_lt hcwnd

/-- The engine after a loss at window `cwnd`. -/
def reduceChecked (e : Engine) (cwnd : Nat) : Checked Engine :=
  match e with
  | .reno => pure .reno
  | .cubic c => do
    let state ← c.state.reduceChecked c.params cwnd
    pure (.cubic { c with state := state })

/-- A loss is remembered without a fault. -/
theorem reduceChecked_eq (hrange : e.InRange) {cwnd : Nat} (hcwnd : cwnd ≤ maxCount) :
    e.reduceChecked cwnd = .ok (e.reduce cwnd) := by
  cases e with
  | reno => rfl
  | cubic c =>
      simp only [reduceChecked, Cubic.State.reduceChecked_eq hcwnd hrange.beta_lt, Checked.ok_bind]
      rfl

/-- The engine and the socket after a round-trip time sample. -/
def sampleChecked (e : Engine) (s : Socket) (x : RttSample) : Checked (Engine × Socket) :=
  match e with
  | .reno => pure (.reno, s)
  | .cubic c => do
    let (c, exits) ← c.sampleChecked s x
    pure (.cubic c, if exits.isEmpty then s else { s with ssthresh := s.cwnd })

/-- A sample is taken into account without a fault. -/
theorem sampleChecked_eq (hrange : e.InRange) (hgso : s.gsoSize ≤ maxCount) (x : RttSample) :
    e.sampleChecked s x = .ok (e.sample s x) := by
  cases e with
  | reno => rfl
  | cubic c =>
      simp only [sampleChecked, Cubic.sampleChecked_eq hrange hgso, Checked.ok_bind]
      rfl

/-! ### Ranges -/

/-- Growing keeps the engine in range. -/
theorem InRange.grow (hrange : e.InRange) (s : Socket) {acked : Nat} (hacked : acked ≤ maxCount) :
    (e.grow s acked).1.InRange := by
  cases e with
  | reno => trivial
  | cubic c => exact Cubic.InRange.grow hrange s hacked

/-- A loss keeps the engine in range. -/
theorem InRange.reduce (hrange : e.InRange) (cwnd : Nat) : (e.reduce cwnd).InRange := by
  cases e with
  | reno => trivial
  | cubic c =>
      exact ⟨hrange.beta_lt, ⟨hrange.state.delayMin_le, hrange.state.ackCount_le⟩, hrange.hystart⟩

/-- A sample keeps the engine in range. -/
theorem InRange.sample (hrange : e.InRange) (s : Socket) (x : RttSample) :
    (e.sample s x).1.InRange := by
  cases e with
  | reno => trivial
  | cubic c => exact Cubic.InRange.sample hrange s x

/-- Adopting an engine keeps it in range. -/
theorem InRange.adopt (hrange : e.InRange) (s : Socket) : (e.adopt s).1.InRange := by
  cases e with
  | reno => trivial
  | cubic c => exact Cubic.InRange.adopt hrange s

/-- A change of the congestion avoidance state keeps the engine in range. -/
theorem InRange.changeState (hrange : e.InRange) (s : Socket) (state : AvoidanceState) :
    (e.changeState s state).InRange := by
  unfold Engine.changeState
  split
  · exact ⟨hrange.beta_lt, Cubic.State.inRange_empty, ⟨Nat.zero_le _⟩⟩
  · exact hrange

/-- A congestion window event keeps the engine in range. -/
theorem InRange.windowEvent (hrange : e.InRange) (s : Socket) (event : WindowEvent) :
    (e.windowEvent s event).InRange := by
  unfold Engine.windowEvent
  split
  · exact ⟨hrange.beta_lt, hrange.state.shiftEpoch _ _, hrange.hystart⟩
  · exact hrange

/-- The threshold after a loss is a count. -/
theorem lossThreshold_le (hrange : e.InRange) {cwnd : Nat} (hcwnd : cwnd ≤ maxCount) :
    e.lossThreshold cwnd ≤ maxCount := by
  have hmin : Growth.minThreshold ≤ maxCount := by decide
  cases e with
  | reno => exact Nat.max_le.mpr ⟨Nat.le_trans (Nat.div_le_self _ _) hcwnd, hmin⟩
  | cubic c => exact Nat.max_le.mpr ⟨Nat.min_le_right _ _, hmin⟩

/-- Growing keeps the socket in range. -/
theorem inRange_grow (hs : s.InRange) (e : Engine) (acked : Nat) : (e.grow s acked).2.InRange := by
  have hstarted := Growth.cwnd_throughSlowStart_le hs.cwnd_le acked
  have hcwnd : (e.grow s acked).2.cwnd ≤ maxCount := by
    rcases e.grow_socket s acked with h | ⟨divisor, rest, h⟩ <;> rw [h]
    · exact hstarted
    · exact Growth.cwnd_additive_le hstarted divisor rest
  obtain ⟨cwnd, credit, hframe⟩ := e.grow_frame s acked
  rw [hframe] at hcwnd ⊢
  exact ⟨hcwnd, hs.priorCwnd_le, hs.gsoSize_le, hs.now_le⟩

end Engine

end LowOrbit
