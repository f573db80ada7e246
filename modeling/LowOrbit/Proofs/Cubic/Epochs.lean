import LowOrbit.Proofs.Cubic.Reports

/-!
# Epochs in a run

What the state of a cubic engine is like when a run of the program has led to it. The curve is
evaluated by some acknowledgments only (`State.Evaluates`, `State.epoch_update`). An open epoch has
kept the origin and the time to reach it that its opening fixed (`State.Anchored`), since nothing
that happens while it is open changes them (`Connection.sameCurve_handle`), and it began in the past
if the time on the socket never goes back (`State.Timely`). Both are invariants of all runs
(`Connection.Reachable.anchored`, `Connection.Reachable.timely`).
-/

namespace LowOrbit

namespace Cubic.State

variable {p : Params} {st : State} {cwnd acked now : Nat}

/-! ## Evaluations of the curve -/

/-- An acknowledgment at this window and time evaluates the curve: the last evaluation was more than
the update interval ago, if it was at the same window, and at least a tick ago, if the epoch is
open. -/
def Evaluates (st : State) (cwnd now : Nat) : Prop :=
  ∀ last, st.lastUpdate = some last →
    (st.lastCwnd = cwnd → last + updateInterval < now) ∧
      (st.epochStart.isSome = true → last + tick ≤ now)

/-- The curve is evaluated unless the pace is fresh or belongs to the same tick. -/
theorem evaluates_iff :
    st.Evaluates cwnd now ↔ st.isFresh cwnd now = false ∧ st.inSameTick now = false := by
  simp only [Evaluates, isFresh, inSameTick, sinceUpdate, Bool.and_eq_false_imp, beq_iff_eq]
  cases st.lastUpdate with
  | none => simp
  | some last =>
      have hinterval : ¬ now - last ≤ updateInterval ↔ last + updateInterval < now := by omega
      have htick : ¬ now - last < tick ↔ last + tick ≤ now := by
        simp only [tick]
        omega
      simp only [Option.some.injEq, Option.map_some, Option.any_some, decide_eq_false_iff_not,
        hinterval, htick]
      exact ⟨fun h => h last rfl, fun h _ hlast => hlast ▸ h⟩

instance (st : State) (cwnd now : Nat) : Decidable (st.Evaluates cwnd now) :=
  decidable_of_iff _ evaluates_iff.symm

/-- What is late enough for an evaluation stays late enough. -/
theorem Evaluates.mono (h : st.Evaluates cwnd now) {later : Nat} (hle : now ≤ later) :
    st.Evaluates cwnd later := fun last hlast =>
  ⟨fun hsame => Nat.lt_of_lt_of_le ((h last hlast).1 hsame) hle,
    fun hopen => Nat.le_trans ((h last hlast).2 hopen) hle⟩

/-- An acknowledgment that evaluates the curve is counted, evaluates it, keeps up with a Reno flow
and limits the pace. -/
theorem update_of_evaluates (h : st.Evaluates cwnd now) (p : Params) (acked : Nat) :
    st.update p cwnd acked now =
      (((st.countAcked acked).evaluate p cwnd acked now).befriend p cwnd).limitPace := by
  obtain ⟨hfresh, hsame⟩ := evaluates_iff.mp h
  have hfresh' : (st.countAcked acked).isFresh cwnd now = false := hfresh
  have hsame' : (st.countAcked acked).inSameTick now = false := hsame
  simp [update, hfresh', hsame']

/-- Any other acknowledgment is counted only, or counted while the pace of the same tick is kept. -/
theorem update_of_not_evaluates (h : ¬ st.Evaluates cwnd now) (p : Params) (acked : Nat) :
    st.update p cwnd acked now = st.countAcked acked ∨
      st.update p cwnd acked now = ((st.countAcked acked).befriend p cwnd).limitPace := by
  rw [evaluates_iff, not_and_or, Bool.not_eq_false, Bool.not_eq_false] at h
  rw [update]
  split
  · exact .inl rfl
  · rename_i hstale
    have hsame : (st.countAcked acked).inSameTick now = true := h.resolve_left hstale
    rw [if_pos hsame]
    exact .inr rfl

/-- In an open epoch, an evaluation finds the pace and changes nothing of the epoch. -/
theorem evaluate_of_open {start : Nat} (h : st.epochStart = some start) (p : Params)
    (cwnd acked now : Nat) :
    st.evaluate p cwnd acked now =
      { st with lastCwnd := cwnd, lastUpdate := some now, pace := st.curvePace p cwnd now } := by
  have hopen : st.epochStart.isSome = true := by rw [h, Option.isSome_some]
  exact congrArg (fun st : State => { st with pace := st.curvePace p cwnd now }) (if_pos hopen)

/-- If no epoch is open, an evaluation opens one and finds the pace in it. -/
theorem evaluate_of_closed (h : st.epochStart = none) (p : Params) (cwnd acked now : Nat) :
    st.evaluate p cwnd acked now =
      { st.openEpoch p cwnd acked now with
        lastCwnd := cwnd
        lastUpdate := some now
        pace := (st.openEpoch p cwnd acked now).curvePace p cwnd now } := by
  have hclosed : ¬ st.epochStart.isSome = true := by simp [h]
  exact congrArg (fun st : State => { st with pace := st.curvePace p cwnd now }) (if_neg hclosed)

/-! ## What a report does to the epoch -/

/-- The same curve, after the same reduction. -/
structure SameCurve (st st' : State) : Prop where
  lastMax_eq : st'.lastMax = st.lastMax
  k_eq : st'.k = st.k
  origin_eq : st'.origin = st.origin

/-- The same curve in the same epoch, or in none. -/
structure SameEpoch (st st' : State) : Prop extends SameCurve st st' where
  epochStart_eq : st'.epochStart = st.epochStart

/-- An epoch that stays the same twice stays the same. -/
theorem SameEpoch.trans {a b c : State} (hab : a.SameEpoch b) (hbc : b.SameEpoch c) :
    a.SameEpoch c where
  lastMax_eq := hbc.lastMax_eq.trans hab.lastMax_eq
  k_eq := hbc.k_eq.trans hab.k_eq
  origin_eq := hbc.origin_eq.trans hab.origin_eq
  epochStart_eq := hbc.epochStart_eq.trans hab.epochStart_eq

/-- Counting acknowledged packets leaves the epoch alone. -/
theorem sameEpoch_countAcked (acked : Nat) (st : State) : st.SameEpoch (st.countAcked acked) :=
  ⟨⟨rfl, rfl, rfl⟩, rfl⟩

/-- Limiting the pace leaves the epoch alone. -/
theorem sameEpoch_limitPace (st : State) : st.SameEpoch st.limitPace := ⟨⟨rfl, rfl, rfl⟩, rfl⟩

/-- Keeping up with a Reno flow leaves the epoch alone. -/
theorem sameEpoch_befriend (p : Params) (cwnd : Nat) (st : State) :
    st.SameEpoch (st.befriend p cwnd) := by
  have hcredit : st.SameEpoch (st.creditReno (renoQuota p cwnd)) := by
    unfold creditReno
    split <;> exact ⟨⟨rfl, rfl, rfl⟩, rfl⟩
  unfold befriend followReno
  split
  · split
    · exact hcredit.trans ⟨⟨rfl, rfl, rfl⟩, rfl⟩
    · exact hcredit
  · exact ⟨⟨rfl, rfl, rfl⟩, rfl⟩

/-- Opening an epoch if none is open does not depend on what was counted and evaluated before. -/
theorem sameEpoch_evaluate (p : Params) (cwnd acked now : Nat) (st : State) :
    (st.ensureEpoch p cwnd acked now).SameEpoch
      ((st.countAcked acked).evaluate p cwnd acked now) := by
  unfold ensureEpoch
  cases hepoch : st.epochStart with
  | none =>
      have hclosed : (st.countAcked acked).epochStart = none := hepoch
      rw [evaluate_of_closed hclosed]
      exact ⟨⟨rfl, rfl, rfl⟩, rfl⟩
  | some start =>
      have hopen : (st.countAcked acked).epochStart = some start := hepoch
      rw [evaluate_of_open hopen]
      exact ⟨⟨rfl, rfl, rfl⟩, rfl⟩

/-- An acknowledgment leaves the epoch alone, unless it evaluates the curve: then it opens one if
none is open. -/
theorem epoch_update (p : Params) (cwnd acked now : Nat) (st : State) :
    st.SameEpoch (st.update p cwnd acked now) ∨
      (st.ensureEpoch p cwnd acked now).SameEpoch (st.update p cwnd acked now) := by
  by_cases hevaluates : st.Evaluates cwnd now
  · right
    rw [update_of_evaluates hevaluates]
    exact ((st.sameEpoch_evaluate p cwnd acked now).trans (sameEpoch_befriend p cwnd _)).trans
      (sameEpoch_limitPace _)
  · left
    have hcounted := sameEpoch_countAcked acked st
    rcases update_of_not_evaluates hevaluates p acked with hupdate | hupdate <;> rw [hupdate]
    · exact hcounted
    · exact (hcounted.trans (sameEpoch_befriend p cwnd _)).trans (sameEpoch_limitPace _)

/-- An acknowledgment after which an epoch is open that was not before has opened it. -/
theorem sameEpoch_of_opens (hclosed : st.epochStart = none)
    (hopens : (st.update p cwnd acked now).epochStart ≠ none) :
    (st.openEpoch p cwnd acked now).SameEpoch (st.update p cwnd acked now) := by
  have hensure : st.ensureEpoch p cwnd acked now = st.openEpoch p cwnd acked now :=
    if_neg (by simp [hclosed])
  rcases epoch_update p cwnd acked now st with hsame | hopened
  · exact absurd (hsame.epochStart_eq.trans hclosed) hopens
  · exact hensure ▸ hopened

/-- An acknowledgment leaves the smallest round trip alone, and the time of the last evaluation,
unless it evaluates the curve now. -/
theorem update_frame (p : Params) (cwnd acked now : Nat) (st : State) :
    (st.update p cwnd acked now).delayMin = st.delayMin ∧
      ((st.update p cwnd acked now).lastUpdate = st.lastUpdate ∨
        (st.update p cwnd acked now).lastUpdate = some now) := by
  have hbefriended (st : State) : (st.befriend p cwnd).limitPace.delayMin = st.delayMin ∧
      (st.befriend p cwnd).limitPace.lastUpdate = st.lastUpdate := by
    unfold befriend followReno creditReno limitPace
    split
    · split <;> split <;> exact ⟨rfl, rfl⟩
    · exact ⟨rfl, rfl⟩
  have hopened (st : State) : (st.ensureEpoch p cwnd acked now).delayMin = st.delayMin ∧
      (st.ensureEpoch p cwnd acked now).lastUpdate = st.lastUpdate := by
    unfold ensureEpoch
    split <;> exact ⟨rfl, rfl⟩
  by_cases hevaluates : st.Evaluates cwnd now
  · rw [update_of_evaluates hevaluates, (hbefriended _).1, (hbefriended _).2]
    obtain ⟨hdelay, hlast⟩ :=
      hopened { st.countAcked acked with lastCwnd := cwnd, lastUpdate := some now }
    exact ⟨hdelay, .inr hlast⟩
  · rcases update_of_not_evaluates hevaluates p acked with hupdate | hupdate <;> rw [hupdate]
    · exact ⟨rfl, .inl rfl⟩
    · rw [(hbefriended _).1, (hbefriended _).2]
      exact ⟨rfl, .inl rfl⟩

/-- Recording a round trip leaves the epoch alone. -/
theorem sameEpoch_recordDelay (delay : Nat) (st : State) :
    st.SameEpoch (st.recordDelay delay) := by
  unfold recordDelay
  split <;> exact ⟨⟨rfl, rfl, rfl⟩, rfl⟩

/-- Idle time moves the start of an epoch, and its curve with it. -/
theorem sameCurve_shiftEpoch (idle now : Nat) (st : State) :
    st.SameCurve (st.shiftEpoch idle now) := by
  unfold shiftEpoch
  split
  · split <;> exact ⟨rfl, rfl, rfl⟩
  · exact ⟨rfl, rfl, rfl⟩

/-- As long as an epoch is open, no report changes its curve. -/
theorem sameCurve_hear (hopen : st.epochStart ≠ none) {now : Nat} {r : Report}
    (hstays : (st.hear p now r).epochStart ≠ none) : st.SameCurve (st.hear p now r) := by
  cases r with
  | ack cwnd acked =>
      have hensure : st.ensureEpoch p cwnd acked now = st :=
        if_pos (Option.isSome_iff_ne_none.mpr hopen)
      rcases epoch_update p cwnd acked now st with hsame | hopened
      · exact hsame.toSameCurve
      · rw [hensure] at hopened
        exact hopened.toSameCurve
  | loss cwnd => exact absurd (epochStart_reduce p cwnd st) hstays
  | delay micros => exact (sameEpoch_recordDelay micros st).toSameCurve
  | idle time => exact sameCurve_shiftEpoch time now st
  | restart => exact absurd rfl hstays

/-! ## Epochs in a run -/

/-- The curve is the one of an epoch that opened at window `w`. -/
structure OpenedAt (p : Params) (w : Nat) (st : State) : Prop where
  k_eq : st.k = if st.lastMax ≤ w then 0 else p.climbTime (st.lastMax - w)
  origin_eq : st.origin = if st.lastMax ≤ w then w else st.lastMax

/-- An epoch that is open was opened at some window, and its curve is still the same. -/
structure Anchored (p : Params) (st : State) : Prop where
  lastMax_le : st.lastMax ≤ maxCount
  opened : st.epochStart ≠ none → ∃ w ≤ maxCount, st.OpenedAt p w

/-- An epoch that is open has begun. -/
def Timely (now : Nat) (st : State) : Prop := ∀ start, st.epochStart = some start → start ≤ now

variable {st' : State}

/-- Being anchored is a matter of the curve, as long as the epoch is open. -/
theorem SameCurve.anchored (hsame : st.SameCurve st') (h : st.Anchored p)
    (hopen : st'.epochStart ≠ none → st.epochStart ≠ none) : st'.Anchored p := by
  refine ⟨hsame.lastMax_eq ▸ h.lastMax_le, fun hopen' => ?_⟩
  obtain ⟨w, hw, hopened⟩ := h.opened (hopen hopen')
  refine ⟨w, hw, ?_, ?_⟩
  · rw [hsame.k_eq, hsame.lastMax_eq, hopened.k_eq]
  · rw [hsame.origin_eq, hsame.lastMax_eq, hopened.origin_eq]

/-- Being anchored is a matter of the epoch. -/
theorem SameEpoch.anchored (hsame : st.SameEpoch st') (h : st.Anchored p) : st'.Anchored p :=
  hsame.toSameCurve.anchored h fun hopen => hsame.epochStart_eq ▸ hopen

/-- An epoch that opens now is anchored at the present window. -/
theorem Anchored.ensureEpoch (h : st.Anchored p) (hcwnd : cwnd ≤ maxCount) (acked now : Nat) :
    (st.ensureEpoch p cwnd acked now).Anchored p := by
  unfold State.ensureEpoch
  split
  · exact h
  · exact ⟨h.lastMax_le, fun _ => ⟨cwnd, hcwnd, rfl, rfl⟩⟩

/-- Idle time keeps an epoch anchored. -/
theorem Anchored.shiftEpoch (h : st.Anchored p) (idle now : Nat) :
    (st.shiftEpoch idle now).Anchored p := by
  refine (sameCurve_shiftEpoch idle now st).anchored h ?_
  intro hopen hclosed
  exact hopen (by simp [State.shiftEpoch, hclosed])

/-- Epochs stay anchored at every report. -/
theorem Anchored.hear {r : Report} (h : st.Anchored p) (hr : r.Fits) (now : Nat) :
    (st.hear p now r).Anchored p := by
  cases r with
  | ack cwnd acked =>
      rcases epoch_update p cwnd acked now st with hsame | hopened
      · exact hsame.anchored h
      · exact hopened.anchored (h.ensureEpoch hr.1 acked now)
  | loss cwnd =>
      refine ⟨?_, fun hopen => absurd (epochStart_reduce p cwnd st) hopen⟩
      unfold State.hear State.reduce
      dsimp only
      split
      · exact Nat.min_le_right _ _
      · exact hr
  | delay micros => exact (sameEpoch_recordDelay micros st).anchored h
  | idle time => exact h.shiftEpoch time now
  | restart => exact ⟨Nat.zero_le _, fun hopen => absurd rfl hopen⟩

/-- The origin of the curve of an open epoch is a count. -/
theorem Anchored.origin_le (h : st.Anchored p) (hopen : st.epochStart ≠ none) :
    st.origin ≤ maxCount := by
  obtain ⟨w, hw, hopened⟩ := h.opened hopen
  rw [hopened.origin_eq]
  split
  · exact hw
  · exact h.lastMax_le

/-- The start of an epoch does not move past the present. -/
theorem Timely.shiftEpoch {now : Nat} (h : st.Timely now) (idle : Nat) :
    (st.shiftEpoch idle now).Timely now := by
  unfold State.shiftEpoch
  split
  · split
    · exact h
    · intro start hstart
      rw [← Option.some.inj hstart]
      exact Nat.min_le_right _ _
  · exact h

/-- No report makes an epoch begin in the future. -/
theorem Timely.hear {now : Nat} (h : st.Timely now) (p : Params) (r : Report) :
    (st.hear p now r).Timely now := by
  intro start hstart
  cases r with
  | ack cwnd acked =>
      rcases epoch_update p cwnd acked now st with hsame | hopened
      · exact h start (hsame.epochStart_eq.symm.trans hstart)
      · replace hstart := hopened.epochStart_eq.symm.trans hstart
        unfold ensureEpoch at hstart
        split at hstart
        · exact h start hstart
        · exact (Option.some.inj hstart).ge
  | loss cwnd => exact nomatch (epochStart_reduce p cwnd st).symm.trans hstart
  | delay micros =>
      exact h start ((sameEpoch_recordDelay micros st).epochStart_eq.symm.trans hstart)
  | idle time => exact h.shiftEpoch time start hstart
  | restart => cases hstart

end Cubic.State

namespace Connection

/-- As long as an epoch is open, nothing that happens to the connection changes its curve. -/
theorem sameCurve_handle {c : Connection} {e : Event} {x y : Cubic} (hx : c.engine = .cubic x)
    (hy : (c.handle e).engine = .cubic y) (hopen : x.state.epochStart ≠ none)
    (hstays : y.state.epochStart ≠ none) : x.state.SameCurve y.state := by
  by_cases hrenew : ∃ config, e = .renew config
  · -- A new engine has no epoch.
    obtain ⟨config, rfl⟩ := hrenew
    have hengine : Engine.ofConfig config = .cubic y := hy
    rw [eq_cubic_of_ofConfig hengine] at hstays
    exact absurd rfl hstays
  · obtain ⟨z, hz, -, hstate⟩ := state_handle hx fun config h => hrenew ⟨config, h⟩
    obtain rfl : z = y := Engine.cubic.inj (hz.symm.trans hy)
    rw [hstate] at hstays ⊢
    cases hreport : c.report? x e with
    | none => exact ⟨rfl, rfl, rfl⟩
    | some r =>
        rw [hreport] at hstays
        exact Cubic.State.sameCurve_hear hopen hstays

end Connection

namespace Connection.Reachable

variable {config : Config} {clock : Nat → Nat → Prop} {c : Connection} {x : Cubic}

/-- Epochs of reachable connections are anchored. -/
theorem anchored (h : Reachable config clock c) (hx : c.engine = .cubic x) :
    x.state.Anchored x.params :=
  h.state_keeps (P := fun p _ st => st.Anchored p)
    (fun _ _ => ⟨Nat.zero_le _, fun hopen => absurd rfl hopen⟩)
    (fun _ now _ _ hr hst => hst.hear hr now) (fun _ _ _ _ _ hst => hst) hx

/-- If time does not go back, epochs of reachable connections have begun. -/
theorem timely (h : Reachable config (· ≤ ·) c) (hx : c.engine = .cubic x) :
    x.state.Timely c.socket.now :=
  h.state_keeps (P := fun _ now st => st.Timely now) (fun _ _ _ hstart => nomatch hstart)
    (fun p _ _ r _ hst => hst.hear p r)
    (fun _ _ _ _ hle hst start hstart => Nat.le_trans (hst start hstart) hle) hx

end Connection.Reachable

end LowOrbit
