import LowOrbit.Proofs.Cubic.Reduction

/-!
# The acknowledgment after a loss

A loss ends the epoch, and the next acknowledgment in congestion avoidance begins a new one,
whatever the host has done to the window in the meantime and however soon it comes. There is one
exception: a pace that was found for the same window within the last 1/32 s is used once more,
although it belongs to the epoch before the loss. A window that the loss does not make smaller, such
as the smallest one, is enough for that. `Connection.reopens_iff` says that nothing else keeps the
epoch closed, and `Connection.stays_closed_at_smallest` is a run in which it stays closed.
-/

namespace LowOrbit

namespace Cubic

/-- The report leaves what an epoch counts and what a loss has left alone. -/
def Report.Quiet : Report → Prop
  | .delay _ | .idle _ => True
  | .ack _ _ | .loss _ | .restart => False

namespace State

variable {p : Params} {st : State} {cwnd acked now : Nat}

/-! ## The acknowledgment -/

/-- The pace was found for this window, and at most the update interval ago. -/
def Recent (st : State) (cwnd now : Nat) : Prop :=
  st.lastCwnd = cwnd ∧ ∃ last, st.lastUpdate = some last ∧ now ≤ last + updateInterval

/-- An acknowledgment of `acked` packets has just opened an epoch at a window and a time, and has
found the pace. The curve is the one that leads to `lastMax`, and nothing that was counted earlier
is left. -/
structure Opening (p : Params) (lastMax cwnd acked now : Nat) (st : State) : Prop
    extends OpenedAt p cwnd st where
  lastMax_eq : st.lastMax = lastMax
  epochStart_eq : st.epochStart = some now
  ackCount_eq : st.ackCount = acked
  renoCwnd_eq : st.renoCwnd = cwnd
  lastCwnd_eq : st.lastCwnd = cwnd
  lastUpdate_eq : st.lastUpdate = some now
  pace_eq : st.pace =
    let pace := paceTowards cwnd (p.target st.origin st.k (curveTime 0 st.delayMin))
    if lastMax = 0 then min pace blindPace else pace

/-- What the engine calls fresh is recent. -/
theorem isFresh_iff : st.isFresh cwnd now = true ↔ st.Recent cwnd now := by
  simp only [isFresh, sinceUpdate, Recent, Bool.and_eq_true, beq_iff_eq]
  cases st.lastUpdate with
  | none => simp
  | some last => simp [Nat.add_comm]

/-- While the pace is recent, an acknowledgment only counts its packets. -/
theorem update_of_recent (h : st.Recent cwnd now) (p : Params) (acked : Nat) :
    st.update p cwnd acked now = st.countAcked acked := by
  have hcounted : (st.countAcked acked).Recent cwnd now := h
  exact if_pos (isFresh_iff.mpr hcounted)

/-- Between epochs, an acknowledgment evaluates the curve unless the pace is recent: an evaluation
within the same tick counts in an open epoch only. -/
theorem evaluates_of_not_recent (hclosed : st.epochStart = none) (h : ¬ st.Recent cwnd now) :
    st.Evaluates cwnd now := by
  intro last hlast
  refine ⟨fun hsame => ?_, fun hopen => ?_⟩
  · exact Nat.lt_of_not_le fun hle => h ⟨hsame, last, hlast, hle⟩
  · rw [hclosed] at hopen
    cases hopen

/-- An evaluation between epochs opens one. -/
theorem opening_evaluate (hclosed : st.epochStart = none) (p : Params) (cwnd acked now : Nat) :
    Opening p st.lastMax cwnd acked now (st.evaluate p cwnd acked now) := by
  rw [evaluate_of_closed hclosed]
  refine ⟨⟨rfl, rfl⟩, rfl, rfl, rfl, rfl, rfl, rfl, ?_⟩
  -- The epoch is of age zero.
  show (st.openEpoch p cwnd acked now).curvePace p cwnd now = _
  simp only [curvePace, curveTarget, openEpoch, Option.getD_some, Nat.sub_self]

/-- Between epochs, an acknowledgment opens one unless the pace is recent. -/
theorem opening_update_iff (hclosed : st.epochStart = none) :
    (∃ opened, Opening p st.lastMax cwnd acked now opened ∧
        st.update p cwnd acked now = (opened.befriend p cwnd).limitPace) ↔
      ¬ st.Recent cwnd now := by
  constructor
  · rintro ⟨opened, hopening, hupdate⟩ hrecent
    -- Keeping up with a Reno flow does not close the epoch again.
    have hopen : (st.update p cwnd acked now).epochStart = some now := by
      rw [hupdate]
      exact (sameEpoch_befriend p cwnd opened).epochStart_eq.trans hopening.epochStart_eq
    rw [update_of_recent hrecent] at hopen
    exact nomatch hclosed.symm.trans hopen
  · intro h
    have hcounted : (st.countAcked acked).epochStart = none := hclosed
    exact ⟨_, opening_evaluate hcounted p cwnd acked now,
      update_of_evaluates (evaluates_of_not_recent hclosed h) p acked⟩

/-! ## The time after the loss -/

/-- Between epochs, a quiet report changes the smallest round trip at most. -/
theorem hear_of_quiet (hclosed : st.epochStart = none) {r : Report} (hr : r.Quiet) (p : Params)
    (now : Nat) : ∃ delayMin, st.hear p now r = { st with delayMin := delayMin } := by
  cases r with
  | delay micros =>
      show ∃ delayMin, st.recordDelay micros = _
      unfold recordDelay
      split
      · exact ⟨micros, rfl⟩
      · exact ⟨st.delayMin, rfl⟩
  | idle time =>
      refine ⟨st.delayMin, ?_⟩
      show st.shiftEpoch time now = st
      unfold shiftEpoch
      rw [hclosed]
  | ack cwnd acked => exact hr.elim
  | loss cwnd => exact hr.elim
  | restart => exact hr.elim

end State

end Cubic

namespace Connection

open LowOrbit.Cubic (Report)
open LowOrbit.Cubic.State (Opening Recent)

variable {c : Connection} {x : Cubic}

/-- The event reaches neither the congestion avoidance of the engine nor what a loss has left. -/
def Lulls (c : Connection) (e : Event) : Prop :=
  (∀ config, e ≠ .renew config) ∧
    ∀ x r, c.engine = .cubic x → c.report? x e = some r → r.Quiet

/-- So does none of the events of a run. -/
def Lull (c : Connection) : List Event → Prop
  | [] => True
  | e :: rest => c.Lulls e ∧ (c.handle e).Lull rest

/-- Between epochs, a lull changes the smallest round trip at most. -/
theorem state_of_lull {events : List Event} (hx : c.engine = .cubic x)
    (hclosed : x.state.epochStart = none) (hlull : c.Lull events) :
    ∃ y delayMin, (c.handleAll events).engine = .cubic y ∧ y.params = x.params ∧
      y.state = { x.state with delayMin := delayMin } := by
  induction events generalizing c x with
  | nil => exact ⟨x, x.state.delayMin, hx, rfl, rfl⟩
  | cons e rest ih =>
      obtain ⟨y, hy, hparams, hstate⟩ := state_handle hx hlull.1.1
      have hkept : ∃ delayMin, y.state = { x.state with delayMin := delayMin } := by
        rw [hstate]
        cases hreport : c.report? x e with
        | none => exact ⟨x.state.delayMin, rfl⟩
        | some r =>
            exact Cubic.State.hear_of_quiet hclosed (hlull.1.2 x r hx hreport) x.params _
      obtain ⟨delayMin, hkept⟩ := hkept
      have hclosed' : y.state.epochStart = none := by rw [hkept, ← hclosed]
      obtain ⟨z, delayMin', hz, hparams', hstate'⟩ := ih hy hclosed' hlull.2
      exact ⟨z, delayMin', hz, hparams'.trans hparams, by rw [hstate', hkept]⟩

/-- Take a loss at any effective window of any connection with a cubic engine, and anything that
happens after it, writes of the host to its window and the passing of time among others, as long as
it does not reach congestion avoidance and is neither another loss nor a new start. Then the epoch
is closed, and the next acknowledgment that does reach congestion avoidance, with `rest` packets at
window `w`, opens one at its own time with the curve that the loss has left, unless the pace from
before the loss is recent. If it is, that pace stays in force, packets are counted on from before
the loss, and the epoch stays closed. -/
theorem reopens_iff (hx : c.engine = .cubic x) {between : List Event}
    (hlull : (c.handle .reduce).Lull between) :
    let d := (c.handle .reduce).handleAll between
    let lastMax := (x.reduce c.link.effectiveCwnd).state.lastMax
    ∃ y, d.engine = .cubic y ∧ y.state.epochStart = none ∧
      ∀ phase acked w rest, d.report? y (.ack phase acked) = some (.ack w rest) →
        ∃ z, (d.handle (.ack phase acked)).engine = .cubic z ∧
          ((∃ opened, Opening x.params lastMax w rest d.socket.now opened ∧
              z.state = (opened.befriend x.params w).limitPace) ↔
            ¬ x.state.Recent w d.socket.now) ∧
          (x.state.Recent w d.socket.now →
            z.state.epochStart = none ∧ z.state.pace = x.state.pace ∧
              z.state.ackCount = countAdd x.state.ackCount rest ∧
              z.state.renoCwnd = x.state.renoCwnd ∧ z.state.k = x.state.k ∧
              z.state.origin = x.state.origin) := by
  intro d lastMax
  obtain ⟨y, delayMin, hy, hparams, hstate⟩ :=
    state_of_lull (handle_reduce_of_cubic hx) (x.state.epochStart_reduce x.params _) hlull
  have hclosed : y.state.epochStart = none := by
    rw [hstate]
    rfl
  have hlast : y.state.lastMax = lastMax := by rw [hstate]
  -- A loss does not touch what the engine remembers of the last evaluation.
  have hrecent : ∀ w now, y.state.Recent w now ↔ x.state.Recent w now := by
    intro w now
    rw [hstate]
    rfl
  refine ⟨y, hy, hclosed, ?_⟩
  intro phase acked w rest hreport
  obtain ⟨z, hz, -, hupdated⟩ := state_handle (e := .ack phase acked) hy nofun
  rw [hreport, hparams] at hupdated
  replace hupdated : z.state = y.state.update x.params w rest d.socket.now := hupdated
  refine ⟨z, hz, ?_, ?_⟩
  · rw [hupdated, ← hlast, ← hrecent]
    exact Cubic.State.opening_update_iff hclosed
  · intro h
    rw [hupdated, Cubic.State.update_of_recent ((hrecent w _).mpr h), hstate]
    exact ⟨rfl, rfl, rfl, rfl, rfl, rfl⟩

/-- A flow loses a packet at a window of 80, for which it has just found the pace, and its host sets
the window to 56. An acknowledgment within the same tick opens an epoch. -/
theorem reopens_iff_shrunk :
    let st : Cubic.State :=
      { pace := 20, lastCwnd := 80, lastUpdate := some 0, origin := 80, epochStart := some 0,
        ackCount := 1, renoCwnd := 80 }
    let x : Cubic := { Cubic.ofConfig {} with state := st }
    let c : Connection :=
      { link := { socket := { cwnd := 80, ssthresh := 80 } }, engine := .cubic x,
        schedule := Handover.Schedule.ofConfig {} }
    let shrunk : Event := .edit .full { cwnd := some 56, ssthresh := some 56 }
    (c.handle .reduce).Lull [shrunk] ∧
      ∃ z opened, (((c.handle .reduce).handle shrunk).handle (.ack 0 1)).engine = .cubic z ∧
        Opening x.params 80 56 1 0 opened ∧ z.state = (opened.befriend x.params 56).limitPace := by
  intro st x c shrunk
  have hlull : (c.handle .reduce).Lull [shrunk] :=
    ⟨⟨nofun, fun _ _ _ hreport => nomatch hreport⟩, trivial⟩
  obtain ⟨y, hy, -, hnext⟩ := reopens_iff (c := c) (x := x) rfl hlull
  obtain rfl : x.reduce 80 = y := Engine.cubic.inj hy
  obtain ⟨z, hz, hopens, -⟩ := hnext 0 1 56 1 (by decide)
  obtain ⟨opened, hopened, hstate⟩ := hopens.mpr fun h => absurd h.1 (by decide)
  exact ⟨hlull, z, opened, hz, hopened, hstate⟩

/-- A loss at the smallest window does not make it smaller. The next acknowledgment, a millisecond
after the pace was found, opens no epoch: it counts on from before the loss, and the pace stays at
20, where an evaluation of the new curve would give 200. -/
theorem stays_closed_at_smallest :
    let c : Connection :=
      { link := { socket := { cwnd := 2, ssthresh := 2 } }, engine := Engine.ofConfig {},
        schedule := Handover.Schedule.ofConfig {} }
    let st : Cubic.State :=
      { pace := 20, lastMax := 2, lastCwnd := 2, lastUpdate := some 0, origin := 2, ackCount := 1,
        renoCwnd := 2 }
    let x : Cubic := { Cubic.ofConfig {} with state := st }
    let lost := c.handleAll [.ack 0 1, .shrink .full, .advance .full 1000000]
    lost.engine = .cubic x ∧ lost.report? x (.ack 0 1) = some (.ack 2 1) ∧
      (lost.handle (.ack 0 1)).engine = .cubic { x with state := { st with ackCount := 2 } } ∧
      (st.evaluate x.params 2 1 1000000).pace = 200 := by
  decide +kernel

end Connection

end LowOrbit
