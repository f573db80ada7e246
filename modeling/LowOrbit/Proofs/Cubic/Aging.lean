import LowOrbit.Proofs.Cubic.Curve
import LowOrbit.Proofs.Cubic.Epochs

/-!
# Growth in an epoch that gets older

The later an acknowledgment evaluates the curve of an open epoch, the faster the window grows after
it, all else being equal. Every stage of an evaluation keeps the order of two paces: the curve
rises (`Cubic.State.curveTarget_mono`), so the pace that it asks for falls, and keeping up with a
Reno flow and limiting the pace do not turn the order around (`Cubic.State.NoSlower`). The main
theorem is `Connection.Reachable.pace_update_antitone`.
-/

namespace LowOrbit

namespace Cubic.State

variable {p : Params} {st a b : State} {cwnd now later start : Nat}

/-! ## Two paces -/

/-- Two states with the same counts for the Reno window, the first with a pace that is at most as
large as that of the second. -/
structure NoSlower (a b : State) : Prop where
  ackCount_eq : a.ackCount = b.ackCount
  renoCwnd_eq : a.renoCwnd = b.renoCwnd
  pace_le : a.pace ≤ b.pace

/-- Crediting the Reno window does not depend on the pace. -/
theorem NoSlower.creditReno (h : NoSlower a b) (quota : Nat) :
    NoSlower (a.creditReno quota) (b.creditReno quota) := by
  unfold State.creditReno
  rw [h.ackCount_eq, h.renoCwnd_eq]
  split
  · exact ⟨rfl, rfl, h.pace_le⟩
  · exact h

/-- The Reno window limits both paces alike. -/
theorem NoSlower.followReno (h : NoSlower a b) (cwnd : Nat) :
    NoSlower (a.followReno cwnd) (b.followReno cwnd) := by
  unfold State.followReno
  rw [h.renoCwnd_eq]
  split
  · exact ⟨h.ackCount_eq, rfl, min_le_min_right _ h.pace_le⟩
  · exact h

/-- Keeping up with a Reno flow does not turn the order of two paces around. -/
theorem NoSlower.befriend (h : NoSlower a b) (p : Params) (cwnd : Nat) :
    NoSlower (a.befriend p cwnd) (b.befriend p cwnd) := by
  unfold State.befriend
  split
  · exact (h.creditReno _).followReno cwnd
  · exact h

/-- Nor does limiting them. -/
theorem NoSlower.limitPace (h : NoSlower a b) : NoSlower a.limitPace b.limitPace :=
  ⟨h.ackCount_eq, h.renoCwnd_eq, max_le_max_right _ h.pace_le⟩

/-! ## The curve of an open epoch -/

/-- The window on the curve of an open epoch. -/
theorem curveTarget_of_open (h : st.epochStart = some start) (p : Params) (now : Nat) :
    st.curveTarget p now = p.target st.origin st.k (curveTime (now - start) st.delayMin) := by
  rw [curveTarget, h, Option.getD_some]

/-- The window on the curve of an open epoch does not become smaller with time. -/
theorem curveTarget_mono (h : st.epochStart = some start) (horigin : st.origin ≤ maxCount)
    (p : Params) (hle : now ≤ later) : st.curveTarget p now ≤ st.curveTarget p later := by
  rw [curveTarget_of_open h, curveTarget_of_open h]
  exact p.target_mono horigin (curveTime_mono (Nat.sub_le_sub_right hle start) st.delayMin)

/-- The pace that the curve of an open epoch asks for does not become slower with time. -/
theorem curvePace_antitone (h : st.epochStart = some start) (horigin : st.origin ≤ maxCount)
    (hcwnd : cwnd ≤ maxCount) (p : Params) (hle : now ≤ later) :
    st.curvePace p cwnd later ≤ st.curvePace p cwnd now := by
  have hpace := paceTowards_antitone hcwnd (curveTarget_mono h horigin p hle)
  unfold curvePace
  dsimp only
  split
  · exact min_le_min_right _ hpace
  · exact hpace

/-- An evaluation in an open epoch does not find a slower pace at a later time. -/
theorem noSlower_evaluate (h : st.epochStart = some start) (horigin : st.origin ≤ maxCount)
    (hcwnd : cwnd ≤ maxCount) (p : Params) (acked : Nat) (hle : now ≤ later) :
    NoSlower (st.evaluate p cwnd acked later) (st.evaluate p cwnd acked now) := by
  rw [evaluate_of_open h, evaluate_of_open h]
  exact ⟨rfl, rfl, curvePace_antitone h horigin hcwnd p hle⟩

end Cubic.State

namespace Connection.Reachable

open LowOrbit.Cubic (curveTime)

variable {config : Config} {clock : Nat → Nat → Prop} {c : Connection} {x : Cubic}
variable {cwnd now later start : Nat}

/-- In every reachable state with an open epoch, of two times at which the same acknowledgment would
evaluate the curve, the later one leads to a pace that is not slower. The window on the curve does
not become smaller with time. It is at most the origin before the curve gets there, and at least
the origin from then on. -/
theorem pace_update_antitone (h : Reachable config clock c) (hx : c.engine = .cubic x)
    (hopen : x.state.epochStart = some start) (hcwnd : cwnd ≤ maxCount) (hle : now ≤ later)
    (hevaluates : x.state.Evaluates cwnd now) (acked : Nat) :
    (x.state.update x.params cwnd acked later).pace ≤
        (x.state.update x.params cwnd acked now).pace ∧
      (∀ t t', t ≤ t' → x.state.curveTarget x.params t ≤ x.state.curveTarget x.params t') ∧
      ∀ t,
        (curveTime (t - start) x.state.delayMin < x.state.k →
          x.state.curveTarget x.params t ≤ x.state.origin) ∧
        (x.state.k ≤ curveTime (t - start) x.state.delayMin →
          x.state.origin ≤ x.state.curveTarget x.params t) := by
  have horigin : x.state.origin ≤ maxCount := (h.anchored hx).origin_le (by simp [hopen])
  have hcounted : (x.state.countAcked acked).epochStart = some start := hopen
  refine ⟨?_, ?_, ?_⟩
  · rw [Cubic.State.update_of_evaluates hevaluates,
      Cubic.State.update_of_evaluates (hevaluates.mono hle)]
    have hevaluated := Cubic.State.noSlower_evaluate hcounted horigin hcwnd x.params acked hle
    exact (hevaluated.befriend x.params cwnd).limitPace.pace_le
  · intro t t' ht
    exact Cubic.State.curveTarget_mono hopen horigin x.params ht
  · intro t
    rw [Cubic.State.curveTarget_of_open hopen]
    exact ⟨x.params.target_le_origin x.state.origin, x.params.origin_le_target horigin⟩

/-- After a loss, an acknowledgment opens an epoch. Six seconds into it, another one leads to a pace
that is not slower than after one second. -/
theorem pace_update_antitone_afterLoss :
    ∃ x, (afterLoss.handle (.ack 0 1)).engine = .cubic x ∧
      x.state.epochStart = some 0 ∧ x.state.Evaluates 56 1000000000 ∧
      (x.state.update x.params 56 1 6000000000).pace ≤
        (x.state.update x.params 56 1 1000000000).pace := by
  have hreachable : Reachable {} (· ≤ ·) (afterLoss.handle (.ack 0 1)) :=
    reachable_afterLoss.handle (by decide : 1 ≤ maxCount) (by decide)
  let x : Cubic := { Cubic.ofConfig {} with
    state := Cubic.State.update (Cubic.Params.ofConfig {}) 56 1 0 { lastMax := 80 } }
  have hx : (afterLoss.handle (.ack 0 1)).engine = .cubic x := rfl
  have hopen : x.state.epochStart = some 0 := by decide
  have hevaluates : x.state.Evaluates 56 1000000000 := by decide
  have hlater : 1000000000 ≤ 6000000000 := by decide
  have hpace := (pace_update_antitone hreachable hx hopen (by decide) hlater hevaluates 1).1
  exact ⟨x, hx, hopen, hevaluates, hpace⟩

end Connection.Reachable

end LowOrbit
