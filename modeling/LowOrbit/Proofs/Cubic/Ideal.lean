import Mathlib.Algebra.Order.Ring.Int
import Mathlib.Data.Nat.Cast.Order.Ring
import LowOrbit.Proofs.Cubic.Curve
import LowOrbit.Proofs.Cubic.Epochs

/-!
# The ideal curve

The formula of the cubic update over the integers, where nothing stops at a largest value before
the end of a step (`Cubic.Ideal`). The main theorem is `Connection.Reachable.update_eq_ideal`: an
acknowledgment that evaluates the curve finds the ideal numbers, whatever the age of the epoch, the
scale of the curve and the window are. Each number of the engine has its own lemma of agreement.
-/

namespace LowOrbit

namespace Cubic

namespace Ideal

/-! ## The formula -/

/-- The scale of the curve. -/
def scale (p : Params) : Int := max (min (10 * p.bicScale) (2 ^ 32 - 1)) 1

/-- The factor from a gap to the cube of the time to close it. -/
def factor (p : Params) : Int := 2 ^ 40 / scale p

/-- The time `K` from the start of an epoch at window `cwnd` to the origin of its curve. -/
def climb (p : Params) (lastMax cwnd : Int) : Int :=
  if cwnd < lastMax then CubeRoot.cubeRoot (min (2 ^ 64 - 1) (factor p * (lastMax - cwnd))).toNat
  else 0

/-- The origin of the curve of an epoch that opens at window `cwnd`. -/
def origin (lastMax cwnd : Int) : Int := if cwnd < lastMax then lastMax else cwnd

/-- The time on the curve in units of 1/1024 s, for an epoch that began at `start`. The instants are
in nanoseconds, and whole microseconds count. -/
def time (start now delayMin : Int) : Int := 1024 * ((now - start) / 1000 + delayMin) / 10 ^ 6

/-- The distance from the origin at time `t`. -/
def rise (p : Params) (k t : Int) : Int := min (2 ^ 32 - 1) (scale p * |t - k| ^ 3 / 2 ^ 40)

/-- The window on the curve at time `t`. -/
def target (p : Params) (origin k t : Int) : Int :=
  max 0 (min (2 ^ 32 - 1) (if t < k then origin - rise p k t else origin + rise p k t))

/-- The acknowledged packets per packet of growth, at most 20 as long as no loss has been seen. -/
def pace (lastMax cwnd target : Int) : Int :=
  let pace := if cwnd < target then cwnd / (target - cwnd) else min (2 ^ 32 - 1) (100 * cwnd)
  if lastMax = 0 then min pace 20 else pace

/-! ## Agreement -/

/-- The scale of the engine is the ideal one. -/
theorem scale_eq (p : Params) : (p.riseScale : Int) = scale p := by
  simp only [Params.riseScale, countMul, maxCount, scale]
  omega

/-- The factor of the engine is the ideal one. -/
theorem factor_eq (p : Params) : (p.cubeFactor : Int) = factor p := by
  rw [Params.cubeFactor, Int.natCast_ediv, scale_eq, factor]
  rfl

/-- The time to the origin is the ideal one, for any gap. -/
theorem climb_eq (p : Params) (lastMax cwnd : Nat) :
    ((if lastMax ≤ cwnd then 0 else p.climbTime (lastMax - cwnd) : Nat) : Int) =
      climb p lastMax cwnd := by
  unfold climb
  split
  · rename_i hreached
    rw [if_neg (by omega)]
    rfl
  · rename_i hbelow
    have hstops : min (2 ^ 64 - 1) (factor p * ((lastMax : Int) - cwnd)) =
        (mul64 p.cubeFactor (lastMax - cwnd) : Nat) := by
      rw [mul64, Nat.cast_min, Nat.cast_mul, factor_eq, Nat.cast_sub (by omega), min_comm]
      rfl
    rw [if_pos (by omega), hstops, Int.toNat_natCast]
    rfl

/-- The origin is the ideal one. -/
theorem origin_eq (lastMax cwnd : Nat) :
    ((if lastMax ≤ cwnd then cwnd else lastMax : Nat) : Int) = origin lastMax cwnd := by
  unfold origin
  split <;> split <;> omega

/-- The time on the curve is the ideal one, however old the epoch is. -/
theorem time_eq {start now : Nat} (h : start ≤ now) (delayMin : Nat) :
    (curveTime (now - start) delayMin : Int) = time start now delayMin := by
  simp only [curveTime, Nanos.wholeMicros, Nanos.micros, time]
  omega

/-- The rise is the ideal one: where a product stops, the ideal rise stops as well. -/
theorem rise_eq (p : Params) (k t : Int) : (p.rise (t - k).natAbs : Int) = rise p k t := by
  rw [Params.rise_eq_min, Nat.cast_min, Int.natCast_ediv, Nat.cast_mul, Nat.cast_pow,
    Int.natCast_natAbs, scale_eq, min_comm]
  rfl

/-- The window on the curve is the ideal one. -/
theorem target_eq (p : Params) {origin : Nat} (horigin : origin ≤ maxCount) (k t : Nat) :
    (p.target origin k t : Int) = target p origin k t := by
  have hrise := rise_eq p k t
  simp only [Params.target, target, countAdd, maxCount] at *
  rw [← hrise]
  rcases Nat.lt_or_ge t k with hbefore | hafter
  · have hoffset : ((t : Int) - k).natAbs = k - t := by omega
    rw [hoffset, if_pos hbefore, if_pos (by omega)]
    omega
  · have hoffset : ((t : Int) - k).natAbs = t - k := by omega
    rw [hoffset, if_neg (by omega), if_neg (by omega)]
    omega

/-- The pace that a target asks for is the ideal one. -/
theorem pace_eq (lastMax cwnd target : Nat) :
    ((if lastMax = 0 then min (paceTowards cwnd target) blindPace
      else paceTowards cwnd target : Nat) : Int) = pace lastMax cwnd target := by
  have hpace : (paceTowards cwnd target : Int) =
      if (cwnd : Int) < target then (cwnd : Int) / (target - cwnd)
      else min (2 ^ 32 - 1) (100 * cwnd) := by
    unfold paceTowards
    split
    · rename_i hahead
      rw [if_pos (by omega), Int.natCast_ediv, Nat.cast_sub hahead.le]
    · rename_i hreached
      rw [if_neg (by omega)]
      simp only [countMul, maxCount]
      omega
  simp only [pace, ← hpace, blindPace]
  split <;> split <;> omega

/-! ## The update -/

/-- The state `st` has the ideal curve of an epoch that began at `start` and opened at window `w`,
and the ideal pace for window `cwnd` at time `now`. -/
structure Evaluated (p : Params) (cwnd now start w : Nat) (st : State) : Prop where
  epochStart_eq : st.epochStart = some start
  start_le : start ≤ now
  k_eq : (st.k : Int) = climb p st.lastMax w
  origin_eq : (st.origin : Int) = origin st.lastMax w
  time_eq : (curveTime (now - start) st.delayMin : Int) = time start now st.delayMin
  rise_eq : (p.rise ((curveTime (now - start) st.delayMin : Int) - st.k).natAbs : Int) =
    rise p (climb p st.lastMax w) (time start now st.delayMin)
  target_eq : (st.curveTarget p now : Int) =
    target p (origin st.lastMax w) (climb p st.lastMax w) (time start now st.delayMin)
  pace_eq : (st.pace : Int) = pace st.lastMax cwnd
    (target p (origin st.lastMax w) (climb p st.lastMax w) (time start now st.delayMin))

/-- The state `st` comes from `before` by an acknowledgment at a window and a time, and its epoch,
which began at `start` and opened at window `w`, is new or the one before. -/
structure Continues (before : State) (cwnd now start w : Nat) (st : State) : Prop where
  lastMax_eq : st.lastMax = before.lastMax
  delayMin_eq : st.delayMin = before.delayMin
  w_le : w ≤ maxCount
  opens : before.epochStart = none → start = now ∧ w = cwnd
  stays : before.epochStart ≠ none →
    before.epochStart = some start ∧ st.k = before.k ∧ st.origin = before.origin

variable {p : Params} {st : State} {cwnd now start w : Nat}

/-- An evaluation in an epoch that has begun finds the ideal numbers. -/
theorem evaluated_of_openedAt (hopened : st.OpenedAt p w) (horigin : st.origin ≤ maxCount)
    (hstart : st.epochStart = some start) (hle : start ≤ now) :
    Evaluated p cwnd now start w
      { st with lastCwnd := cwnd, lastUpdate := some now, pace := st.curvePace p cwnd now } := by
  have hk : (st.k : Int) = climb p st.lastMax w := by rw [hopened.k_eq, climb_eq]
  have horigin' : (st.origin : Int) = origin st.lastMax w := by rw [hopened.origin_eq, origin_eq]
  have htime := time_eq hle st.delayMin
  have htarget : (st.curveTarget p now : Int) = target p (origin st.lastMax w)
      (climb p st.lastMax w) (time start now st.delayMin) := by
    rw [State.curveTarget, hstart, Option.getD_some, target_eq p horigin, hk, horigin', htime]
  refine ⟨hstart, hle, hk, horigin', htime, ?_, htarget, ?_⟩
  · rw [← hk, ← htime, ← rise_eq]
  · rw [← htarget]
    exact pace_eq st.lastMax cwnd (st.curveTarget p now)

end Ideal

end Cubic

namespace Connection.Reachable

open LowOrbit.Cubic

variable {config : Config} {c : Connection} {x : Cubic} {cwnd now : Nat}

/-- In every reachable state, an acknowledgment that evaluates the curve finds the numbers of the
ideal formula, and only then keeps up with a Reno flow and limits the pace. As long as its epoch is
open, the curve stays the one that the opening acknowledgment has found. -/
theorem update_eq_ideal (h : Reachable config (· ≤ ·) c) (hx : c.engine = .cubic x)
    (hcwnd : cwnd ≤ maxCount) (hnow : c.socket.now ≤ now) (hevaluates : x.state.Evaluates cwnd now)
    (acked : Nat) :
    (∃ st start w,
      x.state.update x.params cwnd acked now = (st.befriend x.params cwnd).limitPace ∧
        st = (x.state.countAcked acked).evaluate x.params cwnd acked now ∧
        Ideal.Continues x.state cwnd now start w st ∧
        Ideal.Evaluated x.params cwnd now start w st) ∧
      ∀ e y, (c.handle e).engine = .cubic y → x.state.epochStart ≠ none →
        y.state.epochStart ≠ none → x.state.SameCurve y.state := by
  refine ⟨?_, fun e y hy => sameCurve_handle hx hy⟩
  have hanchored := h.anchored hx
  have hupdate := State.update_of_evaluates hevaluates x.params acked
  -- The epoch is a new one at this window, or one whose opening window the invariant remembers.
  cases hepoch : x.state.epochStart with
  | none =>
      have hclosed : (x.state.countAcked acked).epochStart = none := hepoch
      have hopened : (x.state.openEpoch x.params cwnd acked now).origin ≤ maxCount := by
        unfold State.openEpoch
        dsimp only
        split
        · exact hcwnd
        · exact hanchored.lastMax_le
      refine ⟨_, now, cwnd, hupdate, rfl, ?_, ?_⟩ <;> rw [State.evaluate_of_closed hclosed]
      · exact ⟨rfl, rfl, hcwnd, fun _ => ⟨rfl, rfl⟩, fun hopen => absurd hepoch hopen⟩
      · exact Ideal.evaluated_of_openedAt ⟨rfl, rfl⟩ hopened rfl (Nat.le_refl now)
  | some start =>
      have hopen : (x.state.countAcked acked).epochStart = some start := hepoch
      have hbegan : start ≤ now := (h.timely hx start hepoch).trans hnow
      have hne : x.state.epochStart ≠ none := by simp [hepoch]
      obtain ⟨w, hw, hopened⟩ := hanchored.opened hne
      refine ⟨_, start, w, hupdate, rfl, ?_, ?_⟩ <;> rw [State.evaluate_of_open hopen]
      · exact ⟨rfl, rfl, hw, fun hclosed => absurd hclosed hne, fun _ => ⟨hepoch, rfl, rfl⟩⟩
      · exact Ideal.evaluated_of_openedAt ⟨hopened.k_eq, hopened.origin_eq⟩
          (hanchored.origin_le hne) hopen hbegan

/-- After a loss, the first acknowledgment opens an epoch and finds the ideal numbers. -/
theorem update_eq_ideal_afterLoss :
    let x : Cubic := { Cubic.ofConfig {} with state := { lastMax := 80 } }
    afterLoss.engine = .cubic x ∧ ∃ st start w,
      x.state.update x.params 56 1 7000000 = (st.befriend x.params 56).limitPace ∧
      Ideal.Continues x.state 56 7000000 start w st ∧
      Ideal.Evaluated x.params 56 7000000 start w st := by
  intro x
  have hevaluates : x.state.Evaluates 56 7000000 := by decide
  obtain ⟨⟨st, start, w, hupdate, -, hcontinues, hevaluated⟩, -⟩ :=
    update_eq_ideal reachable_afterLoss rfl (by decide) (Nat.zero_le _) hevaluates 1
  exact ⟨rfl, st, start, w, hupdate, hcontinues, hevaluated⟩

end Connection.Reachable

end LowOrbit
