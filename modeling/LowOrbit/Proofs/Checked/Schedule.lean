import LowOrbit.Handover.Schedule
import LowOrbit.Host
import LowOrbit.Proofs.Checked.Arithmetic

/-!
# Clocks and handover windows without faults

The readings of the clocks and the arithmetic of the handover window, computed with checked
operations. The window lies within its period, so that lengths of time are subtracted from longer
ones only. What ends at zero there on purpose stays as it is.
-/

namespace LowOrbit

/-! ## Clocks -/

/-- The remainder of two signed 64-bit numbers that is not negative. It does not exist for a divisor
of zero, and the quotient of the smallest number and minus one does not fit. -/
def Checked.remEuclid (a b : Int) : Checked Int :=
  if b = 0 then .error .divisionByZero
  else if a = -9223372036854775808 ∧ b = -1 then .error .overflow
  else .ok (a % b)

/-- A remainder by a positive number is the remainder. -/
theorem Checked.remEuclid_ok {a b : Int} (h : 0 < b) : Checked.remEuclid a b = .ok (a % b) := by
  have hzero : ¬ b = 0 := by omega
  have hfits : ¬ (a = -9223372036854775808 ∧ b = -1) := by omega
  rw [Checked.remEuclid, if_neg hzero, if_neg hfits]

/-- A cycle takes some time. -/
theorem cycle_pos : (0 : Int) < cycle := by decide

namespace PhaseClock

/-- Takes the base from the wall clock, and finds by how much that moves the clock. -/
def resyncChecked (c : PhaseClock) (elapsed : Nat) : Checked (PhaseClock × Nat) := do
  let wall ← Checked.rem (c.source.wall elapsed) cycle
  let wall ← Checked.narrow maxSigned wall
  let base := wrapSigned (wall - c.signedMono elapsed)
  let moved ← Checked.remEuclid (wrapSigned (base - c.base)) cycle
  pure ({ c with base := base }, moved.toNat)

/-- The clock is resynchronized without a fault. -/
theorem resyncChecked_eq (c : PhaseClock) (elapsed : Nat) :
    c.resyncChecked elapsed =
      .ok (c.resync elapsed, correction c.base (c.resync elapsed).base) := by
  have hcycle : 0 < cycle := by decide
  have hfits : c.source.wall elapsed % cycle ≤ maxSigned :=
    Nat.le_trans (Nat.le_of_lt (Nat.mod_lt _ hcycle)) (by decide)
  simp only [resyncChecked, Checked.rem_ok hcycle, Checked.narrow_ok hfits,
    Checked.remEuclid_ok cycle_pos, Checked.ok_bind]
  rfl

/-- The time since the start of the minute. -/
def nowInCycleChecked (c : PhaseClock) (elapsed : Nat) : Checked Nat := do
  let t ← Checked.remEuclid (wrapSigned (c.base + c.signedMono elapsed)) cycle
  pure t.toNat

/-- The clock is read without a fault. -/
theorem nowInCycleChecked_eq (c : PhaseClock) (elapsed : Nat) :
    c.nowInCycleChecked elapsed = .ok (c.nowInCycle elapsed) := by
  simp only [nowInCycleChecked, Checked.remEuclid_ok cycle_pos, Checked.ok_bind]
  rfl

end PhaseClock

/-- The position within the handover period. -/
def Host.phaseChecked (h : Host) : Checked Nat := do
  let now ← h.clock.nowInCycleChecked h.ticker.elapsed
  let phase ← Checked.rem now Handover.period
  Checked.narrow maxCount64 phase

/-- The phase is read without a fault. -/
theorem Host.phaseChecked_eq (h : Host) : h.phaseChecked = .ok h.phase := by
  have hperiod : 0 < Handover.period := by decide
  have hfits : h.clock.nowInCycle h.ticker.elapsed % Handover.period ≤ maxCount64 :=
    Nat.le_trans (Nat.le_of_lt (Nat.mod_lt _ hperiod)) (by decide)
  simp only [Host.phaseChecked, PhaseClock.nowInCycleChecked_eq, Checked.rem_ok hperiod,
    Checked.narrow_ok hfits, Checked.ok_bind]
  rfl

/-- The reading of a counter that follows the ticker in steps of `tick` nanoseconds. -/
def Ticker.counterChecked (t : Ticker) (tick : Nat) : Checked Nat := do
  let early ← Checked.rem t.elapsed (max tick 1)
  Checked.sub t.elapsed early

/-- The counter is read without a fault. -/
theorem Ticker.counterChecked_eq (t : Ticker) (tick : Nat) :
    t.counterChecked tick = .ok (t.counter tick) := by
  have htick : 0 < max tick 1 := Nat.lt_of_lt_of_le Nat.zero_lt_one (Nat.le_max_right _ _)
  have hearly : Checked.rem t.elapsed (max tick 1) = .ok (t.elapsed % max tick 1) :=
    Checked.rem_ok htick
  have hreading : Checked.sub t.elapsed (t.elapsed % max tick 1) = .ok (t.counter tick) :=
    Checked.sub_ok (Nat.mod_le _ _)
  rw [Ticker.counterChecked, hearly, Checked.ok_bind, hreading]

namespace Handover

/-! ## Windows -/

namespace Window

/-- The edges of the window from `before` ahead of the handover to `after` behind it. -/
def edgesChecked (before after : Nat) : Checked (Nat × Nat) := do
  let start ← Checked.subTime instant (min before maxHandoverOffset)
  pure (start, instant + min after maxHandoverOffset)

/-- The edges are found without a fault. -/
theorem edgesChecked_eq (before after : Nat) :
    edgesChecked before after = .ok ((ofOffsets before after).start,
      (ofOffsets before after).finish) := by
  have hoffset : min before maxHandoverOffset ≤ instant :=
    Nat.le_trans (Nat.min_le_right _ _) (by decide)
  simp only [edgesChecked, Checked.subTime_ok hoffset, Checked.ok_bind]
  rfl

/-- The length of the window. -/
def spanChecked (w : Window) : Checked Nat := Checked.subTime w.finish w.start

/-- The length is found without a fault. -/
theorem spanChecked_eq (w : Window) : w.spanChecked = .ok w.span :=
  Checked.subTime_ok w.start_le_finish

/-- The delay from a phase to the next edge of the window. -/
def nextEdgeChecked (w : Window) (phase : Nat) : Checked Nat := do
  let delay ←
    if phase < w.start then Checked.subTime w.start phase
    else if phase ≤ w.finish then Checked.subTime w.finish phase
    else pure (w.start + period - phase)
  pure (max delay minDelay)

/-- The delay is found without a fault. -/
theorem nextEdgeChecked_eq (w : Window) (phase : Nat) :
    w.nextEdgeChecked phase = .ok (w.nextEdge phase) := by
  simp only [nextEdgeChecked, nextEdge]
  split
  · rename_i hbefore
    simp only [Checked.subTime_ok (Nat.le_of_lt hbefore), Checked.ok_bind]
    rfl
  · split
    · rename_i hwithin
      simp only [Checked.subTime_ok hwithin, Checked.ok_bind]
      rfl
    · rfl

end Window

/-- The delay from a phase to the next firing of the timer. -/
def Schedule.nextDelayChecked (sch : Schedule) (phase : Nat) (closed : Bool) : Checked Nat :=
  if sch.timerOnly then pure (sch.window.nextToggle phase closed)
  else sch.window.nextEdgeChecked phase

/-- The delay is found without a fault. -/
theorem Schedule.nextDelayChecked_eq (sch : Schedule) (phase : Nat) (closed : Bool) :
    sch.nextDelayChecked phase closed = .ok (sch.nextDelay phase closed) := by
  unfold Schedule.nextDelayChecked Schedule.nextDelay
  split
  · rfl
  · exact sch.window.nextEdgeChecked_eq phase

/-- Does what is asked of the gate, for a handover window. -/
def Link.actChecked (l : Link) (w : Window) : Action → Checked Link
  | .suspend => do
    let span ← w.spanChecked
    pure (l.suspend span)
  | .resume => pure l.resume
  | .keep => pure l

/-- The gate is moved without a fault. -/
theorem Link.actChecked_eq (l : Link) (w : Window) (a : Action) :
    l.actChecked w a = .ok (l.act w.span a) := by
  cases a with
  | suspend =>
      simp only [Link.actChecked, Window.spanChecked_eq, Checked.ok_bind]
      rfl
  | resume => rfl
  | keep => rfl

end Handover

end LowOrbit
