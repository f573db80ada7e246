import LowOrbit.Config

/-!
# The handover window

Satellites hand over 12 s into every 15 s period of the wall-clock minute. The handover window is
the stretch of a period around that instant in which nothing is sent. It is asked three things:
whether a phase of the period lies in it, when its next edge comes, and what a timer that fires
at a phase does to the transmission gate.
-/

namespace LowOrbit.Handover

/-- The length of a handover period. -/
def period : Nat := 15000000000

/-- The handover instant within each period. -/
def instant : Nat := 12000000000

/-- How far ahead of its time a timer may fire. -/
def jitter : Nat := 10000000

/-- The shortest delay a timer is armed for. -/
def minDelay : Nat := 1000000

/-- The part of a period in which transmission is suspended. It reaches from at most
`maxHandoverOffset` before the handover to at most as long after it. -/
structure Window where
  start : Nat
  finish : Nat
  start_le : start ≤ instant
  le_start : instant - maxHandoverOffset ≤ start
  le_finish : instant ≤ finish
  finish_le : finish ≤ instant + maxHandoverOffset
  deriving DecidableEq, Repr

/-- What a clock reading or a timer firing asks of the transmission gate. -/
inductive Action where
  | suspend
  | resume
  | keep
  deriving DecidableEq, Repr

namespace Window

/-- The window from `before` ahead of the handover to `after` behind it. Larger offsets than
`maxHandoverOffset` are cut down to it. -/
def ofOffsets (before after : Nat) : Window where
  start := instant - min before maxHandoverOffset
  finish := instant + min after maxHandoverOffset
  start_le := Nat.sub_le _ _
  le_start := Nat.sub_le_sub_left (Nat.min_le_right _ _) _
  le_finish := Nat.le_add_right _ _
  finish_le := Nat.add_le_add_left (Nat.min_le_right _ _) _

/-- The window of the default offsets. -/
def standard : Window :=
  let c : Config := {}
  ofOffsets c.startOffset c.endOffset

/-- A window does not end before it starts. -/
theorem start_le_finish (w : Window) : w.start ≤ w.finish := Nat.le_trans w.start_le w.le_finish

/-- The window lies within a second of the handover instant. -/
theorem edges (w : Window) :
    11000000000 ≤ w.start ∧ w.start ≤ 12000000000 ∧
      12000000000 ≤ w.finish ∧ w.finish ≤ 13000000000 := by
  have hstart := w.start_le
  have hstart' := w.le_start
  have hfinish := w.le_finish
  have hfinish' := w.finish_le
  simp only [instant, maxHandoverOffset] at *
  omega

/-- The length of the window. -/
def span (w : Window) : Nat := w.finish - w.start

/-- Whether a phase lies in the window, edges included. -/
def contains (w : Window) (phase : Nat) : Bool := w.start ≤ phase && phase ≤ w.finish

/-- A phase lies in the window when it is between the edges. -/
theorem contains_iff (w : Window) (phase : Nat) :
    w.contains phase = true ↔ w.start ≤ phase ∧ phase ≤ w.finish := by
  simp [contains]

/-- A phase lies outside of the window when it is before the start or behind the end. -/
theorem contains_eq_false_iff (w : Window) (phase : Nat) :
    w.contains phase = false ↔ phase < w.start ∨ w.finish < phase := by
  rw [← Bool.not_eq_true, contains_iff]
  omega

/-- The delay from a phase to the next edge of the window. At the end of the window itself that is
the shortest delay, so that an acknowledgment at the same moment cannot leave the gate shut. -/
def nextEdge (w : Window) (phase : Nat) : Nat :=
  let delay :=
    if phase < w.start then w.start - phase
    else if phase ≤ w.finish then w.finish - phase
    else w.start + period - phase
  max delay minDelay

/-- The delay from a phase to the edge at which a timer that works alone has to fire: the end of
the window while the gate is shut, otherwise the start of the next one. -/
def nextToggle (w : Window) (phase : Nat) (closed : Bool) : Nat :=
  let delay :=
    if closed then w.finish - phase
    else if phase ≤ instant then w.start - phase
    else w.start + period - phase
  max delay minDelay

/-- No timer is armed for less than the shortest delay. -/
theorem minDelay_le_nextEdge (w : Window) (phase : Nat) : minDelay ≤ w.nextEdge phase :=
  Nat.le_max_right _ _

/-- No timer that works alone is armed for less than the shortest delay. -/
theorem minDelay_le_nextToggle (w : Window) (phase : Nat) (closed : Bool) :
    minDelay ≤ w.nextToggle phase closed :=
  Nat.le_max_right _ _

/-- What a timer that fires at a phase does to the gate. The timer may be early by `jitter`, so a
phase this close to an edge counts as past it. -/
def timerAction (w : Window) (phase : Nat) (closed : Bool) : Action :=
  if w.finish ≤ phase + jitter then .resume
  else if w.start ≤ phase + jitter then .suspend
  else if closed then .resume
  else .keep

/-- What an acknowledgment at a phase does to the gate: it brings the gate in line with the
clock. -/
def ackAction (w : Window) (phase : Nat) (closed : Bool) : Action :=
  if w.contains phase then (if closed then .keep else .suspend)
  else if closed then .resume
  else .keep

end Window

end LowOrbit.Handover
