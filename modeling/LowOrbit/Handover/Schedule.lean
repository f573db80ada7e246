import LowOrbit.Handover.Gate
import LowOrbit.Timer

/-!
# The handover schedule of a connection

A schedule decides what happens to a link at a phase of the handover period: when the connection
adopts the algorithm, when an acknowledgment arrives, and when its timer fires. In the usual mode
clock and timer both act on the gate, and each repairs what the other missed. In timer-only mode
acknowledgments leave the gate alone and every firing flips it.
-/

namespace LowOrbit.Handover

/-- The handover parameters of a connection. -/
structure Schedule where
  /-- Whether transmission is suspended during handovers. -/
  enabled : Bool
  window : Window
  /-- Whether the timer alone opens and closes the window. -/
  timerOnly : Bool
  /-- Whether what happens is logged. -/
  debug : Bool
  deriving DecidableEq, Repr

namespace Schedule

/-- The schedule in a configuration. -/
def ofConfig (c : Config) : Schedule where
  enabled := c.handover
  window := Window.ofOffsets c.startOffset c.endOffset
  timerOnly := c.timerOnly
  debug := c.debug

/-- What adopting the algorithm at a phase does to the gate. -/
def adoptAction (sch : Schedule) (phase : Nat) : Action :=
  if sch.window.contains phase then .suspend else .keep

/-- What an acknowledgment at a phase does to the gate. -/
def ackAction (sch : Schedule) (phase : Nat) (closed : Bool) : Action :=
  if sch.timerOnly then .keep else sch.window.ackAction phase closed

/-- What a firing of the timer at a phase does to the gate. -/
def timerAction (sch : Schedule) (phase : Nat) (closed : Bool) : Action :=
  if sch.timerOnly then (if closed then .resume else .suspend)
  else sch.window.timerAction phase closed

/-- Whether acknowledgments at a phase leave the window as it is. -/
def inBlackout (sch : Schedule) (phase : Nat) (closed : Bool) : Bool :=
  if sch.timerOnly then closed else sch.window.contains phase

/-- The delay from a phase to the next firing of the timer. -/
def nextDelay (sch : Schedule) (phase : Nat) (closed : Bool) : Nat :=
  if sch.timerOnly then sch.window.nextToggle phase closed else sch.window.nextEdge phase

/-- The link after the algorithm is adopted at a phase. -/
def adopt (sch : Schedule) (phase : Nat) (l : Link) : Link :=
  l.act sch.window.span (sch.adoptAction phase)

/-- The link after an acknowledgment at a phase has been checked against the clock. -/
def reconcile (sch : Schedule) (phase : Nat) (l : Link) : Link :=
  l.act sch.window.span (sch.ackAction phase l.isClosed)

/-- The link after the timer of an established connection has fired at a phase. -/
def expire (sch : Schedule) (phase : Nat) (l : Link) : Link :=
  l.act sch.window.span (sch.timerAction phase l.isClosed)

/-- A firing of the timer at a phase: the link after it, and the answer to the timer. The timer of
a connection that is no longer established stops and leaves the gate as it is. -/
def fire (sch : Schedule) (phase : Nat) (l : Link) : Timer.Outcome × Link :=
  if l.socket.established then
    let l := sch.expire phase l
    (.rearm (sch.nextDelay phase l.isClosed), l)
  else (.stop, l)

/-- An acknowledgment in the usual mode leaves the window closed within the handover window and open
outside of it. -/
theorem isClosed_reconcile {sch : Schedule} (h : sch.timerOnly = false) (phase : Nat) (l : Link) :
    (sch.reconcile phase l).isClosed = sch.window.contains phase := by
  simp only [reconcile, ackAction, h, Window.ackAction]
  by_cases hp : sch.window.contains phase = true <;> by_cases hc : l.isClosed = true
  · simp [hp, hc, Link.act]
  · simp [hp, hc, Link.act, Link.isClosed_suspend]
  · simp [hp, hc, Link.act, Link.isClosed_resume]
  · simp [hp, hc, Link.act]

end Schedule

end LowOrbit.Handover
