import LowOrbit.Engine
import LowOrbit.Handover.Schedule

/-!
# Connections

A connection joins a link, a window engine and a handover schedule. The host calls the operations
below; those that depend on the time take the phase of the handover period. Handover awareness is
active while the connection has a timer. Without a timer the gate is open, whatever the window is.
-/

namespace LowOrbit

open Handover (Link Schedule)

/-- The congestion control state of a connection, with its socket. -/
structure Connection where
  link : Link
  engine : Engine
  schedule : Schedule
  /-- The handover timer, by its place among all timers, while handover awareness is active. -/
  timer : Option Nat := none
  deriving DecidableEq, Repr

namespace Connection

/-- A new connection. The configuration is checked first. -/
def create (c : Config) (s : Socket) : Except Error Connection :=
  match c.validate with
  | .ok () =>
    .ok { link := { socket := s }, engine := Engine.ofConfig c, schedule := Schedule.ofConfig c }
  | .error e => .error e

/-- The socket of the connection. -/
def socket (c : Connection) : Socket := c.link.socket

/-- Lets the host write the socket. -/
def mapSocket (c : Connection) (f : Socket → Socket) : Connection :=
  { c with link := { c.link with socket := f c.link.socket } }

/-- Whether transmission is suspended by a handover. -/
def isSuspended (c : Connection) : Bool := c.link.gate.isSuspended

/-- Drops the algorithm. The gate is gone, and the window stays as the socket has it. -/
def release (c : Connection) : Connection :=
  { c with link := { c.link with gate := .opened }, timer := none }

/-- Adopts the algorithm without handover awareness: the engine starts over. -/
def adopt (c : Connection) : Connection :=
  let (engine, socket) := c.engine.adopt c.link.socket
  { c with engine := engine, link := { gate := .opened, socket := socket }, timer := none }

/-- Adds handover awareness at a phase. Within a handover window transmission is suspended at
once. -/
def attach (c : Connection) (timer phase : Nat) : Connection :=
  { c with link := c.schedule.adopt phase c.link, timer := some timer }

/-- The delay from a phase to the next firing of the timer. -/
def nextDelay (c : Connection) (phase : Nat) : Nat :=
  c.schedule.nextDelay phase c.link.isClosed

/-- The slow start threshold after a loss now. During a handover the saved window counts. -/
def lossThreshold (c : Connection) : Nat := c.engine.lossThreshold c.link.effectiveCwnd

/-- The connection after a loss. -/
def reduce (c : Connection) : Connection :=
  { c with engine := c.engine.reduce c.link.effectiveCwnd }

/-- Whether acknowledgments at a phase leave the window as it is because of a handover. -/
def inBlackout (c : Connection) (phase : Nat) : Bool :=
  c.timer.isSome && c.schedule.inBlackout phase c.link.isClosed

/-- Brings the gate in line with the clock if handover awareness is active. -/
def reconcile (c : Connection) (phase : Nat) : Connection :=
  if c.timer.isSome then { c with link := c.schedule.reconcile phase c.link } else c

/-- Grows the window by an acknowledgment of `acked` packets. -/
def grow (c : Connection) (acked : Nat) : Connection :=
  let (engine, socket) := c.engine.grow c.link.socket acked
  { c with engine := engine, link := { c.link with socket := socket } }

/-- An acknowledgment of `acked` packets at a phase. Only a sender that is limited by its window
is looked at, and its window grows outside of handovers only. -/
def ack (c : Connection) (phase acked : Nat) : Connection :=
  if c.link.socket.cwndLimited then
    let reconciled := c.reconcile phase
    if c.inBlackout phase then reconciled else reconciled.grow acked
  else c

/-- A round-trip time sample. -/
def sample (c : Connection) (sample : RttSample) : Connection :=
  let (engine, socket) := c.engine.sample c.link.socket sample
  { c with engine := engine, link := { c.link with socket := socket } }

/-- A change of the congestion avoidance state. -/
def changeState (c : Connection) (state : AvoidanceState) : Connection :=
  { c with engine := c.engine.changeState c.link.socket state }

/-- A congestion window event. -/
def windowEvent (c : Connection) (event : WindowEvent) : Connection :=
  { c with engine := c.engine.windowEvent c.link.socket event }

/-- The window to restore after a loss that did not happen. A suspended connection stays
closed. -/
def undoCwnd (c : Connection) : Nat :=
  if c.isSuspended then c.link.socket.cwnd else c.link.socket.undoWindow

/-- The connection after a loss that did not happen: the window that a suspended connection
resumes with is raised to the one before the loss. -/
def undo (c : Connection) : Connection :=
  { c with link := c.link.raiseSaved c.link.socket.priorCwnd }

/-- A firing of the handover timer at a phase, and the answer to the timer. A connection without
handover awareness stops it. -/
def fire (c : Connection) (phase : Nat) : Timer.Outcome × Connection :=
  match c.timer with
  | some _ =>
    let (outcome, link) := c.schedule.fire phase c.link
    (outcome, { c with link := link })
  | none => (.stop, c)

end Connection

end LowOrbit
