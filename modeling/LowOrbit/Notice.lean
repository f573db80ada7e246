import LowOrbit.Connection
import LowOrbit.Handover.Report
import LowOrbit.PhaseClock
import LowOrbit.Time.Text

/-!
# Log notices

What connections, timers and the phase clock have to say, as data, and the line of each in the
log. Notices about a connection begin with its name.
-/

namespace LowOrbit

/-- The text of a report on the handover schedule. -/
def Handover.Report.text : Handover.Report → String
  | .adopted phase => "adopted at " ++ Nanos.text phase
  | .timerArmed delay => "timer armed for " ++ Nanos.text delay
  | .missedSuspend phase => "missed suspend at " ++ Nanos.text phase
  | .missedResume phase => "missed resume at " ++ Nanos.text phase
  | .connectionClosed => "connection closed, timer stopped"
  | .nothingToDo phase cwnd => "nothing to do at " ++ Nanos.text phase ++ s!", cwnd {cwnd}"
  | .timerRearmed delay => "timer rearmed for " ++ Nanos.text delay
  | .suspended cwnd inFlight => s!"suspend, cwnd {cwnd} in_flight {inFlight}"
  | .alreadyClosed => "suspend with closed window"
  | .resumed cwnd inFlight => s!"resume, cwnd {cwnd} in_flight {inFlight}"
  | .alreadyOpen cwnd => s!"resume with open window {cwnd}"

/-- The text of a reason to leave slow start at window `cwnd`. -/
def Exit.text (cwnd : Nat) : Exit → String
  | .train length threshold delayMin =>
    "hystart_ack_train (" ++ Nanos.text length ++
      s!" > {threshold}us) delay_min {delayMin} cwnd {cwnd}"
  | .delay rtt threshold => s!"hystart_delay ({rtt} > {threshold}) cwnd {cwnd}"

/-- The importance of a notice. -/
inductive Level where
  | trace
  | debug
  | warn
  deriving DecidableEq, Repr

/-- The word for a level in the log. -/
def Level.text : Level → String
  | .trace => "TRACE"
  | .debug => "DEBUG"
  | .warn => "WARN"

/-- Something worth logging. -/
inductive Notice where
  | handover (traceId : String) (report : Handover.Report)
  /-- Handover awareness could not be added to a connection. -/
  | handoverDisabled (traceId : String) (error : Error)
  | slowStartExit (traceId : String) (cwnd : Nat) (exit : Exit)
  | clockResynced (old new : Int)
  | clockStarted (now : Nat)
  /-- A timer was cancelled while it was firing. -/
  | cancelledWhileFiring
  /-- The task of such a timer has let go of its connection. -/
  | holdReleased
  deriving DecidableEq, Repr

namespace Notice

/-- The importance of a notice. -/
def level : Notice → Level
  | handover _ _ => .debug
  | handoverDisabled _ _ => .warn
  | _ => .trace

/-- The text of a notice. -/
def text : Notice → String
  | handover traceId report => traceId ++ " handover: " ++ report.text
  | handoverDisabled traceId error =>
    traceId ++ " handover disabled for this connection: " ++ error.text
  | slowStartExit traceId cwnd exit => traceId ++ " " ++ exit.text cwnd
  | clockResynced old new =>
    s!"phase clock: resync: old {old} new {new} diff " ++
      Nanos.text (PhaseClock.correction old new)
  | clockStarted now => "phase clock: started: " ++ Nanos.text now
  | cancelledWhileFiring => "handover: cancelled while firing"
  | holdReleased => "handover timer: released after in-flight cancel"

/-- The line of a notice in the log. -/
def line (n : Notice) : String := n.level.text ++ " " ++ n.text

end Notice

namespace Connection

/-- The notices that handover reports give rise to: none unless the schedule is logged. -/
def handoverNotices (c : Connection) (reports : List Handover.Report) : List Notice :=
  if c.schedule.debug then reports.map (.handover c.link.socket.traceId) else []

/-- The notices of adding handover awareness at a phase. -/
def attachNotices (c : Connection) (phase : Nat) : List Notice :=
  c.handoverNotices (c.schedule.adoptReports phase c.link)

/-- The notices of an acknowledgment at a phase. -/
def ackNotices (c : Connection) (phase : Nat) : List Notice :=
  if c.link.socket.cwndLimited && c.timer.isSome then
    c.handoverNotices (c.schedule.ackReports phase c.link)
  else []

/-- The notices of a firing of the handover timer at a phase. -/
def fireNotices (c : Connection) (phase : Nat) : List Notice :=
  if c.timer.isSome then c.handoverNotices (c.schedule.fireReports phase c.link) else []

/-- The notices of a round-trip time sample. -/
def sampleNotices (c : Connection) (sample : RttSample) : List Notice :=
  (c.engine.exits c.link.socket sample).map
    (.slowStartExit c.link.socket.traceId c.link.socket.cwnd)

end Connection

end LowOrbit
