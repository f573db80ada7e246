import LowOrbit.Handover.Schedule

/-!
# What a schedule reports

Everything that a schedule does to a link can be told from the link before it. The functions here
list the reports of an adoption, an acknowledgment and a firing, in the order in which the steps
happen.
-/

namespace LowOrbit.Handover

/-- A report on the handover schedule of a connection. -/
inductive Report where
  /-- The algorithm was adopted within a handover window. -/
  | adopted (phase : Nat)
  | timerArmed (delay : Nat)
  /-- An acknowledgment found an open window during a handover. -/
  | missedSuspend (phase : Nat)
  /-- An acknowledgment found a closed window outside of a handover. -/
  | missedResume (phase : Nat)
  | connectionClosed
  | nothingToDo (phase cwnd : Nat)
  | timerRearmed (delay : Nat)
  | suspended (cwnd inFlight : Nat)
  | alreadyClosed
  | resumed (cwnd inFlight : Nat)
  | alreadyOpen (cwnd : Nat)
  deriving DecidableEq, Repr

/-- The report on closing a window. -/
def Link.suspendReport (l : Link) : Report :=
  if l.isClosed then .alreadyClosed else .suspended l.socket.cwnd l.socket.inFlight

/-- The report on opening a window. -/
def Link.resumeReport (l : Link) : Report :=
  if l.isClosed then .resumed l.resume.socket.cwnd l.socket.inFlight
  else .alreadyOpen l.socket.cwnd

namespace Schedule

/-- The reports of an adoption at a phase. -/
def adoptReports (sch : Schedule) (phase : Nat) (l : Link) : List Report :=
  let closing := match sch.adoptAction phase with
    | .suspend => [.adopted phase, l.suspendReport]
    | _ => []
  closing ++ [.timerArmed (sch.nextDelay phase (sch.adopt phase l).isClosed)]

/-- The reports of checking an acknowledgment at a phase. -/
def ackReports (sch : Schedule) (phase : Nat) (l : Link) : List Report :=
  match sch.ackAction phase l.isClosed with
  | .suspend => [.missedSuspend phase, l.suspendReport]
  | .resume => [.missedResume phase, l.resumeReport]
  | .keep => []

/-- The reports of a firing at a phase. -/
def fireReports (sch : Schedule) (phase : Nat) (l : Link) : List Report :=
  if l.socket.established then
    let acted := match sch.timerAction phase l.isClosed with
      | .suspend => l.suspendReport
      | .resume => l.resumeReport
      | .keep => .nothingToDo phase l.socket.cwnd
    [acted, .timerRearmed (sch.nextDelay phase (sch.expire phase l).isClosed)]
  else [.connectionClosed]

end Schedule

end LowOrbit.Handover
