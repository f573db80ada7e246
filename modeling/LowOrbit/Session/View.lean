import LowOrbit.Connection.Text
import LowOrbit.Session.Operation

/-!
# What can be seen of a session

The state of a session as its host sees it after an operation.
-/

namespace LowOrbit.Session

/-- The handover state of a connection. -/
structure HandoverView where
  gate : Handover.Gate
  armed : Bool
  /-- The position within the handover period. -/
  phase : Nat
  window : Handover.Window
  deriving DecidableEq, Repr

/-- The record of the connection's timer, if it has one. -/
def timerRecord? (s : Session) : Option Timer.Record :=
  s.connection.timer.bind s.timers.record?

/-- The handover state, if handover awareness is active. -/
def handoverView? (s : Session) : Option HandoverView :=
  s.timerRecord?.map fun record =>
    { gate := s.connection.link.gate
      armed := record.isArmed
      phase := s.host.phase
      window := s.connection.schedule.window }

/-- The state of the connection as text. -/
def text (s : Session) : String := s.connection.text s.timerRecord?

/-- The lines of the log, and the session with an empty log. -/
def takeLog (s : Session) : List String × Session :=
  (s.host.log.toList.map Notice.line, { s with host := { s.host with log := #[] } })

end LowOrbit.Session
