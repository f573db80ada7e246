import LowOrbit.Capped
import LowOrbit.SeqNum

/-!
# The socket of a connection

The part of a connection that its host owns and shows to congestion control: windows in packets,
sequence numbers, times, and a few facts about the path. Congestion control writes the congestion
window, its credit, the slow start threshold and the retransmission deadline, and wakes up
writers. Everything else changes by `Socket.Edit` only.
-/

namespace LowOrbit

/-- The state of a connection that the host owns. Instants count from the creation of the
socket. -/
structure Socket where
  /-- The congestion window in packets. A window of zero freezes transmission. -/
  cwnd : Nat := 10
  /-- The upper bound of the congestion window. -/
  clamp : Nat := maxCount
  /-- The acknowledged packets counted towards the next additive increase. -/
  credit : Nat := 0
  /-- The slow start threshold. -/
  ssthresh : Nat := 2147483647
  /-- The congestion window before the last reduction. -/
  priorCwnd : Nat := 0
  /-- The next sequence number to be sent. -/
  sndNxt : SeqNum := 0
  /-- The first sequence number that is not acknowledged. -/
  sndUna : SeqNum := 0
  /-- Whether the window, and not the application, limits the sender. -/
  cwndLimited : Bool := true
  /-- The packets sent and neither acknowledged nor lost. -/
  inFlight : Nat := 10
  /-- Whether the connection is in the established state. -/
  established : Bool := true
  /-- The time of the event being processed. -/
  now : Nat := 0
  /-- The time of the last transmission. -/
  lastSend : Nat := 0
  /-- The pacing rate in bytes per second, zero if unknown. -/
  pacingRate : Nat := 0
  /-- Whether packets are explicitly paced. -/
  paced : Bool := false
  /-- The largest segmentation offload burst in bytes. -/
  gsoSize : Nat := 65536
  /-- The pending retransmission deadline. -/
  rto : Option Nat := none
  /-- Whether writers wait for send buffer space. -/
  writeBlocked : Bool := false
  /-- How often waiting writers have been woken up. -/
  wakeUps : Nat := 0
  /-- The name of the connection in log messages. -/
  traceId : String := ""
  deriving DecidableEq, Repr

namespace Socket

/-- Whether the window is still below the slow start threshold. -/
def inSlowStart (s : Socket) : Bool := s.cwnd < s.ssthresh

/-- Whether transmission is frozen by a window of zero. -/
def isClosed (s : Socket) : Bool := s.cwnd == 0

/-- Lets `d` nanoseconds pass on the socket. -/
def advance (s : Socket) (d : Nat) : Socket := { s with now := s.now + d }

/-- Wakes up the writers if any wait. -/
def wakeWriters (s : Socket) : Socket :=
  if s.writeBlocked then { s with wakeUps := s.wakeUps + 1 } else s

/-- The window to restore after a loss that did not happen. -/
def undoWindow (s : Socket) : Nat := max s.cwnd s.priorCwnd

/-- Values for some fields of a socket. The fields without a value stay as they are. -/
structure Edit where
  cwnd : Option Nat := none
  clamp : Option Nat := none
  credit : Option Nat := none
  ssthresh : Option Nat := none
  priorCwnd : Option Nat := none
  sndNxt : Option SeqNum := none
  sndUna : Option SeqNum := none
  cwndLimited : Option Bool := none
  inFlight : Option Nat := none
  established : Option Bool := none
  now : Option Nat := none
  lastSend : Option Nat := none
  pacingRate : Option Nat := none
  paced : Option Bool := none
  gsoSize : Option Nat := none
  /-- The new deadline, or that there is none. -/
  rto : Option (Option Nat) := none
  writeBlocked : Option Bool := none
  traceId : Option String := none
  deriving DecidableEq, Repr

/-- Writes the values of an edit. -/
def edit (s : Socket) (e : Edit) : Socket :=
  { s with
    cwnd := e.cwnd.getD s.cwnd
    clamp := e.clamp.getD s.clamp
    credit := e.credit.getD s.credit
    ssthresh := e.ssthresh.getD s.ssthresh
    priorCwnd := e.priorCwnd.getD s.priorCwnd
    sndNxt := e.sndNxt.getD s.sndNxt
    sndUna := e.sndUna.getD s.sndUna
    cwndLimited := e.cwndLimited.getD s.cwndLimited
    inFlight := e.inFlight.getD s.inFlight
    established := e.established.getD s.established
    now := e.now.getD s.now
    lastSend := e.lastSend.getD s.lastSend
    pacingRate := e.pacingRate.getD s.pacingRate
    paced := e.paced.getD s.paced
    gsoSize := e.gsoSize.getD s.gsoSize
    rto := e.rto.getD s.rto
    writeBlocked := e.writeBlocked.getD s.writeBlocked
    traceId := e.traceId.getD s.traceId }

/-- A new socket with the values of an edit. Its whole first window is in flight unless the edit
says otherwise. -/
def create (e : Edit) : Socket :=
  let fresh : Socket := {}
  edit { fresh with inFlight := e.cwnd.getD fresh.cwnd } e

/-- Which optional facts a host keeps about its sockets. -/
inductive Features where
  /-- All of them. -/
  | full
  /-- None: no clamp, no prior window, no pacing, bursts of the usual size, no name. -/
  | basic
  /-- The pacing rate alone. -/
  | pacingRate
  deriving DecidableEq, Repr

/-- The socket as a host with these features presents it. -/
def Features.present : Features → Socket → Socket
  | .full, s => s
  | .basic, s =>
    { s with clamp := maxCount, priorCwnd := 0, pacingRate := 0, paced := false,
             gsoSize := 65536, traceId := "" }
  | .pacingRate, s =>
    { s with clamp := maxCount, priorCwnd := 0, paced := false, gsoSize := 65536, traceId := "" }

end Socket

end LowOrbit
