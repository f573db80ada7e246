import LowOrbit.Host

/-!
# Sessions

A session is one connection on a host, with all its timers. Adopting the algorithm arms a timer
and dropping it cancels that timer. Cancelling a timer that is firing is possible, because its
target may drop or adopt the algorithm itself.
-/

namespace LowOrbit

/-- One connection on a host. -/
structure Session where
  host : Host
  /-- The configuration of the connection. -/
  config : Config
  /-- The optional facts that the host keeps about its sockets. -/
  features : Socket.Features
  connection : Connection
  timers : Timer.Table := {}
  /-- The firings of scripted targets: the ticker time in milliseconds and the answer. -/
  calls : Array (Nat × Timer.ScriptStep) := #[]
  deriving DecidableEq, Repr

namespace Session

/-- A new session. The configuration is checked first. -/
def create (config : Config) (socket : Socket.Edit) (features : Socket.Features)
    (source : TimeSource) (tickerAvailable : Bool) : Except Error Session :=
  match Connection.create config (features.present (Socket.create socket)) with
  | .ok connection =>
    .ok { host := Host.create source tickerAvailable, config := config, features := features,
          connection := connection }
  | .error e => .error e

/-- Adds notices to the log of the host. -/
def note (s : Session) (notices : List Notice) : Session :=
  { s with host := s.host.note notices }

/-- Lets the host write the socket. -/
def mapSocket (s : Session) (f : Socket → Socket) : Session :=
  { s with connection := s.connection.mapSocket fun socket => s.features.present (f socket) }

/-- The number of holders of the connection: the host, and the tasks of timers. -/
def holders (s : Session) : Nat := 1 + s.timers.holds

/-- Cancels the timer of the connection if it has one. -/
def cancelTimer (s : Session) : Session :=
  match s.connection.timer with
  | some id => { s with timers := s.timers.cancel id }
  | none => s

/-- The notice of cancelling the timer of the connection, given if it is firing. -/
def cancelNotices (s : Session) : List Notice :=
  match s.connection.timer with
  | some id => if s.timers.isFiring id then [.cancelledWhileFiring] else []
  | none => []

/-- The connection drops the algorithm. -/
def release (s : Session) : Session :=
  { s.cancelTimer with connection := s.connection.release }.note s.cancelNotices

/-- Arms the timer that the connection gets by handover awareness at the present phase. -/
def attach (s : Session) (target : Timer.Target) : Session :=
  let phase := s.host.phase
  let connection := s.connection.attach s.timers.nextId phase
  let sleep := s.host.ticker.sleep (connection.nextDelay phase)
  { s with
    connection := connection
    timers := s.timers.arm sleep target
    host := { s.host with ticker := s.host.ticker.slept } }.note
      (s.connection.attachNotices phase)

/-- The connection adopts the algorithm, with `target` for its timer. Without a timer it goes on
without handover awareness. -/
def adopt (s : Session) (target : Timer.Target) : Session :=
  let s := { s.cancelTimer with connection := s.connection.adopt }.note s.cancelNotices
  if s.connection.schedule.enabled then
    match s.host.timersAvailable with
    | .ok () => s.attach target
    | .error e => s.note [.handoverDisabled s.connection.socket.traceId e]
  else s

/-- Replaces the congestion control state by a new one on the same socket. -/
def renew (s : Session) : Session :=
  { s.cancelTimer with
    connection := { s.connection.release with engine := Engine.ofConfig s.config } }

/-- An acknowledgment of `acked` packets. -/
def ack (s : Session) (acked : Nat) : Session :=
  let phase := s.host.phase
  { s with connection := s.connection.ack phase acked }.note (s.connection.ackNotices phase)

/-- A round-trip time sample. -/
def sample (s : Session) (sample : RttSample) : Session :=
  { s with connection := s.connection.sample sample }.note (s.connection.sampleNotices sample)

/-- A firing of the timer callback of the connection, and its answer. -/
def fire (s : Session) : Timer.Outcome × Session :=
  let phase := s.host.phase
  let (outcome, connection) := s.connection.fire phase
  (outcome, { s with connection := connection }.note (s.connection.fireNotices phase))

/-- A firing of the timer callback that must not wait for a connection that is locked. -/
def tryFire (s : Session) (locked : Bool) : Timer.Outcome × Session :=
  if locked then (.busy, s) else s.fire

end Session

end LowOrbit
