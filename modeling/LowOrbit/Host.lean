import LowOrbit.Notice

/-!
# Hosts

What all connections of a host share: the ticker, the phase clock and the log. Starting the
clock synchronizes it at once and then once per minute, until it is shut down or started again.
-/

namespace LowOrbit

/-- The shared part of a host. -/
structure Host where
  ticker : Ticker
  clock : PhaseClock
  /-- The log, oldest notice first. -/
  log : Array Notice := #[]
  deriving DecidableEq, Repr

namespace Host

/-- Adds notices to the log. -/
def note (h : Host) (notices : List Notice) : Host := { h with log := h.log ++ notices }

/-- Takes the base of the clock from the wall clock. -/
def resync (h : Host) : Host :=
  let clock := h.clock.resync h.ticker.elapsed
  { h with clock := clock }.note [.clockResynced h.clock.base clock.base]

/-- A new host whose clock has been synchronized once. -/
def create (source : TimeSource) (tickerAvailable : Bool) : Host :=
  resync { ticker := { available := tickerAvailable }, clock := { source := source } }

/-- The time since the start of the minute. -/
def nowInCycle (h : Host) : Nat := h.clock.nowInCycle h.ticker.elapsed

/-- The position within the handover period. -/
def phase (h : Host) : Nat := h.nowInCycle % Handover.period

/-- Whether a timer can be armed, and if not, why. -/
def timersAvailable (h : Host) : Except Error Unit :=
  if h.clock.stopped then .error .clockStopped
  else if h.ticker.available then .ok ()
  else .error .noRuntime

/-- Puts the resynchronization to sleep for `syncInterval`. -/
def scheduleSync (h : Host) : Host :=
  { h with
    clock := { h.clock with sync := some (h.ticker.sleep syncInterval) }
    ticker := h.ticker.slept }

/-- Starts the clock, if timers can be armed. -/
def startClock (h : Host) : Host :=
  match h.timersAvailable with
  | .ok () =>
    let h := h.resync.scheduleSync
    h.note [.clockStarted h.nowInCycle]
  | .error _ => h

/-- Shuts the clock down. -/
def shutdown (h : Host) : Host := { h with clock := h.clock.shutdown }

/-- Makes a step of the clock's source by hand. -/
def step (h : Host) (s : TimeSource.Step) : Host :=
  { h with clock := { h.clock with source := h.clock.source.step s } }

/-- Sets the time of the ticker. -/
def moveTo (h : Host) (moment : Nat) : Host :=
  { h with ticker := { h.ticker with now := moment } }

/-- The turn of the resynchronization. -/
def serveSync (h : Host) : Host := h.resync.scheduleSync

/-- Serves the resynchronization if it is due at a moment. -/
def serve (moment : Nat) (h : Host) : Host :=
  let h := h.moveTo moment
  if h.clock.sync.any (·.due ≤ moment) then h.serveSync else h

/-- Lets `ms` milliseconds pass on a host without connections. -/
def run (h : Host) (ms : Nat) : Host :=
  let last := h.ticker.now + ms
  (Ticker.drive (·.clock.sync.toList) serve last (ms + 1) h).moveTo last

/-- An operation on the clock of a host. -/
inductive ClockOp where
  | step (s : TimeSource.Step)
  | resync
  | shutdown
  | start
  deriving DecidableEq, Repr

/-- Performs an operation on the clock. -/
def perform (h : Host) : ClockOp → Host
  | .step s => h.step s
  | .resync => h.resync
  | .shutdown => h.shutdown
  | .start => h.startClock

/-- The answer to an operation on the clock. Only starting it has one. -/
def answer? (h : Host) : ClockOp → Option (Except Error Unit)
  | .start => some h.timersAvailable
  | _ => none

end Host

/-- The state of a clock as text. -/
def Host.clockText (h : Host) : String :=
  s!"base={h.clock.base} now_in_cycle=" ++ Nanos.text h.nowInCycle ++
    s!" stopped={h.clock.stopped}"

end LowOrbit
