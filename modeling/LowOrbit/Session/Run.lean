import LowOrbit.Session

/-!
# Running a session

While ticker time passes, the resynchronization of the clock and the tasks of timers are served
in the order in which their sleeps end. The turn of a timer is a firing of its target, after which
the task sleeps again, or ends and lets go of the connection.
-/

namespace LowOrbit.Session

open Timer (Outcome ScriptStep Target Task)

/-- Ends the task of a timer. A timer that was cancelled while it fired says so now. -/
def endTask (s : Session) (id : Nat) : Session :=
  { s with timers := s.timers.endTask id }.note
    (if s.timers.releasePending id then [.holdReleased] else [])

/-- Puts the task of a timer to sleep for `delay`. -/
def resleep (s : Session) (id delay : Nat) (target : Target) : Session :=
  { s with
    timers := s.timers.resleep id (s.host.ticker.sleep delay) target
    host := { s.host with ticker := s.host.ticker.slept } }

/-- Begins a firing of a timer, if it is armed. -/
def beginFiring? (s : Session) (id : Nat) : Option Session :=
  match (s.timers.record? id).bind (·.beginFiring?) with
  | some record => some { s with timers := s.timers.update id fun _ => record }
  | none => none

/-- The delay after which an answer asks to fire again. -/
def delayAfter : Outcome → Option Nat
  | .busy => some Handover.minDelay
  | .rearm delay => some delay
  | .stop => none

/-- Ends a firing of a timer that its target answered: the session after it, and the delay before
the next firing, if there is to be one. A timer cancelled meanwhile has none. -/
def endFiring (s : Session) (id : Nat) (outcome : Outcome) : Session × Option Nat :=
  match delayAfter outcome with
  | none => ({ s with timers := s.timers.update id (·.stop) }.endTask id, none)
  | some delay =>
    match (s.timers.record? id).bind (·.endFiring?) with
    | some record => ({ s with timers := s.timers.update id fun _ => record }, some delay)
    | none => (s.endTask id, none)

/-- Records a firing of a scripted target. -/
def recordCall (s : Session) (step : ScriptStep) : Session :=
  { s with calls := s.calls.push (s.host.ticker.now, step) }

/-- Plays one step of a script: the answer to the timer, and the session after it. -/
def play (s : Session) (locked : Bool) : ScriptStep → Outcome × Session
  | .rearm delay => (.rearm delay, s)
  | .busy => (.busy, s)
  | .stop => (.stop, s)
  | .fire => s.tryFire locked
  | .release => (.rearm Handover.minDelay, s.release)
  | .releaseStop => (.stop, s.release)
  | .readopt => (.rearm Handover.minDelay, s.adopt .connection)

/-- The turn of a timer with a scripted target. A delay that no millisecond is needed to cover
lets the timer fire again in the same turn. -/
def serveScript (locked : Bool) (id : Nat) : List ScriptStep → Session → Session
  | [], s =>
    match s.beginFiring? id with
    | some s => ((s.recordCall .stop).endFiring id .stop).1
    | none => s.endTask id
  | step :: rest, s =>
    match s.beginFiring? id with
    | some s =>
      let (outcome, s) := (s.recordCall step).play locked step
      match s.endFiring id outcome with
      | (s, some delay) =>
        if Nanos.coveringMillis delay = 0 then serveScript locked id rest s
        else s.resleep id delay (.script rest)
      | (s, none) => s
    | none => s.endTask id

/-- The turn of a timer that fires the connection. -/
def serveConnection (locked : Bool) (id : Nat) (s : Session) : Session :=
  match s.beginFiring? id with
  | some s =>
    let (outcome, s) := s.tryFire locked
    match s.endFiring id outcome with
    | (s, some delay) => s.resleep id delay .connection
    | (s, none) => s
  | none => s.endTask id

/-- The turn of a timer. -/
def serveTask (locked : Bool) (s : Session) (task : Task) : Session :=
  match task.target with
  | .connection => s.serveConnection locked task.id
  | .script steps => serveScript locked task.id steps s

/-- The sleeps of the resynchronization and of all tasks. -/
def sleeps (s : Session) : List Sleep :=
  s.host.clock.sync.toList ++ s.timers.tasks.map Task.sleep

/-- Serves whoever wakes up from a sleep. -/
def serveSleep (locked : Bool) (s : Session) (sleep : Sleep) : Session :=
  if s.host.clock.sync = some sleep then { s with host := s.host.serveSync }
  else
    match s.timers.tasks.find? (·.sleep = sleep) with
    | some task => s.serveTask locked task
    | none => s

/-- Serves everyone who wakes up at a moment. -/
def serve (locked : Bool) (moment : Nat) (s : Session) : Session :=
  let s := { s with host := s.host.moveTo moment }
  (Ticker.dueBy s.sleeps moment).foldl (serveSleep locked) s

/-- Ends the tasks of all cancelled timers. -/
def reap (s : Session) : Session :=
  s.timers.cancelledTasks.foldl (fun s task => s.endTask task.id) s

/-- Lets `ms` milliseconds pass, with the connection locked or not. The tasks of cancelled timers
end first. -/
def run (s : Session) (ms : Nat) (locked : Bool) : Session :=
  let last := s.host.ticker.now + ms
  let s := Ticker.drive sleeps (serve locked) last (ms + 1) s.reap
  { s with host := s.host.moveTo last }

end LowOrbit.Session
