import LowOrbit.Ticker

/-!
# Handover timers

A timer fires its target again and again until the target stops it or its owner cancels it. Owner
and timer may act at any moment, so a timer has a record of what it is doing: a firing begins only
on an armed record and is followed by another only if nobody cancelled the record meanwhile.
While a timer has a task, the task holds the connection; a cancelled task lets go of it at the
ticker's next turn, or when the firing that is under way returns.
-/

namespace LowOrbit.Timer

/-- What a timer is doing. -/
inductive Status where
  /-- Stopped by its target. -/
  | idle
  /-- Sleeping until its next firing. -/
  | armed
  /-- Running its target. -/
  | firing
  /-- Cancelled by its owner. -/
  | cancelled
  deriving DecidableEq, Repr

/-- The state of a timer that its owner and its task share. -/
structure Record where
  status : Status := .armed
  /-- Whether the timer was cancelled during a firing and still holds the connection. -/
  releasePending : Bool := false
  deriving DecidableEq, Repr

namespace Record

/-- Whether the timer will fire again or is firing. -/
def isArmed (r : Record) : Bool := r.status == .armed || r.status == .firing

/-- Whether the timer is running its target. -/
def isFiring (r : Record) : Bool := r.status == .firing

/-- Begins a firing, if the timer is armed. -/
def beginFiring? (r : Record) : Option Record :=
  if r.status = .armed then some { r with status := .firing } else none

/-- Arms the timer again after a firing, if it was not cancelled meanwhile. -/
def endFiring? (r : Record) : Option Record :=
  if r.status = .firing then some { r with status := .armed } else none

/-- Stops the timer during a firing, unless it has been cancelled. -/
def stop (r : Record) : Record := if r.status = .firing then { r with status := .idle } else r

/-- Cancels the timer. If it is firing, it holds the connection until the firing returns. -/
def cancel (r : Record) : Record :=
  { status := .cancelled, releasePending := r.releasePending || r.isFiring }

/-- A cancelled timer begins no firing. -/
theorem beginFiring?_cancel (r : Record) : r.cancel.beginFiring? = none := rfl

/-- A timer cancelled during a firing is not armed again by the end of it. -/
theorem endFiring?_cancel (r : Record) : r.cancel.endFiring? = none := rfl

/-- A cancelled timer stays cancelled when its target stops it. -/
theorem stop_cancel (r : Record) : r.cancel.stop = r.cancel := rfl

/-- Cancelling a second time changes nothing. -/
theorem cancel_cancel (r : Record) : r.cancel.cancel = r.cancel := by
  simp [cancel, isFiring]

/-- Notes that the task has let go of the connection. -/
def letGo (r : Record) : Record := { r with releasePending := false }

end Record

/-- The answer of a target to a firing. -/
inductive Outcome where
  /-- Somebody else has the connection. Try again after the shortest delay. -/
  | busy
  /-- Fire again after `delay` nanoseconds. -/
  | rearm (delay : Nat)
  /-- Stop the timer. -/
  | stop
  deriving DecidableEq, Repr

/-- One answer of a scripted target. -/
inductive ScriptStep where
  | rearm (delay : Nat)
  | busy
  | stop
  /-- Fires the connection and answers what it answers. -/
  | fire
  /-- Makes the connection drop the algorithm, then fires again after the shortest delay. -/
  | release
  /-- Makes the connection drop the algorithm, then stops. -/
  | releaseStop
  /-- Makes the connection adopt the algorithm anew with itself as target, then fires again after
  the shortest delay. -/
  | readopt
  deriving DecidableEq, Repr

/-- What a timer fires on. -/
inductive Target where
  | connection
  /-- Answers with the steps of a script in order, and stops the timer at the end. -/
  | script (steps : List ScriptStep)
  deriving DecidableEq, Repr

/-- A timer's task, which holds the connection while it exists. -/
structure Task where
  /-- The record of the timer, by its place in the table. -/
  id : Nat
  /-- The sleep before the next firing. -/
  sleep : Sleep
  target : Target
  deriving DecidableEq, Repr

/-- The records of all timers ever armed, the tasks that still exist, and the holds on the
connection that tasks have taken and not given back. -/
structure Table where
  records : List Record := []
  tasks : List Task := []
  holds : Nat := 0
  deriving DecidableEq, Repr

namespace Table

/-- The record of a timer. -/
def record? (t : Table) (id : Nat) : Option Record := t.records[id]?

/-- Changes the record of a timer. -/
def update (t : Table) (id : Nat) (f : Record → Record) : Table :=
  { t with records := t.records.modify id f }

/-- The timer that is armed next. -/
def nextId (t : Table) : Nat := t.records.length

/-- Arms a new timer, `nextId`, whose task takes hold of the connection and sleeps first. -/
def arm (t : Table) (sleep : Sleep) (target : Target) : Table where
  records := t.records ++ [{}]
  tasks := t.tasks ++ [{ id := t.nextId, sleep := sleep, target := target }]
  holds := t.holds + 1

/-- Whether a timer is running its target. -/
def isFiring (t : Table) (id : Nat) : Bool := (t.record? id).any Record.isFiring

/-- Whether a timer has been cancelled. -/
def isCancelled (t : Table) (id : Nat) : Bool := (t.record? id).any (·.status == .cancelled)

/-- Cancels a timer. -/
def cancel (t : Table) (id : Nat) : Table := t.update id Record.cancel

/-- Whether the task of a timer owes the owner its hold on the connection. -/
def releasePending (t : Table) (id : Nat) : Bool := (t.record? id).any Record.releasePending

/-- Ends the task of a timer, which gives back its hold on the connection. -/
def endTask (t : Table) (id : Nat) : Table :=
  { t.update id Record.letGo with
    tasks := t.tasks.filter (·.id ≠ id)
    holds := t.holds - 1 }

/-- The tasks of cancelled timers. -/
def cancelledTasks (t : Table) : List Task := t.tasks.filter fun task => t.isCancelled task.id

/-- Puts the task of a timer to sleep until its next firing. -/
def resleep (t : Table) (id : Nat) (sleep : Sleep) (target : Target) : Table :=
  { t with tasks := t.tasks.map fun task =>
      if task.id = id then { id := id, sleep := sleep, target := target } else task }

end Table

end LowOrbit.Timer
