import LowOrbit.Time

/-!
# Tickers

Timers sleep on a ticker, whose time stands still except while it is asked to run, and then moves
by whole milliseconds. A sleep ends at the first millisecond that is not too early. Sleeps that
end together are served in the order in which they were begun, which their tickets record.
`drive` serves everything that ends up to a given time.
-/

namespace LowOrbit

/-- The end of a sleep, in milliseconds of ticker time, and the place in the order of sleeps at
which it was begun. -/
structure Sleep where
  due : Nat
  ticket : Nat
  deriving DecidableEq, Repr

/-- The time that sleeps are measured in. -/
structure Ticker where
  /-- Whether timers can sleep on it. -/
  available : Bool := true
  /-- The time since the start in milliseconds. -/
  now : Nat := 0
  /-- The number of sleeps begun. -/
  tickets : Nat := 0
  deriving DecidableEq, Repr

namespace Ticker

/-- The time since the start in nanoseconds. -/
def elapsed (t : Ticker) : Nat := Nanos.millis t.now

/-- A sleep of `delay` nanoseconds that begins now. -/
def sleep (t : Ticker) (delay : Nat) : Sleep :=
  { due := t.now + Nanos.coveringMillis delay, ticket := t.tickets }

/-- A sleep ends neither early nor a millisecond late. -/
theorem due_sleep_bounds (t : Ticker) (delay : Nat) :
    t.elapsed + delay ≤ Nanos.millis (t.sleep delay).due ∧
      Nanos.millis (t.sleep delay).due < t.elapsed + delay + 1000000 := by
  have h := Nanos.coveringMillis_bounds delay
  simp only [elapsed, sleep, Nanos.millis] at *
  omega

/-- The ticker after a sleep has begun. -/
def slept (t : Ticker) : Ticker := { t with tickets := t.tickets + 1 }

/-- The reading of a counter that follows the ticker in steps of `tick` nanoseconds. -/
def counter (t : Ticker) (tick : Nat) : Nat := t.elapsed - t.elapsed % max tick 1

/-- The readings of a counter now and after each of some runs. -/
def counterReadings (tick : Nat) (t : Ticker) : List Nat → List Nat
  | [] => [t.counter tick]
  | ms :: rest => t.counter tick :: counterReadings tick { t with now := t.now + ms } rest

variable {σ : Type}

/-- The first moment up to `last` at which a sleep ends. -/
def nextDue (sleeps : List Sleep) (last : Nat) : Option Nat :=
  ((sleeps.filter (·.due ≤ last)).map Sleep.due).min?

/-- The sleeps that have ended by `moment`, in the order in which they were begun. -/
def dueBy (sleeps : List Sleep) (moment : Nat) : List Sleep :=
  (sleeps.filter (·.due ≤ moment)).mergeSort fun a b => a.ticket ≤ b.ticket

/-- Serves the sleeps that end up to `last`, moment by moment. `serve` moves to a moment and
serves what ends there. Every sleep begun by serving one ends later, so that there are no more
moments than milliseconds, which bounds the number of rounds. -/
def drive (sleeps : σ → List Sleep) (serve : Nat → σ → σ) (last : Nat) : Nat → σ → σ
  | 0, state => state
  | rounds + 1, state =>
    match nextDue (sleeps state) last with
    | some moment => drive sleeps serve last rounds (serve moment state)
    | none => state

end Ticker

end LowOrbit
