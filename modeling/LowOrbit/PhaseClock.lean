import LowOrbit.Ticker

/-!
# The phase clock

Handovers happen at fixed places of the wall-clock minute. The phase clock keeps a base such that
base plus monotonic time is the time since the start of the minute, and takes it from the wall
clock once per minute. Base and monotonic time are signed 64-bit numbers of nanoseconds; the base
may be negative and sums wrap around.
-/

namespace LowOrbit

/-- The number of nanoseconds in a minute, the cycle of the clock. -/
def cycle : Nat := 60000000000

/-- The time between two resynchronizations with the wall clock. -/
def syncInterval : Nat := 60000000000

/-- The largest signed 64-bit number. -/
def maxSigned : Nat := 9223372036854775807

/-- The signed 64-bit number with the same remainder modulo `2 ^ 64`. -/
def wrapSigned (n : Int) : Int :=
  (n + 9223372036854775808) % 18446744073709551616 - 9223372036854775808

/-- A wrapped number differs by a multiple of `2 ^ 64`. -/
theorem wrapSigned_emod (n : Int) :
    wrapSigned n % 18446744073709551616 = n % 18446744073709551616 := by
  simp only [wrapSigned]
  omega

/-- A number that fits is left alone. -/
theorem wrapSigned_of_mem {n : Int} (hl : -9223372036854775808 ≤ n)
    (hu : n < 9223372036854775808) : wrapSigned n = n := by
  simp only [wrapSigned]
  omega

/-- Wrapping a term of a sum first does not change the wrapped sum. -/
theorem wrapSigned_add_wrapSigned (m n : Int) :
    wrapSigned (wrapSigned m + n) = wrapSigned (m + n) := by
  simp only [wrapSigned]
  omega

/-- Where a clock takes its readings from. -/
inductive TimeSource where
  /-- Both clocks stand still until they are moved. -/
  | manual (wall mono : Nat)
  /-- Both clocks follow the ticker. The wall clock started at `start` and has been stepped
  forward by `skew` since. -/
  | simulated (start skew : Nat)
  deriving DecidableEq, Repr

namespace TimeSource

/-- The wall-clock time when `elapsed` nanoseconds of ticker time have passed. -/
def wall (t : TimeSource) (elapsed : Nat) : Nat :=
  match t with
  | manual wall _ => wall
  | simulated start skew => start + elapsed + skew

/-- The monotonic time when `elapsed` nanoseconds of ticker time have passed. -/
def mono (t : TimeSource) (elapsed : Nat) : Nat :=
  match t with
  | manual _ mono => mono
  | simulated _ _ => elapsed

/-- A step of a clock by hand. -/
inductive Step where
  | setWall (wall : Nat)
  | setMono (mono : Nat)
  | advance (d : Nat)
  | advanceWall (d : Nat)
  | advanceMono (d : Nat)
  /-- Steps the wall clock of a simulated source forward. -/
  | skew (d : Nat)
  deriving DecidableEq, Repr

/-- Makes a step. A source of the other kind is left alone. -/
def step : TimeSource → Step → TimeSource
  | manual _ mono, .setWall wall => manual wall mono
  | manual wall _, .setMono mono => manual wall mono
  | manual wall mono, .advance d => manual (wall + d) (mono + d)
  | manual wall mono, .advanceWall d => manual (wall + d) mono
  | manual wall mono, .advanceMono d => manual wall (mono + d)
  | simulated start skew, .skew d => simulated start (skew + d)
  | t, _ => t

end TimeSource

/-- A clock that gives the position within the current minute. -/
structure PhaseClock where
  source : TimeSource
  /-- What to add to the monotonic time. -/
  base : Int := 0
  /-- Whether the clock has been shut down. -/
  stopped : Bool := false
  /-- The sleep of the running resynchronization, which ends at its next turn. -/
  sync : Option Sleep := none
  deriving DecidableEq, Repr

namespace PhaseClock

/-- The monotonic time as a signed 64-bit number, the largest if it does not fit. -/
def signedMono (c : PhaseClock) (elapsed : Nat) : Int :=
  (min (c.source.mono elapsed) maxSigned : Nat)

/-- The base that agrees with the wall clock. -/
def currentBase (c : PhaseClock) (elapsed : Nat) : Int :=
  wrapSigned ((c.source.wall elapsed % cycle : Nat) - c.signedMono elapsed)

/-- Takes the base from the wall clock. -/
def resync (c : PhaseClock) (elapsed : Nat) : PhaseClock :=
  { c with base := c.currentBase elapsed }

/-- The distance that a resynchronization moves the clock forward, within the minute. -/
def correction (old new : Int) : Nat := (wrapSigned (new - old) % (cycle : Int)).toNat

/-- The time since the start of the minute. -/
def nowInCycle (c : PhaseClock) (elapsed : Nat) : Nat :=
  (wrapSigned (c.base + c.signedMono elapsed) % (cycle : Int)).toNat

/-- The time since the start of the minute is less than a minute. -/
theorem nowInCycle_lt (c : PhaseClock) (elapsed : Nat) : c.nowInCycle elapsed < cycle := by
  simp only [nowInCycle, cycle]
  omega

/-- A new clock, synchronized once. -/
def create (source : TimeSource) (elapsed : Nat) : PhaseClock :=
  resync { source := source } elapsed

/-- Stops the resynchronization for good. The clock goes on from its last base. -/
def shutdown (c : PhaseClock) : PhaseClock := { c with stopped := true, sync := none }

/-- Whether the clock is resynchronized from time to time. -/
def isSyncing (c : PhaseClock) : Bool := c.sync.isSome

end PhaseClock

end LowOrbit
