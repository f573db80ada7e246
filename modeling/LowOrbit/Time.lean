/-!
# Lengths of time

Durations and instants are whole numbers of nanoseconds. An instant is the length of time since
an origin that its context fixes, so both share one type. Subtraction of lengths stops at zero:
a moment that lies ahead is at distance zero from now.
-/

namespace LowOrbit.Nanos

/-- The length of `n` microseconds. -/
def micros (n : Nat) : Nat := n * 1000

/-- The length of `n` milliseconds. -/
def millis (n : Nat) : Nat := n * 1000000

/-- The length of `n` seconds. -/
def seconds (n : Nat) : Nat := n * 1000000000

/-- The number of microseconds that have fully passed in `d`. -/
def wholeMicros (d : Nat) : Nat := d / 1000

/-- The least number of milliseconds that is not shorter than `d`. -/
def coveringMillis (d : Nat) : Nat := (d + 999999) / 1000000

/-- The number of lengths `unit` nearest to `d`. A half goes up. -/
def nearest (unit d : Nat) : Nat := (d + unit / 2) / unit

/-- A count of milliseconds covers exactly itself. -/
theorem coveringMillis_millis (n : Nat) : coveringMillis (millis n) = n := by
  simp only [coveringMillis, millis]
  omega

/-- The covering milliseconds are long enough, and one less is too short. -/
theorem coveringMillis_bounds (d : Nat) :
    d ≤ millis (coveringMillis d) ∧ millis (coveringMillis d) < d + 1000000 := by
  simp only [coveringMillis, millis]
  omega

end LowOrbit.Nanos
