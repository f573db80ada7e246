import LowOrbit.Capped
import LowOrbit.Config
import LowOrbit.Cubic.CubeRoot

/-!
# The cubic curve

After a reduction the window follows `W(t) = C * (t - K) ^ 3 + origin`: a steep rise that flattens
towards the window before the loss, reached at time `K`, and a search beyond it. Time inside the
curve counts in units of 1/1024 s, and the scale `C` is a whole number over `Cubic.riseUnit`.
-/

namespace LowOrbit.Cubic

/-- The unit of the scale of the curve, 2 to the power of 40. -/
def riseUnit : Nat := 1099511627776

/-- The parameters of the engine. -/
structure Params where
  /-- Whether a flow that shrinks twice in a row gives up part of its share. -/
  fastConvergence : Bool
  /-- The share of the window kept after a loss, in units of 1/1024, below 1024. -/
  beta : Nat
  /-- Whether the window grows at least as fast as with Reno. -/
  tcpFriendliness : Bool
  /-- The scale of the cubic function, in units of 1/1024. -/
  bicScale : Nat
  deriving DecidableEq, Repr

namespace Params

/-- The engine's parameters in a configuration. -/
def ofConfig (c : Config) : Params where
  fastConvergence := c.fastConvergence
  beta := min c.beta 1023
  tcpFriendliness := c.tcpFriendliness
  bicScale := c.bicScale

/-- The acknowledged packets per packet of growth that make up for the smaller reduction, over
the window and in units of 1/8. -/
def friendlyScale (p : Params) : Nat := 8 * (1024 + p.beta) / 3 / (1024 - p.beta)

/-- The scale of the curve at a round trip of 100 ms. -/
def riseScale (p : Params) : Nat := max (countMul p.bicScale 10) 1

/-- The factor that turns a window gap into the cube of the time to close it. -/
def cubeFactor (p : Params) : Nat := riseUnit / p.riseScale

/-- The time that the curve takes to climb `gap` packets to its origin. -/
def climbTime (p : Params) (gap : Nat) : Nat :=
  CubeRoot.cubeRoot (mul64 p.cubeFactor gap)

/-- The distance of the curve from its origin at a time `offset` before or after it. -/
def rise (p : Params) (offset : Nat) : Nat :=
  min (mul128 p.riseScale (mul128 (mul128 offset offset) offset) / riseUnit) maxCount

/-- The window on the curve at time `t`, when it passes `origin` at time `k`. -/
def target (p : Params) (origin k t : Nat) : Nat :=
  if t < k then origin - p.rise (k - t) else countAdd origin (p.rise (t - k))

end Params

/-- The time on the curve: the age of the epoch plus the smallest round trip, in whole units of
1/1024 s. `age` is in nanoseconds and `delayMin` in microseconds. -/
def curveTime (age delayMin : Nat) : Nat :=
  Nanos.wholeMicros (age + Nanos.micros delayMin) * 1024 / 1000000

/-- The acknowledged packets per packet of growth that lead from `cwnd` to `target` within a
round trip, or a slow search if the target is reached. -/
def paceTowards (cwnd target : Nat) : Nat :=
  if cwnd < target then cwnd / (target - cwnd) else countMul cwnd 100

end LowOrbit.Cubic
