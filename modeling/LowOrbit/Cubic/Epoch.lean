import LowOrbit.Cubic.Curve

/-!
# Epochs of the cubic engine

An epoch begins with the first acknowledgment in congestion avoidance after a reduction. It fixes
the origin of the curve and the time to reach it. While the epoch lasts, acknowledgments evaluate
the curve at most once per millisecond, and at most 32 times per second while the window stays
the same, to find the pace: how many packets are acknowledged per packet of growth.
-/

namespace LowOrbit.Cubic

/-- Acknowledgments this close together share one evaluation of the curve. -/
def tick : Nat := 1000000

/-- While the window is unchanged, the pace is computed at most this often. -/
def updateInterval : Nat := 31250000

/-- The largest pace while no loss has been seen: growth by 5% per round trip. -/
def blindPace : Nat := 20

/-- The smallest pace: at most one packet of growth per two packets acknowledged. -/
def minPace : Nat := 2

/-- The window `cwnd * num / den`, at most the largest count. -/
def scaled (cwnd num den : Nat) : Nat := min (cwnd * num / den) maxCount

/-- What the engine remembers between acknowledgments. -/
structure State where
  /-- The acknowledged packets per packet of growth. -/
  pace : Nat := 0
  /-- The window at the last reduction, zero before the first. -/
  lastMax : Nat := 0
  /-- The window at the last evaluation of the curve. -/
  lastCwnd : Nat := 0
  /-- The time of the last evaluation of the curve. -/
  lastUpdate : Option Nat := none
  /-- The window at which the curve is flat. -/
  origin : Nat := 0
  /-- The time from the start of the epoch to the origin, in units of 1/1024 s. -/
  k : Nat := 0
  /-- The smallest round trip in microseconds, zero before the first sample. -/
  delayMin : Nat := 0
  /-- The start of the present epoch, if one is open. Idle time moves it forward. -/
  epochStart : Option Nat := none
  /-- The packets acknowledged and not yet credited to the Reno window. -/
  ackCount : Nat := 0
  /-- The window that a Reno flow would have reached in this epoch. -/
  renoCwnd : Nat := 0
  deriving DecidableEq, Repr

namespace State

/-- Counts acknowledged packets towards the Reno window. -/
def countAcked (st : State) (acked : Nat) : State :=
  { st with ackCount := countAdd st.ackCount acked }

/-- The time since the last evaluation of the curve. -/
def sinceUpdate (st : State) (now : Nat) : Option Nat := st.lastUpdate.map (now - ·)

/-- Whether the pace is recent and was computed for this window. -/
def isFresh (st : State) (cwnd now : Nat) : Bool :=
  st.lastCwnd == cwnd && (st.sinceUpdate now).any (· ≤ updateInterval)

/-- Whether the curve of this epoch was evaluated less than a tick ago. -/
def inSameTick (st : State) (now : Nat) : Bool :=
  st.epochStart.isSome && (st.sinceUpdate now).any (· < tick)

/-- Opens an epoch at the present window. The curve leads back to the window of the last
reduction, or starts flat if that has been passed. -/
def openEpoch (p : Params) (cwnd acked now : Nat) (st : State) : State :=
  { st with
    epochStart := some now
    ackCount := acked
    renoCwnd := cwnd
    k := if st.lastMax ≤ cwnd then 0 else p.climbTime (st.lastMax - cwnd)
    origin := if st.lastMax ≤ cwnd then cwnd else st.lastMax }

/-- Opens an epoch unless one is open. -/
def ensureEpoch (p : Params) (cwnd acked now : Nat) (st : State) : State :=
  if st.epochStart.isSome then st else st.openEpoch p cwnd acked now

/-- The window on the curve at time `now`. -/
def curveTarget (p : Params) (st : State) (now : Nat) : Nat :=
  p.target st.origin st.k (curveTime (now - st.epochStart.getD now) st.delayMin)

/-- The pace that the curve asks for, limited while no loss has been seen. -/
def curvePace (p : Params) (st : State) (cwnd now : Nat) : Nat :=
  let pace := paceTowards cwnd (st.curveTarget p now)
  if st.lastMax = 0 then min pace blindPace else pace

/-- Evaluates the curve, in a new epoch if none is open. -/
def evaluate (p : Params) (cwnd acked now : Nat) (st : State) : State :=
  let st := { st with lastCwnd := cwnd, lastUpdate := some now }.ensureEpoch p cwnd acked now
  { st with pace := st.curvePace p cwnd now }

/-- The acknowledged packets per packet of growth of the Reno window. -/
def renoQuota (p : Params) (cwnd : Nat) : Nat := max (countMul cwnd p.friendlyScale / 8) 1

/-- Credits the Reno window with every full quota counted, but keeps at least one packet
counted. -/
def creditReno (quota : Nat) (st : State) : State :=
  if quota < st.ackCount then
    let steps := (st.ackCount - 1) / quota
    { st with ackCount := st.ackCount - steps * quota, renoCwnd := countAdd st.renoCwnd steps }
  else st

/-- Speeds up to reach the Reno window within a round trip if it is ahead. -/
def followReno (cwnd : Nat) (st : State) : State :=
  if cwnd < st.renoCwnd then { st with pace := min st.pace (cwnd / (st.renoCwnd - cwnd)) } else st

/-- Keeps up with the window that a Reno flow would have. -/
def befriend (p : Params) (cwnd : Nat) (st : State) : State :=
  if p.tcpFriendliness then (st.creditReno (renoQuota p cwnd)).followReno cwnd else st

/-- Holds the pace at its minimum. -/
def limitPace (st : State) : State := { st with pace := max st.pace minPace }

/-- A limited pace is at least the smallest one. -/
theorem minPace_le_limitPace (st : State) : minPace ≤ st.limitPace.pace := Nat.le_max_right _ _

/-- Finds the pace for an acknowledgment of `acked` packets at time `now`. -/
def update (p : Params) (cwnd acked now : Nat) (st : State) : State :=
  let st := st.countAcked acked
  if st.isFresh cwnd now then st
  else
    let st := if st.inSameTick now then st else st.evaluate p cwnd acked now
    (st.befriend p cwnd).limitPace

/-- Ends the epoch on a loss at window `cwnd` and remembers that window, or less of it if the flow
had not yet come back to where it was before. -/
def reduce (p : Params) (cwnd : Nat) (st : State) : State :=
  { st with
    epochStart := none
    lastMax :=
      if cwnd < st.lastMax ∧ p.fastConvergence = true then scaled cwnd (1024 + p.beta) 2048
      else cwnd }

/-- No epoch is open after a loss. -/
theorem epochStart_reduce (p : Params) (cwnd : Nat) (st : State) :
    (st.reduce p cwnd).epochStart = none := rfl

/-- Moves the start of an open epoch forward by `idle`, at most to `now`. -/
def shiftEpoch (idle now : Nat) (st : State) : State :=
  match st.epochStart with
  | some start =>
    if idle = 0 then st else { st with epochStart := some (min (start + idle) now) }
  | none => st

/-- Whether a round trip measured at `now` is taken into account: not within a second of the start
of an epoch. -/
def acceptsDelay (st : State) (now : Nat) : Bool :=
  st.epochStart.all fun start => 1000000000 ≤ now - start

/-- Takes a round trip of `delay` microseconds into account. -/
def recordDelay (delay : Nat) (st : State) : State :=
  if st.delayMin = 0 ∨ delay < st.delayMin then { st with delayMin := delay } else st

end State

end LowOrbit.Cubic
