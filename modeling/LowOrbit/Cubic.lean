import LowOrbit.Cubic.Epoch
import LowOrbit.Growth
import LowOrbit.Hystart
import LowOrbit.Signal

/-!
# The CUBIC engine

The curve and its epochs together with hybrid slow start, as one engine that answers the host's
reports about a connection. A loss state clears both; a reduction ends the epoch only.
-/

namespace LowOrbit

/-- The CUBIC engine of a connection. -/
structure Cubic where
  params : Cubic.Params
  state : Cubic.State := {}
  hystart : Hystart
  /-- The slow start threshold of a new connection when hybrid slow start is off. -/
  initialSsthresh : Option Nat
  deriving DecidableEq, Repr

namespace Cubic

/-- A new engine. -/
def ofConfig (c : Config) : Cubic where
  params := Params.ofConfig c
  hystart := Hystart.ofConfig c
  initialSsthresh := c.initialSsthresh

/-- The engine when its connection adopts it. A round begins at once if slow start is watched. -/
def adopt (c : Cubic) (s : Socket) : Cubic :=
  let hystart := c.hystart.reset
  { c with
    state := {}
    hystart := if hystart.enabled then hystart.resetRound s else hystart }

/-- The slow start threshold of a socket when its connection adopts the engine: the initial
threshold, if it is not zero and slow start is not watched. -/
def adoptedSsthresh (c : Cubic) (s : Socket) : Nat :=
  match c.initialSsthresh with
  | some threshold => if c.hystart.enabled ∨ threshold = 0 then s.ssthresh else threshold
  | none => s.ssthresh

/-- Grows the window by an acknowledgment of `acked` packets. -/
def grow (c : Cubic) (s : Socket) (acked : Nat) : Cubic × Socket :=
  match Growth.throughSlowStart s acked with
  | (s, none) => (c, s)
  | (s, some rest) =>
    let state := c.state.update c.params s.cwnd rest s.now
    ({ c with state := state }, Growth.additive state.pace rest s)

/-- The slow start threshold after a loss at this window. -/
def lossThreshold (c : Cubic) (cwnd : Nat) : Nat :=
  max (scaled cwnd c.params.beta 1024) Growth.minThreshold

/-- Remembers the window of a loss and ends the epoch. -/
def reduce (c : Cubic) (cwnd : Nat) : Cubic := { c with state := c.state.reduce c.params cwnd }

/-- Starts over after a retransmission timeout. -/
def startOver (c : Cubic) (s : Socket) : Cubic :=
  { c with state := {}, hystart := c.hystart.reset.resetRound s }

/-- Takes the idle time before a transmission out of the age of the epoch. -/
def skipIdle (c : Cubic) (s : Socket) : Cubic :=
  { c with state := c.state.shiftEpoch (s.now - s.lastSend) s.now }

/-- The round trip in microseconds that a sample adds, at least one, unless the sample carries
none or comes too soon after the start of an epoch. -/
def acceptedDelay? (c : Cubic) (s : Socket) (sample : RttSample) : Option Nat :=
  if 0 ≤ sample.micros ∧ c.state.acceptsDelay s.now = true then
    some (max (min sample.micros.toNat maxCount) 1)
  else none

/-- Whether slow start is watched for a reason to leave it. -/
def watches (c : Cubic) (s : Socket) : Bool :=
  c.hystart.enabled && !c.hystart.found && s.inSlowStart && c.hystart.lowWindow ≤ s.cwnd

/-- The reasons to leave slow start that a sample brings up. -/
def exits (c : Cubic) (s : Socket) (sample : RttSample) : List Exit :=
  match c.acceptedDelay? s sample with
  | some delay =>
    if c.watches s then
      c.hystart.sampleExits s delay (c.state.recordDelay delay).delayMin
    else []
  | none => []

/-- Takes a round-trip time sample into account. -/
def sample (c : Cubic) (s : Socket) (sample : RttSample) : Cubic :=
  match c.acceptedDelay? s sample with
  | some delay =>
    let state := c.state.recordDelay delay
    { c with
      state := state
      hystart := if c.watches s then c.hystart.sample s delay state.delayMin else c.hystart }
  | none => c

end Cubic

end LowOrbit
