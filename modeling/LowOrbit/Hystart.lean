import LowOrbit.Config
import LowOrbit.Socket

/-!
# Leaving slow start before the first loss

Hybrid slow start watches the samples of each round trip. Acknowledgments that keep arriving as a
dense train for half the smallest round trip, or round trips that have grown noticeably, say that
the path is full. Either detector ends slow start by lowering the slow start threshold to the
window. What the detectors find is a list of `Exit`s, from which the new state follows.
-/

namespace LowOrbit

/-- How often each detector ended slow start, and the sum of the windows at which it did. -/
structure ExitCounters where
  trainExits : Nat := 0
  trainCwnd : Nat := 0
  delayExits : Nat := 0
  delayCwnd : Nat := 0
  deriving DecidableEq, Repr

/-- A reason to leave slow start. -/
inductive Exit where
  /-- A train of acknowledgments lasted `length` nanoseconds, longer than `threshold`
  microseconds. -/
  | train (length threshold delayMin : Nat)
  /-- The round trips of a round took `rtt` microseconds or more, above `threshold`. -/
  | delay (rtt threshold : Nat)
  deriving DecidableEq, Repr

/-- Counts an exit at window `cwnd`. -/
def ExitCounters.count (cwnd : Nat) (c : ExitCounters) : Exit → ExitCounters
  | .train _ _ _ => { c with trainExits := c.trainExits + 1, trainCwnd := c.trainCwnd + cwnd }
  | .delay _ _ => { c with delayExits := c.delayExits + 1, delayCwnd := c.delayCwnd + cwnd }

/-- The detectors and what they have seen of the present round. -/
structure Hystart where
  /-- Whether slow start may end early at all. -/
  enabled : Bool
  /-- Whether trains are watched. -/
  watchTrain : Bool
  /-- Whether delays are watched. -/
  watchDelay : Bool
  /-- The smallest window at which slow start may end early. -/
  lowWindow : Nat
  /-- The largest distance between two acknowledgments of a train. -/
  ackDelta : Nat
  /-- Whether an exit has been found. -/
  found : Bool := false
  /-- The start of the present round, if there is one. -/
  roundStart : Option Nat := none
  /-- The sequence number whose acknowledgment ends the round. -/
  endSeq : SeqNum := 0
  /-- The last acknowledgment of the train. -/
  lastAck : Option Nat := none
  /-- The smallest round trip of the round in microseconds. -/
  currRtt : Nat := maxCount
  /-- The number of round trips seen in the round, up to `Hystart.minSamples`. -/
  sampleCount : Nat := 0
  /-- The exits of the whole connection. -/
  counters : ExitCounters := {}
  deriving DecidableEq, Repr

namespace Hystart

/-- The number of round trips to see before they are compared. -/
def minSamples : Nat := 8

/-- The detectors as configured, with no round begun. -/
def ofConfig (c : Config) : Hystart where
  enabled := c.hystart
  watchTrain := c.hystartDetect.testBit 0
  watchDelay := c.hystartDetect.testBit 1
  lowWindow := c.hystartLowWindow
  ackDelta := c.hystartAckDelta

/-- Forgets an exit found earlier, and the round. -/
def reset (h : Hystart) : Hystart :=
  { h with found := false, roundStart := none, lastAck := none }

/-- Begins a round that ends with the next packet to be sent. -/
def resetRound (h : Hystart) (s : Socket) : Hystart :=
  { h with
    roundStart := some s.now
    lastAck := some s.now
    endSeq := s.sndNxt
    currRtt := maxCount
    sampleCount := 0 }

/-- Whether the next sample belongs to a new round. -/
def roundOver (h : Hystart) (s : Socket) : Bool :=
  h.roundStart.isNone || s.sndUna.after h.endSeq

/-- Begins a round if the last one is over. -/
def enterRound (h : Hystart) (s : Socket) : Hystart :=
  if h.roundOver s then h.resetRound s else h

/-- The allowance in microseconds for delays by segmentation offload and aggregation: the time
that four bursts take at the pacing rate, at most 1000, and none if the rate is unknown. -/
def cushion (s : Socket) : Nat :=
  if s.pacingRate = 0 then 0 else min 1000 (s.gsoSize * 4000000 / s.pacingRate)

/-- The length in microseconds that a train has to exceed. Without pacing it is half as long,
since pacing may have spread packets over half a round trip. -/
def trainThreshold (s : Socket) (delayMin : Nat) : Nat :=
  if s.paced then delayMin + cushion s else (delayMin + cushion s) / 2

/-- Whether the present acknowledgment continues the train. -/
def continuesTrain (h : Hystart) (s : Socket) : Bool :=
  h.watchTrain && h.roundStart.isSome && h.lastAck.any fun last => s.now - last ≤ h.ackDelta

/-- The exit that the train detector finds. -/
def trainExit? (h : Hystart) (s : Socket) (delayMin : Nat) : Option Exit :=
  if h.continuesTrain s then
    let length := s.now - h.roundStart.getD s.now
    let threshold := trainThreshold s delayMin
    if Nanos.micros threshold < length then some (.train length threshold delayMin) else none
  else none

/-- The length in microseconds that every round trip of a round has to exceed. -/
def delayThreshold (delayMin : Nat) : Nat :=
  countAdd delayMin (max 4000 (min (delayMin / 8) 16000))

/-- The exit that the delay detector finds. -/
def delayExit? (h : Hystart) (delay delayMin : Nat) : Option Exit :=
  let rtt := min h.currRtt delay
  let threshold := delayThreshold delayMin
  if h.watchDelay ∧ minSamples ≤ h.sampleCount ∧ threshold < rtt then
    some (.delay rtt threshold)
  else none

/-- What the detectors find at a sample within the present round. -/
def exits (h : Hystart) (s : Socket) (delay delayMin : Nat) : List Exit :=
  (h.trainExit? s delayMin).toList ++ (h.delayExit? delay delayMin).toList

/-- Adds a sample to the train if it continues it. -/
def noteAck (h : Hystart) (s : Socket) : Hystart :=
  if h.continuesTrain s then { h with lastAck := some s.now } else h

/-- Adds a round trip to those of the round. -/
def noteDelay (h : Hystart) (delay : Nat) : Hystart :=
  if h.watchDelay then
    { h with currRtt := min h.currRtt delay, sampleCount := min (h.sampleCount + 1) minSamples }
  else h

/-- Remembers exits found at window `cwnd`. -/
def noteExits (h : Hystart) (cwnd : Nat) (found : List Exit) : Hystart :=
  { h with
    found := h.found || !found.isEmpty
    counters := found.foldl (ExitCounters.count cwnd) h.counters }

/-- Takes a round trip of `delay` microseconds into account. -/
def sample (h : Hystart) (s : Socket) (delay delayMin : Nat) : Hystart :=
  let h := h.enterRound s
  ((h.noteAck s).noteDelay delay).noteExits s.cwnd (h.exits s delay delayMin)

/-- The exits found by `sample`. -/
def sampleExits (h : Hystart) (s : Socket) (delay delayMin : Nat) : List Exit :=
  (h.enterRound s).exits s delay delayMin

end Hystart

end LowOrbit
