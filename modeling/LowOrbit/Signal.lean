import LowOrbit.Time

/-!
# What the host reports

Round-trip time samples, changes of the congestion avoidance state and congestion window events,
as the host hands them to the window engine.
-/

namespace LowOrbit

/-- The largest time in microseconds that a sample can carry, `2 ^ 63 - 1`. -/
def maxSampleMicros : Nat := 9223372036854775807

/-- A round-trip time sample attached to an acknowledgment. -/
structure RttSample where
  /-- The number of packets newly acknowledged. -/
  packets : Nat
  /-- The round-trip time in microseconds, negative if the acknowledgment carries none. -/
  micros : Int
  deriving DecidableEq, Repr

/-- The sample of an acknowledgment whose round trip took `rtt` nanoseconds, if that is known. -/
def RttSample.ofRtt (packets : Nat) (rtt : Option Nat) : RttSample where
  packets := packets
  micros := match rtt with
    | none => -1
    | some d => (min (Nanos.wholeMicros d) maxSampleMicros : Nat)

/-- The congestion avoidance states of the host. -/
inductive AvoidanceState where
  /-- Nothing bad has been observed recently. -/
  | normal
  /-- Acknowledgments arrive duplicated or out of order. -/
  | disorder
  /-- The window is being reduced because the network signalled congestion. -/
  | reducing
  /-- A lost packet is being resent early. -/
  | recovery
  /-- The retransmission timeout fired. -/
  | loss
  deriving DecidableEq, Repr

/-- The congestion window events of the host. -/
inductive WindowEvent where
  /-- The first transmission while no packets are in flight. -/
  | sendStart
  /-- The window was restarted after idle time. -/
  | restart
  /-- A window reduction is complete. -/
  | reductionDone
  /-- The retransmission timeout fired. -/
  | loss
  deriving DecidableEq, Repr

end LowOrbit
