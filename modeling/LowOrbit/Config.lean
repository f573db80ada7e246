import LowOrbit.Algorithm
import LowOrbit.Time

/-!
# Configuration

The parameters shared by all connections, their defaults, the settings that change them one at a
time, and the check that every connection makes before it uses them. A configuration may hold
values outside the accepted ranges; `Config.validate` names the first parameter that does.
-/

namespace LowOrbit

/-- The largest distance between a handover and the start or end of its window. -/
def maxHandoverOffset : Nat := 1000000000

/-- The parameters of congestion control and of the handover schedule. -/
structure Config where
  /-- The algorithm that grows and reduces the window. -/
  algorithm : Algorithm := .cubic
  /-- Whether the handover schedule is logged. -/
  debug : Bool := false
  /-- Whether transmission is suspended during handovers. -/
  handover : Bool := true
  /-- Whether the timer alone opens and closes the window. -/
  timerOnly : Bool := false
  /-- How long before a handover transmission is suspended, in nanoseconds. -/
  startOffset : Nat := 200000000
  /-- How long after a handover transmission resumes, in nanoseconds. -/
  endOffset : Nat := 200000000
  /-- Whether a flow that shrinks twice in a row gives up part of its share. -/
  fastConvergence : Bool := true
  /-- The share of the window kept after a loss, in units of 1/1024. -/
  beta : Nat := 717
  /-- The slow start threshold of new connections when HyStart is off. -/
  initialSsthresh : Option Nat := none
  /-- The scale of the cubic function, in units of 1/1024. -/
  bicScale : Nat := 41
  /-- Whether the window grows at least as fast as with Reno. -/
  tcpFriendliness : Bool := true
  /-- Whether slow start may end before the first loss. -/
  hystart : Bool := true
  /-- The detectors that may end slow start: 1 for acknowledgment trains, 2 for growing delay, 3
  for both. -/
  hystartDetect : Nat := 3
  /-- The smallest window at which slow start may end early. -/
  hystartLowWindow : Nat := 16
  /-- The largest distance between two acknowledgments of a train, in nanoseconds. -/
  hystartAckDelta : Nat := 2000000
  deriving DecidableEq, Repr

namespace Config

/-- Checks that every parameter is within its accepted range, and otherwise names the first that
is not. -/
def validate (c : Config) : Except Error Unit :=
  if c.beta = 0 ∨ 1024 ≤ c.beta then .error (.outOfRange .beta)
  else if c.bicScale = 0 then .error (.outOfRange .bicScale)
  else if c.hystartDetect = 0 ∨ 3 < c.hystartDetect then .error (.outOfRange .hystartDetect)
  else .ok ()

/-- Every parameter is within its accepted range. -/
structure Valid (c : Config) : Prop where
  beta_pos : 0 < c.beta
  beta_lt : c.beta < 1024
  bicScale_pos : 0 < c.bicScale
  hystartDetect_pos : 0 < c.hystartDetect
  hystartDetect_le : c.hystartDetect ≤ 3

/-- The check accepts exactly the valid configurations. -/
theorem validate_eq_ok_iff (c : Config) : c.validate = .ok () ↔ c.Valid := by
  constructor
  · intro h
    simp only [validate] at h
    split at h
    · cases h
    · split at h
      · cases h
      · split at h
        · cases h
        · exact ⟨by omega, by omega, by omega, by omega, by omega⟩
  · intro h
    obtain ⟨h₁, h₂, h₃, h₄, h₅⟩ := h
    have : ¬ (c.beta = 0 ∨ 1024 ≤ c.beta) := by omega
    have : ¬ (c.hystartDetect = 0 ∨ 3 < c.hystartDetect) := by omega
    have : ¬ c.bicScale = 0 := by omega
    simp [validate, *]

/-- A change of one setting of a configuration. -/
inductive Setting where
  /-- Selects the algorithm by its name. -/
  | algorithmName (name : String)
  | algorithm (algorithm : Algorithm)
  | debug (on : Bool)
  | handover (on : Bool)
  | timerOnly (on : Bool)
  /-- Sets how long before and after a handover transmission is suspended, each at most
  `maxHandoverOffset`. -/
  | offsets (before after : Nat)
  | fastConvergence (on : Bool)
  | beta (share : Nat)
  | initialSsthresh (threshold : Option Nat)
  | bicScale (scale : Nat)
  | tcpFriendliness (on : Bool)
  | hystart (on : Bool)
  | hystartDetect (detectors : Nat)
  | hystartLowWindow (packets : Nat)
  | hystartAckDelta (delta : Nat)
  deriving DecidableEq, Repr

/-- Makes one change. Only selecting an algorithm by an unknown name fails. -/
def set (c : Config) : Setting → Except Error Config
  | .algorithmName name =>
    match Algorithm.ofName name with
    | .ok algorithm => .ok { c with algorithm := algorithm }
    | .error e => .error e
  | .algorithm algorithm => .ok { c with algorithm := algorithm }
  | .debug on => .ok { c with debug := on }
  | .handover on => .ok { c with handover := on }
  | .timerOnly on => .ok { c with timerOnly := on }
  | .offsets before after =>
    .ok { c with startOffset := min before maxHandoverOffset,
                 endOffset := min after maxHandoverOffset }
  | .fastConvergence on => .ok { c with fastConvergence := on }
  | .beta share => .ok { c with beta := share }
  | .initialSsthresh threshold => .ok { c with initialSsthresh := threshold }
  | .bicScale scale => .ok { c with bicScale := scale }
  | .tcpFriendliness on => .ok { c with tcpFriendliness := on }
  | .hystart on => .ok { c with hystart := on }
  | .hystartDetect detectors => .ok { c with hystartDetect := detectors }
  | .hystartLowWindow packets => .ok { c with hystartLowWindow := packets }
  | .hystartAckDelta delta => .ok { c with hystartAckDelta := delta }

/-- Makes changes in order, up to the first that fails. -/
def setAll (c : Config) (settings : List Setting) : Except Error Config :=
  settings.foldlM set c

/-- Makes every change that succeeds, and says of each whether it did. -/
def tryAll (c : Config) : List Setting → Config × List (Except Error Unit)
  | [] => (c, [])
  | setting :: rest =>
    match c.set setting with
    | .ok changed => let (last, answers) := changed.tryAll rest; (last, .ok () :: answers)
    | .error e => let (last, answers) := c.tryAll rest; (last, .error e :: answers)

end Config

end LowOrbit
