import LowOrbit.Capped
import LowOrbit.Config
import LowOrbit.Json.Reader

/-!
# Configurations as text

A configuration is written as a JSON object with all its members in a fixed order and no blanks.
Offsets are rounded to whole milliseconds and the train distance to whole microseconds. Reading
takes the members in any order, keeps the default of a missing member and ignores unknown ones.
It also takes an array of values without keys: they are the first members in the fixed order.
No value is checked against its accepted range here.
-/

namespace LowOrbit.Config

/-- The keys of a configuration in the order in which its members are written. -/
def keys : List String :=
  ["cc_algorithm", "debug", "handover", "handover_timer_only", "handover_start_ms",
   "handover_end_ms", "fast_convergence", "beta", "initial_ssthresh", "bic_scale",
   "tcp_friendliness", "hystart", "hystart_detect", "hystart_low_window",
   "hystart_ack_delta_us"]

/-- The algorithm that a value names. -/
def algorithm? (v : Json) : Option Algorithm :=
  v.name?.bind fun name => (Algorithm.ofName name).toOption

/-- The configuration `base` with these members in place of its own. -/
def override? (base : Config) (members : List (String × Json)) : Option Config := do
  let flag (key : String) (value : Bool) := Json.field members key Json.bool? value
  let count (key : String) (limit value : Nat) := Json.field members key (Json.nat? limit) value
  let length (key : String) (unit value : Nat) :=
    Json.field members key (fun v => (v.nat? maxCount64).map (· * unit)) value
  pure {
    algorithm := ← Json.field members "cc_algorithm" algorithm? base.algorithm
    debug := ← flag "debug" base.debug
    handover := ← flag "handover" base.handover
    timerOnly := ← flag "handover_timer_only" base.timerOnly
    startOffset := ← length "handover_start_ms" 1000000 base.startOffset
    endOffset := ← length "handover_end_ms" 1000000 base.endOffset
    fastConvergence := ← flag "fast_convergence" base.fastConvergence
    beta := ← count "beta" maxCount base.beta
    initialSsthresh :=
      ← Json.field members "initial_ssthresh" (Json.optionalNat? maxCount)
        base.initialSsthresh
    bicScale := ← count "bic_scale" maxCount base.bicScale
    tcpFriendliness := ← flag "tcp_friendliness" base.tcpFriendliness
    hystart := ← flag "hystart" base.hystart
    hystartDetect := ← count "hystart_detect" 255 base.hystartDetect
    hystartLowWindow := ← count "hystart_low_window" maxCount base.hystartLowWindow
    hystartAckDelta := ← length "hystart_ack_delta_us" 1000 base.hystartAckDelta }

/-- The configuration of a text. Members that it does not have keep their defaults. -/
def read? (text : List Char) : Option Config :=
  (Json.read text).bind fun value => (value.members? keys).bind (override? {})

/-- The number that a length of time is written as: the nearest count of lengths `unit`, kept to
64 binary digits. -/
def lengthCount (unit d : Nat) : Nat := Nanos.nearest unit d % (maxCount64 + 1)

/-- The members of a configuration in their order, each with its key and the text of its value. -/
def fields (c : Config) : List (String × String) :=
  [("cc_algorithm", "\"" ++ c.algorithm.name ++ "\""),
   ("debug", toString c.debug),
   ("handover", toString c.handover),
   ("handover_timer_only", toString c.timerOnly),
   ("handover_start_ms", toString (lengthCount 1000000 c.startOffset)),
   ("handover_end_ms", toString (lengthCount 1000000 c.endOffset)),
   ("fast_convergence", toString c.fastConvergence),
   ("beta", toString c.beta),
   ("initial_ssthresh", match c.initialSsthresh with
     | some threshold => toString threshold
     | none => "null"),
   ("bic_scale", toString c.bicScale),
   ("tcp_friendliness", toString c.tcpFriendliness),
   ("hystart", toString c.hystart),
   ("hystart_detect", toString c.hystartDetect),
   ("hystart_low_window", toString c.hystartLowWindow),
   ("hystart_ack_delta_us", toString (lengthCount 1000 c.hystartAckDelta))]

/-- Every configuration is written with the same keys. -/
theorem map_fst_fields (c : Config) : c.fields.map Prod.fst = keys := rfl

/-- Whether the lengths of time in a configuration fit the numbers that they are written as. -/
def fitsText (c : Config) : Bool :=
  c.startOffset / 1000000 ≤ maxCount64 && c.endOffset / 1000000 ≤ maxCount64 &&
    c.hystartAckDelta / 1000 ≤ maxCount64

/-- A member of an object in text. -/
def fieldText (field : String × String) : List Char :=
  ("\"" ++ field.1 ++ "\":" ++ field.2).toList

/-- The text of a configuration. -/
def render (c : Config) : List Char :=
  '\x7b' :: [','].intercalate (c.fields.map fieldText) ++ ['\x7d']

/-- The text of a configuration, if its lengths of time can be written. -/
def render? (c : Config) : Option (List Char) := if c.fitsText then some c.render else none

/-- A configuration as a host gives it: a text to start from, or the defaults, and settings to make
in order. -/
structure Source where
  text : Option String := none
  settings : List Setting := []
  deriving DecidableEq, Repr

/-- Why a configuration could not be loaded. -/
inductive LoadError where
  /-- The text is not the text of a configuration. -/
  | unreadable
  /-- A setting failed. -/
  | setting (error : Error)
  deriving DecidableEq, Repr

/-- The configuration before any setting is made. -/
def Source.base (source : Source) : Except LoadError Config :=
  match source.text with
  | none => .ok {}
  | some text =>
    match read? text.toList with
    | some c => .ok c
    | none => .error .unreadable

/-- The configuration of a source. The first setting that fails makes all fail. -/
def Source.load (source : Source) : Except LoadError Config :=
  match source.base with
  | .ok c =>
    match c.setAll source.settings with
    | .ok c => .ok c
    | .error e => .error (.setting e)
  | .error e => .error e

/-- What can be said about a configuration. -/
structure Summary where
  /-- The success of each setting. -/
  settings : List (Except Error Unit)
  /-- The text of the configuration, if it can be written. -/
  text : Option (List Char)
  /-- Whether reading that text gives the same configuration. -/
  roundTrip : Option Bool
  isDefault : Bool
  validation : Except Error Unit

/-- The configuration of a source, with the settings that succeed, in summary. -/
def Source.summary (source : Source) : Except LoadError (Config × Summary) :=
  match source.base with
  | .ok base =>
    let (c, answers) := base.tryAll source.settings
    .ok (c, { settings := answers
              text := c.render?
              roundTrip := c.render?.map fun text => read? text = some c
              isDefault := c = {}
              validation := c.validate })
  | .error e => .error e

end LowOrbit.Config
