/-!
# Errors

Only creating and configuring a connection, starting the phase clock and arming a timer can fail.
Everything a connection does per acknowledgment or per timer firing succeeds.
-/

namespace LowOrbit

/-- The configuration parameters that have an accepted range. -/
inductive Parameter where
  | beta
  | bicScale
  | hystartDetect
  deriving DecidableEq, Repr

/-- The name of a parameter in configuration texts and messages. -/
def Parameter.name : Parameter → String
  | .beta => "beta"
  | .bicScale => "bic_scale"
  | .hystartDetect => "hystart_detect"

/-- Why an operation failed. -/
inductive Error where
  /-- No congestion control algorithm has the requested name. -/
  | unknownAlgorithm
  /-- A configuration parameter is outside its accepted range. -/
  | outOfRange (parameter : Parameter)
  /-- There is nothing that timers could run on. -/
  | noRuntime
  /-- The phase clock has been shut down. -/
  | clockStopped
  deriving DecidableEq, Repr

/-- The text of an error in messages. -/
def Error.text : Error → String
  | .unknownAlgorithm => "CongestionControl"
  | .outOfRange parameter => "InvalidConfig(\"" ++ parameter.name ++ "\")"
  | .noRuntime => "NoRuntime"
  | .clockStopped => "ClockStopped"

end LowOrbit
