import LowOrbit.Algorithm
import LowOrbit.Capped
import LowOrbit.Config
import LowOrbit.Config.Text
import LowOrbit.Connection
import LowOrbit.Connection.Probe
import LowOrbit.Connection.Text
import LowOrbit.Cubic
import LowOrbit.Cubic.CubeRoot
import LowOrbit.Cubic.Curve
import LowOrbit.Cubic.Epoch
import LowOrbit.Engine
import LowOrbit.Error
import LowOrbit.Growth
import LowOrbit.Handover.Gate
import LowOrbit.Handover.Report
import LowOrbit.Handover.Schedule
import LowOrbit.Handover.Window
import LowOrbit.Host
import LowOrbit.Hystart
import LowOrbit.Json
import LowOrbit.Json.Reader
import LowOrbit.Notice
import LowOrbit.PhaseClock
import LowOrbit.Reno
import LowOrbit.SeqNum
import LowOrbit.Session
import LowOrbit.Session.Operation
import LowOrbit.Session.Run
import LowOrbit.Session.View
import LowOrbit.Signal
import LowOrbit.Socket
import LowOrbit.Ticker
import LowOrbit.Time
import LowOrbit.Time.Text
import LowOrbit.Timer
import LowOrbit.Proofs.Accounts
import LowOrbit.Proofs.Arming
import LowOrbit.Proofs.Batches
import LowOrbit.Proofs.Calls
import LowOrbit.Proofs.Checked.Arithmetic
import LowOrbit.Proofs.Checked.Connection
import LowOrbit.Proofs.Checked.CubeRoot
import LowOrbit.Proofs.Checked.Engine
import LowOrbit.Proofs.Checked.Epoch
import LowOrbit.Proofs.Checked.Schedule
import LowOrbit.Proofs.Coherence
import LowOrbit.Proofs.Events
import LowOrbit.Proofs.Frame
import LowOrbit.Proofs.History
import LowOrbit.Proofs.Lifecycle
import LowOrbit.Proofs.Pace
import LowOrbit.Proofs.Punctuality
import LowOrbit.Proofs.Reconciliation
import LowOrbit.Proofs.Beats
import LowOrbit.Proofs.Blackouts
import LowOrbit.Proofs.Effectiveness
import LowOrbit.Proofs.Resync
import LowOrbit.Proofs.Soundness
import LowOrbit.Proofs.Stability
import LowOrbit.Proofs.Suspension
import LowOrbit.Proofs.Switches
import LowOrbit.Proofs.Timed
import LowOrbit.Proofs.Timeline
import LowOrbit.Proofs.Timers.Firings
import LowOrbit.Proofs.Timers.Holds
import LowOrbit.Proofs.Toggling
import LowOrbit.Proofs.Transparency
import LowOrbit.Proofs.Turn
import LowOrbit.Proofs.Episodes
import LowOrbit.Proofs.Increments
import LowOrbit.Proofs.Independence
import LowOrbit.Proofs.Rounds
import LowOrbit.Proofs.Stillness
import LowOrbit.Proofs.Json.Grammar
import LowOrbit.Proofs.Json.Reading
import LowOrbit.Proofs.Config.Members
import LowOrbit.Proofs.Config.RoundTrip
import LowOrbit.Proofs.Postponement
import LowOrbit.Proofs.Cubic.Accuracy
import LowOrbit.Proofs.Cubic.Reports
import LowOrbit.Proofs.Cubic.Epochs
import LowOrbit.Proofs.Cubic.Curve
import LowOrbit.Proofs.Cubic.Ideal
import LowOrbit.Proofs.Cubic.Aging
import LowOrbit.Proofs.Cubic.Monotonicity
import LowOrbit.Proofs.Cubic.Opening
import LowOrbit.Proofs.Cubic.Reduction
import LowOrbit.Proofs.Cubic.RenoWindow
import LowOrbit.Proofs.Cubic.Reopening
import LowOrbit.Proofs.Cubic.SmallestDelay
import LowOrbit.Proofs.Cubic.Idleness
import LowOrbit.Proofs.Translation
