import LowOrbit.Connection
import LowOrbit.Time.Text

/-!
# The state of a connection as text

One line that shows the engine, and the gate and timer if handover awareness is active.
-/

namespace LowOrbit

/-- The text of an instant that may be unset. -/
def instantText : Option Nat → String
  | some t => s!"Some({t})"
  | none => "None"

/-- The text of hybrid slow start. -/
def Hystart.text (h : Hystart) : String :=
  s!"found={h.found} round_start=" ++ instantText h.roundStart ++
    s!" end_seq={h.endSeq} curr_rtt={h.currRtt} sample_cnt={h.sampleCount}"

/-- The text of the curve. -/
def Cubic.State.text (st : Cubic.State) : String :=
  s!"\x7b cnt={st.pace} last_max_cwnd={st.lastMax} k={st.k} origin={st.origin}" ++
    s!" delay_min={st.delayMin} \x7d"

/-- The text of an engine. -/
def Engine.text : Engine → String
  | .reno => "reno"
  | .cubic c => "cubic=" ++ c.state.text ++ " hystart=" ++ c.hystart.text

/-- The text of a gate. -/
def Handover.Gate.text : Handover.Gate → String
  | .opened => "Open"
  | .suspended saved => s!"Suspended \x7b saved_cwnd: {saved} \x7d"

/-- The text of a timer. -/
def Timer.Record.text (r : Timer.Record) : String :=
  s!"\x7b armed={r.isArmed} free_pending={r.releasePending} \x7d"

/-- The text of a connection whose timer, if it has one, has this record. -/
def Connection.text (c : Connection) (record : Option Timer.Record) : String :=
  let handover := match record with
    | some record =>
      "gate=" ++ c.link.gate.text ++
        " window=" ++ Nanos.text c.schedule.window.start ++ ".." ++
        Nanos.text c.schedule.window.finish ++
        s!" timer_only={c.schedule.timerOnly} timer=" ++ record.text
    | none => "off"
  c.engine.text ++ " handover=" ++ handover

end LowOrbit
