import LowOrbit.Proofs.Turn
import Mathlib.Logic.Relation

/-!
# Connections in time

Timers are late, and acknowledgments arrive at any instant. A `Timed` connection is one with an
instant and the instant at which the sleep of its timer is over. `Timed.Step` says what can happen
to it while wall clock, monotonic clock and timers advance together: time passes, but the timer
never fires later than its slack; acknowledgments and other reports arrive; and the timer of an
established connection that nobody has locked fires.
-/

namespace LowOrbit

open Socket (Edit Features)

/-- What a connection may hear of besides acknowledgments, if the host never writes its window:
the connection before and after. -/
inductive Connection.Hears : Connection → Connection → Prop where
  | sample (c : Connection) (x : RttSample) : Hears c (c.sample x)
  | reduce (c : Connection) : Hears c c.reduce
  | undo (c : Connection) : Hears c c.undo
  | changeState (c : Connection) (state : AvoidanceState) : Hears c (c.changeState state)
  | windowEvent (c : Connection) (event : WindowEvent) : Hears c (c.windowEvent event)
  | advance (c : Connection) (features : Features) (d : Nat) :
      Hears c (c.mapSocket fun s => features.present (s.advance d))
  | edit (c : Connection) (features : Features) {e : Edit} (h : e.SparesWindow) :
      Hears c (c.mapSocket fun s => features.present (s.edit e))

/-- A report other than an acknowledgment leaves the window, the schedule and the timer alone, and
the clamp positive. -/
theorem Connection.Hears.frame {c c' : Connection} (h : c.Hears c') :
    c'.link.socket.cwnd = c.link.socket.cwnd ∧ c'.schedule = c.schedule ∧ c'.timer = c.timer ∧
      (0 < c.link.socket.clamp → 0 < c'.link.socket.clamp) := by
  cases h with
  | sample x =>
      obtain ⟨ssthresh, hframe⟩ := c.engine.sample_frame c.link.socket x
      have hsocket : (c.sample x).link.socket = { c.link.socket with ssthresh := ssthresh } :=
        hframe
      rw [hsocket]
      exact ⟨rfl, rfl, rfl, id⟩
  | reduce => exact ⟨rfl, rfl, rfl, id⟩
  | undo =>
      have hsocket : c.undo.link.socket = c.link.socket := c.link.socket_raiseSaved _
      rw [hsocket]
      exact ⟨rfl, rfl, rfl, id⟩
  | changeState => exact ⟨rfl, rfl, rfl, id⟩
  | windowEvent => exact ⟨rfl, rfl, rfl, id⟩
  | advance features d =>
      exact ⟨features.cwnd_present _, rfl, rfl, fun hclamp => features.clamp_present_pos hclamp⟩
  | edit features he =>
      exact ⟨(features.cwnd_present _).trans (Socket.cwnd_edit he.1 _), rfl, rfl,
        fun hclamp => features.clamp_present_pos (Socket.clamp_edit_pos he.2 hclamp)⟩

/-- A connection in time. Instants are nanoseconds since the adoption. -/
structure Timed where
  now : Nat
  /-- When the sleep of the timer is over, while there is one. -/
  due : Option Nat
  connection : Connection

namespace Timed

/-- The phase at an instant if it was `first` at the adoption. -/
def phaseAt (first instant : Nat) : Nat := (first + instant) % Handover.period

/-- The connection of a session right after it has adopted the algorithm. -/
def adopted (s : Session) : Timed where
  now := 0
  due := some ((s.adopt .connection).connection.nextDelay s.host.phase)
  connection := (s.adopt .connection).connection

/-- One thing that happens to a connection in time. The phase was `first` at the adoption, and a
timer fires less than `slack` after the end of its sleep. -/
inductive Step (first slack : Nat) : Timed → Timed → Prop where
  /-- Time passes. -/
  | wait {t : Timed} (d : Nat) (h : ∀ due, t.due = some due → t.now + d < due + slack) :
      Step first slack t { t with now := t.now + d }
  | ack {t : Timed} (acked : Nat) :
      Step first slack t
        { t with connection := t.connection.ack (phaseAt first t.now) acked }
  | hear {t : Timed} {c : Connection} (h : t.connection.Hears c) :
      Step first slack t { t with connection := c }
  /-- The timer fires, after its sleep is over, and sleeps for as long as it is told. -/
  | fire {t : Timed} {due : Nat} (hdue : t.due = some due) (hover : due ≤ t.now)
      (hestablished : t.connection.socket.established = true) :
      Step first slack t
        { t with
          connection := (t.connection.fire (phaseAt first t.now)).2
          due := (Session.delayAfter (t.connection.fire (phaseAt first t.now)).1).map
            fun delay => t.now + delay }

/-- Whatever happens to the connection in time. -/
def Steps (first slack : Nat) : Timed → Timed → Prop := Relation.ReflTransGen (Step first slack)

/-- The turn of a timer in a session is a firing in time, if the connection is established and
nobody has locked it. The sleep that follows is as long as the connection asks for, or less than a
millisecond longer. -/
theorem step_serveConnection {first slack : Nat} {t : Timed} {s : Session} {id due : Nat}
    (hconnection : t.connection = s.connection) (hphase : phaseAt first t.now = s.host.phase)
    (hdue : t.due = some due) (hover : due ≤ t.now) (htimer : s.connection.timer = some id)
    (harmed : s.timers.status? id = some .armed)
    (hestablished : s.connection.socket.established = true) :
    ∃ delay,
      Step first slack t
        { t with
          connection := (s.serveConnection false id).connection
          due := some (t.now + delay) } ∧
      ∀ task ∈ (s.serveConnection false id).timers.tasks, task.id = id →
        s.host.ticker.elapsed + delay ≤ Nanos.millis task.sleep.due ∧
          Nanos.millis task.sleep.due < s.host.ticker.elapsed + delay + Nanos.millis 1 := by
  obtain ⟨delay, hdelay⟩ : ∃ delay, Session.delayAfter (s.tryFire false).1 = some delay :=
    Session.delayAfter_tryFire (by rw [htimer]; rfl) (.inr hestablished)
  obtain ⟨hfired, -, hslept⟩ := Session.serveConnection_of_armed harmed hdelay
  refine ⟨delay, ?_, fun task hmem hid => ?_⟩
  · have hfire : Step first slack t _ := .fire hdue hover (hconnection ▸ hestablished)
    have hanswer : Session.delayAfter (s.connection.fire s.host.phase).1 = some delay := hdelay
    rw [hphase, hconnection, hanswer] at hfire
    rw [hfired]
    exact hfire
  · rw [hslept task hmem hid]
    exact s.host.ticker.due_sleep_bounds delay

end Timed

end LowOrbit
