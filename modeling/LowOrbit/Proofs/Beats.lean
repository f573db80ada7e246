import LowOrbit.Proofs.Accounts
import LowOrbit.Proofs.Reconciliation
import LowOrbit.Proofs.Toggling

/-!
# Runs beat by beat

A `Timed.Beat` is one thing that happens to a connection in time whose timer fires exactly at the
end of its sleep, so that a run is a list of beats and what happened in it can be computed.
`Timed.Fits` says that every beat of a run may come when it does. In the usual mode, such a run
keeps the connection serving its schedule (`Timed.Serves.beat`), and acknowledgments and firings do
to the window what the clock asks for.
-/

namespace LowOrbit

open Handover (Schedule Window jitter)
open Socket (Edit)

namespace Timed

/-- One thing that happens to a connection in time. -/
inductive Beat where
  /-- Time passes. -/
  | wait (d : Nat)
  | ack (acked : Nat)
  /-- The connection hears of something, and the host does with the answer what it likes. -/
  | hear (e : Connection.Event)
  | fire
  deriving DecidableEq, Repr

/-- The connection in time after a beat. The phase was `first` at the adoption. -/
def beat (first : Nat) (t : Timed) : Beat → Timed
  | .wait d => { t with now := t.now + d }
  | .ack acked => { t with connection := t.connection.ack (phaseAt first t.now) acked }
  | .hear e => { t with connection := t.connection.handle e }
  | .fire => t.fired first

/-- The connection in time after beats in order. -/
def beatAll (first : Nat) (t : Timed) (beats : List Beat) : Timed := beats.foldl (beat first) t

/-- The beat may come now. Time does not pass beyond the end of the timer's sleep, at which the
timer of an established connection fires. What else is heard does not concern the gate, and the host
writes the window by carrying out answers only, a clamp of zero never, and the deadline neither. -/
def Beat.Fits (t : Timed) : Beat → Prop
  | .wait d => ∀ due, t.due = some due → t.now + d ≤ due
  | .ack _ => True
  | .hear e => (e.Reports fun e => e.SparesWindow ∧ e.rto = none) ∧ ¬ e.ActsOnGate
  | .fire => t.due = some t.now ∧ t.connection.socket.established = true

/-- Each of the beats may come when it does. -/
def Fits (first : Nat) (t : Timed) : List Beat → Prop
  | [] => True
  | b :: rest => b.Fits t ∧ (t.beat first b).Fits first rest

/-- The connection has handover awareness in the usual mode, with the schedule `sch`, and while its
gate is open, so is its window. -/
structure Serves (sch : Schedule) (t : Timed) : Prop where
  schedule_eq : t.connection.schedule = sch
  usual : sch.timerOnly = false
  serving : t.connection.Serving

variable {sch : Schedule} {first : Nat} {t : Timed}

/-- A connection that adopts the algorithm in the usual mode with an open window serves its schedule.
Its window is closed within the handover window only, and its timer sleeps until the next edge. -/
theorem serves_adopted {s : Session} (hcwnd : 0 < s.connection.socket.cwnd)
    (hclamp : 0 < s.connection.socket.clamp) (hmode : s.connection.schedule.timerOnly = false)
    (harmed : (s.adopt .connection).connection.timer.isSome = true) :
    Serves s.connection.schedule (adopted s) ∧
      (adopted s).connection.link.isClosed = s.connection.schedule.window.contains s.host.phase ∧
      (adopted s).due = some (s.connection.schedule.window.nextEdge s.host.phase) := by
  have heq := Session.connection_adopt_of_armed harmed
  have hschedule : (s.adopt .connection).connection.schedule = s.connection.schedule := by
    rw [heq]
    rfl
  have hserving := Connection.serving_attach hcwnd hclamp s.timers.nextId s.host.phase
  have hclosed := Connection.isClosed_attach hcwnd s.timers.nextId s.host.phase
  rw [← heq] at hserving hclosed
  refine ⟨⟨hschedule, hmode, hserving⟩, hclosed, ?_⟩
  show some ((s.adopt .connection).connection.nextDelay s.host.phase) = _
  rw [Connection.nextDelay, hschedule, Schedule.nextDelay, hmode]
  rfl

/-- Every beat that fits leaves the connection serving its schedule. -/
theorem Serves.beat (h : Serves sch t) {b : Beat} (hfits : b.Fits t) :
    Serves sch (t.beat first b) := by
  obtain ⟨hschedule, hmode, hserving⟩ := h
  cases b with
  | wait d => exact ⟨hschedule, hmode, hserving⟩
  | ack acked => exact ⟨(Connection.schedule_ack _ _ _).trans hschedule, hmode, hserving.ack _ _⟩
  | hear e =>
      have hspares : e.Reports Edit.SparesWindow := hfits.1.imp fun _ he => he.1
      exact ⟨(t.connection.schedule_handle e).trans hschedule, hmode,
        Connection.stable_serving.handle hspares hserving⟩
  | fire => exact ⟨(Connection.schedule_fire _ _).trans hschedule, hmode, hserving.fire _⟩

/-- An acknowledgment that is looked at leaves the window closed within the handover window only. -/
theorem Serves.isClosed_ack (h : Serves sch t) (acked : Nat) :
    (t.beat first (.ack acked)).connection.link.isClosed =
      if t.connection.socket.cwndLimited then sch.window.contains (phaseAt first t.now)
      else t.connection.link.isClosed := by
  obtain ⟨rfl, hmode, hserving⟩ := h
  exact Connection.isClosed_ack hserving.timer_isSome hmode hserving.clamp_pos _ acked

/-- What else is heard neither opens nor closes the window. -/
theorem Serves.isClosed_hear (h : Serves sch t) {e : Connection.Event}
    (hfits : (Beat.hear e).Fits t) :
    (t.beat first (.hear e)).connection.link.isClosed = t.connection.link.isClosed := by
  have halike := Connection.Attended.alike_handle (.inl h.serving) hfits.1 hfits.2
  rw [Bool.eq_iff_iff, Handover.Link.isClosed_iff, Handover.Link.isClosed_iff]
  exact halike.closed_iff

/-- A firing leaves the window closed between the edges, both moved ahead by the jitter, and the
timer goes on to sleep until the next edge. -/
theorem Serves.fired (h : Serves sch t) (hestablished : t.connection.socket.established = true)
    (first : Nat) :
    ((t.fired first).connection.link.isClosed = true ↔
        sch.window.start ≤ phaseAt first t.now + jitter ∧
          phaseAt first t.now + jitter < sch.window.finish) ∧
      (t.fired first).due = some (t.now + sch.window.nextEdge (phaseAt first t.now)) := by
  obtain ⟨rfl, hmode, hserving⟩ := h
  have hfire := Connection.fire_eq hserving.timer_isSome hmode hestablished (phaseAt first t.now)
  unfold Timed.fired
  rw [hfire]
  exact ⟨Window.isClosed_act_timerAction _ _ _ _, rfl⟩

end Timed

end LowOrbit
