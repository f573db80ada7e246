import LowOrbit.Proofs.Punctuality
import LowOrbit.Proofs.Switches

/-!
# Windows that the timer alone opens and closes

In timer-only mode every firing flips the gate, and the phase enters only through the delay until
the next firing. The main theorem, `Timed.switches_of_run`, says that a connection whose timer fires
exactly on time makes the switches that `Window.switches` lists, whenever acknowledgments arrive.
-/

namespace LowOrbit

open Handover (Link Schedule Window period instant minDelay)
open Socket (Edit Features)

/-! ## Single operations -/

/-- In timer-only mode a firing flips the window, and suspends or opens the gate with it. -/
theorem Handover.Schedule.expire_of_timerOnly {sch : Schedule} (hmode : sch.timerOnly = true)
    (phase : Nat) (l : Link) :
    (sch.expire phase l).isClosed = !l.isClosed ∧
      (sch.expire phase l).gate.isSuspended = !l.isClosed := by
  cases hclosed : l.isClosed with
  | true =>
      have hexpire : sch.expire phase l = l.resume := by
        simp [Schedule.expire, Schedule.timerAction, hmode, hclosed, Link.act]
      rw [hexpire, l.isClosed_resume, l.gate_resume]
      exact ⟨rfl, rfl⟩
  | false =>
      have hexpire : sch.expire phase l = l.suspend sch.window.span := by
        simp [Schedule.expire, Schedule.timerAction, hmode, hclosed, Link.act]
      rw [hexpire, l.isClosed_suspend, Link.suspend, hclosed]
      exact ⟨rfl, rfl⟩

namespace Connection

variable {c : Connection}

/-- In timer-only mode the clock leaves the gate alone. -/
theorem reconcile_of_timerOnly (hmode : c.schedule.timerOnly = true) (phase : Nat) :
    c.reconcile phase = c := by
  unfold reconcile
  split
  · simp [Schedule.reconcile, Schedule.ackAction, hmode, Link.act]
  · rfl

/-- In timer-only mode an acknowledgment neither opens nor closes the window, and leaves the gate
alone. -/
theorem ack_of_timerOnly (hmode : c.schedule.timerOnly = true) (htimer : c.timer.isSome = true)
    (hclamp : 0 < c.link.socket.clamp) (phase acked : Nat) :
    (c.ack phase acked).link.isClosed = c.link.isClosed ∧
      (c.ack phase acked).isSuspended = c.isSuspended := by
  have hsame := reconcile_of_timerOnly hmode phase
  rcases c.ack_cases phase acked with ⟨-, heq⟩ | ⟨-, -, heq⟩ | ⟨-, hout, heq⟩ <;> rw [heq]
  · exact ⟨rfl, rfl⟩
  · rw [hsame]
    exact ⟨rfl, rfl⟩
  · have hopen := isClosed_reconcile_of_not_inBlackout htimer hout
    rw [hsame] at hopen ⊢
    exact ⟨(isClosed_grow hopen hclamp acked).trans hopen.symm, rfl⟩

/-- A report other than an acknowledgment leaves a suspended gate suspended and an open one open. -/
theorem Hears.isSuspended_eq {c c' : Connection} (h : c.Hears c') :
    c'.isSuspended = c.isSuspended := by
  cases h with
  | undo => exact c.link.isSuspended_raiseSaved _
  | _ => rfl

/-- Outside of the handover window, an adoption leaves the gate open. -/
theorem isSuspended_attach {phase : Nat} (hout : c.schedule.window.contains phase = false)
    (timer : Nat) : (c.adopt.attach timer phase).isSuspended = false := by
  have hkeep : c.adopt.schedule.adoptAction phase = .keep := by
    show (if c.schedule.window.contains phase then Handover.Action.suspend else .keep) = .keep
    rw [hout]
    rfl
  show (c.adopt.link.act _ (c.adopt.schedule.adoptAction phase)).gate.isSuspended = false
  rw [hkeep]
  rfl

end Connection

/-! ## Runs -/

namespace Timed

/-- The connection after its timer has fired. -/
def fired (first : Nat) (t : Timed) : Timed :=
  { t with
    connection := (t.connection.fire (phaseAt first t.now)).2
    due := (Session.delayAfter (t.connection.fire (phaseAt first t.now)).1).map
      fun delay => t.now + delay }

/-- The switch of the gate, if any, that takes one moment to the other. -/
def switch (first : Nat) (t t' : Timed) : List Handover.Switch :=
  if t'.connection.isSuspended = t.connection.isSuspended then []
  else [⟨first + t'.now, t'.connection.isSuspended⟩]

/-- One thing that happens to a connection in time whose timer fires exactly at the end of its
sleep. The phase was `first` at the adoption. With a clamp of zero, growth itself would close the
window, so acknowledgments arrive while the clamp is not zero. -/
inductive OnTime (first : Nat) : Timed → Timed → Prop where
  /-- Time passes, but not beyond the end of the timer's sleep. -/
  | wait {t : Timed} (d : Nat) (h : ∀ due, t.due = some due → t.now + d ≤ due) :
      OnTime first t { t with now := t.now + d }
  | ack {t : Timed} (acked : Nat) (hclamp : 0 < t.connection.socket.clamp) :
      OnTime first t { t with connection := t.connection.ack (phaseAt first t.now) acked }
  | hear {t : Timed} {c : Connection} (h : t.connection.Hears c) :
      OnTime first t { t with connection := c }
  /-- The host writes the socket, but not the window. -/
  | edit {t : Timed} (features : Features) {e : Edit} (h : e.cwnd = none) :
      OnTime first t
        { t with connection := t.connection.mapSocket fun s => features.present (s.edit e) }
  | fire {t : Timed} (hdue : t.due = some t.now)
      (hestablished : t.connection.socket.established = true) : OnTime first t (t.fired first)

/-- A run of a connection in time whose timer fires on time, and the switches of the gate in the
course of it. -/
inductive Run (first : Nat) (initial : Timed) : List Handover.Switch → Timed → Prop
  | start : Run first initial [] initial
  | step {log log' : List Handover.Switch} {t t' : Timed} (hrun : Run first initial log t)
      (hstep : OnTime first t t') (hlog : log' = log ++ t.switch first t') :
      Run first initial log' t'

/-- Time may pass up to the end of the timer's sleep. -/
theorem OnTime.wait_to {first due d : Nat} {t : Timed} (hdue : t.due = some due)
    (hle : t.now + d ≤ due) : OnTime first t { t with now := t.now + d } :=
  .wait d fun due' hdue' => by
    have hsame : due' = due := Option.some.inj (hdue'.symm.trans hdue)
    omega

/-- What holds of a connection in timer-only mode, after the switches in `log`: its timer is about
to make the switch that the list says comes next. -/
structure Toggled (sch : Schedule) (first : Nat) (log : List Handover.Switch) (t : Timed) :
    Prop where
  schedule_eq : t.connection.schedule = sch
  timer_isSome : t.connection.timer.isSome = true
  suspended_eq : t.connection.isSuspended = t.connection.link.isClosed
  expects : ∃ due, t.due = some due ∧ t.now ≤ due ∧
    sch.window.Expects first log ⟨first + due, !t.connection.isSuspended⟩

variable {sch : Schedule} {first : Nat} {log : List Handover.Switch} {t t' : Timed}

/-- A connection that adopts the algorithm with an open window, before the handover window, is about
to be suspended. -/
theorem toggled_adopted {s : Session} (hmode : s.connection.schedule.timerOnly = true)
    (hcwnd : 0 < s.connection.socket.cwnd)
    (hphase : s.host.phase < s.connection.schedule.window.start)
    (harmed : (s.adopt .connection).connection.timer.isSome = true) :
    Toggled s.connection.schedule s.host.phase [] (adopted s) := by
  have heq := Session.connection_adopt_of_armed harmed
  have hout : s.connection.schedule.window.contains s.host.phase = false :=
    (Window.contains_eq_false_iff _ _).mpr (.inl hphase)
  have hclosed := Connection.isClosed_attach hcwnd s.timers.nextId s.host.phase
  have hsuspended := Connection.isSuspended_attach hout s.timers.nextId
  rw [hout] at hclosed
  rw [← heq] at hclosed hsuspended
  have hschedule : (s.adopt .connection).connection.schedule = s.connection.schedule := by
    rw [heq]
    rfl
  refine ⟨hschedule, harmed, hsuspended.trans hclosed.symm, _, rfl, Nat.zero_le _, ?_⟩
  have hdue : s.host.phase + (s.adopt .connection).connection.nextDelay s.host.phase =
      s.connection.schedule.window.closing s.host.phase 0 := by
    have hedges := s.connection.schedule.window.edges
    rw [Connection.nextDelay, hschedule, hclosed, Schedule.nextDelay, if_pos hmode,
      Window.nextToggle, if_neg (by decide), if_pos (by simp only [instant]; omega),
      Window.closing]
    simp only [period, minDelay]
    omega
  show Window.Expects _ _ _ ⟨_, !(s.adopt .connection).connection.isSuspended⟩
  rw [hdue, hsuspended]
  exact Window.expects_nil _ _

/-- What leaves the gate and the timer alone adds nothing to the log. -/
theorem switch_eq_nil (h : t'.connection.isSuspended = t.connection.isSuspended) :
    t.switch first t' = [] := if_pos h

/-- In timer-only mode, a firing flips the window and the gate, and the timer goes on to sleep until
the next switch. -/
theorem fired_of_timerOnly (hmode : t.connection.schedule.timerOnly = true)
    (htimer : t.connection.timer.isSome = true)
    (hestablished : t.connection.socket.established = true) (first : Nat) :
    let closed := !t.connection.link.isClosed
    (t.fired first).connection.link.isClosed = closed ∧
      (t.fired first).connection.isSuspended = closed ∧
      (t.fired first).due =
        some (t.now + t.connection.schedule.window.nextToggle (phaseAt first t.now) closed) := by
  intro closed
  have hfire := Connection.fire_of_established htimer hestablished (phaseAt first t.now)
  obtain ⟨hclosed, hgate⟩ :=
    Schedule.expire_of_timerOnly hmode (phaseAt first t.now) t.connection.link
  rw [hclosed, Schedule.nextDelay, if_pos hmode] at hfire
  unfold fired
  rw [hfire]
  exact ⟨hclosed, hgate, rfl⟩

/-- A connection that switches as the list says does so when its timer fires on time. -/
theorem Toggled.fired (h : Toggled sch first log t) (hmode : sch.timerOnly = true)
    (hfirst : first < sch.window.start) (hestablished : t.connection.socket.established = true)
    (hdue : t.due = some t.now) :
    Toggled sch first (log ++ t.switch first (t.fired first)) (t.fired first) := by
  obtain ⟨hschedule, htimer, hsuspended, due, hdue', -, hexpects⟩ := h
  obtain rfl : t.now = due := Option.some.inj (hdue.symm.trans hdue')
  obtain ⟨hclosed, hgate, hnext⟩ := fired_of_timerOnly (hschedule ▸ hmode) htimer hestablished first
  rw [← hsuspended] at hclosed hgate hnext
  have hlog : t.switch first (t.fired first) = [⟨first + t.now, !t.connection.isSuspended⟩] := by
    unfold switch
    rw [hgate, if_neg (by cases t.connection.isSuspended <;> decide)]
    rfl
  rw [hlog]
  refine ⟨?_, ?_, hgate.trans hclosed.symm, _, hnext, Nat.le_add_right _ _, ?_⟩
  · exact (Connection.schedule_fire _ _).trans hschedule
  · exact (congrArg Option.isSome (Connection.timer_fire _ _)).trans htimer
  · rw [hgate, hschedule, ← Nat.add_assoc]
    exact hexpects.next hfirst

/-- A connection that switches as the list says goes on to do so if neither its gate nor its window
is opened or closed. -/
theorem Toggled.quiet (h : Toggled sch first log t) {c : Connection}
    (hschedule : c.schedule = t.connection.schedule) (htimer : c.timer = t.connection.timer)
    (hclosed : c.link.isClosed = t.connection.link.isClosed)
    (hsame : c.isSuspended = t.connection.isSuspended) :
    Toggled sch first (log ++ t.switch first { t with connection := c })
      { t with connection := c } := by
  obtain ⟨due, hdue, hnow, hexpects⟩ := h.expects
  rw [switch_eq_nil hsame, List.append_nil]
  refine ⟨hschedule.trans h.schedule_eq, ?_, ?_, due, hdue, hnow, ?_⟩
  · show c.timer.isSome = true
    rw [htimer]
    exact h.timer_isSome
  · show c.isSuspended = c.link.isClosed
    rw [hsame, hclosed]
    exact h.suspended_eq
  · show sch.window.Expects first log ⟨first + due, !c.isSuspended⟩
    rw [hsame]
    exact hexpects

/-- A connection that switches as the list says goes on to do so. -/
theorem Toggled.step (h : Toggled sch first log t) (hmode : sch.timerOnly = true)
    (hfirst : first < sch.window.start) (hstep : OnTime first t t') :
    Toggled sch first (log ++ t.switch first t') t' := by
  cases hstep with
  | wait d hwait =>
      obtain ⟨due, hdue, -, hexpects⟩ := h.expects
      rw [switch_eq_nil (t := t) (by rfl), List.append_nil]
      exact ⟨h.schedule_eq, h.timer_isSome, h.suspended_eq, due, hdue, hwait due hdue, hexpects⟩
  | ack acked hclamp =>
      obtain ⟨hclosed, hsame⟩ := Connection.ack_of_timerOnly (h.schedule_eq ▸ hmode) h.timer_isSome
        hclamp (phaseAt first t.now) acked
      exact h.quiet (Connection.schedule_ack _ _ _) (Connection.timer_ack _ _ _) hclosed hsame
  | @hear c hhear =>
      obtain ⟨hcwnd, hschedule, htimer, -⟩ := hhear.frame
      refine h.quiet hschedule htimer ?_ hhear.isSuspended_eq
      simp only [Link.isClosed, Socket.isClosed, hcwnd]
  | @edit features e he =>
      refine h.quiet rfl rfl ?_ rfl
      have hcwnd : (features.present (t.connection.link.socket.edit e)).cwnd =
          t.connection.link.socket.cwnd :=
        (features.cwnd_present _).trans (Socket.cwnd_edit he _)
      show (features.present (t.connection.link.socket.edit e)).isClosed = _
      simp only [Link.isClosed, Socket.isClosed, hcwnd]
  | fire hdue hestablished => exact h.fired hmode hfirst hestablished hdue

/-- A connection switches as the list says for all time. -/
theorem Toggled.run {initial : Timed} (h : Toggled sch first [] initial)
    (hmode : sch.timerOnly = true) (hfirst : first < sch.window.start)
    (hrun : Run first initial log t) : Toggled sch first log t := by
  induction hrun with
  | start => exact h
  | step _ hstep hlog ih => exact hlog ▸ ih.step hmode hfirst hstep

/-- In timer-only mode, with timers that fire exactly on time, a connection that adopts the
algorithm with an open window, before the handover window, is suspended once per period, whenever
acknowledgments arrive: from the start of the handover window, or the shortest delay after the
adoption, to its end, or the shortest delay after the suspension. Only if that is the handover
instant, it is suspended a second time, from one shortest delay to two after it. Its window is
closed exactly while it is suspended. -/
theorem switches_of_run {s : Session} (hcwnd : 1 ≤ s.connection.socket.cwnd)
    (hmode : s.connection.schedule.timerOnly = true)
    (hphase : s.host.phase < s.connection.schedule.window.start)
    (harmed : (s.adopt .connection).connection.timer.isSome = true)
    {log : List Handover.Switch} {t : Timed} (hrun : Run s.host.phase (adopted s) log t) (k : Nat) :
    let w := s.connection.schedule.window
    let closing := max (k * period + w.start) (s.host.phase + minDelay)
    let reopening := max (k * period + w.finish) (closing + minDelay)
    let handover := k * period + instant
    let expected : List Handover.Switch :=
      if reopening = handover then
        [⟨closing, true⟩, ⟨reopening, false⟩, ⟨handover + minDelay, true⟩,
          ⟨handover + 2 * minDelay, false⟩]
      else [⟨closing, true⟩, ⟨reopening, false⟩]
    let seen := log.filter (·.moment / period = k)
    seen <+: expected ∧ ((k + 1) * period ≤ s.host.phase + t.now → seen = expected) ∧
      (t.connection.socket.cwnd = 0 ↔ t.connection.isSuspended = true) := by
  intro w closing reopening handover expected seen
  have ht := (toggled_adopted hmode hcwnd hphase harmed).run hmode hphase hrun
  obtain ⟨due, -, hnow, hexpects⟩ := ht.expects
  obtain ⟨hsome, hall⟩ := hexpects.filter hphase k
  refine ⟨hsome, fun hover => hall ?_, ?_⟩
  · exact Nat.le_trans hover (Nat.add_le_add_left hnow _)
  · rw [ht.suspended_eq]
    exact (Link.isClosed_iff _).symm

/-- A connection with a window of 40 packets in timer-only mode, a second before a handover. -/
def beforeHandover (endOffset : Nat) : Session where
  host := Host.create (.simulated 11000000000 0) true
  config := { timerOnly := true, endOffset := endOffset }
  features := .full
  connection :=
    { link := { socket := Socket.create { cwnd := some 40 } }
      engine := Engine.ofConfig {}
      schedule := Schedule.ofConfig { timerOnly := true, endOffset := endOffset } }

/-- The connection of the example with the usual offsets is suspended once in the first period. -/
theorem switches_of_run_beforeHandover :
    let s := beforeHandover 200000000
    let log : List Handover.Switch := [⟨11800000000, true⟩, ⟨12200000000, false⟩]
    ∃ t, Run s.host.phase (adopted s) log t ∧ period ≤ s.host.phase + t.now ∧
      log.filter (·.moment / period = 0) = log := by
  intro s log
  have hphase : s.host.phase = 11000000000 := by decide
  let closing : Timed := { adopted s with now := (adopted s).now + 800000000 }
  let opening : Timed :=
    { closing.fired 11000000000 with now := (closing.fired 11000000000).now + 400000000 }
  let later : Timed :=
    { opening.fired 11000000000 with now := (opening.fired 11000000000).now + 2800000000 }
  have hadopted : (adopted s).due = some 800000000 := by decide
  have hclosing : closing.due = some closing.now ∧
      closing.connection.socket.established = true := by decide
  have hclosed : (closing.fired 11000000000).due = some 1200000000 := by decide
  have hopening : opening.due = some opening.now ∧
      opening.connection.socket.established = true := by decide
  have hopened : (opening.fired 11000000000).due = some 15800000000 := by decide
  have hrun : Run 11000000000 (adopted s) [] closing :=
    .step .start (.wait_to (d := 800000000) hadopted (by decide)) (by decide)
  have hrun : Run 11000000000 (adopted s) [⟨11800000000, true⟩] (closing.fired 11000000000) :=
    .step hrun (.fire hclosing.1 hclosing.2) (by decide)
  have hrun : Run 11000000000 (adopted s) [⟨11800000000, true⟩] opening :=
    .step hrun (.wait_to (d := 400000000) hclosed (by decide)) (by decide)
  have hrun : Run 11000000000 (adopted s) log (opening.fired 11000000000) :=
    .step hrun (.fire hopening.1 hopening.2) (by decide)
  have hrun : Run 11000000000 (adopted s) log later :=
    .step hrun (.wait_to (d := 2800000000) hopened (by decide)) (by decide)
  rw [← hphase] at hrun
  have hover : period ≤ s.host.phase + later.now := by
    rw [hphase]
    decide
  have hseen := switches_of_run (s := s) (by decide) rfl (by decide) (by decide) hrun 0
  refine ⟨later, hrun, hover, (hseen.2.1 ?_).trans (by decide)⟩
  rw [Nat.zero_add, Nat.one_mul]
  exact hover

/-- A window that ends at the handover instant suspends the connection of the example twice: it is
open again at the handover, a second after the adoption, closed a millisecond later, and open
another millisecond later. -/
theorem suspended_twice_beforeHandover :
    Session.create { timerOnly := true, endOffset := 0 } { cwnd := some 40 } .full
        (.simulated 11000000000 0) true = .ok (beforeHandover 0) ∧
      [800, 1000, 1001, 1002].map (fun ms =>
        ((beforeHandover 0).performAll
          [.adopt .connection, .run ms false false]).connection.isSuspended) =
        [true, false, true, false] := by
  refine ⟨rfl, ?_⟩
  decide +kernel

end Timed

end LowOrbit
