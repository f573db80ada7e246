import LowOrbit.Proofs.Beats

/-!
# Windows that the timer closes

A timer that is armed ahead of the handover window aims at its start. A firing counts a phase within
the jitter ahead of the end as past it, so what the firing at the start does depends on the length
of the window: `Connection.closes_at_start_iff` says that it closes a window of more than 10 ms, to
be opened at the end, and leaves a shorter one open. Without acknowledgments, the connection then
never notices its handovers (`Timed.cwnd_pos_of_narrow`).
-/

namespace LowOrbit

open Handover (Link Schedule Window period minDelay jitter)

/-! ## Single firings -/

namespace Handover

/-- Closing a window leaves the state of the connection alone. -/
theorem Link.established_suspend (l : Link) (extend : Nat) :
    (l.suspend extend).socket.established = l.socket.established := by
  obtain ⟨cwnd, rto, hframe⟩ := l.suspend_frame extend
  rw [hframe]

/-- An open window is saved when it is closed. -/
theorem Link.gate_suspend {l : Link} (hopen : l.isClosed = false) (extend : Nat) :
    (l.suspend extend).gate = .suspended l.socket.cwnd := by
  rw [suspend, hopen]
  rfl

/-- Opening the gate in front of an open window leaves the socket alone. -/
theorem Link.socket_resume {l : Link} (hopen : l.isClosed = false) : l.resume.socket = l.socket := by
  rw [resume, hopen]
  rfl

/-- A window that is closed and opened again is what it was. -/
theorem Link.cwnd_resume_suspend {l : Link} (hopen : l.isClosed = false) (extend : Nat) :
    (l.suspend extend).resume.socket.cwnd = l.socket.cwnd := by
  rw [resume, if_pos (l.isClosed_suspend extend), gate_suspend hopen, cwnd_wakeWriters]
  exact Nat.max_eq_left (l.isClosed_eq_false_iff.mp hopen)

namespace Window

/-- The length of a window is the sum of its offsets, each at most a second. -/
theorem span_ofOffsets (before after : Nat) :
    (ofOffsets before after).span = min before maxHandoverOffset + min after maxHandoverOffset := by
  have hbefore : min before maxHandoverOffset ≤ instant :=
    Nat.le_trans (Nat.min_le_right _ _) (by decide)
  show instant + min after maxHandoverOffset - (instant - min before maxHandoverOffset) = _
  omega

/-- A firing at the start closes the window if the jitter does not reach the end, and otherwise
opens it. -/
theorem timerAction_start (w : Window) (closed : Bool) :
    w.timerAction w.start closed = if jitter < w.span then .suspend else .resume := by
  have horder := w.start_le_finish
  unfold timerAction span
  by_cases hwide : jitter < w.finish - w.start
  · rw [if_pos hwide, if_neg (by omega), if_pos (Nat.le_add_right _ _)]
  · rw [if_neg hwide, if_pos (by omega)]

/-- A firing at the end opens the window. -/
theorem timerAction_finish (w : Window) (closed : Bool) :
    w.timerAction w.finish closed = .resume :=
  if_pos (Nat.le_add_right _ _)

/-- A timer sleeps until a phase within the handover window or behind it. -/
theorem start_le_nextEdge (w : Window) {phase : Nat} (hphase : phase < period) :
    w.start ≤ (phase + w.nextEdge phase) % period := by
  have hedges := w.edges
  rcases Nat.lt_or_ge phase w.start with hbefore | hstarted
  · rw [nextEdge_of_lt hbefore]
    simp only [period, minDelay] at *
    omega
  · rcases Nat.lt_or_ge w.finish phase with hafter | hwithin
    · rw [nextEdge_of_gt hafter hphase]
      simp only [period] at *
      omega
    · rw [nextEdge_of_mem hstarted hwithin]
      simp only [period, minDelay] at *
      omega

end Window

end Handover

namespace Connection

variable {c : Connection}

/-- The firing at the start of a window that the jitter does not reach across closes the congestion
window, and the timer is armed for the end. -/
theorem fire_start_of_wide (htimer : c.timer.isSome = true) (hmode : c.schedule.timerOnly = false)
    (hestablished : c.socket.established = true) (hwide : jitter < c.schedule.window.span) :
    c.fire c.schedule.window.start =
      (.rearm (c.schedule.window.finish - c.schedule.window.start),
        { c with link := c.link.suspend c.schedule.window.span }) := by
  have hdelay : c.schedule.window.nextEdge c.schedule.window.start =
      c.schedule.window.finish - c.schedule.window.start := by
    rw [Window.nextEdge_of_mem (Nat.le_refl _) c.schedule.window.start_le_finish]
    refine Nat.max_eq_left (Nat.le_of_lt (Nat.lt_of_le_of_lt ?_ hwide))
    decide
  rw [fire_eq htimer hmode hestablished, Window.timerAction_start, if_pos hwide, hdelay]
  rfl

/-- The firing at the start of a window that the jitter reaches across opens the gate. -/
theorem fire_start_of_narrow (htimer : c.timer.isSome = true)
    (hmode : c.schedule.timerOnly = false) (hestablished : c.socket.established = true)
    (hnarrow : c.schedule.window.span ≤ jitter) :
    (c.fire c.schedule.window.start).2 = { c with link := c.link.resume } := by
  rw [fire_eq htimer hmode hestablished, Window.timerAction_start,
    if_neg (Nat.not_lt.mpr hnarrow)]
  rfl

/-- The firing at the end of the window opens the gate. -/
theorem fire_finish (htimer : c.timer.isSome = true) (hmode : c.schedule.timerOnly = false)
    (hestablished : c.socket.established = true) :
    (c.fire c.schedule.window.finish).2 = { c with link := c.link.resume } := by
  rw [fire_eq htimer hmode hestablished, Window.timerAction_finish]
  rfl

/-- If the jitter does not reach across the window, the firing at the end opens what the firing at
the start has closed. -/
theorem fire_finish_of_wide (htimer : c.timer.isSome = true)
    (hmode : c.schedule.timerOnly = false) (hestablished : c.socket.established = true)
    (hwide : jitter < c.schedule.window.span) :
    ((c.fire c.schedule.window.start).2.fire c.schedule.window.finish).2 =
      { c with link := (c.link.suspend c.schedule.window.span).resume } := by
  rw [fire_start_of_wide htimer hmode hestablished hwide]
  exact fire_finish htimer hmode ((c.link.established_suspend _).trans hestablished)

/-- Ahead of the handover window, by the shortest delay or more, the timer is armed for its start. -/
theorem nextDelay_of_lt (hmode : c.schedule.timerOnly = false) {phase : Nat}
    (hphase : phase + minDelay ≤ c.schedule.window.start) :
    phase + c.nextDelay phase = c.schedule.window.start := by
  have hdelay : 0 < minDelay := by decide
  have hedge : c.nextDelay phase = c.schedule.window.nextEdge phase := by
    rw [nextDelay, Schedule.nextDelay, hmode]
    rfl
  rw [hedge, Window.nextEdge_of_lt (by omega)]
  omega

/-- Take an established connection in the usual mode with an open window, any gate and any handover
offsets, at a phase of at least a millisecond ahead of the handover window. Its timer is armed for
the start of the window. The firing there closes the congestion window if the offsets, each cut down
to a second, amount to more than 10 ms, and only then. In that case the gate saves the window, the
timer is armed for the end of the handover window, and the firing there restores what was saved.
Otherwise the firing at the start leaves the socket as it is, and the gate open. -/
theorem closes_at_start_iff {config : Config} (hschedule : c.schedule = Schedule.ofConfig config)
    (htimer : c.timer.isSome = true) (hmode : config.timerOnly = false)
    (hestablished : c.socket.established = true) (hcwnd : 1 ≤ c.socket.cwnd) {phase : Nat}
    (hphase : phase + Nanos.millis 1 ≤ c.schedule.window.start) :
    let w := c.schedule.window
    let span := min config.startOffset maxHandoverOffset + min config.endOffset maxHandoverOffset
    let closing := c.fire w.start
    let reopening := closing.2.fire w.finish
    phase + c.nextDelay phase = w.start ∧
      (closing.2.socket.cwnd = 0 ↔ Nanos.millis 10 < span) ∧
      (Nanos.millis 10 < span →
        closing.1 = .rearm (w.finish - w.start) ∧
          closing.2.link.gate = .suspended c.socket.cwnd ∧
          reopening.2.link.gate = .opened ∧ reopening.2.socket.cwnd = c.socket.cwnd) ∧
      (span ≤ Nanos.millis 10 → closing.2.socket = c.socket ∧ closing.2.link.gate = .opened) := by
  intro w span closing reopening
  have husual : c.schedule.timerOnly = false := by
    rw [hschedule]
    exact hmode
  have hspan : w.span = span := by
    show c.schedule.window.span = _
    rw [hschedule]
    exact Window.span_ofOffsets _ _
  have hopen : c.link.isClosed = false := (Link.isClosed_eq_false_iff _).mpr hcwnd
  have hmargin : Nanos.millis 10 = jitter := rfl
  rw [hmargin, ← hspan]
  have hclosed : jitter < w.span → closing = (.rearm (w.finish - w.start),
      { c with link := c.link.suspend w.span }) :=
    fire_start_of_wide htimer husual hestablished
  have hkept : w.span ≤ jitter → closing.2 = { c with link := c.link.resume } :=
    fire_start_of_narrow htimer husual hestablished
  refine ⟨nextDelay_of_lt husual hphase, ⟨fun hzero => ?_, fun hwide => ?_⟩, fun hwide => ?_,
    fun hnarrow => ?_⟩
  · refine Nat.lt_of_not_le fun hnarrow => ?_
    rw [hkept hnarrow] at hzero
    exact absurd hzero (Nat.ne_of_gt c.link.cwnd_resume_pos)
  · rw [hclosed hwide]
    exact (Link.isClosed_iff _).mp (c.link.isClosed_suspend _)
  · have hreopened : reopening.2 = { c with link := (c.link.suspend w.span).resume } :=
      fire_finish_of_wide htimer husual hestablished hwide
    rw [hreopened, hclosed hwide]
    exact ⟨rfl, Link.gate_suspend hopen _, Link.gate_resume _, Link.cwnd_resume_suspend hopen _⟩
  · rw [hkept hnarrow]
    exact ⟨Link.socket_resume hopen, Link.gate_resume _⟩

/-- The usual offsets of 200 ms each: the connection of the example is closed at 11.8 s, and has its
window of 40 packets back 400 ms later. -/
theorem closes_at_start_iff_secondBefore :
    let c := ((Session.secondBefore {} {}).adopt .connection).connection
    let w := c.schedule.window
    let closing := c.fire w.start
    w.start = 11800000000 ∧ c.socket.cwnd = 40 ∧ closing.1 = .rearm (w.finish - w.start) ∧
      closing.2.socket.cwnd = 0 ∧ (closing.2.fire w.finish).2.socket.cwnd = c.socket.cwnd := by
  intro c w closing
  have hschedule : c.schedule = Schedule.ofConfig {} := rfl
  have hphase : 11000000000 + Nanos.millis 1 ≤ c.schedule.window.start := by decide
  have hfirings := closes_at_start_iff hschedule (by decide) rfl (by decide) (by decide) hphase
  have hwide := hfirings.2.2.1 (by decide)
  exact ⟨by decide, by decide, hwide.1, hfirings.2.1.mpr (by decide), hwide.2.2.2⟩

/-- With offsets of 5 ms each, the timer of a new session is armed for the start of the handover
window and fires there, and leaves the window of 40 packets open, also when the session runs up to
that instant. The check of an acknowledgment at the same instant would have closed it. -/
theorem stays_open_at_start_secondBefore :
    let config : Config := { startOffset := 5000000, endOffset := 5000000 }
    let s := Session.secondBefore config {}
    let c := (s.adopt .connection).connection
    let w := c.schedule.window
    let run := s.performAll [.adopt .connection, .run 995 false false]
    Session.create config { cwnd := some 40 } .full (.simulated 11000000000 0) true = .ok s ∧
      s.host.phase + c.nextDelay s.host.phase = w.start ∧
      (c.fire w.start).2.isSuspended = false ∧ (c.fire w.start).2.socket.cwnd = 40 ∧
      run.host.phase = w.start ∧ run.connection = (c.fire w.start).2 ∧
      (c.reconcile w.start).isSuspended = true := by
  intro config s c w run
  refine ⟨Session.create_secondBefore rfl {}, ?_⟩
  decide +kernel

end Connection

/-! ## Runs -/

namespace Timed

/-- What holds of a connection with a narrow handover window while no acknowledgments arrive: its
window is open, and its timer fires at a phase within the handover window or behind it. -/
structure Unnoticing (sch : Schedule) (first : Nat) (t : Timed) : Prop where
  serves : Serves sch t
  open_eq : t.connection.link.isClosed = false
  aims : ∀ due, t.due = some due → sch.window.start ≤ phaseAt first due

variable {sch : Schedule} {first : Nat} {t : Timed}

/-- A sleep that ends at the next edge ends at a phase within the handover window or behind it. -/
theorem start_le_phaseAt_nextEdge (w : Window) (first instant : Nat) :
    w.start ≤ phaseAt first (instant + w.nextEdge (phaseAt first instant)) := by
  have hphase : phaseAt first instant < period := Nat.mod_lt _ (by decide)
  have haims := w.start_le_nextEdge hphase
  unfold phaseAt at haims ⊢
  rwa [Nat.mod_add_mod, Nat.add_assoc] at haims

/-- Nothing but an acknowledgment closes the window if it is not wider than the jitter. -/
theorem Unnoticing.beat (h : Unnoticing sch first t) (hnarrow : sch.window.span ≤ jitter)
    {b : Beat} (hfits : b.Fits t) (hack : ∀ acked, b ≠ .ack acked) :
    Unnoticing sch first (t.beat first b) := by
  refine ⟨h.serves.beat hfits, ?_, ?_⟩
  · cases b with
    | wait d => exact h.open_eq
    | ack acked => exact absurd rfl (hack acked)
    | hear e => exact (h.serves.isClosed_hear hfits).trans h.open_eq
    | fire =>
        -- The phase of the firing is past the start, so the jitter reaches beyond the end.
        have haims := h.aims t.now hfits.1
        refine eq_false_of_ne_true fun hclosed => ?_
        have hedges := (h.serves.fired hfits.2 first).1.mp hclosed
        unfold Window.span at hnarrow
        omega
  · cases b with
    | wait d => exact h.aims
    | ack acked => exact absurd rfl (hack acked)
    | hear e => exact h.aims
    | fire =>
        intro due hdue
        have hnext := (h.serves.fired hfits.2 first).2
        obtain rfl := Option.some.inj (hnext.symm.trans hdue)
        exact start_le_phaseAt_nextEdge _ _ _

/-- Without acknowledgments, a connection with a narrow handover window never notices it. -/
theorem Unnoticing.beatAll (h : Unnoticing sch first t) (hnarrow : sch.window.span ≤ jitter)
    {beats : List Beat} (hfits : t.Fits first beats)
    (hacks : ∀ b ∈ beats, ∀ acked, b ≠ .ack acked) :
    Unnoticing sch first (t.beatAll first beats) := by
  induction beats generalizing t with
  | nil => exact h
  | cons b rest ih =>
      have hnext := h.beat hnarrow hfits.1 (hacks b List.mem_cons_self)
      exact ih hnext hfits.2 fun other hmem => hacks other (List.mem_cons_of_mem _ hmem)

/-- In the usual mode, a connection that adopts the algorithm with an open window outside of a
handover window of at most 10 ms keeps its window open for as long as no acknowledgment arrives,
whatever else it hears of, if its timer fires exactly at the end of its sleep. -/
theorem cwnd_pos_of_narrow {s : Session} (hcwnd : 1 ≤ s.connection.socket.cwnd)
    (hclamp : 1 ≤ s.connection.socket.clamp) (hmode : s.connection.schedule.timerOnly = false)
    (hnarrow : s.connection.schedule.window.span ≤ Nanos.millis 10)
    (hout : s.connection.schedule.window.contains s.host.phase = false)
    (harmed : (s.adopt .connection).connection.timer.isSome = true) {beats : List Beat}
    (hfits : (adopted s).Fits s.host.phase beats)
    (hacks : ∀ b ∈ beats, ∀ acked, b ≠ .ack acked) :
    1 ≤ ((adopted s).beatAll s.host.phase beats).connection.socket.cwnd := by
  obtain ⟨hserves, hclosed, hdue⟩ := serves_adopted hcwnd hclamp hmode harmed
  have hadopted : Unnoticing s.connection.schedule s.host.phase (adopted s) := by
    refine ⟨hserves, hclosed.trans hout, fun due hsome => ?_⟩
    obtain rfl := Option.some.inj (hdue.symm.trans hsome)
    have hphase : phaseAt s.host.phase 0 = s.host.phase := Nat.mod_eq_of_lt (Nat.mod_lt _ (by decide))
    have haims := start_le_phaseAt_nextEdge s.connection.schedule.window s.host.phase 0
    rwa [hphase, Nat.zero_add] at haims
  have hmargin : Nanos.millis 10 = jitter := by decide
  have hopen := (hadopted.beatAll (hmargin ▸ hnarrow) hfits hacks).open_eq
  exact (Link.isClosed_eq_false_iff _).mp hopen

end Timed

end LowOrbit
