import LowOrbit.Proofs.Stability
import LowOrbit.Proofs.Timed

/-!
# Windows close and open on time

In the usual mode the timer is armed for the next edge of the handover window, and acknowledgments
bring the window in line with the clock. Together they keep the window closed from two
milliseconds after the start of every handover window to its end, and open from two milliseconds
after the end to the next start, if timers fire less than a millisecond late
(`Timed.cwnd_of_phase`). The invariant, `Window.Awaits`, says which edge the timer waits for.
-/

namespace LowOrbit

open Handover (Schedule Window period minDelay jitter)

/-! ## Single operations -/

namespace Connection

variable {c : Connection}

/-- In the usual mode, bringing a connection in line with the clock leaves its window closed within
the handover window and open outside of it. -/
theorem isClosed_reconcile (htimer : c.timer.isSome = true)
    (hmode : c.schedule.timerOnly = false) (phase : Nat) :
    (c.reconcile phase).link.isClosed = c.schedule.window.contains phase := by
  rw [reconcile, if_pos htimer]
  exact Schedule.isClosed_reconcile hmode phase c.link

/-- In the usual mode, the handover window is what keeps acknowledgments from growing the window. -/
theorem inBlackout_eq (htimer : c.timer.isSome = true) (hmode : c.schedule.timerOnly = false)
    (phase : Nat) : c.inBlackout phase = c.schedule.window.contains phase := by
  simp [inBlackout, htimer, Schedule.inBlackout, hmode]

/-- In the usual mode, an acknowledgment that is looked at leaves the window closed within the
handover window and open outside of it. -/
theorem isClosed_ack (htimer : c.timer.isSome = true) (hmode : c.schedule.timerOnly = false)
    (hclamp : 0 < c.link.socket.clamp) (phase acked : Nat) :
    (c.ack phase acked).link.isClosed =
      if c.link.socket.cwndLimited then c.schedule.window.contains phase else c.link.isClosed := by
  rcases c.ack_cases phase acked with
    ⟨hlimited, heq⟩ | ⟨hlimited, -, heq⟩ | ⟨hlimited, hout, heq⟩ <;> rw [heq, hlimited]
  · rfl
  · exact isClosed_reconcile htimer hmode phase
  · rw [if_pos rfl, ← inBlackout_eq htimer hmode, hout]
    have hopen := isClosed_reconcile_of_not_inBlackout htimer hout
    exact isClosed_grow hopen (by rw [clamp_reconcile]; exact hclamp) acked

/-- In the usual mode, a firing of an established connection asks to be called again at the next
edge, and does with the window what the phase asks for. -/
theorem fire_eq (htimer : c.timer.isSome = true) (hmode : c.schedule.timerOnly = false)
    (hestablished : c.socket.established = true) (phase : Nat) :
    c.fire phase =
      (.rearm (c.schedule.window.nextEdge phase),
        { c with link := c.link.act c.schedule.window.span
                  (c.schedule.window.timerAction phase c.link.isClosed) }) := by
  rw [fire_of_established htimer hestablished]
  simp [Schedule.nextDelay, hmode, Schedule.expire, Schedule.timerAction]

/-- Adopting the algorithm with an open window closes it within the handover window only. -/
theorem isClosed_attach (hcwnd : 0 < c.link.socket.cwnd) (timer phase : Nat) :
    (c.adopt.attach timer phase).link.isClosed = c.schedule.window.contains phase := by
  obtain ⟨ssthresh, hadopted⟩ := c.adopt_frame
  have hopen : c.adopt.link.isClosed = false := by
    rw [Handover.Link.isClosed_eq_false_iff, hadopted]
    exact hcwnd
  show (c.adopt.link.act _ (c.schedule.adoptAction phase)).isClosed = _
  rw [Handover.Link.isClosed_act, Schedule.adoptAction]
  cases hin : c.schedule.window.contains phase with
  | true => rfl
  | false => exact hopen

end Connection

/-! ## Which edge the timer waits for -/

namespace Handover.Window

/-- The window is closed inside of the handover window and open outside of it. At the end of the
handover window it may be either. -/
structure Aligned (w : Window) (phase : Nat) (closed : Bool) : Prop where
  outside : phase < w.start ∨ w.finish < phase → closed = false
  inside : w.start ≤ phase → phase < w.finish → closed = true

/-- The edge that the timer waits for, `k` periods after the one of the adoption, and whether the
window is closed meanwhile. The present and the end of the timer's sleep count from the beginning
of the period of the adoption. -/
inductive Awaits (w : Window) (slack present due : Nat) (closed : Bool) : Prop where
  /-- The timer waits for the start of a handover window, before which the window is open. -/
  | start (k : Nat) (hlow : k * period + w.start ≤ due)
      (hhigh : due < k * period + w.start + minDelay) (hpresent : present < due + slack)
      (hpast : k * period + w.finish < present + period)
      (hopen : present < k * period + w.start → closed = false)
  /-- The timer waits for the end of a handover window, until which the window is closed. -/
  | finish (k : Nat) (hlow : k * period + w.finish ≤ due)
      (hhigh : due ≤ k * period + w.finish + minDelay) (hpresent : present < due + slack)
      (hpast : k * period + w.start ≤ present)
      (hclosed : present < k * period + w.finish → closed = true)

variable {w : Window} {slack present due : Nat} {closed : Bool}

/-- Before the window, the next edge is its start. -/
theorem nextEdge_of_lt {phase : Nat} (h : phase < w.start) :
    w.nextEdge phase = max (w.start - phase) minDelay := by
  simp [nextEdge, h]

/-- Within the window, the next edge is its end. -/
theorem nextEdge_of_mem {phase : Nat} (hstart : w.start ≤ phase) (hfinish : phase ≤ w.finish) :
    w.nextEdge phase = max (w.finish - phase) minDelay := by
  simp [nextEdge, Nat.not_lt.mpr hstart, hfinish]

/-- Behind the window, the next edge is the start of the next one. -/
theorem nextEdge_of_gt {phase : Nat} (hfinish : w.finish < phase) (hphase : phase < period) :
    w.nextEdge phase = w.start + period - phase := by
  have horder := w.start_le_finish
  have hedges := w.edges
  have hstart : ¬ phase < w.start := by omega
  simp only [nextEdge, hstart, if_false, Nat.not_le.mpr hfinish, period, minDelay] at *
  omega

/-- A timer that is armed while the window is aligned with the clock waits for the next edge. -/
theorem awaits_of_aligned (hslack : 0 < slack) (h : w.Aligned (present % period) closed) :
    w.Awaits slack present (present + w.nextEdge (present % period)) closed := by
  obtain ⟨hopen, hclosed⟩ := h
  have hsum : present / period * period + present % period = present :=
    Nat.div_add_mod' present period
  have hphase : present % period < period := Nat.mod_lt _ (by decide)
  have hedges := w.edges
  have horder := w.start_le_finish
  generalize present / period = k at hsum
  generalize present % period = phase at *
  -- The shortest delay may carry the timer past its edge, but less than a millisecond.
  rcases Nat.lt_or_ge phase w.start with hbefore | hstarted
  · rw [nextEdge_of_lt hbefore]
    refine .start k ?_ ?_ ?_ ?_ fun _ => hopen (.inl hbefore) <;>
      simp only [period, minDelay] at * <;> omega
  · rcases Nat.lt_or_ge w.finish phase with hafter | hwithin
    · rw [nextEdge_of_gt hafter hphase]
      refine .start (k + 1) ?_ ?_ ?_ ?_ fun _ => hopen (.inr hafter) <;>
        simp only [period, minDelay] at * <;> omega
    · rw [nextEdge_of_mem hstarted hwithin]
      refine .finish k ?_ ?_ ?_ ?_ fun hpresent => hclosed hstarted ?_ <;>
        simp only [period, minDelay] at * <;> omega

/-- A window that is closed exactly within the handover window is aligned with the clock. -/
theorem aligned_contains (w : Window) (phase : Nat) : w.Aligned phase (w.contains phase) where
  outside hout := (w.contains_eq_false_iff phase).mpr hout
  inside hstart hfinish := (w.contains_iff phase).mpr ⟨hstart, Nat.le_of_lt hfinish⟩

/-- As time passes, the timer goes on to wait for the same edge. -/
theorem Awaits.wait (h : w.Awaits slack present due closed) {later : Nat} (hle : present ≤ later)
    (hlater : later < due + slack) : w.Awaits slack later due closed := by
  cases h with
  | start k hlow hhigh hpresent hpast hopen =>
      exact .start k hlow hhigh hlater (by omega) fun hbefore => hopen (by omega)
  | finish k hlow hhigh hpresent hpast hclosed =>
      exact .finish k hlow hhigh hlater (by omega) fun hbefore => hclosed (by omega)

/-- While the timer waits for the start of a window, the phase is behind the last one or before
this one. -/
theorem phase_of_lt_start {k : Nat} (hpast : k * period + w.finish < present + period)
    (hpresent : present < k * period + w.start) :
    present % period < w.start ∨ w.finish < present % period := by
  have hedges := w.edges
  simp only [period] at *
  omega

/-- While the timer waits for the end of a window, the phase lies in it. -/
theorem phase_of_lt_finish {k : Nat} (hpast : k * period + w.start ≤ present)
    (hpresent : present < k * period + w.finish) :
    w.start ≤ present % period ∧ present % period < w.finish := by
  have hedges := w.edges
  simp only [period] at *
  omega

/-- Bringing the window in line with the clock leaves the timer waiting for the same edge. -/
theorem Awaits.reconcile (h : w.Awaits slack present due closed) :
    w.Awaits slack present due (w.contains (present % period)) := by
  cases h with
  | start k hlow hhigh hpresent hpast hopen =>
      refine .start k hlow hhigh hpresent hpast fun hbefore => ?_
      exact (w.contains_eq_false_iff _).mpr (phase_of_lt_start hpast hbefore)
  | finish k hlow hhigh hpresent hpast hclosed =>
      refine .finish k hlow hhigh hpresent hpast fun hbefore => ?_
      have hphase := phase_of_lt_finish hpast hbefore
      exact (w.contains_iff _).mpr ⟨hphase.1, Nat.le_of_lt hphase.2⟩

/-- A firing that is less than a millisecond late leaves the window aligned with the clock, if the
window is not too short for the jitter that a firing allows for. -/
theorem Awaits.aligned_of_fire (h : w.Awaits slack present due closed) (hdue : due ≤ present)
    (hslack : slack ≤ minDelay) (hwidth : w.start + jitter + 2 * minDelay ≤ w.finish)
    (l : Handover.Link) (span : Nat) :
    w.Aligned (present % period)
      (l.act span (w.timerAction (present % period) l.isClosed)).isClosed := by
  have hedges := w.edges
  rw [Handover.Link.isClosed_act]
  cases h with
  -- Two milliseconds behind the start, the jitter does not reach the end yet.
  | start k hlow hhigh hpresent hpast hopen =>
      have hphase : w.start ≤ present % period ∧ present % period < w.start + 2 * minDelay := by
        simp only [period, minDelay, jitter] at *
        omega
      have haction : w.timerAction (present % period) l.isClosed = .suspend := by
        rw [timerAction, if_neg (by omega), if_pos (by omega)]
      rw [haction]
      refine ⟨fun hout => ?_, fun _ _ => rfl⟩
      simp only [minDelay, jitter] at *
      omega
  -- At the end itself an acknowledgment may close the window again, so nothing is said there.
  | finish k hlow hhigh hpresent hpast hclosed =>
      have hphase : w.finish ≤ present % period := by
        simp only [period, minDelay, jitter] at *
        omega
      have haction : w.timerAction (present % period) l.isClosed = .resume := by
        rw [timerAction, if_pos (by omega)]
      rw [haction]
      exact ⟨fun _ => rfl, fun _ hin => absurd hphase (Nat.not_le.mpr hin)⟩

end Handover.Window

/-! ## Runs -/

namespace Timed

/-- Clock and timer work together in the schedule, and its window is wide enough for the jitter that
a firing allows for and for timers that fire less than `slack` late, which is at most a
millisecond. -/
structure Tolerates (sch : Schedule) (slack : Nat) : Prop where
  usual : sch.timerOnly = false
  slack_pos : 0 < slack
  slack_le : slack ≤ minDelay
  width : sch.window.start + jitter + 2 * minDelay ≤ sch.window.finish

/-- What holds of a connection in time if its schedule tolerates late timers. The phase was `first`
at the adoption, and a timer fires less than `slack` late. -/
structure Punctual (sch : Schedule) (first slack : Nat) (t : Timed) : Prop where
  schedule_eq : t.connection.schedule = sch
  timer_isSome : t.connection.timer.isSome = true
  clamp_pos : 0 < t.connection.link.socket.clamp
  awaits : ∃ due, t.due = some due ∧
    sch.window.Awaits slack (first + t.now) (first + due) t.connection.link.isClosed

variable {sch : Schedule} {first slack : Nat} {t t' : Timed}

/-- A connection with an open window is punctual right after it has adopted the algorithm. -/
theorem punctual_adopted {s : Session} (htolerates : Tolerates s.connection.schedule slack)
    (hcwnd : 0 < s.connection.socket.cwnd) (hclamp : 0 < s.connection.socket.clamp)
    (harmed : (s.adopt .connection).connection.timer.isSome = true) :
    Punctual s.connection.schedule s.host.phase slack (adopted s) := by
  have hphase : s.host.phase % period = s.host.phase := Nat.mod_eq_of_lt (Nat.mod_lt _ (by decide))
  have heq := Session.connection_adopt_of_armed harmed
  have hschedule : (s.adopt .connection).connection.schedule = s.connection.schedule := by
    rw [heq]
    rfl
  have hdelay : (s.adopt .connection).connection.nextDelay s.host.phase =
      s.connection.schedule.window.nextEdge s.host.phase := by
    simp [Connection.nextDelay, hschedule, Schedule.nextDelay, htolerates.usual]
  have hclosed := Connection.isClosed_attach hcwnd s.timers.nextId s.host.phase
  rw [← heq] at hclosed
  refine ⟨hschedule, harmed, ?_, _, rfl, ?_⟩
  · show 0 < (s.adopt .connection).connection.link.socket.clamp
    rw [heq, Connection.clamp_attach]
    exact hclamp
  · show Window.Awaits _ slack (s.host.phase + 0) _ (s.adopt .connection).connection.link.isClosed
    rw [hdelay, hclosed]
    have hawaits := Window.awaits_of_aligned htolerates.slack_pos
      (Window.aligned_contains s.connection.schedule.window (s.host.phase % period))
    rw [hphase] at hawaits
    exact hawaits

/-- Whatever happens to a punctual connection, it stays punctual. -/
theorem Punctual.step (h : Punctual sch first slack t) (htolerates : Tolerates sch slack)
    (hstep : Step first slack t t') : Punctual sch first slack t' := by
  obtain ⟨hschedule, htimer, hclamp, due, hdue, hawaits⟩ := h
  have hmode : t.connection.schedule.timerOnly = false := hschedule ▸ htolerates.usual
  cases hstep with
  | wait d hwait =>
      have hnow : t.now + d < due + slack := hwait due hdue
      refine ⟨hschedule, htimer, hclamp, due, hdue, hawaits.wait ?_ ?_⟩
      · exact Nat.add_le_add_left (Nat.le_add_right _ _) _
      · rw [Nat.add_assoc]
        exact Nat.add_lt_add_left hnow first
  | ack acked =>
      refine ⟨?_, ?_, ?_, due, hdue, ?_⟩
      · rw [Connection.schedule_ack]
        exact hschedule
      · rw [Connection.timer_ack]
        exact htimer
      · rw [Connection.clamp_ack]
        exact hclamp
      · rw [Connection.isClosed_ack htimer hmode hclamp, hschedule]
        split
        · exact hawaits.reconcile
        · exact hawaits
  | @hear c hhear =>
      obtain ⟨hcwnd, hsame, hsame', hclamp'⟩ := hhear.frame
      have hclosed : c.link.isClosed = t.connection.link.isClosed := by
        simp only [Handover.Link.isClosed, Socket.isClosed, hcwnd]
      exact ⟨hsame.trans hschedule, hsame' ▸ htimer, hclamp' hclamp, due, hdue, hclosed ▸ hawaits⟩
  | @fire due' hdue' hover hestablished =>
      -- The firing puts the window where the clock has it, and the timer waits for the next edge.
      have hsame : due' = due := Option.some.inj (hdue'.symm.trans hdue)
      rw [hsame] at hover
      have haligned := hawaits.aligned_of_fire (Nat.add_le_add_left hover first)
        htolerates.slack_le htolerates.width t.connection.link sch.window.span
      refine ⟨?_, ?_, ?_, t.now + sch.window.nextEdge (phaseAt first t.now), ?_, ?_⟩
      · rw [Connection.schedule_fire]
        exact hschedule
      · rw [Connection.timer_fire]
        exact htimer
      · rw [Connection.clamp_fire]
        exact hclamp
      · rw [Connection.fire_eq htimer hmode hestablished, hschedule]
        rfl
      · rw [Connection.fire_eq htimer hmode hestablished, hschedule,
          ← Nat.add_assoc]
        exact Window.awaits_of_aligned htolerates.slack_pos haligned

/-- A connection stays punctual for all time. -/
theorem Punctual.steps (h : Punctual sch first slack t) (htolerates : Tolerates sch slack)
    (hsteps : Steps first slack t t') : Punctual sch first slack t' := by
  induction hsteps with
  | refl => exact h
  | tail _ hstep ih => exact ih.step htolerates hstep

/-- The window of a punctual connection is closed from two milliseconds after the start of a
handover window to its end. -/
theorem Punctual.isClosed (h : Punctual sch first slack t) (hlate : slack ≤ minDelay)
    (hstart : sch.window.start + 2 * minDelay ≤ phaseAt first t.now)
    (hfinish : phaseAt first t.now < sch.window.finish) : t.connection.link.isClosed = true := by
  obtain ⟨due, -, hawaits⟩ := h.awaits
  have hedges := sch.window.edges
  unfold phaseAt at hstart hfinish
  cases hawaits with
  | start k hlow hhigh hpresent hpast hopen =>
      simp only [period, minDelay] at *
      omega
  | finish k hlow hhigh hpresent hpast hclosed =>
      refine hclosed ?_
      simp only [period, minDelay] at *
      omega

/-- The window of a punctual connection is open from two milliseconds after the end of a handover
window to the next start. -/
theorem Punctual.isOpen (h : Punctual sch first slack t) (hlate : slack ≤ minDelay)
    (hphase : sch.window.finish + 2 * minDelay ≤ phaseAt first t.now ∨
      phaseAt first t.now < sch.window.start) : t.connection.link.isClosed = false := by
  obtain ⟨due, -, hawaits⟩ := h.awaits
  have hedges := sch.window.edges
  unfold phaseAt at hphase
  cases hawaits with
  | start k hlow hhigh hpresent hpast hopen =>
      refine hopen ?_
      simp only [period, minDelay] at *
      omega
  | finish k hlow hhigh hpresent hpast hclosed =>
      simp only [period, minDelay] at *
      omega

/-- In the usual mode, with timers less than a millisecond late and a handover window of at least
twelve, a connection that adopts the algorithm with an open window has its window closed from two
milliseconds after the start of every handover window to its end, and open from two milliseconds
after the end to the next start, whenever acknowledgments arrive. -/
theorem cwnd_of_phase {s : Session} (hcwnd : 1 ≤ s.connection.socket.cwnd)
    (hclamp : 1 ≤ s.connection.socket.clamp)
    (hmode : s.connection.schedule.timerOnly = false)
    (hwidth : s.connection.schedule.window.start + Nanos.millis 12 ≤
      s.connection.schedule.window.finish)
    (harmed : (s.adopt .connection).connection.timer.isSome = true) {t : Timed}
    (hsteps : Steps s.host.phase (Nanos.millis 1) (adopted s) t) :
    let w := s.connection.schedule.window
    let phase := phaseAt s.host.phase t.now
    (w.start + Nanos.millis 2 ≤ phase → phase < w.finish → t.connection.socket.cwnd = 0) ∧
      (w.finish + Nanos.millis 2 ≤ phase ∨ phase < w.start → 1 ≤ t.connection.socket.cwnd) := by
  intro w phase
  have hunit : Nanos.millis 1 = minDelay ∧ Nanos.millis 2 = 2 * minDelay ∧
      Nanos.millis 12 = jitter + 2 * minDelay := by decide
  rw [hunit.1] at hsteps
  rw [hunit.2.2, ← Nat.add_assoc] at hwidth
  have htolerates : Tolerates s.connection.schedule minDelay :=
    ⟨hmode, by decide, Nat.le_refl _, hwidth⟩
  have ht := (punctual_adopted htolerates hcwnd hclamp harmed).steps htolerates hsteps
  rw [hunit.2.1]
  refine ⟨fun hstart hfinish => ?_, fun hphase => ?_⟩
  · exact (Handover.Link.isClosed_iff _).mp (ht.isClosed (Nat.le_refl _) hstart hfinish)
  · exact (Handover.Link.isClosed_eq_false_iff _).mp (ht.isOpen (Nat.le_refl _) hphase)

/-- The connection of the example in the middle of the handover, before its timer has fired. -/
def duringHandover : Timed := { adopted Session.atHandover with now := 100000000 }

/-- The connection of the example three milliseconds after the handover. Its timer has fired half
a millisecond late. -/
def afterHandover : Timed where
  now := 203000000
  due := some 14800000000
  connection := ((adopted Session.atHandover).connection.fire 12200500000).2

/-- The connection of the example is closed during the handover and open after it. -/
theorem cwnd_of_phase_atHandover :
    duringHandover.connection.socket.cwnd = 0 ∧ 1 ≤ afterHandover.connection.socket.cwnd := by
  have hdue : (adopted Session.atHandover).due = some 200000000 := by decide
  have hphase : Session.atHandover.host.phase = 12000000000 := by decide
  have hwait : ∀ d, d < 201000000 → ∀ due, (adopted Session.atHandover).due = some due →
      (adopted Session.atHandover).now + d < due + Nanos.millis 1 := by
    intro d hd due hdue'
    have hsame : due = 200000000 := Option.some.inj (hdue'.symm.trans hdue)
    simp only [hsame, Nanos.millis, adopted]
    omega
  have hduring : Steps 12000000000 (Nanos.millis 1) (adopted Session.atHandover) duringHandover :=
    .single (.wait 100000000 (hwait _ (by decide)))
  have hafter : Steps 12000000000 (Nanos.millis 1) (adopted Session.atHandover) afterHandover := by
    have hlate : Steps 12000000000 (Nanos.millis 1) (adopted Session.atHandover)
        { adopted Session.atHandover with now := 200500000 } :=
      .single (.wait 200500000 (hwait _ (by decide)))
    refine (hlate.tail (.fire hdue (by decide) (by decide))).tail ?_
    refine .wait 2500000 fun due hdue' => ?_
    have hsame : due = 14800000000 := Option.some.inj (hdue'.symm.trans (by decide))
    rw [hsame]
    decide
  have hduring' := cwnd_of_phase (s := Session.atHandover) (by decide) (by decide) (by decide)
    (by decide) (by decide) (hphase ▸ hduring)
  have hafter' := cwnd_of_phase (s := Session.atHandover) (by decide) (by decide) (by decide)
    (by decide) (by decide) (hphase ▸ hafter)
  rw [hphase] at hduring' hafter'
  exact ⟨hduring'.1 (by decide) (by decide), hafter'.2 (.inl (by decide))⟩

end Timed

end LowOrbit
