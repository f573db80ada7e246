import LowOrbit.Proofs.Punctuality

/-!
# Firings and acknowledgments side by side

In the usual mode the timer and the acknowledgments both bring the window in line with the clock,
each by a rule of its own. `Connection.fire_and_reconcile` says at which phases either of them
leaves the window closed, and that the two leave the same connection behind unless the phase lies
within the jitter ahead of an edge, or the window and the gate disagreed before.

A host may write the window behind the gate's back. `Connection.reconcile_repairs_iff` says when
window and gate agree after an acknowledgment. It looks at the window only, so a disagreement
between the two outlives it whenever the window happens to be what the clock asks for.
-/

namespace LowOrbit

open Handover (Link Schedule Window jitter)

/-! ## Links -/

namespace Handover

/-- The gate is suspended exactly while the window is closed. -/
def Link.Coherent (l : Link) : Prop := l.gate.isSuspended = true ↔ l.socket.cwnd = 0

variable {l : Link}

/-- Suspending a closed window does nothing. -/
theorem Link.suspend_of_isClosed (h : l.isClosed = true) (extend : Nat) : l.suspend extend = l :=
  if_pos h

/-- Resuming does nothing if gate and window are open. -/
theorem Link.resume_of_opened (hgate : l.gate = .opened) (hopen : l.isClosed = false) :
    l.resume = l := by
  obtain ⟨gate, socket⟩ := l
  subst hgate
  show (if Link.isClosed _ then _ else _) = _
  rw [hopen]
  rfl

/-- An open gate in front of an open window is in order. -/
theorem Link.coherent_of_opened (hgate : l.gate = .opened) (hopen : 0 < l.socket.cwnd) :
    l.Coherent := by
  refine ⟨fun hsuspended => ?_, fun hclosed => absurd hclosed (Nat.ne_of_gt hopen)⟩
  rw [hgate] at hsuspended
  cases hsuspended

/-- In front of an open window, a gate that is in order is open. -/
theorem Link.Coherent.gate_eq (h : l.Coherent) (hopen : l.isClosed = false) : l.gate = .opened := by
  cases hgate : l.gate with
  | opened => rfl
  | suspended saved =>
      have hclosed : l.socket.cwnd = 0 := h.mp (by rw [hgate]; rfl)
      rw [(l.isClosed_iff).mpr hclosed] at hopen
      cases hopen

/-- If the gate is in order, the window in force is that of the socket, and the saved one while
that is closed. -/
theorem Link.Coherent.effectiveCwnd_eq (h : l.Coherent) :
    l.effectiveCwnd = if l.socket.cwnd = 0 then l.gate.saved else l.socket.cwnd := by
  unfold effectiveCwnd
  split
  · rename_i saved hgate
    rw [if_pos (h.mp (by rw [hgate]; rfl)), hgate]
    rfl
  · rename_i hgate
    rw [if_neg fun hclosed => ?_]
    have hsuspended := h.mpr hclosed
    rw [hgate] at hsuspended
    cases hsuspended

/-- If the gate is not in order, what counts for the window in force is what it has saved. -/
theorem Link.effectiveCwnd_of_not_coherent (h : ¬ l.Coherent) :
    l.effectiveCwnd = l.gate.saved := by
  cases hgate : l.gate with
  | suspended saved => simp only [effectiveCwnd, hgate, Gate.saved]
  | opened =>
      simp only [effectiveCwnd, hgate, Gate.saved]
      refine Nat.eq_zero_of_not_pos fun hopen => h (coherent_of_opened hgate hopen)

/-- Closing an open window puts the gate in order. -/
theorem Link.coherent_suspend (hopen : l.isClosed = false) (extend : Nat) :
    (l.suspend extend).Coherent := by
  rw [suspend, hopen]
  exact ⟨fun _ => rfl, fun _ => rfl⟩

/-- Opening the gate puts it in order. -/
theorem Link.coherent_resume (l : Link) : l.resume.Coherent :=
  coherent_of_opened l.gate_resume l.cwnd_resume_pos

namespace Window

/-- An acknowledgment acts on the gate if the window is not what the clock asks for, and only
then. -/
theorem ackAction_eq (w : Window) (phase : Nat) (closed : Bool) :
    w.ackAction phase closed =
      if w.contains phase = closed then .keep else if closed then .resume else .suspend := by
  unfold ackAction
  cases w.contains phase <;> cases closed <;> rfl

/-- A firing leaves the window closed between the edges, both moved ahead by the jitter. -/
theorem isClosed_act_timerAction (w : Window) (phase span : Nat) (l : Link) :
    (l.act span (w.timerAction phase l.isClosed)).isClosed = true ↔
      w.start ≤ phase + jitter ∧ phase + jitter < w.finish := by
  rw [Link.isClosed_act]
  unfold timerAction
  by_cases hfinish : w.finish ≤ phase + jitter
  · simp only [if_pos hfinish, Bool.false_eq_true, false_iff]
    omega
  · by_cases hstart : w.start ≤ phase + jitter
    · simp only [if_neg hfinish, if_pos hstart, true_iff]
      omega
    · rw [if_neg hfinish, if_neg hstart]
      -- Ahead of the window a closed window is opened and an open one is kept.
      cases l.isClosed <;> simp [hstart]

/-- Outside of the jitter ahead of the edges, a firing and an acknowledgment do the same to a link
whose gate is in order. -/
theorem act_timerAction_eq_act_ackAction {w : Window} {phase : Nat} (h : l.Coherent)
    (hstart : phase + jitter < w.start ∨ w.start ≤ phase)
    (hfinish : phase + jitter < w.finish ∨ w.finish < phase) (span : Nat) :
    l.act span (w.timerAction phase l.isClosed) = l.act span (w.ackAction phase l.isClosed) := by
  have horder := w.start_le_finish
  rw [ackAction_eq, timerAction]
  rcases hstart with hbefore | hstarted
  · have hout : w.contains phase = false := (w.contains_eq_false_iff phase).mpr (by omega)
    rw [hout, if_neg (by omega), if_neg (by omega)]
    cases l.isClosed <;> rfl
  rcases hfinish with hwithin | hafter
  · have hin : w.contains phase = true := (w.contains_iff phase).mpr (by omega)
    rw [hin, if_neg (by omega), if_pos (by omega)]
    cases hclosed : l.isClosed with
    | true => exact l.suspend_of_isClosed hclosed span
    | false => rfl
  · have hout : w.contains phase = false := (w.contains_eq_false_iff phase).mpr (by omega)
    rw [hout, if_pos (by omega)]
    cases hclosed : l.isClosed with
    | true => rfl
    | false => exact l.resume_of_opened (h.gate_eq hclosed) hclosed

end Window

namespace Schedule

variable {sch : Schedule} {phase : Nat}

/-- In the usual mode, an acknowledgment does to a link what the window asks for. -/
theorem reconcile_of_usual (hmode : sch.timerOnly = false) (phase : Nat) (l : Link) :
    sch.reconcile phase l = l.act sch.window.span (sch.window.ackAction phase l.isClosed) := by
  rw [reconcile, ackAction, hmode]
  rfl

/-- An acknowledgment that finds the window as the clock asks for it does nothing. -/
theorem reconcile_of_contains_eq (hmode : sch.timerOnly = false)
    (hsame : sch.window.contains phase = l.isClosed) : sch.reconcile phase l = l := by
  rw [reconcile_of_usual hmode, Window.ackAction_eq, if_pos hsame]
  rfl

/-- After an acknowledgment in the usual mode the gate is in order if it was before, or if the
window was not what the clock asks for. -/
theorem coherent_reconcile_iff (hmode : sch.timerOnly = false) (phase : Nat) (l : Link) :
    (sch.reconcile phase l).Coherent ↔ l.Coherent ∨ sch.window.contains phase ≠ l.isClosed := by
  by_cases hsame : sch.window.contains phase = l.isClosed
  · rw [reconcile_of_contains_eq hmode hsame]
    exact ⟨fun h => .inl h, fun h => h.elim id fun hne => absurd hsame hne⟩
  · rw [reconcile_of_usual hmode, Window.ackAction_eq, if_neg hsame]
    refine ⟨fun _ => .inr hsame, fun _ => ?_⟩
    cases hclosed : l.isClosed with
    | true => exact l.coherent_resume
    | false => exact l.coherent_suspend hclosed _

end Schedule

end Handover

/-! ## Connections -/

namespace Connection

variable {c : Connection}

/-- In the usual mode, an acknowledgment that is looked at does with the window what the phase asks
for. -/
theorem reconcile_eq (htimer : c.timer.isSome = true) (hmode : c.schedule.timerOnly = false)
    (phase : Nat) :
    c.reconcile phase = { c with
      link := c.link.act c.schedule.window.span
        (c.schedule.window.ackAction phase c.link.isClosed) } := by
  rw [reconcile, if_pos htimer, Schedule.reconcile_of_usual hmode]

/-- Take an established connection in the usual mode, with any window, any gate and any handover
window, at any phase. A firing leaves its window closed from 10 ms ahead of the start of the handover
window up to 10 ms ahead of its end. The check of an acknowledgment leaves it closed from the start
to the end, the end included, and reports a handover exactly then. If window and gate agreed before,
the two leave the same connection behind, except in the 10 ms ahead of the start, and from 10 ms
ahead of the end to the end itself. -/
theorem fire_and_reconcile (htimer : c.timer.isSome = true)
    (hmode : c.schedule.timerOnly = false) (hestablished : c.socket.established = true)
    (phase : Nat) :
    let w := c.schedule.window
    let fired := (c.fire phase).2
    let checked := c.reconcile phase
    (fired.socket.cwnd = 0 ↔
        w.start - Nanos.millis 10 ≤ phase ∧ phase < w.finish - Nanos.millis 10) ∧
      (checked.socket.cwnd = 0 ↔ w.start ≤ phase ∧ phase ≤ w.finish) ∧
      (c.inBlackout phase = true ↔ w.start ≤ phase ∧ phase ≤ w.finish) ∧
      (¬ (w.start - Nanos.millis 10 ≤ phase ∧ phase < w.start) →
        ¬ (w.finish - Nanos.millis 10 ≤ phase ∧ phase ≤ w.finish) →
        (c.socket.cwnd = 0 ↔ c.isSuspended = true) → fired = checked) := by
  intro w fired checked
  have hedges := w.edges
  have hjitter : Nanos.millis 10 = jitter := rfl
  have hlate : jitter = 10000000 := rfl
  have hfired : fired = { c with
      link := c.link.act w.span (w.timerAction phase c.link.isClosed) } :=
    congrArg Prod.snd (fire_eq htimer hmode hestablished phase)
  have hchecked : checked = { c with
      link := c.link.act w.span (w.ackAction phase c.link.isClosed) } :=
    reconcile_eq htimer hmode phase
  rw [hjitter]
  refine ⟨?_, ?_, ?_, fun hstart hfinish hcoherent => ?_⟩
  · have hclosed := w.isClosed_act_timerAction phase w.span c.link
    rw [Link.isClosed_iff] at hclosed
    rw [hfired]
    refine hclosed.trans ?_
    omega
  · have hclosed : checked.link.isClosed = w.contains phase :=
      isClosed_reconcile htimer hmode phase
    exact (Link.isClosed_iff _).symm.trans (hclosed ▸ w.contains_iff phase)
  · rw [inBlackout_eq htimer hmode]
    exact w.contains_iff phase
  · rw [hfired, hchecked, Window.act_timerAction_eq_act_ackAction hcoherent.symm] <;> omega

/-- Half a second after the handover, a firing and an acknowledgment open the suspended connection
of the example in the same way. -/
theorem fire_and_reconcile_atHandover :
    let c := (Session.atHandover.adopt .connection).connection
    c.isSuspended = true ∧ (c.fire 12500000000).2 = c.reconcile 12500000000 ∧
      (c.reconcile 12500000000).socket.cwnd ≠ 0 := by
  intro c
  have hboth := fire_and_reconcile (c := c) (by decide) (by decide) (by decide) 12500000000
  refine ⟨by decide, hboth.2.2.2 (by decide) (by decide) (by decide), ?_⟩
  rw [Ne, hboth.2.1]
  decide

/-- If the gate is in order, a closed window stays closed when a loss is undone, and an open one is
restored. -/
theorem undoCwnd_of_coherent (h : c.link.Coherent) :
    c.undoCwnd = if c.socket.cwnd = 0 then 0 else c.socket.undoWindow := by
  have hagree : c.isSuspended = true ↔ c.socket.cwnd = 0 := h
  unfold undoCwnd
  by_cases hclosed : c.socket.cwnd = 0
  · rw [if_pos (hagree.mpr hclosed), if_pos hclosed]
    exact hclosed
  · rw [if_neg (mt hagree.mp hclosed), if_neg hclosed]
    rfl

/-- In the usual mode, with any handover window, at any phase, with any window and any gate: after
the check of an acknowledgment the gate is suspended exactly while the window is closed, except in
two cases. Within the handover window, a window that was closed while the gate was open stays so;
outside of it, a gate that was suspended in front of an open window stays suspended. Where the two
agree, what a loss and its undoing refer to is the window in force. In the two cases the check
changes nothing, and a loss refers to what the gate has saved, whatever the window is. -/
theorem reconcile_repairs_iff (htimer : c.timer.isSome = true)
    (hmode : c.schedule.timerOnly = false) (phase : Nat) :
    let w := c.schedule.window
    let checked := c.reconcile phase
    ((checked.isSuspended = true ↔ checked.socket.cwnd = 0) ↔
        ¬ (w.start ≤ phase ∧ phase ≤ w.finish ∧ c.socket.cwnd = 0 ∧ c.isSuspended = false) ∧
          ¬ (¬ (w.start ≤ phase ∧ phase ≤ w.finish) ∧ c.socket.cwnd ≠ 0 ∧
            c.isSuspended = true)) ∧
      ((checked.isSuspended = true ↔ checked.socket.cwnd = 0) →
        checked.lossThreshold = checked.engine.lossThreshold
            (if checked.socket.cwnd = 0 then checked.link.gate.saved else checked.socket.cwnd) ∧
          checked.undoCwnd =
            if checked.socket.cwnd = 0 then 0 else checked.socket.undoWindow) ∧
      (¬ (checked.isSuspended = true ↔ checked.socket.cwnd = 0) →
        checked = c ∧ checked.lossThreshold = checked.engine.lossThreshold c.link.gate.saved) := by
  intro w checked
  have hlink : checked.link = c.schedule.reconcile phase c.link := by
    show (c.reconcile phase).link = _
    rw [reconcile, if_pos htimer]
  have hcoherent := Schedule.coherent_reconcile_iff hmode phase c.link
  rw [← hlink] at hcoherent
  refine ⟨hcoherent.trans ?_, fun hagree => ⟨?_, undoCwnd_of_coherent hagree⟩, fun hdisagree => ?_⟩
  · have hclosed := c.link.isClosed_iff
    have hin := w.contains_iff phase
    show _ ↔ ¬ (_ ∧ _ ∧ c.link.socket.cwnd = 0 ∧ c.link.gate.isSuspended = false) ∧
      ¬ (_ ∧ ¬ c.link.socket.cwnd = 0 ∧ c.link.gate.isSuspended = true)
    rw [← and_assoc, ← hin, Link.Coherent, ← hclosed]
    show _ ∨ w.contains phase ≠ c.link.isClosed ↔ _
    cases w.contains phase <;> cases c.link.isClosed <;> cases c.link.gate.isSuspended <;> decide
  · exact congrArg checked.engine.lossThreshold (Link.Coherent.effectiveCwnd_eq hagree)
  · obtain ⟨hbefore, hsame⟩ := not_or.mp (mt hcoherent.mpr hdisagree)
    have hkept : checked = c := by
      show c.reconcile phase = c
      rw [reconcile, if_pos htimer,
        Schedule.reconcile_of_contains_eq hmode (Decidable.not_not.mp hsame)]
    refine ⟨hkept, ?_⟩
    rw [hkept]
    exact congrArg c.engine.lossThreshold (Link.effectiveCwnd_of_not_coherent hbefore)

/-- The host of the example writes a window of 20 packets while it is suspended with 40. The next
acknowledgment still finds the handover under way, and closes the window again with its gate. -/
theorem reconcile_repairs_iff_atHandover :
    let c := ((Session.atHandover.adopt .connection).performAll
      [.edit { cwnd := some 20 }]).connection
    let checked := c.reconcile 12100000000
    ¬ c.link.Coherent ∧ checked.socket.cwnd = 0 ∧ checked.isSuspended = true := by
  intro c checked
  have hrepaired := reconcile_repairs_iff (c := c) (by decide) (by decide) 12100000000
  have hclosed : checked.socket.cwnd = 0 := by decide
  have hagree : checked.isSuspended = true ↔ checked.socket.cwnd = 0 :=
    hrepaired.1.mpr ⟨by decide, by decide⟩
  exact ⟨fun h => absurd (h.mp (by decide)) (by decide), hclosed, hagree.mpr hclosed⟩

/-- Two disagreements that an acknowledgment leaves as they are. In the first, the host writes a
window of 20 packets while the connection is suspended with 40, and holds the connection until after
the handover window: the gate stays suspended in front of the open window, and a loss cuts the 40
packets to 28, where it would cut the 20 to 14. In the second, the host closes the window before the
handover: within the handover window the gate stays open, and undoing a loss yields 50 packets to
send at once. -/
theorem reconcile_leaves_secondBefore :
    let late := (Session.secondBefore {} {}).performAll
      [.adopt .connection, .run 1000 false false, .edit { cwnd := some 20 }, .run 300 true false]
    let opened := late.connection.reconcile late.host.phase
    let within := (Session.secondBefore {} { priorCwnd := some 50 }).performAll
      [.adopt .connection, .edit { cwnd := some 0 }, .run 1000 false false]
    let shut := within.connection.reconcile within.host.phase
    (late.host.phase = 12300000000 ∧ opened.isSuspended = true ∧ opened.socket.cwnd = 20 ∧
        opened.lossThreshold = 28 ∧ opened.engine.lossThreshold 20 = 14) ∧
      within.host.phase = Handover.instant ∧ shut.isSuspended = false ∧ shut.socket.cwnd = 0 ∧
        shut.undoCwnd = 50 := by
  decide +kernel

end Connection

end LowOrbit
