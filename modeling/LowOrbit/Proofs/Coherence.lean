import LowOrbit.Proofs.Suspension

/-!
# The gate and the window agree

The gate and the congestion window are two pieces of state, written by acknowledgments, by the
timer, by losses and by losses that did not happen. On a connection with handover awareness they
never drift apart: the window is closed exactly while the gate is suspended. One half of this is
`Connection.Frozen`, the other half is `Connection.Serving`, and the main theorem is
`Session.closed_iff_suspended`.
-/

namespace LowOrbit

open Handover (Action Link Schedule)
open Socket (Edit Features)

/-! ## Links -/

namespace Handover.Link

/-- While the gate is open, so is the window. -/
def Serving (l : Link) : Prop := l.gate.isSuspended = false → 0 < l.socket.cwnd

variable {l : Link}

/-- An open window is enough. -/
theorem serving_of_cwnd_pos (h : 0 < l.socket.cwnd) : l.Serving := fun _ => h

/-- A write that leaves the window as it is leaves a serving link serving. -/
theorem Serving.setSocket (h : l.Serving) {s : Socket} (hcwnd : s.cwnd = l.socket.cwnd) :
    Serving { l with socket := s } := by
  intro hopen
  show 0 < s.cwnd
  rw [hcwnd]
  exact h hopen

/-- What the gate does leaves a serving link serving. -/
theorem Serving.act (h : l.Serving) (span : Nat) (a : Action) : (l.act span a).Serving := by
  cases a with
  | suspend =>
      show (l.suspend span).Serving
      unfold Link.suspend
      split
      · exact h
      · intro hopen
        cases hopen
  | resume => exact serving_of_cwnd_pos l.cwnd_resume_pos
  | keep => exact h

/-- Raising the saved window leaves a serving link serving. -/
theorem Serving.raiseSaved (h : l.Serving) (cwnd : Nat) : (l.raiseSaved cwnd).Serving := by
  intro hopen
  rw [isSuspended_raiseSaved] at hopen
  rw [socket_raiseSaved]
  exact h hopen

end Handover.Link

/-! ## Connections -/

namespace Connection

/-- The connection has handover awareness and a clamp that lets its window open, and while its
gate is open, so is its window. -/
structure Serving (c : Connection) : Prop where
  link : c.link.Serving
  clamp_pos : 0 < c.link.socket.clamp
  timer_isSome : c.timer.isSome = true

variable {c : Connection}

/-- A write that leaves the window as it is and the clamp positive leaves a serving connection
serving. -/
theorem Serving.mapSocket (h : c.Serving) {f : Socket → Socket}
    (hcwnd : (f c.link.socket).cwnd = c.link.socket.cwnd) (hclamp : 0 < (f c.link.socket).clamp) :
    (c.mapSocket f).Serving :=
  ⟨h.link.setSocket hcwnd, hclamp, h.timer_isSome⟩

/-- Bringing the gate in line with the clock leaves a serving connection serving. -/
theorem Serving.reconcile (h : c.Serving) (phase : Nat) : (c.reconcile phase).Serving where
  link := by
    unfold Connection.reconcile
    split
    · exact h.link.act _ _
    · exact h.link
  clamp_pos := by
    rw [clamp_reconcile]
    exact h.clamp_pos
  timer_isSome := by
    rw [timer_reconcile]
    exact h.timer_isSome

/-- Growing an open window leaves a serving connection serving. -/
theorem Serving.grow (h : c.Serving) (hopen : 0 < c.link.socket.cwnd) (acked : Nat) :
    (c.grow acked).Serving where
  link := Link.serving_of_cwnd_pos (Engine.cwnd_grow_pos hopen h.clamp_pos c.engine acked)
  clamp_pos := by
    obtain ⟨cwnd, credit, hframe⟩ := c.engine.grow_frame c.link.socket acked
    show 0 < (c.engine.grow c.link.socket acked).2.clamp
    rw [hframe]
    exact h.clamp_pos
  timer_isSome := h.timer_isSome

/-- An acknowledgment leaves a serving connection serving: it grows open windows only. -/
theorem Serving.ack (h : c.Serving) (phase acked : Nat) : (c.ack phase acked).Serving := by
  have hreconciled := h.reconcile phase
  rcases c.ack_cases phase acked with ⟨-, heq⟩ | ⟨-, -, heq⟩ | ⟨-, hout, heq⟩ <;> rw [heq]
  · exact h
  · exact hreconciled
  · have hopen := isClosed_reconcile_of_not_inBlackout h.timer_isSome hout
    exact hreconciled.grow ((Link.isClosed_eq_false_iff _).mp hopen) acked

/-- A firing leaves a serving connection serving. -/
theorem Serving.fire (h : c.Serving) (phase : Nat) : (c.fire phase).2.Serving where
  link := by
    simp only [Connection.fire, Schedule.fire]
    split
    · split
      · exact h.link.act _ _
      · exact h.link
    · exact h.link
  clamp_pos := by
    rw [clamp_fire]
    exact h.clamp_pos
  timer_isSome := by
    rw [timer_fire]
    exact h.timer_isSome

/-- Carrying out the answer to a loss leaves a serving connection serving: only an open window
shrinks, and not to zero. -/
theorem Serving.shrink (h : c.Serving) (features : Features) :
    (c.reduce.mapSocket fun s => features.present (Session.shrink c.lossThreshold s)).Serving := by
  have hclamp := features.clamp_present_pos
    (s := Session.shrink c.lossThreshold c.link.socket) h.clamp_pos
  refine ⟨fun hgate => ?_, hclamp, h.timer_isSome⟩
  -- The gate is open, so the window becomes the threshold, which is never below two.
  have hopen : ¬ c.link.socket.cwnd = 0 := Nat.ne_of_gt (h.link hgate)
  have hshrunk : (Session.shrink c.lossThreshold c.link.socket).cwnd = c.lossThreshold :=
    if_neg hopen
  show 0 < (features.present (Session.shrink c.lossThreshold c.link.socket)).cwnd
  rw [Features.cwnd_present, hshrunk]
  exact Nat.lt_of_lt_of_le (by decide) (c.engine.minThreshold_le_lossThreshold _)

/-- A loss that did not happen leaves a serving connection serving. -/
theorem Serving.undo (h : c.Serving) : c.undo.Serving where
  link := h.link.raiseSaved _
  clamp_pos := by
    show 0 < (c.link.raiseSaved _).socket.clamp
    rw [Link.socket_raiseSaved]
    exact h.clamp_pos
  timer_isSome := h.timer_isSome

/-- Carrying out the answer to a loss that did not happen leaves a serving connection serving: an
open window does not shrink. -/
theorem Serving.restore (h : c.Serving) (features : Features) :
    (c.undo.mapSocket fun s => features.present { s with cwnd := c.undoCwnd }).Serving := by
  refine ⟨fun hgate => ?_, features.clamp_present_pos h.undo.clamp_pos, h.timer_isSome⟩
  have hsame : c.isSuspended = false := (c.link.isSuspended_raiseSaved _).symm.trans hgate
  have hopen : 0 < c.link.socket.cwnd := h.link hsame
  show 0 < (features.present { c.undo.link.socket with cwnd := c.undoCwnd }).cwnd
  rw [Features.cwnd_present]
  simp only [undoCwnd, hsame, Socket.undoWindow, Bool.false_eq_true, if_false]
  omega

/-- Being serving is stable: whatever a host reports to a connection with handover awareness, its
window is open while its gate is. -/
theorem stable_serving : Stable Edit.SparesWindow Serving where
  ack _ phase acked h := h.ack phase acked
  sample c x h := by
    obtain ⟨ssthresh, hframe⟩ := c.engine.sample_frame c.link.socket x
    refine ⟨h.link.setSocket ?_, ?_, h.timer_isSome⟩
    · show (c.engine.sample c.link.socket x).2.cwnd = c.link.socket.cwnd
      rw [hframe]
    · show 0 < (c.engine.sample c.link.socket x).2.clamp
      rw [hframe]
      exact h.clamp_pos
  reduce _ h := ⟨h.link, h.clamp_pos, h.timer_isSome⟩
  undo _ h := h.undo
  changeState _ _ h := ⟨h.link, h.clamp_pos, h.timer_isSome⟩
  windowEvent _ _ h := ⟨h.link, h.clamp_pos, h.timer_isSome⟩
  fire _ phase h := h.fire phase
  shrink _ features h := h.shrink features
  restore _ features h := h.restore features
  advance _ features _ h :=
    h.mapSocket (features.cwnd_present _) (features.clamp_present_pos h.clamp_pos)
  edit _ features _ he h :=
    h.mapSocket ((features.cwnd_present _).trans (Socket.cwnd_edit he.1 _))
      (features.clamp_present_pos (Socket.clamp_edit_pos he.2 h.clamp_pos))

/-- Adopting the algorithm with handover awareness makes a connection with an open window a
serving one. -/
theorem serving_attach (hcwnd : 0 < c.link.socket.cwnd) (hclamp : 0 < c.link.socket.clamp)
    (timer phase : Nat) : (c.adopt.attach timer phase).Serving := by
  obtain ⟨ssthresh, hadopted⟩ := c.adopt_frame
  have hcwnd' : 0 < c.adopt.link.socket.cwnd := by
    rw [hadopted]
    exact hcwnd
  refine ⟨(Link.serving_of_cwnd_pos hcwnd').act _ _, ?_, rfl⟩
  rw [clamp_attach]
  exact hclamp

end Connection

/-! ## Histories -/

namespace Session

/-- From an adoption that brings handover awareness on, the window is closed exactly while the
gate is suspended, and a suspended gate holds an open window. This is so after every history of
reports, firings and clock operations, as long as the host writes its window by carrying out
answers only and its clamp is not zero. -/
theorem closed_iff_suspended {config : Config} {socket : Edit} {features : Features}
    {source : TimeSource} {tickerAvailable : Bool} {s : Session}
    (hcreate : create config socket features source tickerAvailable = .ok s)
    (before after : List Operation) (hbefore : ∀ op ∈ before, op.AdoptsItself)
    (hcwnd : 0 < (s.performAll before).connection.socket.cwnd)
    (hclamp : 0 < (s.performAll before).connection.socket.clamp)
    (harmed : ((s.performAll before).adopt .connection).connection.timer.isSome = true)
    (hafter : ∀ op ∈ after, op.Reports Edit.SparesWindow) :
    let c := (((s.performAll before).adopt .connection).performAll after).connection
    (c.socket.cwnd = 0 ↔ c.isSuspended = true) ∧
      ∀ saved, c.link.gate = .suspended saved → 1 ≤ saved := by
  intro c
  have hown := ownTimers_adopt (ownTimers_performAll (ownTimers_create hcreate) hbefore)
  obtain ⟨hserving₀, hfrozen₀⟩ :
      ((s.performAll before).adopt .connection).connection.Serving ∧
        ((s.performAll before).adopt .connection).connection.Frozen := by
    rcases (s.performAll before).adopt_cases .connection with ⟨heq, -⟩ | ⟨heq, -⟩ <;>
      rw [heq] at harmed ⊢
    · cases harmed
    · exact ⟨Connection.serving_attach hcwnd hclamp _ _,
        Connection.lasting_frozen.attach _ _ _ (Connection.frozen_of_not_suspended rfl)⟩
  have hserving : c.Serving :=
    performAll_of_stable Connection.stable_serving hserving₀ hown hafter
  -- The other half allows more edits, since it does not depend on the clamp.
  have hspares : ∀ op ∈ after, op.Reports fun e => e.cwnd = none := fun op hmem =>
    (hafter op hmem).imp fun _ he => he.1
  have hfrozen : c.Frozen :=
    performAll_of_stable Connection.lasting_frozen.toStable hfrozen₀ hown hspares
  refine ⟨⟨fun hclosed => ?_, fun hsuspended => (hfrozen.link hsuspended).1⟩, fun saved hgate => ?_⟩
  · refine eq_true_of_ne_false fun hgate => ?_
    have hopen : 0 < c.socket.cwnd := hserving.link hgate
    rw [hclosed] at hopen
    cases hopen
  · have hsaved := (hfrozen.link (by rw [hgate]; rfl)).2
    rw [hgate] at hsaved
    exact hsaved

/-- The connection of the example is suspended when it adopts the algorithm, survives a loss, and
is open again after the handover. -/
theorem closed_iff_suspended_atHandover :
    let after : List Operation :=
      [.ack 3 2 0, .fire true, .reduce, .undo true, .run 300 false false, .ack 3 2 0]
    let c := ((atHandover.adopt .connection).performAll after).connection
    (c.socket.cwnd = 0 ↔ c.isSuspended = true) ∧
      ∀ saved, c.link.gate = .suspended saved → 1 ≤ saved :=
  closed_iff_suspended create_atHandover [] _ (by simp) (by decide) (by decide) (by decide)
    (by simp [Operation.Reports])

end Session

end LowOrbit
