import LowOrbit.Proofs.Frame
import LowOrbit.Proofs.Stability

/-!
# Suspended connections

A suspended gate has closed the window of the socket and holds an open one. This outlives every
history in which the host leaves the window to congestion control. It follows that dropping the
algorithm, and adopting it anew, keeps the window in force exactly if the gate is open
(`Session.release_keeps_iff`): the gate is thrown away unopened, and what it saved is lost.
-/

namespace LowOrbit

open Handover (Action Link Schedule)
open Socket (Edit Features)

/-! ## Links -/

namespace Handover.Link

/-- While the gate is suspended, the window is closed and the saved one is open. -/
def Frozen (l : Link) : Prop :=
  l.gate.isSuspended = true → l.socket.cwnd = 0 ∧ 0 < l.gate.saved

variable {l : Link}

/-- An open gate promises nothing. -/
theorem frozen_of_not_suspended (h : l.gate.isSuspended = false) : l.Frozen := by
  intro hsuspended
  rw [h] at hsuspended
  cases hsuspended

/-- A write that leaves the window as it is leaves a frozen link frozen. -/
theorem Frozen.setSocket (h : l.Frozen) {s : Socket} (hcwnd : s.cwnd = l.socket.cwnd) :
    Frozen { l with socket := s } := by
  intro hsuspended
  obtain ⟨hclosed, hsaved⟩ := h hsuspended
  exact ⟨hcwnd.trans hclosed, hsaved⟩

/-- What the gate does leaves a frozen link frozen. -/
theorem Frozen.act (h : l.Frozen) (span : Nat) (a : Action) : (l.act span a).Frozen := by
  cases a with
  | suspend =>
      show (l.suspend span).Frozen
      unfold Link.suspend
      split
      · exact h
      · rename_i hopen
        exact fun _ => ⟨rfl, Nat.pos_of_ne_zero (mt l.isClosed_iff.mpr hopen)⟩
  | resume =>
      show l.resume.Frozen
      exact frozen_of_not_suspended (by rw [gate_resume]; rfl)
  | keep => exact h

/-- Raising the saved window leaves a frozen link frozen. -/
theorem Frozen.raiseSaved (h : l.Frozen) (cwnd : Nat) : (l.raiseSaved cwnd).Frozen := by
  unfold Link.raiseSaved
  split
  · rename_i saved hgate
    obtain ⟨hclosed, hsaved⟩ := h (by rw [hgate]; rfl)
    rw [hgate] at hsaved
    exact fun _ => ⟨hclosed, Nat.lt_of_lt_of_le hsaved (Nat.le_max_left _ _)⟩
  · exact h

/-- On a frozen link, the socket has the window in force exactly if the gate is open. -/
theorem Frozen.cwnd_eq_effectiveCwnd_iff (h : l.Frozen) :
    l.socket.cwnd = l.effectiveCwnd ↔ l.gate.isSuspended = false := by
  cases hgate : l.gate with
  | opened => simp [effectiveCwnd, hgate, Gate.isSuspended]
  | suspended saved =>
      obtain ⟨hclosed, hsaved⟩ := h (by rw [hgate]; rfl)
      rw [hgate] at hsaved
      have hne : (0 : Nat) ≠ saved := Nat.ne_of_lt hsaved
      simp [effectiveCwnd, hgate, hclosed, hne, Gate.isSuspended]

end Handover.Link

/-! ## Connections -/

namespace Connection

/-- While the connection is suspended, it has a timer. -/
def Guarded (c : Connection) : Prop := c.isSuspended = true → c.timer.isSome = true

variable {c : Connection}

/-- A connection that is not suspended promises nothing. -/
theorem guarded_of_not_suspended (h : c.isSuspended = false) : c.Guarded := by
  intro hsuspended
  rw [h] at hsuspended
  cases hsuspended

/-- Only the gate of a connection with a timer is brought in line with the clock. -/
theorem Guarded.reconcile (h : c.Guarded) (phase : Nat) : (c.reconcile phase).Guarded := by
  unfold Connection.reconcile
  split
  · rename_i htimer
    exact fun _ => htimer
  · exact h

/-- A loss that did not happen does not suspend a connection. -/
theorem Guarded.undo (h : c.Guarded) : c.undo.Guarded := fun hsuspended =>
  h ((c.link.isSuspended_raiseSaved _).symm.trans hsuspended)

/-- Being guarded is lasting, whatever the host writes: a suspended connection has a timer. -/
theorem lasting_guarded : Lasting (fun _ => True) Guarded where
  ack c phase acked h := by
    have hreconciled := h.reconcile phase
    rcases c.ack_cases phase acked with ⟨-, heq⟩ | ⟨-, -, heq⟩ | ⟨-, -, heq⟩ <;> rw [heq]
    · exact h
    · exact hreconciled
    · exact hreconciled
  sample _ _ h := h
  reduce _ h := h
  undo _ h := h.undo
  changeState _ _ h := h
  windowEvent _ _ h := h
  fire c phase h := by
    unfold Connection.fire
    split
    · rename_i id htimer
      exact fun _ => by rw [htimer]; rfl
    · exact h
  shrink _ _ h := h
  restore _ _ h := h.undo
  advance _ _ _ h := h
  edit _ _ _ _ h := h
  release _ _ := guarded_of_not_suspended rfl
  adopt _ _ := guarded_of_not_suspended rfl
  attach _ _ _ _ := fun _ => rfl
  renew _ _ _ := guarded_of_not_suspended rfl

/-- While the connection is suspended, its window is closed, the saved one is open, and it has a
timer. -/
structure Frozen (c : Connection) : Prop where
  link : c.link.Frozen
  guarded : c.Guarded

/-- A connection that is not suspended promises nothing. -/
theorem frozen_of_not_suspended (h : c.isSuspended = false) : c.Frozen :=
  ⟨Link.frozen_of_not_suspended h, guarded_of_not_suspended h⟩

/-- A write that leaves the window as it is leaves a frozen connection frozen. -/
theorem Frozen.mapSocket (h : c.Frozen) {f : Socket → Socket}
    (hcwnd : (f c.link.socket).cwnd = c.link.socket.cwnd) : (c.mapSocket f).Frozen :=
  ⟨h.link.setSocket hcwnd, h.guarded⟩

/-- Bringing the gate in line with the clock leaves a frozen connection frozen. -/
theorem Frozen.reconcile (h : c.Frozen) (phase : Nat) : (c.reconcile phase).Frozen := by
  refine ⟨?_, h.guarded.reconcile phase⟩
  unfold Connection.reconcile
  split
  · exact h.link.act _ _
  · exact h.link

/-- An acknowledgment leaves a frozen connection frozen: a suspended one is in a blackout, where
its window does not grow. -/
theorem Frozen.ack (h : c.Frozen) (phase acked : Nat) : (c.ack phase acked).Frozen := by
  have hreconciled := h.reconcile phase
  rcases c.ack_cases phase acked with ⟨-, heq⟩ | ⟨-, -, heq⟩ | ⟨-, hout, heq⟩ <;> rw [heq]
  · exact h
  · exact hreconciled
  -- Outside of a blackout the window has been opened, so that the gate is not suspended.
  · refine frozen_of_not_suspended (eq_false_of_ne_true fun hsuspended => ?_)
    have htimer := hreconciled.guarded hsuspended
    rw [timer_reconcile] at htimer
    have hopen := isClosed_reconcile_of_not_inBlackout htimer hout
    rw [(Link.isClosed_iff _).mpr (hreconciled.link hsuspended).1] at hopen
    cases hopen

/-- A firing leaves a frozen connection frozen. -/
theorem Frozen.fire (h : c.Frozen) (phase : Nat) : (c.fire phase).2.Frozen := by
  refine ⟨?_, lasting_guarded.fire c phase h.guarded⟩
  simp only [Connection.fire, Schedule.fire]
  split
  · split
    · exact h.link.act _ _
    · exact h.link
  · exact h.link

/-- Carrying out the answer to a loss leaves a frozen connection frozen. -/
theorem Frozen.shrink (h : c.Frozen) (features : Features) :
    (c.reduce.mapSocket fun s => features.present (Session.shrink c.lossThreshold s)).Frozen := by
  refine ⟨fun hsuspended => ?_, h.guarded⟩
  obtain ⟨hclosed, hsaved⟩ := h.link hsuspended
  refine ⟨?_, hsaved⟩
  show (features.present (Session.shrink c.lossThreshold c.link.socket)).cwnd = 0
  rw [Features.cwnd_present]
  exact if_pos hclosed

/-- A loss that did not happen leaves a frozen connection frozen. -/
theorem Frozen.undo (h : c.Frozen) : c.undo.Frozen := ⟨h.link.raiseSaved _, h.guarded.undo⟩

/-- Carrying out the answer to a loss that did not happen leaves a frozen connection frozen. -/
theorem Frozen.restore (h : c.Frozen) (features : Features) :
    (c.undo.mapSocket fun s => features.present { s with cwnd := c.undoCwnd }).Frozen := by
  cases hsuspended : c.isSuspended with
  | true =>
      refine h.undo.mapSocket ?_
      rw [Features.cwnd_present]
      show c.undoCwnd = (c.link.raiseSaved _).socket.cwnd
      rw [Link.socket_raiseSaved]
      simp [undoCwnd, hsuspended]
  | false =>
      -- The window may grow here, and only an open gate allows it.
      refine frozen_of_not_suspended ?_
      show (c.link.raiseSaved _).gate.isSuspended = false
      rw [Link.isSuspended_raiseSaved]
      exact hsuspended

/-- Being frozen is lasting: whatever happens to a connection, a suspended one has its window
closed and an open one to restore. -/
theorem lasting_frozen : Lasting (fun e => e.cwnd = none) Frozen where
  ack _ phase acked h := h.ack phase acked
  sample c x h := by
    obtain ⟨ssthresh, hframe⟩ := c.engine.sample_frame c.link.socket x
    refine ⟨h.link.setSocket ?_, h.guarded⟩
    show (c.engine.sample c.link.socket x).2.cwnd = c.link.socket.cwnd
    rw [hframe]
  reduce _ h := ⟨h.link, h.guarded⟩
  undo _ h := h.undo
  changeState _ _ h := ⟨h.link, h.guarded⟩
  windowEvent _ _ h := ⟨h.link, h.guarded⟩
  fire _ phase h := h.fire phase
  shrink _ features h := h.shrink features
  restore _ features h := h.restore features
  advance _ features _ h := h.mapSocket (features.cwnd_present _)
  edit _ features _ he h :=
    h.mapSocket ((features.cwnd_present _).trans (Socket.cwnd_edit he _))
  release _ _ := frozen_of_not_suspended rfl
  adopt _ _ := frozen_of_not_suspended rfl
  attach _ _ _ h := ⟨h.link.act _ _, fun _ => rfl⟩
  renew _ _ _ := frozen_of_not_suspended rfl

/-- With handover awareness or without, the window in force after an adoption is the one that the
socket had. -/
theorem effectiveCwnd_attach (c : Connection) (timer phase : Nat) :
    (c.adopt.attach timer phase).link.effectiveCwnd = c.adopt.link.effectiveCwnd := by
  obtain ⟨ssthresh, hframe⟩ := c.adopt_frame
  have hgate : c.adopt.link.gate = .opened := by rw [hframe]
  show (c.adopt.link.act _ (c.adopt.schedule.adoptAction phase)).effectiveCwnd = _
  unfold Schedule.adoptAction
  split
  · exact Link.effectiveCwnd_suspend hgate _
  · rfl

end Connection

/-! ## Dropping the algorithm -/

namespace Session

/-- The window in force after an adoption is the one that the socket had. -/
theorem effectiveCwnd_adopt (s : Session) (target : Timer.Target) :
    (s.adopt target).connection.link.effectiveCwnd = s.connection.link.socket.cwnd := by
  obtain ⟨ssthresh, hframe⟩ := s.connection.adopt_frame
  have hadopted : s.connection.adopt.link.effectiveCwnd = s.connection.link.socket.cwnd := by
    rw [hframe]
    rfl
  rcases s.adopt_cases target with ⟨heq, -⟩ | ⟨heq, -⟩ <;> rw [heq]
  · exact hadopted
  · rw [Connection.effectiveCwnd_attach]
    exact hadopted

/-- After every history in which the host leaves the window to congestion control, dropping the
algorithm keeps the window in force exactly if the connection is not suspended. The same holds of
dropping it and adopting it again, and of adopting it anew, whether the host can arm a timer then
or not. -/
theorem release_keeps_iff {config : Config} {socket : Edit} {features : Features}
    {source : TimeSource} {tickerAvailable : Bool} {s : Session}
    (hcreate : create config socket features source tickerAvailable = .ok s)
    (ops : List Operation) (hops : ∀ op ∈ ops, op.Edits fun e => e.cwnd = none)
    (host : Host) (target : Timer.Target) :
    let t := s.performAll ops
    let window := t.connection.link.effectiveCwnd
    (t.release.connection.socket.cwnd = window ↔ t.connection.isSuspended = false) ∧
      (({ t.release with host := host }.adopt target).connection.link.effectiveCwnd = window ↔
        t.connection.isSuspended = false) ∧
      (({ t with host := host }.adopt target).connection.link.effectiveCwnd = window ↔
        t.connection.isSuspended = false) := by
  intro t window
  have hs : s.connection.Frozen := by
    rw [eq_of_create hcreate]
    exact Connection.frozen_of_not_suspended rfl
  have ht : t.connection.Frozen := performAll_of_lasting Connection.lasting_frozen hs hops
  have hkeeps := ht.link.cwnd_eq_effectiveCwnd_iff
  refine ⟨hkeeps, ?_, ?_⟩
  · rw [effectiveCwnd_adopt]
    exact hkeeps
  · rw [effectiveCwnd_adopt]
    exact hkeeps

/-- The condition on the connection of the example, whose host shuts its clock down after an
acknowledgment during the handover. -/
theorem release_keeps_iff_atHandover :
    let t := atHandover.performAll [.adopt .connection, .ack 3 1 0]
    let window := t.connection.link.effectiveCwnd
    let host := t.host.shutdown
    (t.release.connection.socket.cwnd = window ↔ t.connection.isSuspended = false) ∧
      (({ t.release with host := host }.adopt .connection).connection.link.effectiveCwnd = window ↔
        t.connection.isSuspended = false) ∧
      (({ t with host := host }.adopt .connection).connection.link.effectiveCwnd = window ↔
        t.connection.isSuspended = false) :=
  release_keeps_iff create_atHandover [.adopt .connection, .ack 3 1 0] (by simp [Operation.Edits])
    _ .connection

/-- Dropping the algorithm during a handover freezes the connection of the example: the window of
40 packets in force before is gone, and adopting the algorithm again does not bring it back. -/
theorem release_loses_atHandover :
    let t := atHandover.performAll [.adopt .connection]
    t.connection.link.effectiveCwnd = 40 ∧ t.release.connection.socket.cwnd = 0 ∧
      (t.release.adopt .connection).connection.link.effectiveCwnd = 0 ∧
      (t.adopt .connection).connection.link.effectiveCwnd = 0 := by
  decide

end Session

end LowOrbit
