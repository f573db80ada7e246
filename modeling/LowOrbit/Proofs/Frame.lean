import LowOrbit.Connection

/-!
# What the operations on a connection leave alone

Frame conditions. Growth writes the window and its credit, the gate writes the window, the
retransmission deadline and the count of wake-ups, and what else the engine does writes the slow
start threshold at most. `Connection.ack_frame` and `Connection.fire_frame` put this together for
a connection. Growth also keeps an open window open as long as the clamp is not zero
(`Engine.cwnd_grow_pos`).
-/

namespace LowOrbit

open Handover (Link Schedule)

namespace Socket

/-- The edit writes neither the window nor a clamp of zero. -/
def Edit.SparesWindow (e : Edit) : Prop := e.cwnd = none ∧ ∀ clamp, e.clamp = some clamp → 0 < clamp

/-- An edit without a value for the window leaves it alone. -/
theorem cwnd_edit {e : Edit} (h : e.cwnd = none) (s : Socket) : (s.edit e).cwnd = s.cwnd := by
  simp [edit, h]

/-- An edit that writes no clamp of zero leaves the clamp positive. -/
theorem clamp_edit_pos {e : Edit} (h : ∀ clamp, e.clamp = some clamp → 0 < clamp) {s : Socket}
    (hs : 0 < s.clamp) : 0 < (s.edit e).clamp := by
  show 0 < e.clamp.getD s.clamp
  cases hclamp : e.clamp with
  | none => exact hs
  | some clamp => exact h clamp hclamp

/-- Whatever the features are, the window is presented as it is. -/
theorem Features.cwnd_present (f : Features) (s : Socket) : (f.present s).cwnd = s.cwnd := by
  cases f <;> rfl

/-- A positive clamp is presented as a positive one. -/
theorem Features.clamp_present_pos (f : Features) {s : Socket} (h : 0 < s.clamp) :
    0 < (f.present s).clamp := by
  cases f with
  | full => exact h
  | basic => exact (by decide : 0 < maxCount)
  | pacingRate => exact (by decide : 0 < maxCount)

end Socket

/-- A sum is positive if its first term is. -/
theorem countAdd_pos {a : Nat} (h : 0 < a) (b : Nat) : 0 < countAdd a b := by
  simp only [countAdd, maxCount]
  omega

namespace Growth

variable {s : Socket}

/-- Slow start writes the window only. -/
theorem throughSlowStart_frame (s : Socket) (acked : Nat) :
    ∃ cwnd, (throughSlowStart s acked).1 = { s with cwnd := cwnd } := by
  unfold throughSlowStart
  split
  · exact ⟨_, rfl⟩
  · exact ⟨s.cwnd, rfl⟩

/-- Additive increase writes the window and its credit only. -/
theorem additive_frame (divisor acked : Nat) (s : Socket) :
    ∃ cwnd credit, additive divisor acked s = { s with cwnd := cwnd, credit := credit } := by
  simp only [additive, clampWindow, redeem, earn, settleStale]
  split <;> split <;> exact ⟨_, _, rfl⟩

/-- Slow start keeps an open window open. -/
theorem cwnd_throughSlowStart_pos (hcwnd : 0 < s.cwnd) (hclamp : 0 < s.clamp) (acked : Nat) :
    0 < (throughSlowStart s acked).1.cwnd := by
  unfold throughSlowStart
  split
  · simp only [slowStart]
    omega
  · exact hcwnd

/-- Settling stale credit keeps an open window open. -/
theorem cwnd_settleStale_pos (hcwnd : 0 < s.cwnd) (divisor : Nat) :
    0 < (settleStale divisor s).cwnd := by
  unfold settleStale
  split
  · exact countAdd_pos hcwnd _
  · exact hcwnd

/-- Redeeming credit keeps an open window open. -/
theorem cwnd_redeem_pos (hcwnd : 0 < s.cwnd) (divisor : Nat) : 0 < (redeem divisor s).cwnd := by
  unfold redeem
  split
  · exact countAdd_pos hcwnd _
  · exact hcwnd

/-- Additive increase keeps an open window open. -/
theorem cwnd_additive_pos (hcwnd : 0 < s.cwnd) (hclamp : 0 < s.clamp) (divisor acked : Nat) :
    0 < (additive divisor acked s).cwnd := by
  have hsettled := cwnd_settleStale_pos hcwnd (max divisor 1)
  have hredeemed := cwnd_redeem_pos
    (s := earn acked (settleStale (max divisor 1) s)) hsettled (max divisor 1)
  obtain ⟨cwnd, credit, hframe⟩ := additive_frame divisor acked s
  -- The clamp comes last, so what it is at that point has to be traced back to the beginning.
  have hkept : (additive divisor acked s).clamp = s.clamp := by rw [hframe]
  simp only [additive, clampWindow] at hkept ⊢
  omega

end Growth

namespace Engine

/-- Growth is slow start, followed by additive increase if slow start left packets over. -/
theorem grow_socket (e : Engine) (s : Socket) (acked : Nat) :
    (e.grow s acked).2 = (Growth.throughSlowStart s acked).1 ∨
      ∃ divisor rest, (e.grow s acked).2 =
        Growth.additive divisor rest (Growth.throughSlowStart s acked).1 := by
  rcases hstart : Growth.throughSlowStart s acked with ⟨started, rest⟩
  cases e <;> cases rest <;> simp only [grow, Reno.grow, Cubic.grow, hstart]
  · exact .inl trivial
  · exact .inr ⟨_, _, rfl⟩
  · exact .inl trivial
  · exact .inr ⟨_, _, rfl⟩

/-- Growth writes the window and its credit only. -/
theorem grow_frame (e : Engine) (s : Socket) (acked : Nat) :
    ∃ cwnd credit, (e.grow s acked).2 = { s with cwnd := cwnd, credit := credit } := by
  obtain ⟨started, hstart⟩ := Growth.throughSlowStart_frame s acked
  rcases e.grow_socket s acked with h | ⟨divisor, rest, h⟩
  · exact ⟨started, s.credit, by rw [h, hstart]⟩
  · obtain ⟨cwnd, credit, hadd⟩ :=
      Growth.additive_frame divisor rest (Growth.throughSlowStart s acked).1
    exact ⟨cwnd, credit, by rw [h, hadd, hstart]⟩

/-- Growth keeps an open window open. -/
theorem cwnd_grow_pos {s : Socket} (hcwnd : 0 < s.cwnd) (hclamp : 0 < s.clamp) (e : Engine)
    (acked : Nat) : 0 < (e.grow s acked).2.cwnd := by
  have hstart := Growth.cwnd_throughSlowStart_pos hcwnd hclamp acked
  rcases e.grow_socket s acked with h | ⟨divisor, rest, h⟩
  · rw [h]
    exact hstart
  · obtain ⟨cwnd, hframe⟩ := Growth.throughSlowStart_frame s acked
    rw [h]
    exact Growth.cwnd_additive_pos hstart (by rw [hframe]; exact hclamp) _ _

/-- Adopting an engine writes the slow start threshold only. -/
theorem adopt_frame (e : Engine) (s : Socket) :
    ∃ ssthresh, (e.adopt s).2 = { s with ssthresh := ssthresh } := by
  cases e with
  | reno => exact ⟨s.ssthresh, rfl⟩
  | cubic c => exact ⟨_, rfl⟩

/-- A sample writes the slow start threshold only. -/
theorem sample_frame (e : Engine) (s : Socket) (sample : RttSample) :
    ∃ ssthresh, (e.sample s sample).2 = { s with ssthresh := ssthresh } := by
  cases e with
  | reno => exact ⟨s.ssthresh, rfl⟩
  | cubic c =>
      simp only [Engine.sample]
      split
      · exact ⟨s.ssthresh, rfl⟩
      · exact ⟨_, rfl⟩

/-- The threshold after a loss is at least the smallest one. -/
theorem minThreshold_le_lossThreshold (e : Engine) (cwnd : Nat) :
    Growth.minThreshold ≤ e.lossThreshold cwnd := by
  cases e <;> exact Nat.le_max_right _ _

end Engine

namespace Handover

/-- A window is open when it is not zero. -/
theorem Link.isClosed_eq_false_iff (l : Link) : l.isClosed = false ↔ 0 < l.socket.cwnd := by
  rw [← Bool.not_eq_true, l.isClosed_iff]
  exact Nat.pos_iff_ne_zero.symm

/-- Closing a window writes the window and the deadline only. -/
theorem Link.suspend_frame (l : Link) (extend : Nat) :
    ∃ cwnd rto, (l.suspend extend).socket = { l.socket with cwnd := cwnd, rto := rto } := by
  unfold Link.suspend
  split
  · exact ⟨l.socket.cwnd, l.socket.rto, rfl⟩
  · exact ⟨_, _, rfl⟩

/-- Opening a window writes the window and the count of wake-ups only. -/
theorem Link.resume_frame (l : Link) :
    ∃ cwnd wakeUps, l.resume.socket = { l.socket with cwnd := cwnd, wakeUps := wakeUps } := by
  simp only [Link.resume, Socket.wakeWriters]
  split
  · split
    · exact ⟨_, _, rfl⟩
    · exact ⟨_, l.socket.wakeUps, rfl⟩
  · exact ⟨l.socket.cwnd, l.socket.wakeUps, rfl⟩

/-- The gate writes the window, the deadline and the count of wake-ups only. -/
theorem Link.act_frame (l : Link) (span : Nat) (a : Action) :
    ∃ cwnd rto wakeUps, (l.act span a).socket =
      { l.socket with cwnd := cwnd, rto := rto, wakeUps := wakeUps } := by
  cases a with
  | suspend =>
      obtain ⟨cwnd, rto, h⟩ := l.suspend_frame span
      exact ⟨cwnd, rto, l.socket.wakeUps, h⟩
  | resume =>
      obtain ⟨cwnd, wakeUps, h⟩ := l.resume_frame
      exact ⟨cwnd, l.socket.rto, wakeUps, h⟩
  | keep => exact ⟨l.socket.cwnd, l.socket.rto, l.socket.wakeUps, rfl⟩

/-- The gate closes the window when it suspends, and opens it when it resumes. -/
theorem Link.isClosed_act (l : Link) (span : Nat) (a : Action) :
    (l.act span a).isClosed =
      match a with
      | .suspend => true
      | .resume => false
      | .keep => l.isClosed := by
  cases a with
  | suspend => exact l.isClosed_suspend span
  | resume => exact l.isClosed_resume
  | keep => rfl

/-- Raising the saved window leaves the socket alone. -/
theorem Link.socket_raiseSaved (l : Link) (cwnd : Nat) : (l.raiseSaved cwnd).socket = l.socket := by
  unfold Link.raiseSaved
  split <;> rfl

/-- Raising the saved window does not open or suspend the gate. -/
theorem Link.isSuspended_raiseSaved (l : Link) (cwnd : Nat) :
    (l.raiseSaved cwnd).gate.isSuspended = l.gate.isSuspended := by
  unfold Link.raiseSaved
  split
  · rename_i saved hgate
    rw [hgate]
    rfl
  · rfl

end Handover

namespace Connection

variable (c : Connection)

/-- An acknowledgment is a reconciliation with the clock, a growth after it, or nothing. -/
theorem ack_cases (phase acked : Nat) :
    c.link.socket.cwndLimited = false ∧ c.ack phase acked = c ∨
      c.link.socket.cwndLimited = true ∧ c.inBlackout phase = true ∧
        c.ack phase acked = c.reconcile phase ∨
      c.link.socket.cwndLimited = true ∧ c.inBlackout phase = false ∧
        c.ack phase acked = (c.reconcile phase).grow acked := by
  cases hlimited : c.link.socket.cwndLimited <;> cases hblackout : c.inBlackout phase <;>
    simp [ack, hlimited, hblackout]

/-- Adopting the algorithm writes the slow start threshold only, and leaves the gate open. -/
theorem adopt_frame :
    ∃ ssthresh, c.adopt.link =
      { gate := .opened, socket := { c.link.socket with ssthresh := ssthresh } } := by
  obtain ⟨ssthresh, hframe⟩ := c.engine.adopt_frame c.link.socket
  refine ⟨ssthresh, ?_⟩
  show { gate := .opened, socket := (c.engine.adopt c.link.socket).2 : Link } = _
  rw [hframe]

/-- Reconciling writes the window, the deadline and the count of wake-ups only. -/
theorem reconcile_frame (phase : Nat) :
    ∃ cwnd rto wakeUps, (c.reconcile phase).link.socket =
      { c.link.socket with cwnd := cwnd, rto := rto, wakeUps := wakeUps } := by
  unfold reconcile
  split
  · exact c.link.act_frame _ _
  · exact ⟨c.link.socket.cwnd, c.link.socket.rto, c.link.socket.wakeUps, rfl⟩

/-- An acknowledgment writes the window, its credit, the deadline and the count of wake-ups
only. -/
theorem ack_frame (phase acked : Nat) :
    ∃ cwnd credit rto wakeUps, (c.ack phase acked).link.socket =
      { c.link.socket with cwnd := cwnd, credit := credit, rto := rto, wakeUps := wakeUps } := by
  obtain ⟨cwnd, rto, wakeUps, hreconcile⟩ := c.reconcile_frame phase
  rcases c.ack_cases phase acked with ⟨-, h⟩ | ⟨-, -, h⟩ | ⟨-, -, h⟩
  · exact ⟨c.link.socket.cwnd, c.link.socket.credit, c.link.socket.rto, c.link.socket.wakeUps,
      by rw [h]⟩
  · exact ⟨cwnd, c.link.socket.credit, rto, wakeUps, by rw [h, hreconcile]⟩
  · obtain ⟨grown, credit, hgrow⟩ :=
      (c.reconcile phase).engine.grow_frame (c.reconcile phase).link.socket acked
    refine ⟨grown, credit, rto, wakeUps, ?_⟩
    rw [h]
    show ((c.reconcile phase).engine.grow (c.reconcile phase).link.socket acked).2 = _
    rw [hgrow, hreconcile]

/-- A firing of an established connection with a timer acts on the gate and asks to come back. -/
theorem fire_of_established {c : Connection} (htimer : c.timer.isSome = true)
    (hestablished : c.socket.established = true) (phase : Nat) :
    c.fire phase =
      (.rearm (c.schedule.nextDelay phase (c.schedule.expire phase c.link).isClosed),
        { c with link := c.schedule.expire phase c.link }) := by
  obtain ⟨id, hid⟩ := Option.isSome_iff_exists.mp htimer
  have hlink : c.link.socket.established = true := hestablished
  simp [fire, hid, Schedule.fire, hlink]

/-- A firing writes the window, the deadline and the count of wake-ups only. -/
theorem fire_frame (phase : Nat) :
    ∃ cwnd rto wakeUps, (c.fire phase).2.link.socket =
      { c.link.socket with cwnd := cwnd, rto := rto, wakeUps := wakeUps } := by
  simp only [fire, Schedule.fire]
  split
  · split
    · exact c.link.act_frame _ _
    · exact ⟨c.link.socket.cwnd, c.link.socket.rto, c.link.socket.wakeUps, rfl⟩
  · exact ⟨c.link.socket.cwnd, c.link.socket.rto, c.link.socket.wakeUps, rfl⟩

/-- Outside of a blackout the window is open once it agrees with the clock. -/
theorem isClosed_reconcile_of_not_inBlackout {c : Connection} (htimer : c.timer.isSome = true)
    {phase : Nat} (hout : c.inBlackout phase = false) :
    (c.reconcile phase).link.isClosed = false := by
  simp only [inBlackout, htimer, Bool.true_and] at hout
  simp only [reconcile, htimer, if_true]
  cases hmode : c.schedule.timerOnly with
  | true =>
      simp only [Schedule.inBlackout, hmode, if_true] at hout
      simp only [Schedule.reconcile, Schedule.ackAction, hmode, if_true]
      exact hout
  | false =>
      rw [Schedule.isClosed_reconcile hmode]
      simpa [Schedule.inBlackout, hmode] using hout

/-- Growing keeps an open window open. -/
theorem isClosed_grow {c : Connection} (hopen : c.link.isClosed = false)
    (hclamp : 0 < c.link.socket.clamp) (acked : Nat) : (c.grow acked).link.isClosed = false := by
  rw [Link.isClosed_eq_false_iff] at hopen ⊢
  exact Engine.cwnd_grow_pos hopen hclamp c.engine acked

/-- Reconciling leaves the clamp alone. -/
theorem clamp_reconcile (phase : Nat) :
    (c.reconcile phase).link.socket.clamp = c.link.socket.clamp := by
  obtain ⟨cwnd, rto, wakeUps, hframe⟩ := c.reconcile_frame phase
  rw [hframe]

/-- An acknowledgment leaves the clamp alone. -/
theorem clamp_ack (phase acked : Nat) :
    (c.ack phase acked).link.socket.clamp = c.link.socket.clamp := by
  obtain ⟨cwnd, credit, rto, wakeUps, hframe⟩ := c.ack_frame phase acked
  rw [hframe]

/-- A firing leaves the clamp alone. -/
theorem clamp_fire (phase : Nat) : (c.fire phase).2.link.socket.clamp = c.link.socket.clamp := by
  obtain ⟨cwnd, rto, wakeUps, hframe⟩ := c.fire_frame phase
  rw [hframe]

/-- Adopting the algorithm with handover awareness leaves the clamp alone. -/
theorem clamp_attach (timer phase : Nat) :
    (c.adopt.attach timer phase).link.socket.clamp = c.link.socket.clamp := by
  obtain ⟨ssthresh, hadopted⟩ := c.adopt_frame
  obtain ⟨cwnd, rto, wakeUps, hframe⟩ :=
    c.adopt.link.act_frame c.adopt.schedule.window.span (c.adopt.schedule.adoptAction phase)
  show (c.adopt.link.act _ _).socket.clamp = _
  rw [hframe, hadopted]

/-- Reconciling leaves the timer alone. -/
theorem timer_reconcile (phase : Nat) : (c.reconcile phase).timer = c.timer := by
  unfold reconcile
  split <;> rfl

/-- Reconciling leaves the schedule alone. -/
theorem schedule_reconcile (phase : Nat) : (c.reconcile phase).schedule = c.schedule := by
  unfold reconcile
  split <;> rfl

/-- Reconciling leaves the engine alone. -/
theorem engine_reconcile (phase : Nat) : (c.reconcile phase).engine = c.engine := by
  unfold reconcile
  split <;> rfl

/-- Outside of a blackout, reconciling leaves a connection with an open window alone. -/
theorem reconcile_of_open {c : Connection} (hopen : c.link.isClosed = false) {phase : Nat}
    (hout : c.inBlackout phase = false) : c.reconcile phase = c := by
  unfold reconcile
  split
  · rename_i htimer
    have hkeep : c.schedule.ackAction phase c.link.isClosed = .keep := by
      simp only [inBlackout, htimer, Bool.true_and, Schedule.inBlackout] at hout
      unfold Schedule.ackAction Handover.Window.ackAction
      split at hout
      · rename_i hmode
        rw [if_pos hmode]
      · rename_i hmode
        rw [if_neg hmode, hout, hopen]
        rfl
    show { c with link := c.link.act _ (c.schedule.ackAction phase c.link.isClosed) } = c
    rw [hkeep]
    rfl
  · rfl

/-- An acknowledgment leaves the timer alone. -/
theorem timer_ack (phase acked : Nat) : (c.ack phase acked).timer = c.timer := by
  rcases c.ack_cases phase acked with ⟨-, h⟩ | ⟨-, -, h⟩ | ⟨-, -, h⟩ <;> rw [h]
  · exact c.timer_reconcile phase
  · exact c.timer_reconcile phase

/-- An acknowledgment leaves the schedule alone. -/
theorem schedule_ack (phase acked : Nat) : (c.ack phase acked).schedule = c.schedule := by
  rcases c.ack_cases phase acked with ⟨-, h⟩ | ⟨-, -, h⟩ | ⟨-, -, h⟩ <;> rw [h]
  · exact c.schedule_reconcile phase
  · exact c.schedule_reconcile phase

/-- A firing leaves the timer alone. -/
theorem timer_fire (phase : Nat) : (c.fire phase).2.timer = c.timer := by
  unfold fire
  split <;> simp_all

/-- A firing leaves the schedule alone. -/
theorem schedule_fire (phase : Nat) : (c.fire phase).2.schedule = c.schedule := by
  unfold fire
  split <;> rfl

/-- A firing leaves the engine alone. -/
theorem engine_fire (phase : Nat) : (c.fire phase).2.engine = c.engine := by
  unfold fire
  split <;> rfl

end Connection

end LowOrbit
