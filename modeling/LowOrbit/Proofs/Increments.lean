import LowOrbit.Proofs.Pace
import LowOrbit.Proofs.Reconciliation
import LowOrbit.Proofs.Suspension

/-!
# The growth of one acknowledgment

One acknowledgment passes through slow start, and what slow start leaves over passes through
congestion avoidance, with a divisor that the engine may have found only then. Credit that was saved
under a larger divisor is worth one packet, and the clamp comes last.
`Connection.ack_increment` puts bounds on the window and on the credit that a single acknowledgment
leaves behind, for every engine, at any window in force, open or saved.
-/

namespace LowOrbit

open Handover (Link Schedule)

/-! ## Slow start -/

namespace Growth

/-- Slow start does not use up all of an acknowledgment, or is over already. -/
def Overshoots (s : Socket) (acked : Nat) : Prop :=
  s.cwnd < s.ssthresh → s.ssthresh < s.cwnd + acked

/-- The window at which congestion avoidance begins. -/
def entryWindow (s : Socket) : Nat :=
  if s.cwnd < s.ssthresh then min s.ssthresh s.clamp else s.cwnd

/-- The packets of an acknowledgment that are left to congestion avoidance. -/
def leftover (s : Socket) (acked : Nat) : Nat :=
  if s.cwnd < s.ssthresh then s.cwnd + acked - s.ssthresh else acked

variable {s : Socket}

/-- An acknowledgment that slow start uses up adds its packets to the window, up to the clamp. -/
theorem throughSlowStart_of_not_overshoots {acked : Nat} (h : ¬ Overshoots s acked)
    (hthreshold : s.ssthresh ≤ maxCount) :
    throughSlowStart s acked = ({ s with cwnd := min (s.cwnd + acked) s.clamp }, none) := by
  obtain ⟨hlow, hused⟩ := Classical.not_imp.mp h
  have hslow : s.inSlowStart = true := decide_eq_true hlow
  have htarget : slowStartTarget s acked = s.cwnd + acked := by
    unfold slowStartTarget countAdd
    omega
  have hrest : slowStartRest s acked = 0 := by
    rw [slowStartRest, htarget]
    omega
  have hgrown : max (s.cwnd + acked) s.cwnd = s.cwnd + acked :=
    Nat.max_eq_left (Nat.le_add_right _ _)
  simp only [throughSlowStart, if_pos hslow, hrest, if_true, slowStart, htarget, hgrown]

/-- Any other acknowledgment takes the window to where congestion avoidance begins, and leaves at
least one packet over unless it brings none. -/
theorem throughSlowStart_of_overshoots {acked : Nat} (h : Overshoots s acked)
    (hthreshold : s.ssthresh ≤ maxCount) :
    throughSlowStart s acked = ({ s with cwnd := entryWindow s }, some (leftover s acked)) := by
  by_cases hlow : s.cwnd < s.ssthresh
  · have hslow : s.inSlowStart = true := decide_eq_true hlow
    have hpassed : s.ssthresh < s.cwnd + acked := h hlow
    have htarget : slowStartTarget s acked = s.ssthresh := by
      unfold slowStartTarget countAdd
      omega
    have hrest : slowStartRest s acked = s.cwnd + acked - s.ssthresh := by
      rw [slowStartRest, htarget]
      omega
    have hgrown : max s.ssthresh s.cwnd = s.ssthresh := Nat.max_eq_left (Nat.le_of_lt hlow)
    have hleft : ¬ s.cwnd + acked - s.ssthresh = 0 := by omega
    simp only [throughSlowStart, if_pos hslow, hrest, if_neg hleft, slowStart, htarget, hgrown,
      entryWindow, leftover, if_pos hlow]
  · have hslow : ¬ s.inSlowStart = true := by
      rw [Socket.inSlowStart, decide_eq_true_eq]
      exact hlow
    simp only [throughSlowStart, if_neg hslow, entryWindow, leftover, if_neg hlow]

/-- Congestion avoidance begins at a window that is not smaller and within the clamp. -/
theorem entryWindow_bounds (hclamp : s.cwnd ≤ s.clamp) :
    s.cwnd ≤ entryWindow s ∧ entryWindow s ≤ s.clamp := by
  unfold entryWindow
  split <;> omega

/-- Slow start adds at most one packet to the window for each packet that it uses. -/
theorem entryWindow_add_leftover_le {acked : Nat} (h : Overshoots s acked) :
    entryWindow s + leftover s acked ≤ s.cwnd + acked := by
  unfold entryWindow leftover
  split
  · rename_i hlow
    have hpassed : s.ssthresh < s.cwnd + acked := h hlow
    omega
  · exact Nat.le_refl _

/-! ## Congestion avoidance -/

/-- With less credit than a full divisor, `acked` packets more are worth at most `acked` packets of
growth. -/
theorem div_le_of_credit_lt {credit divisor : Nat} (h : credit < divisor) (acked : Nat) :
    (credit + acked) / divisor ≤ acked := by
  have hpos : 0 < divisor := Nat.zero_lt_of_lt h
  have hcost : acked ≤ divisor * acked := Nat.le_mul_of_pos_left acked hpos
  refine Nat.le_of_lt_succ (Nat.div_lt_of_lt_mul ?_)
  rw [Nat.mul_succ]
  omega

/-- Redeeming adds at most a packet for every full divisor of credit. -/
theorem cwnd_redeem_le (divisor : Nat) (s : Socket) :
    (redeem divisor s).cwnd ≤ s.cwnd + s.credit / divisor := by
  unfold redeem
  split
  · exact countAdd_le_add _ _
  · exact Nat.le_add_right _ _

/-- Additive increase adds at most a packet per packet acknowledged, and one more only if the credit
is stale: enough for a packet of growth before anything is added to it. -/
theorem cwnd_additive_le_add (divisor acked : Nat) (s : Socket) :
    (additive divisor acked s).cwnd ≤
      s.cwnd + acked + if max divisor 1 ≤ s.credit then 1 else 0 := by
  have hpos : 0 < max divisor 1 := Nat.lt_of_lt_of_le Nat.one_pos (Nat.le_max_right _ _)
  generalize hq : max divisor 1 = q at hpos
  have hclamped : (additive divisor acked s).cwnd ≤
      (redeem q (earn acked (settleStale q s))).cwnd := by
    rw [← hq]
    exact Nat.min_le_left _ _
  refine Nat.le_trans hclamped (Nat.le_trans (cwnd_redeem_le q _) ?_)
  by_cases hstale : q ≤ s.credit
  · have hsettled : settleStale q s = { s with cwnd := countAdd s.cwnd 1, credit := 0 } :=
      if_pos hstale
    have hearned : countAdd 0 acked / q ≤ acked :=
      Nat.le_trans (Nat.div_le_div_right (countAdd_le_add 0 acked)) (div_le_of_credit_lt hpos acked)
    have hone : countAdd s.cwnd 1 ≤ s.cwnd + 1 := countAdd_le_add _ _
    rw [hsettled, if_pos hstale]
    show countAdd s.cwnd 1 + countAdd 0 acked / q ≤ _
    omega
  · have hsettled : settleStale q s = s := if_neg hstale
    have hearned : countAdd s.credit acked / q ≤ acked :=
      Nat.le_trans (Nat.div_le_div_right (countAdd_le_add _ _))
        (div_le_of_credit_lt (Nat.lt_of_not_le hstale) acked)
    rw [hsettled, if_neg hstale]
    show s.cwnd + countAdd s.credit acked / q ≤ _
    omega

/-- The window after both parts of an acknowledgment, whatever the divisor is. -/
theorem cwnd_additive_entryWindow_bounds {acked : Nat} (h : Overshoots s acked)
    (hclamp : s.cwnd ≤ s.clamp) (hcount : s.clamp ≤ maxCount) (divisor : Nat) :
    let t := additive divisor (leftover s acked) { s with cwnd := entryWindow s }
    s.cwnd ≤ t.cwnd ∧ t.cwnd ≤ s.clamp ∧
      t.cwnd ≤ s.cwnd + acked + if max divisor 1 ≤ s.credit then 1 else 0 := by
  intro t
  obtain ⟨hstart, hentry⟩ := entryWindow_bounds hclamp
  have hspent := entryWindow_add_leftover_le h
  have hle : entryWindow s ≤ t.cwnd :=
    (cwnd_additive_bounds (s := { s with cwnd := entryWindow s }) hentry
      (Nat.le_trans hentry hcount) divisor (leftover s acked)).1
  have hadded : t.cwnd ≤
      entryWindow s + leftover s acked + if max divisor 1 ≤ s.credit then 1 else 0 :=
    cwnd_additive_le_add divisor (leftover s acked) _
  have hclamped : t.cwnd ≤ t.clamp := cwnd_additive_le_clamp divisor (leftover s acked) _
  obtain ⟨cwnd, credit, hframe⟩ :=
    additive_frame divisor (leftover s acked) { s with cwnd := entryWindow s }
  have hsame : t.clamp = s.clamp := by
    show (additive _ _ _).clamp = _
    rw [hframe]
  exact ⟨Nat.le_trans hstart hle, hsame ▸ hclamped, by omega⟩

end Growth

/-! ## Engines -/

namespace Engine

/-- The engine once `acked` packets have reached congestion avoidance at a window. -/
def avoid (e : Engine) (cwnd acked now : Nat) : Engine :=
  match e with
  | .reno => .reno
  | .cubic x => .cubic { x with state := x.state.update x.params cwnd acked now }

/-- The divisor that the engine gives to additive increase at a window: the window itself, or the
pace. -/
def divisor (e : Engine) (cwnd : Nat) : Nat :=
  match e with
  | .reno => cwnd
  | .cubic x => x.state.pace

/-- Growth is slow start. What it leaves over finds the divisor first and then grows the window by
it. -/
theorem grow_eq (e : Engine) (s : Socket) (acked : Nat) :
    e.grow s acked =
      match Growth.throughSlowStart s acked with
      | (t, none) => (e, t)
      | (t, some rest) =>
        (e.avoid t.cwnd rest t.now,
          Growth.additive ((e.avoid t.cwnd rest t.now).divisor t.cwnd) rest t) := by
  rcases hstart : Growth.throughSlowStart s acked with ⟨t, _ | rest⟩ <;>
    cases e <;> simp only [grow, Reno.grow, Cubic.grow, hstart, avoid, divisor]

/-- What one acknowledgment of `acked` packets makes of an engine and a socket. The window does not
shrink, stays within its clamp and grows by at most one packet more than were acknowledged. If slow
start uses up all of the acknowledgment, the window stays within the slow start threshold and
nothing else happens. Otherwise congestion avoidance takes over at a window that slow start does not
carry past the threshold: the credit that it leaves behind is less than the divisor, and the one
packet more needs credit that reached the divisor before. -/
structure Increment (e : Engine) (s : Socket) (acked : Nat) (e' : Engine) (s' : Socket) : Prop where
  le_cwnd : s.cwnd ≤ s'.cwnd
  cwnd_le : s'.cwnd ≤ min s.clamp (s.cwnd + acked + 1)
  slowStart : ¬ Growth.Overshoots s acked →
    e' = e ∧ s'.credit = s.credit ∧ s'.cwnd ≤ min s.ssthresh (s.cwnd + acked)
  avoidance : Growth.Overshoots s acked →
    let start := Growth.entryWindow s
    let rest := Growth.leftover s acked
    let divisor := max (e'.divisor start) 1
    e' = e.avoid start rest s.now ∧
      s' = Growth.additive (e'.divisor start) rest { s with cwnd := start } ∧
      s'.credit < divisor ∧ (s.cwnd + acked < s'.cwnd → divisor ≤ s.credit)

/-- Growth is such an increment, if the numbers of the socket are counts and its window is within
the clamp. -/
theorem increment_grow {s : Socket} (hclamp : s.cwnd ≤ s.clamp) (hcount : s.clamp ≤ maxCount)
    (hthreshold : s.ssthresh ≤ maxCount) (e : Engine) (acked : Nat) :
    Increment e s acked (e.grow s acked).1 (e.grow s acked).2 := by
  by_cases hover : Growth.Overshoots s acked
  · have hgrow := grow_eq e s acked
    rw [Growth.throughSlowStart_of_overshoots hover hthreshold] at hgrow
    obtain ⟨hle, hclamped, hadded⟩ :=
      Growth.cwnd_additive_entryWindow_bounds hover hclamp hcount
        ((e.avoid (Growth.entryWindow s) (Growth.leftover s acked) s.now).divisor
          (Growth.entryWindow s))
    rw [hgrow]
    refine ⟨hle, Nat.le_min.mpr ⟨hclamped, ?_⟩, fun h => absurd hover h, fun _ => ?_⟩
    · refine Nat.le_trans hadded ?_
      split <;> omega
    · refine ⟨rfl, rfl, Growth.credit_additive_lt _ _ _, fun hmore => ?_⟩
      -- Without stale credit there is no packet more.
      refine Decidable.byContradiction fun hfresh => ?_
      rw [if_neg hfresh] at hadded
      exact absurd hmore (Nat.not_lt.mpr hadded)
  · have hgrow := grow_eq e s acked
    rw [Growth.throughSlowStart_of_not_overshoots hover hthreshold] at hgrow
    obtain ⟨hlow, hused⟩ := Classical.not_imp.mp hover
    rw [hgrow]
    refine ⟨?_, ?_, fun _ => ⟨rfl, rfl, ?_⟩, fun h => absurd h hover⟩ <;> simp only <;> omega

end Engine

/-! ## Connections -/

namespace Connection

variable {c : Connection} {phase : Nat}

/-- An acknowledgment outside of a blackout finds the window in force on the socket, behind an open
gate, with the rest of the socket as it was but for the deadline and the count of wake-ups. -/
theorem reconcile_of_coherent (hguarded : c.Guarded) (hagree : c.link.Coherent)
    (hopen : 1 ≤ c.link.effectiveCwnd) (hout : c.inBlackout phase = false) :
    (c.reconcile phase).link.gate = .opened ∧
      ∃ rto wakeUps, (c.reconcile phase).link.socket =
        { c.link.socket with cwnd := c.link.effectiveCwnd, rto := rto, wakeUps := wakeUps } := by
  cases hclosed : c.link.isClosed with
  | false =>
      have hgate := hagree.gate_eq hclosed
      have hforce : c.link.effectiveCwnd = c.link.socket.cwnd := by rw [Link.effectiveCwnd, hgate]
      rw [reconcile_of_open hclosed hout, hforce]
      exact ⟨hgate, _, _, rfl⟩
  | true =>
      have hsuspended : c.isSuspended = true := hagree.mpr ((Link.isClosed_iff _).mp hclosed)
      have htimer := hguarded hsuspended
      -- Timer-only mode would report a blackout.
      have hmode : c.schedule.timerOnly = false := by
        refine eq_false_of_ne_true fun hmode => ?_
        rw [inBlackout, htimer, Schedule.inBlackout, hmode, hclosed] at hout
        cases hout
      have hpassed : c.schedule.window.contains phase = false :=
        (inBlackout_eq htimer hmode phase).symm.trans hout
      have hresumed : (c.reconcile phase).link = c.link.resume := by
        rw [reconcile_eq htimer hmode, Handover.Window.ackAction_eq, hpassed, hclosed]
        rfl
      have hforce : c.link.effectiveCwnd = c.link.gate.saved := by
        rw [hagree.effectiveCwnd_eq, if_pos ((Link.isClosed_iff _).mp hclosed)]
      have hsaved : max c.link.gate.saved Handover.minCwnd = c.link.effectiveCwnd := by
        rw [← hforce]
        exact Nat.max_eq_left hopen
      rw [hresumed]
      refine ⟨c.link.gate_resume, c.link.socket.rto, ?_⟩
      rw [Link.resume, if_pos hclosed, hsaved]
      unfold Socket.wakeWriters
      split
      · exact ⟨_, rfl⟩
      · exact ⟨c.link.socket.wakeUps, rfl⟩

/-- An acknowledgment that is looked at outside of a blackout grows the window in force. -/
theorem increment_ack (hguarded : c.Guarded) (hagree : c.link.Coherent)
    (hopen : 1 ≤ c.link.effectiveCwnd) (hclamp : c.link.effectiveCwnd ≤ c.link.socket.clamp)
    (hcount : c.link.socket.clamp ≤ maxCount) (hthreshold : c.link.socket.ssthresh ≤ maxCount)
    (hout : c.inBlackout phase = false) (acked : Nat) :
    ∃ rto wakeUps,
      c.engine.Increment
        { c.link.socket with cwnd := c.link.effectiveCwnd, rto := rto, wakeUps := wakeUps } acked
        ((c.reconcile phase).grow acked).engine ((c.reconcile phase).grow acked).link.socket := by
  obtain ⟨-, rto, wakeUps, hsocket⟩ := reconcile_of_coherent hguarded hagree hopen hout
  refine ⟨rto, wakeUps, ?_⟩
  show c.engine.Increment _ acked
    ((c.reconcile phase).engine.grow (c.reconcile phase).link.socket acked).1
    ((c.reconcile phase).engine.grow (c.reconcile phase).link.socket acked).2
  rw [engine_reconcile, hsocket]
  exact Engine.increment_grow
    (s := { c.link.socket with cwnd := c.link.effectiveCwnd, rto := rto, wakeUps := wakeUps })
    hclamp hcount hthreshold c.engine acked

/-- Take any connection, with either engine in any state, whose window is closed exactly while its
gate is suspended, and whose window in force, open or saved, is at least 1 and within the clamp. A
gate is suspended only together with a timer, and clamp and threshold are counts. An acknowledgment
that is skipped, because the window does not limit the sender or because of a blackout, leaves the
engine, the credit and the threshold as they are. Any other opens the gate, and grows the window in
force as an `Engine.Increment` does: not beyond the clamp, by at most one packet more than were
acknowledged, and by that one only if the credit had reached the divisor before. -/
theorem ack_increment (hguarded : c.Guarded) (hagree : c.socket.cwnd = 0 ↔ c.isSuspended = true)
    (hopen : 1 ≤ c.link.effectiveCwnd) (hclamp : c.link.effectiveCwnd ≤ c.socket.clamp)
    (hcount : c.socket.clamp ≤ maxCount) (hthreshold : c.socket.ssthresh ≤ maxCount)
    (phase acked : Nat) :
    let w := c.link.effectiveCwnd
    let c' := c.ack phase acked
    (c.socket.cwndLimited = false ∨ c.inBlackout phase = true →
      c'.engine = c.engine ∧ c'.socket.credit = c.socket.credit ∧
        c'.socket.ssthresh = c.socket.ssthresh) ∧
    (c.socket.cwndLimited = true → c.inBlackout phase = false →
      c'.link.gate = .opened ∧ ∃ rto wakeUps,
        c.engine.Increment { c.socket with cwnd := w, rto := rto, wakeUps := wakeUps } acked
          c'.engine c'.socket) := by
  intro w c'
  obtain ⟨cwnd, rto, wakeUps, hframe⟩ := c.reconcile_frame phase
  rcases c.ack_cases phase acked with ⟨hidle, heq⟩ | ⟨hlimited, hin, heq⟩ | ⟨hlimited, hout, heq⟩
  · have hsame : c' = c := heq
    rw [hsame]
    refine ⟨fun _ => ⟨rfl, rfl, rfl⟩, fun hlimited => ?_⟩
    exact nomatch hlimited.symm.trans hidle
  · have hreconciled : c' = c.reconcile phase := heq
    rw [hreconciled]
    refine ⟨fun _ => ⟨c.engine_reconcile phase, ?_, ?_⟩, fun _ hout => ?_⟩
    · show (c.reconcile phase).link.socket.credit = _
      rw [hframe]
      rfl
    · show (c.reconcile phase).link.socket.ssthresh = _
      rw [hframe]
      rfl
    · exact nomatch hout.symm.trans hin
  · have hgrown : c' = (c.reconcile phase).grow acked := heq
    rw [hgrown]
    refine ⟨fun hskipped => ?_, fun _ _ => ⟨?_, ?_⟩⟩
    · rcases hskipped with hidle | hin
      · exact nomatch hlimited.symm.trans hidle
      · exact nomatch hout.symm.trans hin
    · exact (reconcile_of_coherent hguarded hagree.symm hopen hout).1
    · exact increment_ack hguarded hagree.symm hopen hclamp hcount hthreshold hout acked

/-- After the handover, a Reno flow is suspended with a window of 1 packet and with stale credit.
One acknowledgment of 3 packets resumes it and grows the window by 4, the most that is possible. -/
theorem ack_increment_stale :
    let c : Connection :=
      { link := { gate := .suspended 1, socket := { cwnd := 0, credit := 5, ssthresh := 1 } },
        engine := .reno, schedule := Schedule.ofConfig {}, timer := some 0 }
    let c' := c.ack 13000000000 3
    c'.link.gate = .opened ∧ c'.socket.cwnd = 5 ∧ c'.socket.cwnd ≤ min c.socket.clamp (1 + 3 + 1) ∧
      c'.socket.credit < 1 := by
  intro c c'
  obtain ⟨hgate, rto, wakeUps, hincrement⟩ :=
    (ack_increment (c := c) (fun _ => rfl) (by decide) (by decide) (by decide) (by decide)
      (by decide) 13000000000 3).2 rfl (by decide)
  obtain ⟨-, -, hcredit, -⟩ := hincrement.avoidance fun hlow => absurd hlow (Nat.lt_irrefl 1)
  exact ⟨hgate, by decide, hincrement.cwnd_le, hcredit⟩

end Connection

end LowOrbit
