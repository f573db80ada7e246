import LowOrbit.Proofs.Calls
import LowOrbit.Proofs.Stability
import Mathlib.Algebra.GroupWithZero.Nat

/-!
# The pace of growth

The CUBIC engine finds a pace, the number of packets acknowledged per packet of growth, and hands it
to the additive increase. Not every acknowledgment computes it anew: while the pace is fresh, the
last one is used as it is. It is never below two nevertheless, since the only pace ever used is one
that was computed (`Cubic.State.Paced`). With the acknowledged packets that wait as credit for the
next packet of growth, this bounds the growth of any number of acknowledgments together
(`Session.growth_le_half_acked`).
-/

namespace LowOrbit

open Handover (Schedule)

/-! ## Additive increase -/

namespace Growth

/-- Settling stale credit turns at least `rate` packets of credit into one packet of growth, if the
divisor is at least `rate`. -/
theorem weight_settleStale_le {rate divisor : Nat} (h : rate ≤ divisor) (s : Socket) :
    rate * (settleStale divisor s).cwnd + (settleStale divisor s).credit ≤
      rate * s.cwnd + s.credit := by
  unfold settleStale
  split
  · rename_i hstale
    have hgrown : rate * countAdd s.cwnd 1 ≤ rate * (s.cwnd + 1) :=
      Nat.mul_le_mul_left rate (countAdd_le_add _ _)
    rw [Nat.mul_add, Nat.mul_one] at hgrown
    simp only
    omega
  · exact Nat.le_refl _

/-- Redeeming turns at least `rate` packets of credit into each packet of growth, if the divisor is
at least `rate`. -/
theorem weight_redeem_le {rate divisor : Nat} (h : rate ≤ divisor) (s : Socket) :
    rate * (redeem divisor s).cwnd + (redeem divisor s).credit ≤ rate * s.cwnd + s.credit := by
  unfold redeem
  split
  · generalize hsteps : s.credit / divisor = steps
    have hgrown : rate * countAdd s.cwnd steps ≤ rate * (s.cwnd + steps) :=
      Nat.mul_le_mul_left rate (countAdd_le_add _ _)
    have hpaid : rate * steps ≤ steps * divisor := by
      rw [Nat.mul_comm]
      exact Nat.mul_le_mul_left steps h
    have hspent : steps * divisor ≤ s.credit := hsteps ▸ Nat.div_mul_le_self s.credit divisor
    rw [Nat.mul_add] at hgrown
    simp only
    omega
  · exact Nat.le_refl _

/-- An additive increase with a divisor of at least `rate` grows the window by at most one packet
per `rate` packets, those that waited as credit and those that still do included. -/
theorem weight_additive_le {rate divisor : Nat} (h : rate ≤ divisor) (acked : Nat) (s : Socket) :
    rate * (additive divisor acked s).cwnd + (additive divisor acked s).credit ≤
      rate * s.cwnd + s.credit + acked := by
  have hrate : rate ≤ max divisor 1 := Nat.le_trans h (Nat.le_max_left _ _)
  generalize hsettled : settleStale (max divisor 1) s = settled
  generalize hredeemed : redeem (max divisor 1) (earn acked settled) = redeemed
  have hadditive : additive divisor acked s = clampWindow redeemed := by
    rw [← hredeemed, ← hsettled]
    rfl
  have hsettle : rate * settled.cwnd + settled.credit ≤ rate * s.cwnd + s.credit :=
    hsettled ▸ weight_settleStale_le hrate s
  have hredeem : rate * redeemed.cwnd + redeemed.credit ≤
      rate * settled.cwnd + countAdd settled.credit acked :=
    hredeemed ▸ weight_redeem_le hrate (earn acked settled)
  have hearn : countAdd settled.credit acked ≤ settled.credit + acked := countAdd_le_add _ _
  have hclamp : rate * min redeemed.cwnd redeemed.clamp ≤ rate * redeemed.cwnd :=
    Nat.mul_le_mul_left rate (Nat.min_le_left _ _)
  rw [hadditive]
  show rate * min redeemed.cwnd redeemed.clamp + redeemed.credit ≤ _
  omega

/-- An additive increase does not shrink a window that is a count within its clamp, and leaves it
one. -/
theorem cwnd_additive_bounds {s : Socket} (hclamp : s.cwnd ≤ s.clamp) (hcount : s.cwnd ≤ maxCount)
    (divisor acked : Nat) :
    s.cwnd ≤ (additive divisor acked s).cwnd ∧ (additive divisor acked s).cwnd ≤ maxCount := by
  have hsettled : s.cwnd ≤ (settleStale (max divisor 1) s).cwnd ∧
      (settleStale (max divisor 1) s).cwnd ≤ maxCount := by
    unfold settleStale
    split
    · exact ⟨le_countAdd hcount 1, countAdd_le_maxCount _ _⟩
    · exact ⟨Nat.le_refl _, hcount⟩
  have hredeemed : ∀ t : Socket, t.cwnd ≤ maxCount →
      t.cwnd ≤ (redeem (max divisor 1) t).cwnd ∧ (redeem (max divisor 1) t).cwnd ≤ maxCount := by
    intro t ht
    unfold redeem
    split
    · exact ⟨le_countAdd ht _, countAdd_le_maxCount _ _⟩
    · exact ⟨Nat.le_refl _, ht⟩
  obtain ⟨hgrown, hgrown'⟩ := hredeemed (earn acked (settleStale (max divisor 1) s)) hsettled.2
  obtain ⟨cwnd, credit, hframe⟩ := additive_frame divisor acked s
  have hkept : (additive divisor acked s).clamp = s.clamp := by rw [hframe]
  have hcwnd : (earn acked (settleStale (max divisor 1) s)).cwnd =
      (settleStale (max divisor 1) s).cwnd := rfl
  simp only [additive, clampWindow] at hkept ⊢
  omega

end Growth

/-! ## The pace in force -/

namespace Cubic.State

/-- Once the curve has been evaluated, the pace is at least the smallest one. -/
def Paced (st : State) : Prop := st.lastUpdate.isSome = true → minPace ≤ st.pace

variable {st : State}

/-- The pace found for an acknowledgment is at least the smallest one. -/
theorem Paced.minPace_le_update (h : st.Paced) (p : Params) (cwnd acked now : Nat) :
    minPace ≤ (st.update p cwnd acked now).pace := by
  simp only [update]
  split
  · rename_i hfresh
    -- A fresh pace was computed before, at the last evaluation of the curve.
    refine h ?_
    simp only [isFresh, sinceUpdate, countAcked, Bool.and_eq_true] at hfresh
    cases hlast : st.lastUpdate with
    | none => simp [hlast] at hfresh
    | some last => rfl
  · exact minPace_le_limitPace _

/-- Taking a round trip into account leaves the pace alone. -/
theorem Paced.recordDelay (h : st.Paced) (delay : Nat) : (st.recordDelay delay).Paced := by
  unfold State.recordDelay
  split <;> exact h

/-- Moving the start of the epoch leaves the pace alone. -/
theorem Paced.shiftEpoch (h : st.Paced) (idle now : Nat) : (st.shiftEpoch idle now).Paced := by
  unfold State.shiftEpoch
  split
  · split <;> exact h
  · exact h

end Cubic.State

namespace Engine

/-- The pace of the engine, if it has one, is at least the smallest one once it has been
computed. -/
def Paced : Engine → Prop
  | .reno => True
  | .cubic c => c.state.Paced

/-- A new engine has computed no pace. -/
theorem paced_ofConfig (config : Config) : (Engine.ofConfig config).Paced := by
  unfold Engine.ofConfig
  cases config.algorithm with
  | reno => trivial
  | cubic => exact fun hevaluated => nomatch hevaluated

variable {e : Engine}

/-- Growing leaves a paced engine paced. -/
theorem Paced.grow (h : e.Paced) (s : Socket) (acked : Nat) : (e.grow s acked).1.Paced := by
  cases e with
  | reno => trivial
  | cubic c =>
      simp only [Engine.grow, Cubic.grow]
      split
      · exact h
      · exact fun _ => Cubic.State.Paced.minPace_le_update h _ _ _ _

/-- A sample leaves a paced engine paced. -/
theorem Paced.sample (h : e.Paced) (s : Socket) (x : RttSample) : (e.sample s x).1.Paced := by
  cases e with
  | reno => trivial
  | cubic c =>
      simp only [Engine.sample, Cubic.sample]
      split
      · exact Cubic.State.Paced.recordDelay h _
      · exact h

/-- A loss leaves a paced engine paced. -/
theorem Paced.reduce (h : e.Paced) (cwnd : Nat) : (e.reduce cwnd).Paced := by
  cases e with
  | reno => trivial
  | cubic c => exact h

/-- A change of state leaves a paced engine paced. -/
theorem Paced.changeState (h : e.Paced) (s : Socket) (state : AvoidanceState) :
    (e.changeState s state).Paced := by
  cases e with
  | reno => cases state <;> trivial
  | cubic c =>
      cases state with
      | loss => exact fun hevaluated => nomatch hevaluated
      | _ => exact h

/-- A window event leaves a paced engine paced. -/
theorem Paced.windowEvent (h : e.Paced) (s : Socket) (event : WindowEvent) :
    (e.windowEvent s event).Paced := by
  cases e with
  | reno => cases event <;> trivial
  | cubic c =>
      cases event with
      | sendStart => exact Cubic.State.Paced.shiftEpoch h _ _
      | _ => exact h

/-- An adopted engine has computed no pace. -/
theorem paced_adopt (e : Engine) (s : Socket) : (e.adopt s).1.Paced := by
  cases e with
  | reno => trivial
  | cubic c => exact fun hevaluated => nomatch hevaluated

end Engine

/-! ## Acknowledgments outside of a blackout -/

namespace Connection

/-- Having a paced engine is lasting, whatever the host writes. -/
theorem lasting_paced : Lasting (fun _ => True) fun c => c.engine.Paced where
  ack c phase acked h := by
    rcases c.ack_cases phase acked with ⟨-, heq⟩ | ⟨-, -, heq⟩ | ⟨-, -, heq⟩ <;> rw [heq]
    · exact h
    · rw [engine_reconcile]
      exact h
    · refine Engine.Paced.grow ?_ _ acked
      rw [engine_reconcile]
      exact h
  sample c x h := h.sample c.link.socket x
  reduce c h := h.reduce c.link.effectiveCwnd
  undo _ h := h
  changeState c state h := h.changeState c.link.socket state
  windowEvent c event h := h.windowEvent c.link.socket event
  fire c phase h := by
    rw [engine_fire]
    exact h
  shrink c _ h := h.reduce c.link.effectiveCwnd
  restore _ _ h := h
  advance _ _ _ h := h
  edit _ _ _ _ h := h
  release _ h := h
  adopt c _ := c.engine.paced_adopt c.link.socket
  attach _ _ _ h := h
  renew _ config _ := Engine.paced_ofConfig config

/-- The packets that a call acknowledges. -/
def Call.acked : Call → Nat
  | .ack _ acked => acked
  | _ => 0

/-- The call is an acknowledgment outside of a blackout, or lets time pass. -/
def Call.Grows (c : Connection) : Call → Prop
  | .ack phase _ => c.inBlackout phase = false
  | .advance _ => True
  | _ => False

/-- An acknowledgment grows the window additively, with the pace that the engine has found and that
is at least two. -/
def KeepsPace (c : Connection) : Call → Prop
  | .ack phase acked =>
    c.link.socket.cwndLimited = true →
      ∃ cubic, (c.ack phase acked).engine = .cubic cubic ∧ 2 ≤ cubic.state.pace ∧
        (c.ack phase acked).link.socket =
          Growth.additive cubic.state.pace acked c.link.socket
  | _ => True

/-- A connection with a CUBIC engine and an open window beyond slow start. -/
structure Cruising (c : Connection) : Prop where
  cwnd_pos : 0 < c.link.socket.cwnd
  ssthresh_le : c.link.socket.ssthresh ≤ c.link.socket.cwnd
  cwnd_le_clamp : c.link.socket.cwnd ≤ c.link.socket.clamp
  cwnd_le_maxCount : c.link.socket.cwnd ≤ maxCount
  engine : ∃ cubic, c.engine = .cubic cubic ∧ cubic.state.Paced

variable {c : Connection}

/-- Outside of a blackout, an acknowledgment to a cruising connection keeps pace. -/
theorem Cruising.keepsPace (h : c.Cruising) {call : Call} (hcall : call.Grows c) :
    c.KeepsPace call := by
  cases call with
  | ack phase acked =>
      intro hlimited
      obtain ⟨cubic, hengine, hpaced⟩ := h.engine
      have hopen : c.link.isClosed = false := (Handover.Link.isClosed_eq_false_iff _).mpr h.cwnd_pos
      have hbeyond : c.link.socket.inSlowStart = false := by
        simp only [Socket.inSlowStart, decide_eq_false_iff_not]
        exact Nat.not_lt.mpr h.ssthresh_le
      have hack : c.ack phase acked = c.grow acked := by
        have hout : c.inBlackout phase = false := hcall
        rcases c.ack_cases phase acked with ⟨hidle, -⟩ | ⟨-, hin, -⟩ | ⟨-, -, heq⟩
        · rw [hlimited] at hidle
          cases hidle
        · rw [hout] at hin
          cases hin
        · rw [heq, reconcile_of_open hopen hout]
      have hgrow : c.engine.grow c.link.socket acked =
          (.cubic { cubic with state :=
              cubic.state.update cubic.params c.link.socket.cwnd acked c.link.socket.now },
            Growth.additive
              (cubic.state.update cubic.params c.link.socket.cwnd acked c.link.socket.now).pace
              acked c.link.socket) := by
        rw [hengine]
        simp [Engine.grow, Cubic.grow, Growth.throughSlowStart, hbeyond]
      rw [hack]
      refine ⟨_, congrArg Prod.fst hgrow, ?_, congrArg Prod.snd hgrow⟩
      exact hpaced.minPace_le_update _ _ _ _
  | _ => trivial

/-- The window and the credit of a cruising connection after an acknowledgment outside of a
blackout, and the packets that the acknowledgment adds to them. -/
theorem Cruising.call (h : c.Cruising) {call : Call} (hcall : call.Grows c) :
    (c.call call).Cruising ∧ c.link.socket.cwnd ≤ (c.call call).link.socket.cwnd ∧
      2 * (c.call call).link.socket.cwnd + (c.call call).link.socket.credit ≤
        2 * c.link.socket.cwnd + c.link.socket.credit + call.acked := by
  obtain ⟨cubic, hengine, hpaced⟩ := h.engine
  cases call with
  | ack phase acked =>
      show (c.ack phase acked).Cruising ∧ _ ≤ (c.ack phase acked).link.socket.cwnd ∧
        2 * (c.ack phase acked).link.socket.cwnd + (c.ack phase acked).link.socket.credit ≤ _
      cases hlimited : c.link.socket.cwndLimited with
      | false =>
          have hack : c.ack phase acked = c := by simp [ack, hlimited]
          rw [hack]
          exact ⟨h, Nat.le_refl _, Nat.le_add_right _ _⟩
      | true =>
          obtain ⟨next, hnext, hpace, hsocket⟩ := h.keepsPace hcall hlimited
          obtain ⟨hle, hcount⟩ := Growth.cwnd_additive_bounds h.cwnd_le_clamp h.cwnd_le_maxCount
            next.state.pace acked
          obtain ⟨cwnd, credit, hframe⟩ :=
            Growth.additive_frame next.state.pace acked c.link.socket
          have hclamped := Growth.cwnd_additive_le_clamp next.state.pace acked c.link.socket
          have hthreshold : (Growth.additive next.state.pace acked c.link.socket).ssthresh =
              c.link.socket.ssthresh := by rw [hframe]
          rw [hsocket]
          refine ⟨⟨?_, ?_, ?_, ?_, next, hnext, fun _ => hpace⟩, hle,
            Growth.weight_additive_le hpace acked c.link.socket⟩ <;> rw [hsocket]
          · exact Nat.lt_of_lt_of_le h.cwnd_pos hle
          · rw [hthreshold]
            exact Nat.le_trans h.ssthresh_le hle
          · exact hclamped
          · exact hcount
  | advance d =>
      exact ⟨⟨h.cwnd_pos, h.ssthresh_le, h.cwnd_le_clamp, h.cwnd_le_maxCount, h.engine⟩,
        Nat.le_refl _, Nat.le_refl _⟩
  | _ => exact hcall.elim

/-- Acknowledgments to a cruising connection keep pace, and together they grow the window by at most
one packet per two packets acknowledged. -/
theorem Cruising.callAll {calls : List Call} (h : c.Cruising)
    (hcalls : Along (fun c call => call.Grows c) c calls) :
    Along KeepsPace c calls ∧ c.link.socket.cwnd ≤ (c.callAll calls).link.socket.cwnd ∧
      2 * (c.callAll calls).link.socket.cwnd + (c.callAll calls).link.socket.credit ≤
        2 * c.link.socket.cwnd + c.link.socket.credit + (calls.map Call.acked).sum := by
  induction calls generalizing c with
  | nil => exact ⟨trivial, Nat.le_refl _, Nat.le_refl _⟩
  | cons call rest ih =>
      obtain ⟨hnext, hle, hweight⟩ := h.call hcalls.1
      obtain ⟨hpaces, hles, hweights⟩ := ih hnext hcalls.2
      rw [callAll_cons, List.map_cons, List.sum_cons]
      exact ⟨⟨h.keepsPace hcalls.1, hpaces⟩, Nat.le_trans hle hles, by omega⟩

end Connection

namespace Session

/-- An engine that any history has led to, on any socket whose window is open, beyond slow start and
within its clamp, answers acknowledgments outside of a blackout by growing the window additively
with a pace of at least two. Together they grow it by at most one packet per two packets
acknowledged, those that waited as credit and those that still do included. -/
theorem growth_le_half_acked {config : Config} {initial : Socket.Edit}
    {features : Socket.Features} {source : TimeSource} {tickerAvailable : Bool} {s : Session}
    (hcreate : create config initial features source tickerAvailable = .ok s)
    (history : List Operation) {cubic : Cubic}
    (hengine : (s.performAll history).connection.engine = .cubic cubic) {socket : Socket}
    (hopen : 1 ≤ socket.cwnd) (hthreshold : socket.ssthresh ≤ socket.cwnd)
    (hclamp : socket.cwnd ≤ socket.clamp) (hcount : socket.cwnd ≤ maxCount)
    (calls : List Connection.Call)
    (hcalls : Connection.Along (fun c call => call.Grows c)
      ((s.performAll history).connection.mapSocket fun _ => socket) calls) :
    let c := (s.performAll history).connection.mapSocket fun _ => socket
    let grown := (c.callAll calls).socket
    Connection.Along Connection.KeepsPace c calls ∧ socket.cwnd ≤ grown.cwnd ∧
      2 * (grown.cwnd - socket.cwnd) + grown.credit ≤
        socket.credit + (calls.map Connection.Call.acked).sum := by
  intro c grown
  have hcreated : s.connection.engine.Paced := by
    rw [eq_of_create hcreate]
    exact Engine.paced_ofConfig config
  have hpaced : (s.performAll history).connection.engine.Paced :=
    performAll_of_lasting (P := fun c => c.engine.Paced) Connection.lasting_paced hcreated
      fun op _ => op.edits_any
  rw [hengine] at hpaced
  have hcruising : c.Cruising := ⟨hopen, hthreshold, hclamp, hcount, cubic, hengine, hpaced⟩
  obtain ⟨hpaces, hle, hweight⟩ := hcruising.callAll hcalls
  refine ⟨hpaces, hle, ?_⟩
  have hweight' : 2 * grown.cwnd + grown.credit ≤
      2 * socket.cwnd + socket.credit + (calls.map Connection.Call.acked).sum := hweight
  have hle' : socket.cwnd ≤ grown.cwnd := hle
  omega

/-- The engine of the example, after a loss of its 40 packets, on a socket with credit left over
from a larger pace. -/
theorem growth_le_half_acked_atHandover :
    let socket : Socket := { cwnd := 50, ssthresh := 20, credit := 30 }
    let calls : List Connection.Call :=
      [.ack 13000000000 5, .advance 2000000, .ack 13002000000 1]
    let c := (atHandover.performAll [.adopt .connection, .recalc]).connection.mapSocket
      fun _ => socket
    let grown := (c.callAll calls).socket
    Connection.Along Connection.KeepsPace c calls ∧ socket.cwnd ≤ grown.cwnd ∧
      2 * (grown.cwnd - socket.cwnd) + grown.credit ≤
        socket.credit + (calls.map Connection.Call.acked).sum :=
  growth_le_half_acked create_atHandover [.adopt .connection, .recalc] rfl (by decide) (by decide)
    (by decide) (by decide) _ ⟨rfl, trivial, rfl, trivial⟩

end Session

end LowOrbit
