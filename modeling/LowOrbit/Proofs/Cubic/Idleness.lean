import LowOrbit.Proofs.Cubic.Aging
import LowOrbit.Proofs.Rounds

/-!
# Idle time and the age of an epoch

If the time on the socket never goes back, then no time that the cubic engine keeps lies in the
future (`Cubic.Past`). Of an epoch the engine keeps the start only, and moves it forward over idle
time. Along a run we keep the accounts instead (`Connection.Ledger`): the time that has passed since
the epoch opened, and the idle time that was taken out of it. What is left is the age of the epoch,
and thereby the time at which the curve is evaluated (`Connection.age_eq_ledger`).
-/

namespace LowOrbit

/-! ## Nothing in the future -/

namespace Cubic.State

variable {st : State} {now : Nat}

/-- The epoch and the last evaluation of the curve do not lie in the future. -/
structure Past (now : Nat) (st : State) : Prop where
  epochStart : st.Timely now
  lastUpdate : ∀ t ∈ st.lastUpdate, t ≤ now

/-- What is not in the future stays so. -/
theorem Past.mono (h : st.Past now) {later : Nat} (hle : now ≤ later) : st.Past later where
  epochStart start hstart := (h.epochStart start hstart).trans hle
  lastUpdate t ht := (h.lastUpdate t ht).trans hle

/-- No report brings a time from the future. -/
theorem Past.hear (h : st.Past now) (p : Params) (r : Report) : (st.hear p now r).Past now := by
  refine ⟨h.epochStart.hear p r, ?_⟩
  cases r with
  | ack cwnd acked =>
      intro t ht
      obtain ⟨-, hkept | hevaluated⟩ := update_frame p cwnd acked now st
      · exact h.lastUpdate t (hkept.symm.trans ht)
      · exact (Option.some.inj (hevaluated.symm.trans ht)).ge
  | loss cwnd => exact h.lastUpdate
  | delay micros =>
      show ∀ t ∈ (st.recordDelay micros).lastUpdate, t ≤ now
      unfold recordDelay
      split <;> exact h.lastUpdate
  | idle time =>
      show ∀ t ∈ (st.shiftEpoch time now).lastUpdate, t ≤ now
      unfold shiftEpoch
      split
      · split <;> exact h.lastUpdate
      · exact h.lastUpdate
  | restart => exact nofun

end Cubic.State

namespace Hystart

variable {h : Hystart} {now : Nat} {s : Socket}

/-- The round and the last acknowledgment of the train do not lie in the future. -/
structure Past (now : Nat) (h : Hystart) : Prop where
  roundStart : ∀ t ∈ h.roundStart, t ≤ now
  lastAck : ∀ t ∈ h.lastAck, t ≤ now

/-- What is not in the future stays so. -/
theorem Past.mono (hh : h.Past now) {later : Nat} (hle : now ≤ later) : h.Past later where
  roundStart t ht := (hh.roundStart t ht).trans hle
  lastAck t ht := (hh.lastAck t ht).trans hle

/-- A reset leaves no times. -/
theorem past_reset (now : Nat) (h : Hystart) : h.reset.Past now := ⟨nofun, nofun⟩

/-- A round begins now. -/
theorem past_resetRound (h : Hystart) (s : Socket) : (h.resetRound s).Past s.now :=
  ⟨fun _ ht => (Option.some.inj ht).ge, fun _ ht => (Option.some.inj ht).ge⟩

/-- A sample brings no time from the future. -/
theorem Past.sample (hh : h.Past s.now) (delay delayMin : Nat) :
    (h.sample s delay delayMin).Past s.now := by
  have hentered : (h.enterRound s).Past s.now := by
    unfold enterRound
    split
    · exact past_resetRound h s
    · exact hh
  obtain ⟨found, counters, hframe⟩ := h.sample_frame s delay delayMin
  rw [hframe]
  refine ⟨hentered.roundStart, ?_⟩
  dsimp only
  split
  · exact fun _ ht => (Option.some.inj ht).ge
  · exact hentered.lastAck

end Hystart

/-- No time that the engine keeps lies in the future. -/
structure Cubic.Past (now : Nat) (x : Cubic) : Prop where
  state : x.state.Past now
  hystart : x.hystart.Past now

namespace Connection

variable {c : Connection} {x y : Cubic} {e : Event}

/-- Nor does any event make it so. -/
theorem past_cubicAfter (hx : c.engine = .cubic x) (h : x.Past c.socket.now)
    (hrenew : ∀ config, e ≠ .renew config) : (c.cubicAfter x e).Past c.socket.now := by
  refine ⟨?_, ?_⟩
  · obtain ⟨y, hy, -, hstate⟩ := state_handle hx hrenew
    obtain rfl : c.cubicAfter x e = y :=
      Engine.cubic.inj ((cubic_handle hx hrenew).symm.trans hy)
    rw [hstate]
    cases c.report? x e with
    | none => exact h.state
    | some r => exact h.state.hear x.params r
  · cases e with
    | renew config => exact absurd rfl (hrenew config)
    | ack phase acked =>
        simp only [cubicAfter, Cubic.grow]
        split
        · split <;> exact h.hystart
        · exact h.hystart
    | sample sample =>
        show (x.sample c.socket sample).hystart.Past c.socket.now
        unfold Cubic.sample
        split
        · dsimp only
          split
          · exact h.hystart.sample _ _
          · exact h.hystart
        · exact h.hystart
    | adopt handover =>
        show (x.adopt c.socket).hystart.Past c.socket.now
        unfold Cubic.adopt
        dsimp only
        split
        · exact Hystart.past_resetRound _ c.socket
        · exact Hystart.past_reset _ _
    | changeState state =>
        cases state with
        | loss => exact Hystart.past_resetRound _ c.socket
        | _ => exact h.hystart
    | windowEvent event => cases event <;> exact h.hystart
    | _ => exact h.hystart

/-- The clock does not go back at any of the events. -/
def Forward (c : Connection) : List Event → Prop
  | [] => True
  | e :: rest => c.socket.now ≤ (c.handle e).socket.now ∧ (c.handle e).Forward rest

/-- Whether the clock goes back can be told by running the events. -/
instance decidableForward : (c : Connection) → (events : List Event) → Decidable (c.Forward events)
  | _, [] => .isTrue trivial
  | c, e :: rest =>
    have := decidableForward (c.handle e) rest
    inferInstanceAs (Decidable (_ ∧ _))

/-- No time that the cubic engine of the connection keeps, if it has one, lies in the future. -/
def Past (c : Connection) : Prop := ∀ x, c.engine = .cubic x → x.Past c.socket.now

/-- An engine as configured keeps no times. -/
theorem past_ofConfig {config : Config} (hx : Engine.ofConfig config = .cubic x) (now : Nat) :
    x.Past now := by
  rw [eq_cubic_of_ofConfig hx]
  exact ⟨⟨nofun, nofun⟩, ⟨nofun, nofun⟩⟩

/-- Events at which the clock does not go back bring no time from the future. -/
theorem Past.handle (h : c.Past) (hclock : c.socket.now ≤ (c.handle e).socket.now) :
    (c.handle e).Past := by
  intro y hy
  by_cases hrenew : ∃ config, e = .renew config
  · obtain ⟨config, rfl⟩ := hrenew
    exact past_ofConfig hy _
  · have hkept : ∀ config, e ≠ .renew config := fun config h => hrenew ⟨config, h⟩
    cases hengine : c.engine with
    | reno => exact nomatch (reno_handle hengine hkept).symm.trans hy
    | cubic x =>
        obtain rfl : c.cubicAfter x e = y :=
          Engine.cubic.inj ((cubic_handle hengine hkept).symm.trans hy)
        have hpast := past_cubicAfter hengine (h x hengine) hkept
        exact ⟨hpast.state.mono hclock, hpast.hystart.mono hclock⟩

/-- Nor do any number of them. -/
theorem Past.handleAll {events : List Event} (h : c.Past) (hforward : c.Forward events) :
    (c.handleAll events).Past := by
  induction events generalizing c with
  | nil => exact h
  | cons e rest ih => exact ih (h.handle hforward.1) hforward.2

/-! ## Idle time -/

/-- A transmission after idle time moves the start of an open epoch towards the present, and changes
nothing else. -/
theorem handle_sendStart (hx : c.engine = .cubic x) {start : Nat}
    (hopen : x.state.epochStart = some start) (hpast : start ≤ c.socket.now) :
    c.handle (.windowEvent .sendStart) =
      { c with engine := .cubic { x with state := { x.state with
          epochStart := some (start + min (c.socket.now - start)
            (c.socket.now - c.socket.lastSend)) } } } := by
  have hstate : x.state.shiftEpoch (c.socket.now - c.socket.lastSend) c.socket.now =
      { x.state with
        epochStart := some (start + min (c.socket.now - start)
          (c.socket.now - c.socket.lastSend)) } := by
    unfold Cubic.State.shiftEpoch
    rw [hopen]
    dsimp only
    split
    · rename_i hnone
      rw [hnone, Nat.min_zero, Nat.add_zero, ← hopen]
    · have hmoved : min (start + (c.socket.now - c.socket.lastSend)) c.socket.now =
          start + min (c.socket.now - start) (c.socket.now - c.socket.lastSend) := by omega
      rw [hmoved]
  show { c with engine := c.engine.windowEvent c.socket .sendStart } = _
  rw [hx]
  show { c with engine := .cubic { x with state := x.state.shiftEpoch _ _ } } = _
  rw [hstate]

/-- Between epochs it changes nothing. -/
theorem handle_sendStart_of_closed (hx : c.engine = .cubic x)
    (hclosed : x.state.epochStart = none) : c.handle (.windowEvent .sendStart) = c := by
  have hstate (idle now : Nat) : x.state.shiftEpoch idle now = x.state := by
    unfold Cubic.State.shiftEpoch
    rw [hclosed]
  show { c with engine := c.engine.windowEvent c.socket .sendStart } = c
  rw [hx]
  show { c with engine := .cubic { x with state := x.state.shiftEpoch _ _ } } = c
  rw [hstate, ← hx]

/-! ## The accounts of an epoch -/

/-- The start of the epoch, if one is open. -/
def epochStart? (c : Connection) : Option Nat :=
  match c.engine with
  | .reno => none
  | .cubic x => x.state.epochStart

/-- The idle time that an event takes out of an epoch with the given start: the time since the last
transmission, but not more than the age of the epoch. -/
def idleTaken (s : Socket) (start : Nat) : Event → Nat
  | .windowEvent .sendStart => min (s.now - start) (s.now - s.lastSend)
  | _ => 0

/-- The accounts of an epoch: the time that has passed since it opened, and the idle time that has
been taken out of it. -/
structure Ledger where
  elapsed : Nat := 0
  idle : Nat := 0
  deriving DecidableEq, Repr

/-- The accounts after an event. They are empty when an epoch opens, and while none is open. -/
def book (c : Connection) (l : Ledger) (e : Event) : Ledger :=
  match c.epochStart?, (c.handle e).epochStart? with
  | some start, some _ =>
    { elapsed := l.elapsed + ((c.handle e).socket.now - c.socket.now)
      idle := l.idle + idleTaken c.socket start e }
  | _, _ => {}

/-- The accounts after events in order. -/
def ledger (c : Connection) (l : Ledger) : List Event → Ledger
  | [] => l
  | e :: rest => (c.handle e).ledger (c.book l e) rest

/-- An acknowledgment reaches the state as one of packets at a window, or not at all. -/
theorem state_ack (hx : c.engine = .cubic x) (phase acked : Nat) :
    (c.cubicAfter x (.ack phase acked)).state = x.state ∨
      ∃ cwnd rest, (c.cubicAfter x (.ack phase acked)).state =
        x.state.update x.params cwnd rest c.socket.now := by
  obtain ⟨y, hy, -, hstate⟩ := state_handle (e := .ack phase acked) hx nofun
  obtain rfl : c.cubicAfter x (.ack phase acked) = y :=
    Engine.cubic.inj ((cubic_handle (e := .ack phase acked) hx nofun).symm.trans hy)
  rw [hstate]
  cases hreport : c.report? x (.ack phase acked) with
  | none => exact .inl rfl
  | some r =>
      simp only [report?, Cubic.ackReport?] at hreport
      split at hreport
      · split at hreport
        · rw [← Option.some.inj hreport]
          exact .inr ⟨_, _, rfl⟩
        · cases hreport
      · cases hreport

/-- What an event does to the epoch: there is none afterwards, or it moves over idle time only, or
it opens now. -/
theorem epochStart_cubicAfter (hx : c.engine = .cubic x) (htimely : x.state.Timely c.socket.now)
    (hrenew : ∀ config, e ≠ .renew config) :
    (c.cubicAfter x e).state.epochStart = none ∨
      (∃ start, x.state.epochStart = some start ∧
        (c.cubicAfter x e).state.epochStart = some (start + idleTaken c.socket start e)) ∨
      x.state.epochStart = none ∧
        (c.cubicAfter x e).state.epochStart = some c.socket.now ∧
        (c.handle e).socket.now = c.socket.now := by
  have hkept (hidle : ∀ start, idleTaken c.socket start e = 0)
      (hsame : (c.cubicAfter x e).state.epochStart = x.state.epochStart) :
      (c.cubicAfter x e).state.epochStart = none ∨
        (∃ start, x.state.epochStart = some start ∧
          (c.cubicAfter x e).state.epochStart = some (start + idleTaken c.socket start e)) ∨
        x.state.epochStart = none ∧
          (c.cubicAfter x e).state.epochStart = some c.socket.now ∧
          (c.handle e).socket.now = c.socket.now := by
    cases hopen : x.state.epochStart with
    | none => exact .inl (hsame.trans hopen)
    | some start =>
        refine .inr (.inl ⟨start, rfl, ?_⟩)
        rw [hsame, hopen, hidle, Nat.add_zero]
  cases e with
  | renew config => exact absurd rfl (hrenew config)
  | adopt handover => exact .inl rfl
  | reduce => exact .inl rfl
  | shrink features => exact .inl rfl
  | ack phase acked =>
      rcases state_ack hx phase acked with hsame | ⟨cwnd, rest, hupdate⟩
      · exact hkept (fun _ => rfl) (congrArg Cubic.State.epochStart hsame)
      · have hepoch := Cubic.State.epoch_update x.params cwnd rest c.socket.now x.state
        rw [← hupdate] at hepoch
        rcases hepoch with hsame | hensured
        · exact hkept (fun _ => rfl) hsame.epochStart_eq
        · replace hensured := hensured.epochStart_eq
          unfold Cubic.State.ensureEpoch at hensured
          split at hensured
          · exact hkept (fun _ => rfl) hensured
          · rename_i hclosed
            obtain ⟨grown, credit, rto, wakeUps, hframe⟩ := c.ack_frame phase acked
            have hnow : (c.handle (.ack phase acked)).socket.now = c.socket.now := by
              show (c.ack phase acked).link.socket.now = _
              rw [hframe]
              rfl
            exact .inr (.inr ⟨Option.not_isSome_iff_eq_none.mp hclosed, hensured, hnow⟩)
  | sample sample =>
      have hsame : (x.sample c.socket sample).state.epochStart = x.state.epochStart := by
        unfold Cubic.sample
        split
        · exact (Cubic.State.sameEpoch_recordDelay _ _).epochStart_eq
        · rfl
      exact hkept (fun _ => rfl) hsame
  | changeState state =>
      cases state with
      | loss => exact .inl rfl
      | _ => exact hkept (fun _ => rfl) rfl
  | windowEvent event =>
      cases event with
      | sendStart =>
          cases hopen : x.state.epochStart with
          | none =>
              have hafter := cubic_handle (e := .windowEvent .sendStart) hx nofun
              rw [handle_sendStart_of_closed hx hopen, hx] at hafter
              exact .inl ((Engine.cubic.inj hafter) ▸ hopen)
          | some start =>
              have hafter := cubic_handle (e := .windowEvent .sendStart) hx nofun
              rw [handle_sendStart hx hopen (htimely start hopen)] at hafter
              exact .inr (.inl ⟨start, rfl, by rw [← Engine.cubic.inj hafter]; rfl⟩)
      | _ => exact hkept (fun _ => rfl) rfl
  | _ => exact hkept (fun _ => rfl) rfl

/-- The accounts of an open epoch balance: from its start, with the time that has passed, one comes
to the present, and the idle time on top of it. -/
def Balanced (c : Connection) (l : Ledger) : Prop :=
  ∀ start ∈ c.epochStart?, start + l.elapsed = c.socket.now + l.idle

/-- An engine as configured has no epoch. -/
theorem balanced_of_closed (hclosed : c.epochStart? = none) (l : Ledger) : c.Balanced l := by
  intro start hstart
  rw [hclosed] at hstart
  cases hstart

/-- Accounts that balance do so after any event at which the clock does not go back. -/
theorem Balanced.handle {l : Ledger} (h : c.Balanced l) (hpast : c.Past)
    (hclock : c.socket.now ≤ (c.handle e).socket.now) : (c.handle e).Balanced (c.book l e) := by
  by_cases hrenew : ∃ config, e = .renew config
  · obtain ⟨config, rfl⟩ := hrenew
    refine balanced_of_closed ?_ _
    show (match Engine.ofConfig config with
      | .reno => none
      | .cubic x => x.state.epochStart) = none
    cases hengine : Engine.ofConfig config with
    | reno => rfl
    | cubic x =>
        rw [eq_cubic_of_ofConfig hengine]
        rfl
  · have hkept : ∀ config, e ≠ .renew config := fun config h => hrenew ⟨config, h⟩
    cases hx : c.engine with
    | reno =>
        refine balanced_of_closed ?_ _
        unfold epochStart?
        rw [reno_handle hx hkept]
    | cubic x =>
        have hbefore : c.epochStart? = x.state.epochStart := by
          unfold epochStart?
          rw [hx]
        have hafter : (c.handle e).epochStart? = (c.cubicAfter x e).state.epochStart := by
          unfold epochStart?
          rw [cubic_handle hx hkept]
        rcases epochStart_cubicAfter hx (hpast x hx).state.epochStart hkept with
          hnone | ⟨start, hopen, hmoved⟩ | ⟨hclosed, hopened, hnow⟩
        · exact balanced_of_closed (hafter.trans hnone) _
        · have hbalance := h start (hbefore.trans hopen)
          intro start' hstart'
          rw [hafter, hmoved] at hstart'
          obtain rfl := Option.some.inj hstart'
          unfold book
          rw [hbefore, hopen, hafter, hmoved]
          dsimp only
          omega
        · intro start' hstart'
          rw [hafter, hopened] at hstart'
          obtain rfl := Option.some.inj hstart'
          unfold book
          rw [hbefore, hclosed, hnow]

/-- So they do along a run whose clock does not go back. -/
theorem Balanced.handleAll {events : List Event} {l : Ledger} (h : c.Balanced l) (hpast : c.Past)
    (hforward : c.Forward events) : (c.handleAll events).Balanced (c.ledger l events) := by
  induction events generalizing c l with
  | nil => exact h
  | cons e rest ih =>
      exact ih (h.handle hpast hforward.1) (hpast.handle hforward.1) hforward.2

/-- After a run whose clock does not go back, none of the times that the cubic engine keeps is later
than the time on the socket. A transmission takes the time since the last one out of the age of an
open epoch, but not more than the age, and changes nothing else, and between epochs it changes
nothing at all. The age of an open epoch is therefore the time that has passed since it opened, less
the idle time taken out of it, and this is the age at which an evaluation puts the curve. -/
theorem age_eq_ledger {config : Config} {socket : Socket}
    (hcreate : Connection.create config socket = .ok c) {events : List Event}
    (hforward : c.Forward events) {x : Cubic} (hx : (c.handleAll events).engine = .cubic x) :
    let d := c.handleAll events
    let now := d.socket.now
    ((∀ t ∈ x.state.epochStart, t ≤ now) ∧ (∀ t ∈ x.state.lastUpdate, t ≤ now) ∧
        (∀ t ∈ x.hystart.roundStart, t ≤ now) ∧ ∀ t ∈ x.hystart.lastAck, t ≤ now) ∧
      (x.state.epochStart = none → d.handle (.windowEvent .sendStart) = d) ∧
      ∀ start, x.state.epochStart = some start →
        (∃ start', start' ≤ now ∧
          now - start' = (now - start) - min (now - start) (now - d.socket.lastSend) ∧
          d.handle (.windowEvent .sendStart) =
            { d with
              engine := .cubic { x with state := { x.state with epochStart := some start' } } }) ∧
        let l := c.ledger {} events
        l.idle ≤ l.elapsed ∧ now - start = l.elapsed - l.idle ∧
          ∀ cwnd acked, (x.state.evaluate x.params cwnd acked now).pace =
            let pace := Cubic.paceTowards cwnd (x.params.target x.state.origin x.state.k
              (Cubic.curveTime (l.elapsed - l.idle) x.state.delayMin))
            if x.state.lastMax = 0 then min pace 20 else pace := by
  intro d now
  have hnew : c.Past := by
    intro y hy
    exact past_ofConfig ((engine_create hcreate).symm.trans hy) _
  have hclosed : c.epochStart? = none := by
    unfold epochStart?
    split
    · rfl
    · rename_i y hy
      rw [eq_cubic_of_ofConfig ((engine_create hcreate).symm.trans hy)]
      rfl
  have hpast : x.Past now := (hnew.handleAll hforward) x hx
  have hbalanced : d.Balanced (c.ledger {} events) :=
    (balanced_of_closed hclosed {}).handleAll hnew hforward
  refine ⟨⟨hpast.state.epochStart, hpast.state.lastUpdate, hpast.hystart.roundStart,
    hpast.hystart.lastAck⟩, fun hnone => handle_sendStart_of_closed hx hnone, fun start hopen => ?_⟩
  have hle : start ≤ now := hpast.state.epochStart start hopen
  refine ⟨⟨_, ?_, ?_, handle_sendStart hx hopen hle⟩, ?_⟩
  · show start + min (now - start) (now - d.socket.lastSend) ≤ now
    omega
  · show now - (start + min (now - start) (now - d.socket.lastSend)) = _
    omega
  · intro l
    have hbalance : start + l.elapsed = now + l.idle := by
      refine hbalanced start ?_
      unfold epochStart?
      rw [show d.engine = .cubic x from hx]
      exact hopen
    have hage : now - start = l.elapsed - l.idle := by omega
    refine ⟨by omega, hage, fun cwnd acked => ?_⟩
    rw [Cubic.State.evaluate_of_open hopen, ← hage]
    show x.state.curvePace x.params cwnd now = _
    unfold Cubic.State.curvePace
    rw [Cubic.State.curveTarget_of_open hopen]
    rfl

/-- An epoch opens at time 0. After 2 s, of which the last 1.5 s were idle, there is a transmission,
and a second later the epoch is 1.5 s old. -/
theorem age_eq_ledger_afterLoss :
    let events : List Event := [.reduce, .edit .full { cwnd := some 56, ssthresh := some 56 },
      .ack 0 1, .advance .full 2000000000, .edit .full { lastSend := some 500000000 },
      .windowEvent .sendStart, .advance .full 1000000000]
    let c : Connection :=
      { link := { socket := { cwnd := 80 } }, engine := Engine.ofConfig {},
        schedule := Handover.Schedule.ofConfig {} }
    Connection.create {} { cwnd := 80 } = .ok c ∧ c.Forward events ∧
      c.ledger {} events = { elapsed := 3000000000, idle := 1500000000 } ∧
      ∃ x, (c.handleAll events).engine = .cubic x ∧ x.state.epochStart = some 1500000000 ∧
        (c.handleAll events).socket.now - 1500000000 = 1500000000 := by
  intro events c
  have hcreate : Connection.create {} { cwnd := 80 } = .ok c := rfl
  have hforward : c.Forward events := by decide
  have hledger : c.ledger {} events = { elapsed := 3000000000, idle := 1500000000 } := by decide
  obtain ⟨-, -, hopen⟩ := age_eq_ledger hcreate hforward rfl
  obtain ⟨-, -, hage, -⟩ := hopen 1500000000 (by decide)
  rw [hledger] at hage
  exact ⟨hcreate, hforward, hledger, _, rfl, by decide, hage⟩

end Connection

end LowOrbit
