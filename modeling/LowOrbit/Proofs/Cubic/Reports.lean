import LowOrbit.Proofs.Checked.Connection

/-!
# What reaches the state of the cubic engine

Of all that happens to a connection, the state of a cubic engine hears five kinds of reports. Which
one an event makes, if any, depends on the connection (`Connection.report?`), and it alone says what
becomes of the state (`Connection.state_handle`). An invariant of the state is therefore one that
survives every report: read `Connection.Reachable.state_keeps` first.
-/

namespace LowOrbit

namespace Cubic

/-- What the state of a cubic engine gets to know. -/
inductive Report where
  /-- Packets acknowledged at a window in congestion avoidance. -/
  | ack (cwnd acked : Nat)
  /-- A loss at a window. -/
  | loss (cwnd : Nat)
  /-- A round trip in microseconds that is taken into account. -/
  | delay (micros : Nat)
  /-- A transmission after idle time. -/
  | idle (time : Nat)
  /-- The engine starts over. -/
  | restart
  deriving DecidableEq, Repr

/-- The numbers of a report are counts. -/
def Report.Fits : Report → Prop
  | .ack cwnd acked => cwnd ≤ maxCount ∧ acked ≤ maxCount
  | .loss cwnd => cwnd ≤ maxCount
  | .delay micros => micros ≤ maxCount
  | .idle _ | .restart => True

/-- The state after a report at time `now`. -/
def State.hear (p : Params) (now : Nat) (st : State) : Report → State
  | .ack cwnd acked => st.update p cwnd acked now
  | .loss cwnd => st.reduce p cwnd
  | .delay micros => st.recordDelay micros
  | .idle time => st.shiftEpoch time now
  | .restart => {}

/-- The report of an acknowledgment, unless slow start uses up all of it. -/
def ackReport? (s : Socket) (acked : Nat) : Option Report :=
  match Growth.throughSlowStart s acked with
  | (s, some rest) => some (.ack s.cwnd rest)
  | (_, none) => none

variable {c : Cubic} {s : Socket}

/-- The parameters and the state of the engine after an acknowledgment. -/
theorem state_grow (c : Cubic) (s : Socket) (acked : Nat) :
    (c.grow s acked).1.params = c.params ∧
      (c.grow s acked).1.state =
        (ackReport? s acked).elim c.state (c.state.hear c.params s.now) := by
  obtain ⟨cwnd, hframe⟩ := Growth.throughSlowStart_frame s acked
  unfold grow ackReport?
  rcases hstart : Growth.throughSlowStart s acked with ⟨started, _ | rest⟩
  · exact ⟨rfl, rfl⟩
  · rw [hstart] at hframe
    have hnow : started.now = s.now := by rw [show started = { s with cwnd := cwnd } from hframe]
    refine ⟨rfl, ?_⟩
    show c.state.update c.params started.cwnd rest started.now =
      c.state.update c.params started.cwnd rest s.now
    rw [hnow]

/-- The report of an acknowledgment that is a count, to a window that is one, fits. -/
theorem fits_ackReport {acked : Nat} {r : Report} (hcwnd : s.cwnd ≤ maxCount)
    (hacked : acked ≤ maxCount) (h : ackReport? s acked = some r) : r.Fits := by
  have hgrown := Growth.cwnd_throughSlowStart_le hcwnd acked
  unfold ackReport? at h
  rcases hstart : Growth.throughSlowStart s acked with ⟨started, _ | rest⟩
  · simp [hstart] at h
  · have hrest : rest ≤ acked := Growth.rest_throughSlowStart_le (congrArg Prod.snd hstart)
    rw [hstart] at h hgrown
    rw [← Option.some.inj h]
    exact ⟨hgrown, hrest.trans hacked⟩

end Cubic

namespace Connection

open LowOrbit.Cubic (Report Params State)

/-- The report that an event makes to the cubic engine `x` of a connection. -/
def report? (c : Connection) (x : Cubic) : Event → Option Report
  | .ack phase acked =>
    if c.link.socket.cwndLimited && !c.inBlackout phase then
      Cubic.ackReport? (c.reconcile phase).link.socket acked
    else none
  | .sample sample => (x.acceptedDelay? c.link.socket sample).map .delay
  | .reduce | .shrink _ => some (.loss c.link.effectiveCwnd)
  | .windowEvent .sendStart => some (.idle (c.link.socket.now - c.link.socket.lastSend))
  | .adopt _ | .renew _ | .changeState .loss => some .restart
  | _ => none

variable {c : Connection} {x : Cubic} {e : Event}

/-- The cubic engine `x` of a connection after an event. -/
def cubicAfter (c : Connection) (x : Cubic) : Event → Cubic
  | .ack phase acked =>
    if c.link.socket.cwndLimited && !c.inBlackout phase then
      (x.grow (c.reconcile phase).link.socket acked).1
    else x
  | .sample sample => x.sample c.link.socket sample
  | .reduce | .shrink _ => x.reduce c.link.effectiveCwnd
  | .windowEvent .sendStart => x.skipIdle c.link.socket
  | .adopt _ => x.adopt c.link.socket
  | .changeState .loss => x.startOver c.link.socket
  | _ => x

/-- An acknowledgment reaches the cubic engine outside of a blackout, if the window limits the
sender. -/
theorem cubic_ack (hx : c.engine = .cubic x) (phase acked : Nat) :
    (c.ack phase acked).engine = .cubic (c.cubicAfter x (.ack phase acked)) := by
  have hreconciled : (c.reconcile phase).engine = .cubic x := by rw [engine_reconcile, hx]
  rcases c.ack_cases phase acked with
    ⟨hidle, heq⟩ | ⟨hlimited, hin, heq⟩ | ⟨hlimited, hout, heq⟩ <;> rw [heq]
  · simp [cubicAfter, hidle, hx]
  · simp [cubicAfter, hlimited, hin, hreconciled]
  · simp only [cubicAfter, hlimited, hout, Bool.not_false, Bool.and_true, if_true]
    show ((c.reconcile phase).engine.grow (c.reconcile phase).link.socket acked).1 = _
    rw [hreconciled]
    rfl

/-- An engine that is cubic stays so at an event. Only a new configuration replaces it. -/
theorem cubic_handle (hx : c.engine = .cubic x) (hrenew : ∀ config, e ≠ .renew config) :
    (c.handle e).engine = .cubic (c.cubicAfter x e) := by
  obtain ⟨link, engine, schedule, timer⟩ := c
  subst hx
  cases e with
  | renew config => exact absurd rfl (hrenew config)
  | ack phase acked => exact cubic_ack rfl phase acked
  | fire phase => exact engine_fire ⟨link, .cubic x, schedule, timer⟩ phase
  | adopt handover => cases handover <;> rfl
  | changeState state => cases state <;> rfl
  | windowEvent event => cases event <;> rfl
  | _ => rfl

/-- A sample reaches the cubic engine. -/
theorem cubic_sample (hx : c.engine = .cubic x) (sample : RttSample) :
    (c.handle (.sample sample)).engine = .cubic (x.sample c.socket sample) :=
  cubic_handle hx nofun

/-- At an event, the state of a cubic engine changes by the report that the event makes, and its
parameters stay. -/
theorem state_handle (hx : c.engine = .cubic x) (hrenew : ∀ config, e ≠ .renew config) :
    ∃ y, (c.handle e).engine = .cubic y ∧ y.params = x.params ∧
      y.state = (c.report? x e).elim x.state (x.state.hear x.params c.socket.now) := by
  refine ⟨_, cubic_handle hx hrenew, ?_⟩
  cases e with
  | renew config => exact absurd rfl (hrenew config)
  | ack phase acked =>
      obtain ⟨cwnd, rto, wakeUps, hframe⟩ := c.reconcile_frame phase
      have hnow : (c.reconcile phase).link.socket.now = c.socket.now := by
        rw [hframe]
        rfl
      simp only [cubicAfter, report?]
      split
      · obtain ⟨hparams, hstate⟩ := x.state_grow (c.reconcile phase).link.socket acked
        exact ⟨hparams, hnow ▸ hstate⟩
      · exact ⟨rfl, rfl⟩
  | sample sample =>
      show (x.sample c.link.socket sample).params = _ ∧ (x.sample c.link.socket sample).state =
        ((x.acceptedDelay? c.link.socket sample).map Report.delay).elim x.state
          (x.state.hear x.params c.socket.now)
      unfold Cubic.sample
      cases x.acceptedDelay? c.link.socket sample <;> exact ⟨rfl, rfl⟩
  | changeState state => cases state <;> exact ⟨rfl, rfl⟩
  | windowEvent event => cases event <;> exact ⟨rfl, rfl⟩
  | _ => exact ⟨rfl, rfl⟩

/-- An engine that is not cubic stays so, unless a new configuration replaces it. -/
theorem reno_handle (hreno : c.engine = .reno) (hrenew : ∀ config, e ≠ .renew config) :
    (c.handle e).engine = .reno := by
  obtain ⟨link, engine, schedule, timer⟩ := c
  subst hreno
  cases e with
  | renew config => exact absurd rfl (hrenew config)
  | ack phase acked =>
      have hreconciled := engine_reconcile ⟨link, .reno, schedule, timer⟩ phase
      rcases ack_cases ⟨link, .reno, schedule, timer⟩ phase acked with
        ⟨-, heq⟩ | ⟨-, -, heq⟩ | ⟨-, -, heq⟩ <;> rw [handle, heq]
      · exact hreconciled
      · show (Engine.grow _ _ _).1 = _
        rw [hreconciled]
        rfl
  | fire phase => exact engine_fire ⟨link, .reno, schedule, timer⟩ phase
  | adopt handover => cases handover <;> rfl
  | changeState state => cases state <;> rfl
  | windowEvent event => cases event <;> rfl
  | _ => rfl

/-- The report of an event that fits, to a connection in range, fits. -/
theorem fits_report (hc : c.InRange) (he : e.Fits c) {r : Report} (hr : c.report? x e = some r) :
    r.Fits := by
  unfold report? at hr
  split at hr
  · split at hr
    · exact Cubic.fits_ackReport (hc.reconcile _).link.socket.cwnd_le he hr
    · cases hr
  · obtain ⟨delay, hdelay, rfl⟩ := Option.map_eq_some_iff.mp hr
    exact Cubic.acceptedDelay_le hdelay
  · rw [← Option.some.inj hr]
    exact hc.link.effectiveCwnd_le
  · rw [← Option.some.inj hr]
    exact hc.link.effectiveCwnd_le
  · rw [← Option.some.inj hr]
    trivial
  · rw [← Option.some.inj hr]
    trivial
  · rw [← Option.some.inj hr]
    trivial
  · rw [← Option.some.inj hr]
    trivial
  · cases hr

/-! ## Reachable connections -/

/-- The connections that runs of the program lead to: they begin with an accepted configuration, all
numbers that come in fit their types, and from each event to the next the time on the socket moves
as `clock` allows. -/
inductive Reachable (config : Config) (clock : Nat → Nat → Prop) : Connection → Prop
  | create {socket : Socket} {c : Connection} (hsocket : socket.InRange)
      (hcreate : Connection.create config socket = .ok c) : Reachable config clock c
  | handle {c : Connection} {e : Event} (hc : Reachable config clock c) (he : e.Fits c)
      (hclock : clock c.socket.now (c.handle e).socket.now) :
      Reachable config clock (c.handle e)

variable {config : Config} {clock : Nat → Nat → Prop}

/-- The numbers of a reachable connection are in range. -/
theorem Reachable.inRange (h : Reachable config clock c) : c.InRange := by
  induction h with
  | create hsocket hcreate => exact inRange_create hsocket hcreate
  | handle _ he _ ih => exact ih.handle he

/-- The engine of a new connection is as configured. -/
theorem engine_create {socket : Socket} (h : Connection.create config socket = .ok c) :
    c.engine = Engine.ofConfig config := by
  unfold Connection.create at h
  split at h
  · rw [← Except.ok.inj h]
  · cases h

/-- A new engine that is cubic is one of CUBIC as configured. -/
theorem eq_cubic_of_ofConfig (h : Engine.ofConfig config = .cubic x) :
    x = Cubic.ofConfig config := by
  unfold Engine.ofConfig at h
  split at h
  · cases h
  · exact (Engine.cubic.inj h).symm

/-- What holds of a new state, at any time, and survives every report and the passing of time holds
of the cubic engine of a reachable connection. -/
theorem Reachable.state_keeps {P : Params → Nat → State → Prop} (hnew : ∀ p now, P p now {})
    (hhear : ∀ p now st r, r.Fits → P p now st → P p now (st.hear p now r))
    (hclock : ∀ p now now' st, clock now now' → P p now st → P p now' st)
    (h : Reachable config clock c) (hx : c.engine = .cubic x) :
    P x.params c.socket.now x.state := by
  induction h generalizing x with
  | create hsocket hcreate =>
      have hengine : Engine.ofConfig config = .cubic x := (engine_create hcreate).symm.trans hx
      rw [eq_cubic_of_ofConfig hengine]
      exact hnew _ _
  | @handle c e hc he hclock' ih =>
      by_cases hrenew : ∃ config, e = .renew config
      · -- The engine is replaced, and its state is new.
        obtain ⟨config, rfl⟩ := hrenew
        have hengine : Engine.ofConfig config = .cubic x := hx
        rw [eq_cubic_of_ofConfig hengine]
        exact hnew _ _
      · have hkept : ∀ config, e ≠ .renew config := fun config h => hrenew ⟨config, h⟩
        cases hengine : c.engine with
        | reno => exact nomatch (reno_handle hengine hkept).symm.trans hx
        | cubic x₀ =>
            obtain ⟨y, hy, hparams, hstate⟩ := state_handle hengine hkept
            obtain rfl : y = x := Engine.cubic.inj (hy.symm.trans hx)
            -- The report is heard at the time before the event, and then the time moves.
            refine hclock _ _ _ _ hclock' ?_
            rw [hparams, hstate]
            cases hreport : c.report? x₀ e with
            | none => exact ih hengine
            | some r => exact hhear _ _ _ r (fits_report hc.inRange he hreport) (ih hengine)

/-- A connection after a loss at a window of 80 packets, when its host has set the window to the
threshold. -/
def afterLoss : Connection :=
  let c : Connection :=
    { link := { socket := { cwnd := 80 } }, engine := Engine.ofConfig {},
      schedule := Handover.Schedule.ofConfig {} }
  c.handleAll [.reduce, .edit .full { cwnd := some 56, ssthresh := some 56 }]

/-- The example is reachable without time going back. -/
theorem reachable_afterLoss : Reachable {} (· ≤ ·) afterLoss := by
  have hsocket : ({ cwnd := 80 } : Socket).InRange := ⟨by decide, by decide, by decide, by decide⟩
  have hedit : ({ cwnd := some 56, ssthresh := some 56 } : Socket.Edit).InRange :=
    ⟨fun _ h => Option.some.inj h ▸ by decide, nofun, nofun, nofun⟩
  have hcreate : Connection.create {} { cwnd := 80 } = .ok _ := rfl
  have hlost : Reachable {} (· ≤ ·) _ :=
    (Reachable.create hsocket hcreate).handle (e := .reduce) trivial (Nat.le_refl 0)
  exact hlost.handle (e := .edit .full _) hedit (Nat.le_refl 0)

end Connection

end LowOrbit
