import LowOrbit.Proofs.Checked.Engine
import LowOrbit.Proofs.Checked.Schedule
import LowOrbit.Proofs.Events

/-!
# Connections without faults

Every event of a connection, computed with checked arithmetic. A fault anywhere in a run shows in
its result, so the main theorem, `Connection.handleAllChecked_eq_ok`, says that there is none: with
a configuration that was accepted, the checked run gives the same connection as the plain one,
whatever the host reports and writes, at whatever phases. Ranges carry it: what the types of the
program can hold comes in (`Connection.Event.Fits`), and stays in (`Connection.InRange.handle`).
-/

namespace LowOrbit

open Handover (Link)
open Socket (Edit Features)

/-! ## Ranges -/

namespace Socket

/-- The edit writes numbers of 32 binary digits, and a time that a length of time can be. -/
structure Edit.InRange (e : Edit) : Prop where
  cwnd_le : ∀ cwnd, e.cwnd = some cwnd → cwnd ≤ maxCount
  priorCwnd_le : ∀ cwnd, e.priorCwnd = some cwnd → cwnd ≤ maxCount
  gsoSize_le : ∀ size, e.gsoSize = some size → size ≤ maxCount
  now_le : ∀ now, e.now = some now → now ≤ maxDuration

variable {s : Socket}

/-- A value that is written or stays is in range if it is in either case. -/
theorem getD_le {limit old : Nat} {new : Option Nat} (hold : old ≤ limit)
    (hnew : ∀ value, new = some value → value ≤ limit) : new.getD old ≤ limit := by
  cases new with
  | none => exact hold
  | some value => exact hnew value rfl

/-- An edit in range keeps a socket in range. -/
theorem InRange.edit (hs : s.InRange) {e : Edit} (he : e.InRange) : (s.edit e).InRange where
  cwnd_le := getD_le hs.cwnd_le he.cwnd_le
  priorCwnd_le := getD_le hs.priorCwnd_le he.priorCwnd_le
  gsoSize_le := getD_le hs.gsoSize_le he.gsoSize_le
  now_le := getD_le hs.now_le he.now_le

/-- Whatever the features are, a socket in range is presented as one. -/
theorem InRange.present (hs : s.InRange) (features : Features) : (features.present s).InRange := by
  cases features with
  | full => exact hs
  | basic => exact ⟨hs.cwnd_le, Nat.zero_le _, (by decide : 65536 ≤ maxCount), hs.now_le⟩
  | pacingRate => exact ⟨hs.cwnd_le, Nat.zero_le _, (by decide : 65536 ≤ maxCount), hs.now_le⟩

end Socket

namespace Handover.Link

/-- The socket is in range, and the saved window is a count. -/
structure InRange (l : Link) : Prop where
  socket : l.socket.InRange
  saved_le : l.gate.saved ≤ maxCount

variable {l : Link}

/-- The window in force is a count. -/
theorem InRange.effectiveCwnd_le (h : l.InRange) : l.effectiveCwnd ≤ maxCount := by
  have hsaved := h.saved_le
  unfold effectiveCwnd
  split
  · rename_i saved hgate
    rw [hgate] at hsaved
    exact hsaved
  · exact h.socket.cwnd_le

/-- Moving the gate keeps a link in range. -/
theorem InRange.act (h : l.InRange) (span : Nat) (a : Action) : (l.act span a).InRange := by
  cases a with
  | keep => exact h
  | suspend =>
      show (l.suspend span).InRange
      unfold Link.suspend
      split
      · exact h
      · exact ⟨⟨Nat.zero_le _, h.socket.priorCwnd_le, h.socket.gsoSize_le, h.socket.now_le⟩,
          h.socket.cwnd_le⟩
  | resume =>
      have hopened : max l.gate.saved minCwnd ≤ maxCount := Nat.max_le.mpr ⟨h.saved_le, by decide⟩
      have hgate : l.resume.gate.saved ≤ maxCount := by
        rw [gate_resume]
        exact Nat.zero_le _
      refine ⟨?_, hgate⟩
      show l.resume.socket.InRange
      unfold Link.resume
      split
      · simp only [Socket.wakeWriters]
        split <;>
          exact ⟨hopened, h.socket.priorCwnd_le, h.socket.gsoSize_le, h.socket.now_le⟩
      · exact h.socket

/-- Raising the saved window keeps a link in range. -/
theorem InRange.raiseSaved (h : l.InRange) {cwnd : Nat} (hcwnd : cwnd ≤ maxCount) :
    (l.raiseSaved cwnd).InRange := by
  have hsaved := h.saved_le
  unfold Link.raiseSaved
  split
  · rename_i saved hgate
    rw [hgate] at hsaved
    exact ⟨h.socket, Nat.max_le.mpr ⟨hsaved, hcwnd⟩⟩
  · exact h

end Handover.Link

namespace Connection

/-- All numbers of the connection are in range. -/
structure InRange (c : Connection) : Prop where
  link : c.link.InRange
  engine : c.engine.InRange

/-- The event brings numbers that its types can hold: counts of 32 binary digits, and a time on the
socket that a length of time can be. -/
def Event.Fits (c : Connection) : Event → Prop
  | .ack _ acked => acked ≤ maxCount
  | .advance _ d => c.socket.now + d ≤ maxDuration
  | .edit _ e => e.InRange
  | _ => True

/-- Each event of a list fits the connection that it comes to. -/
def FitsAll (c : Connection) : List Event → Prop
  | [] => True
  | e :: rest => e.Fits c ∧ (c.handle e).FitsAll rest

variable {c : Connection}

/-- A socket in range keeps a connection in range. -/
theorem InRange.mapSocket (h : c.InRange) {f : Socket → Socket}
    (hf : (f c.link.socket).InRange) : (c.mapSocket f).InRange :=
  ⟨⟨hf, h.link.saved_le⟩, h.engine⟩

/-- Adopting the algorithm keeps a connection in range. -/
theorem InRange.adopt (h : c.InRange) : c.adopt.InRange := by
  obtain ⟨ssthresh, hframe⟩ := c.adopt_frame
  refine ⟨?_, h.engine.adopt c.link.socket⟩
  rw [hframe]
  exact ⟨⟨h.link.socket.cwnd_le, h.link.socket.priorCwnd_le, h.link.socket.gsoSize_le,
    h.link.socket.now_le⟩, Nat.zero_le _⟩

/-- Bringing the gate in line with the clock keeps a connection in range. -/
theorem InRange.reconcile (h : c.InRange) (phase : Nat) : (c.reconcile phase).InRange := by
  unfold Connection.reconcile
  split
  · exact ⟨h.link.act _ _, h.engine⟩
  · exact h

/-- Growing keeps a connection in range. -/
theorem InRange.grow (h : c.InRange) {acked : Nat} (hacked : acked ≤ maxCount) :
    (c.grow acked).InRange :=
  ⟨⟨Engine.inRange_grow h.link.socket c.engine acked, h.link.saved_le⟩,
    h.engine.grow c.link.socket hacked⟩

/-- A firing keeps a connection in range. -/
theorem InRange.fire (h : c.InRange) (phase : Nat) : (c.fire phase).2.InRange := by
  simp only [Connection.fire, Handover.Schedule.fire]
  split
  · split
    · exact ⟨h.link.act _ _, h.engine⟩
    · exact h
  · exact h

/-- A loss that did not happen keeps a connection in range. -/
theorem InRange.undo (h : c.InRange) : c.undo.InRange :=
  ⟨h.link.raiseSaved h.link.socket.priorCwnd_le, h.engine⟩

/-- An event that fits keeps a connection in range. -/
theorem InRange.handle (h : c.InRange) {e : Event} (he : e.Fits c) : (c.handle e).InRange := by
  cases e with
  | adopt handover =>
      cases handover with
      | none => exact h.adopt
      | some => exact ⟨h.adopt.link.act _ _, h.adopt.engine⟩
  | release => exact ⟨⟨h.link.socket, Nat.zero_le _⟩, h.engine⟩
  | renew config => exact ⟨⟨h.link.socket, Nat.zero_le _⟩, Engine.inRange_ofConfig config⟩
  | ack phase acked =>
      show (c.ack phase acked).InRange
      rcases c.ack_cases phase acked with ⟨-, heq⟩ | ⟨-, -, heq⟩ | ⟨-, -, heq⟩ <;> rw [heq]
      · exact h
      · exact h.reconcile phase
      · exact (h.reconcile phase).grow he
  | sample x =>
      obtain ⟨ssthresh, hframe⟩ := c.engine.sample_frame c.link.socket x
      refine ⟨⟨?_, h.link.saved_le⟩, h.engine.sample c.link.socket x⟩
      show (c.engine.sample c.link.socket x).2.InRange
      rw [hframe]
      exact ⟨h.link.socket.cwnd_le, h.link.socket.priorCwnd_le, h.link.socket.gsoSize_le,
        h.link.socket.now_le⟩
  | reduce => exact ⟨h.link, h.engine.reduce _⟩
  | shrink features =>
      have hreduced : c.reduce.InRange := ⟨h.link, h.engine.reduce _⟩
      have hshrunk : (Session.shrink c.lossThreshold c.link.socket).InRange := by
        refine ⟨?_, h.link.socket.cwnd_le, h.link.socket.gsoSize_le, h.link.socket.now_le⟩
        show (if c.link.socket.cwnd = 0 then 0 else c.lossThreshold) ≤ maxCount
        split
        · exact Nat.zero_le _
        · exact Engine.lossThreshold_le h.engine h.link.effectiveCwnd_le
      exact hreduced.mapSocket
        (f := fun s => features.present (Session.shrink c.lossThreshold s))
        (hshrunk.present features)
  | undo => exact h.undo
  | restore features =>
      have hcwnd : c.undoCwnd ≤ maxCount := by
        unfold undoCwnd
        split
        · exact h.link.socket.cwnd_le
        · exact Nat.max_le.mpr ⟨h.link.socket.cwnd_le, h.link.socket.priorCwnd_le⟩
      have hsocket := h.undo.link.socket
      have hrestored : Socket.InRange { c.undo.link.socket with cwnd := c.undoCwnd } :=
        ⟨hcwnd, hsocket.priorCwnd_le, hsocket.gsoSize_le, hsocket.now_le⟩
      exact h.undo.mapSocket (f := fun s => features.present { s with cwnd := c.undoCwnd })
        (hrestored.present features)
  | changeState state => exact ⟨h.link, h.engine.changeState c.link.socket state⟩
  | windowEvent event => exact ⟨h.link, h.engine.windowEvent c.link.socket event⟩
  | fire phase => exact h.fire phase
  | advance features d =>
      have hadvanced : (c.link.socket.advance d).InRange :=
        ⟨h.link.socket.cwnd_le, h.link.socket.priorCwnd_le, h.link.socket.gsoSize_le, he⟩
      exact h.mapSocket (f := fun s => features.present (s.advance d)) (hadvanced.present features)
  | edit features e =>
      have hedited : (c.link.socket.edit e).InRange := h.link.socket.edit he
      exact h.mapSocket (f := fun s => features.present (s.edit e)) (hedited.present features)

/-! ## Checked events -/

/-- Adds handover awareness at a phase, and finds the delay to the first firing of the timer. -/
def attachChecked (c : Connection) (timer phase : Nat) : Checked (Connection × Nat) := do
  let link ← c.link.actChecked c.schedule.window (c.schedule.adoptAction phase)
  let delay ← c.schedule.nextDelayChecked phase link.isClosed
  pure ({ c with link := link, timer := some timer }, delay)

/-- Handover awareness is added without a fault. -/
theorem attachChecked_eq (c : Connection) (timer phase : Nat) :
    c.attachChecked timer phase =
      .ok (c.attach timer phase, (c.attach timer phase).nextDelay phase) := by
  simp only [attachChecked, Link.actChecked_eq, Handover.Schedule.nextDelayChecked_eq,
    Checked.ok_bind]
  rfl

/-- Brings the gate in line with the clock if handover awareness is active. -/
def reconcileChecked (c : Connection) (phase : Nat) : Checked Connection :=
  if c.timer.isSome then do
    let link ← c.link.actChecked c.schedule.window (c.schedule.ackAction phase c.link.isClosed)
    pure { c with link := link }
  else pure c

/-- The gate is brought in line with the clock without a fault. -/
theorem reconcileChecked_eq (c : Connection) (phase : Nat) :
    c.reconcileChecked phase = .ok (c.reconcile phase) := by
  unfold reconcileChecked Connection.reconcile
  split
  · simp only [Link.actChecked_eq, Checked.ok_bind]
    rfl
  · rfl

/-- An acknowledgment of `acked` packets at a phase. -/
def ackChecked (c : Connection) (phase acked : Nat) : Checked Connection :=
  if c.link.socket.cwndLimited then do
    let reconciled ← c.reconcileChecked phase
    if c.inBlackout phase then pure reconciled
    else
      let (engine, socket) ← reconciled.engine.growChecked reconciled.link.socket acked
      pure { reconciled with engine := engine, link := { reconciled.link with socket := socket } }
  else pure c

/-- An acknowledgment has no faults. -/
theorem ackChecked_eq (h : c.InRange) (phase : Nat) {acked : Nat} (hacked : acked ≤ maxCount) :
    c.ackChecked phase acked = .ok (c.ack phase acked) := by
  have hreconciled := h.reconcile phase
  have hgrown := Engine.growChecked_eq hreconciled.engine hreconciled.link.socket.now_le hacked
  unfold ackChecked Connection.ack
  split
  · simp only [reconcileChecked_eq, Checked.ok_bind, hgrown]
    split <;> rfl
  · rfl

/-- The host asks for the slow start threshold after a loss. -/
def recalcChecked (c : Connection) : Checked (Connection × Nat) := do
  let engine ← c.engine.reduceChecked c.link.effectiveCwnd
  let threshold ← c.engine.lossThresholdChecked c.link.effectiveCwnd
  pure ({ c with engine := engine }, threshold)

/-- The threshold is found without a fault. -/
theorem recalcChecked_eq (h : c.InRange) : c.recalcChecked = .ok (c.reduce, c.lossThreshold) := by
  have hcwnd := h.link.effectiveCwnd_le
  simp only [recalcChecked, Engine.reduceChecked_eq h.engine hcwnd,
    Engine.lossThresholdChecked_eq h.engine hcwnd, Checked.ok_bind]
  rfl

/-- A round-trip time sample. -/
def sampleChecked (c : Connection) (x : RttSample) : Checked Connection := do
  let (engine, socket) ← c.engine.sampleChecked c.link.socket x
  pure { c with engine := engine, link := { c.link with socket := socket } }

/-- A sample is taken into account without a fault. -/
theorem sampleChecked_eq (h : c.InRange) (x : RttSample) :
    c.sampleChecked x = .ok (c.sample x) := by
  simp only [sampleChecked, Engine.sampleChecked_eq h.engine h.link.socket.gsoSize_le,
    Checked.ok_bind]
  rfl

/-- A firing of the handover timer at a phase, and the answer to the timer. -/
def fireChecked (c : Connection) (phase : Nat) : Checked (Timer.Outcome × Connection) :=
  match c.timer with
  | some _ =>
    if c.link.socket.established then do
      let link ← c.link.actChecked c.schedule.window (c.schedule.timerAction phase c.link.isClosed)
      let delay ← c.schedule.nextDelayChecked phase link.isClosed
      pure (.rearm delay, { c with link := link })
    else pure (.stop, c)
  | none => pure (.stop, c)

/-- A firing has no faults. -/
theorem fireChecked_eq (c : Connection) (phase : Nat) :
    c.fireChecked phase = .ok (c.fire phase) := by
  obtain ⟨link, engine, schedule, _ | id⟩ := c
  · rfl
  · by_cases hestablished : link.socket.established = true
    · simp only [fireChecked, Connection.fire, Handover.Schedule.fire, if_pos hestablished,
        Link.actChecked_eq, Handover.Schedule.nextDelayChecked_eq, Checked.ok_bind]
      rfl
    · simp only [fireChecked, Connection.fire, Handover.Schedule.fire, if_neg hestablished]
      rfl

/-- The connection after an event. -/
def handleChecked (c : Connection) : Event → Checked Connection
  | .adopt none => pure c.adopt
  | .adopt (some (timer, phase)) => do
    let (c, _) ← c.adopt.attachChecked timer phase
    pure c
  | .release => pure c.release
  | .renew config => pure { c.release with engine := Engine.ofConfig config }
  | .ack phase acked => c.ackChecked phase acked
  | .sample x => c.sampleChecked x
  | .reduce => do
    let (c, _) ← c.recalcChecked
    pure c
  | .shrink features => do
    let (c, threshold) ← c.recalcChecked
    pure (c.mapSocket fun s => features.present (Session.shrink threshold s))
  | .undo => pure c.undo
  | .restore features =>
    pure (c.undo.mapSocket fun s => features.present { s with cwnd := c.undoCwnd })
  | .changeState state => pure (c.changeState state)
  | .windowEvent event => pure (c.windowEvent event)
  | .fire phase => do
    let (_, c) ← c.fireChecked phase
    pure c
  | .advance features d => pure (c.mapSocket fun s => features.present (s.advance d))
  | .edit features e => pure (c.mapSocket fun s => features.present (s.edit e))

/-- The connection after events in order, up to the first fault. -/
def handleAllChecked (c : Connection) (events : List Event) : Checked Connection :=
  events.foldlM handleChecked c

/-- An event that fits has no faults. -/
theorem handleChecked_eq (h : c.InRange) {e : Event} (he : e.Fits c) :
    c.handleChecked e = .ok (c.handle e) := by
  cases e with
  | adopt handover =>
      cases handover with
      | none => rfl
      | some armed =>
          simp only [handleChecked, attachChecked_eq, Checked.ok_bind]
          rfl
  | ack phase acked => exact ackChecked_eq h phase he
  | sample x => exact sampleChecked_eq h x
  | reduce =>
      simp only [handleChecked, recalcChecked_eq h, Checked.ok_bind]
      rfl
  | shrink features =>
      simp only [handleChecked, recalcChecked_eq h, Checked.ok_bind]
      rfl
  | fire phase =>
      simp only [handleChecked, fireChecked_eq, Checked.ok_bind]
      rfl
  | _ => rfl

/-- Events that fit have no faults, from a connection in range on. -/
theorem InRange.handleAllChecked_eq (h : c.InRange) {events : List Event}
    (hevents : c.FitsAll events) : c.handleAllChecked events = .ok (c.handleAll events) := by
  induction events generalizing c with
  | nil => rfl
  | cons e rest ih =>
      obtain ⟨he, hrest⟩ := hevents
      show c.handleChecked e >>= (fun c => c.handleAllChecked rest) = _
      rw [handleChecked_eq h he, Checked.ok_bind]
      exact ih (h.handle he) hrest

/-- The numbers that a new connection derives from its configuration: the growth that makes up for
the smaller reduction, the factor of the cube root, and the edges of the handover window. -/
def derivedChecked (config : Config) : Checked (Nat × Nat × Nat × Nat) := do
  let friendlyScale ← (Cubic.Params.ofConfig config).friendlyScaleChecked
  let cubeFactor ← (Cubic.Params.ofConfig config).cubeFactorChecked
  let (start, finish) ← Handover.Window.edgesChecked config.startOffset config.endOffset
  pure (friendlyScale, cubeFactor, start, finish)

/-- A new connection is in range if its socket is. -/
theorem inRange_create {config : Config} {socket : Socket} (hsocket : socket.InRange)
    (h : create config socket = .ok c) : c.InRange := by
  unfold create at h
  cases hvalid : config.validate with
  | ok =>
      simp only [hvalid] at h
      rw [← Except.ok.inj h]
      exact ⟨⟨hsocket, Nat.zero_le _⟩, Engine.inRange_ofConfig config⟩
  | error e => simp [hvalid] at h

/-- The numbers are derived without a fault from a configuration of any values. -/
theorem derivedChecked_eq (config : Config) :
    derivedChecked config = .ok ((Cubic.Params.ofConfig config).friendlyScale,
      (Cubic.Params.ofConfig config).cubeFactor,
      (Handover.Schedule.ofConfig config).window.start,
      (Handover.Schedule.ofConfig config).window.finish) := by
  have hbeta : (Cubic.Params.ofConfig config).beta < 1024 := by
    show min config.beta 1023 < 1024
    omega
  simp only [derivedChecked, Cubic.Params.friendlyScaleChecked_eq hbeta,
    Cubic.Params.cubeFactorChecked_eq, Handover.Window.edgesChecked_eq, Checked.ok_bind]
  rfl

/-- No arithmetic operation goes wrong in any run of a connection whose configuration was accepted.
The connection is made, and derives its numbers without a fault. From then on every run of checked
events ends as the plain run does, as long as the host's numbers fit their types, whatever the clock
shows. Nor is there a fault in any reading of the clocks. -/
theorem handleAllChecked_eq_ok (config : Config) (socket : Socket)
    (hvalid : config.validate = .ok ()) (hsocket : socket.InRange) :
    (∃ c, create config socket = .ok c ∧
      derivedChecked config = .ok ((Cubic.Params.ofConfig config).friendlyScale,
        (Cubic.Params.ofConfig config).cubeFactor, c.schedule.window.start,
        c.schedule.window.finish) ∧
      ∀ events, c.FitsAll events → c.handleAllChecked events = .ok (c.handleAll events)) ∧
    ∀ h : Host, h.phaseChecked = .ok h.phase ∧
      (∃ moved, h.clock.resyncChecked h.ticker.elapsed =
        .ok (h.clock.resync h.ticker.elapsed, moved)) ∧
      ∀ tick, h.ticker.counterChecked tick = .ok (h.ticker.counter tick) := by
  have hcreate : create config socket = .ok
      { link := { socket := socket }, engine := Engine.ofConfig config,
        schedule := Handover.Schedule.ofConfig config } := by
    simp only [create, hvalid]
  refine ⟨⟨_, hcreate, derivedChecked_eq config, fun events hevents => ?_⟩, fun h => ⟨?_, ?_, ?_⟩⟩
  · exact (inRange_create hsocket hcreate).handleAllChecked_eq hevents
  · exact h.phaseChecked_eq
  · exact ⟨_, h.clock.resyncChecked_eq h.ticker.elapsed⟩
  · exact h.ticker.counterChecked_eq

/-- A configuration and a socket with the most extreme values they can hold, and a run through a
handover with a loss in it, the largest acknowledgments and samples of both signs. -/
theorem handleAllChecked_eq_ok_extreme :
    let config : Config :=
      { beta := 1023, bicScale := maxCount, startOffset := maxDuration, endOffset := maxDuration,
        initialSsthresh := some maxCount, hystartLowWindow := 0 }
    let socket : Socket :=
      { cwnd := maxCount, clamp := 0, credit := maxCount, ssthresh := 0, priorCwnd := maxCount,
        gsoSize := maxCount, pacingRate := 1 }
    let events : List Event :=
      [.advance .full maxDuration, .adopt (some (0, Handover.instant)), .sample ⟨1, -1⟩,
        .shrink .full, .fire 13000000000, .ack 14000000000 maxCount,
        .sample ⟨1, 9223372036854775807⟩, .windowEvent .sendStart, .ack 4000000000 0,
        .changeState .loss]
    ∃ c, create config socket = .ok c ∧
      c.handleAllChecked events = .ok (c.handleAll events) := by
  intro config socket events
  obtain ⟨⟨c, hcreate, -, hrun⟩, -⟩ := handleAllChecked_eq_ok config socket rfl
    ⟨by decide, by decide, by decide, by decide⟩
  refine ⟨c, hcreate, hrun events ?_⟩
  obtain rfl : Connection.mk { socket := socket } (Engine.ofConfig config)
      (Handover.Schedule.ofConfig config) none = c := Except.ok.inj hcreate
  have hadvance : 0 + maxDuration ≤ maxDuration := by decide
  exact ⟨hadvance, trivial, trivial, trivial, trivial, Nat.le_refl maxCount, trivial, trivial,
    Nat.zero_le maxCount, trivial, trivial⟩

end Connection

end LowOrbit
