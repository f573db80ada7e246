import LowOrbit.Proofs.Stability

/-!
# Events of a connection

Everything that a host and a timer do to a connection, one event after another, with the phases of
the handover period that the clock shows. An acknowledgment, a loss or the passing of time comes as
it likes, so a result about all lists of events is one about all runs of the program. From an
adoption on, every history of a session is such a list (`Session.exists_handleAll`).
-/

namespace LowOrbit

open Socket (Edit Features)

namespace Connection

/-- A call on a connection, together with what the host does with the answer, or a write to its
socket. -/
inductive Event where
  /-- The connection adopts the algorithm. Handover awareness comes with a timer, given by its place
  among all timers, at a phase. -/
  | adopt (handover : Option (Nat × Nat))
  | release
  /-- The congestion control state is replaced by a new one. -/
  | renew (config : Config)
  | ack (phase acked : Nat)
  | sample (x : RttSample)
  /-- The host asks for the slow start threshold after a loss. -/
  | reduce
  /-- The same, and the host reduces its window to it. -/
  | shrink (features : Features)
  /-- The host asks for the window to restore after a loss that did not happen. -/
  | undo
  /-- The same, and the host restores it. -/
  | restore (features : Features)
  | changeState (state : AvoidanceState)
  | windowEvent (event : WindowEvent)
  /-- The handover timer fires. -/
  | fire (phase : Nat)
  /-- Time passes on the socket. -/
  | advance (features : Features) (d : Nat)
  /-- The host writes the socket. -/
  | edit (features : Features) (e : Edit)
  deriving DecidableEq, Repr

/-- The connection after an event. -/
def handle (c : Connection) : Event → Connection
  | .adopt none => c.adopt
  | .adopt (some (timer, phase)) => c.adopt.attach timer phase
  | .release => c.release
  | .renew config => { c.release with engine := Engine.ofConfig config }
  | .ack phase acked => c.ack phase acked
  | .sample x => c.sample x
  | .reduce => c.reduce
  | .shrink features =>
    c.reduce.mapSocket fun s => features.present (Session.shrink c.lossThreshold s)
  | .undo => c.undo
  | .restore features => c.undo.mapSocket fun s => features.present { s with cwnd := c.undoCwnd }
  | .changeState state => c.changeState state
  | .windowEvent event => c.windowEvent event
  | .fire phase => (c.fire phase).2
  | .advance features d => c.mapSocket fun s => features.present (s.advance d)
  | .edit features e => c.mapSocket fun s => features.present (s.edit e)

/-- The connection after events in order. -/
def handleAll (c : Connection) (events : List Event) : Connection := events.foldl handle c

/-- The event neither adopts nor drops the algorithm, and if it edits the socket, then as
allowed. -/
def Event.Reports (allowed : Edit → Prop) : Event → Prop
  | .adopt _ | .release | .renew _ => False
  | .edit _ e => allowed e
  | _ => True

/-- A report with an edit that is allowed in one sense is one with an edit that is allowed in a
weaker sense. -/
theorem Event.Reports.imp {allowed weaker : Edit → Prop} {e : Event} (he : e.Reports allowed)
    (h : ∀ e, allowed e → weaker e) : e.Reports weaker := by
  cases e with
  | edit features e => exact h e he
  | _ => exact he

variable {allowed : Edit → Prop} {P : Connection → Prop}

/-- What every single report keeps is stable. -/
theorem stable_of_handle (h : ∀ c e, e.Reports allowed → P c → P (c.handle e)) :
    Stable allowed P where
  ack c phase acked := h c (.ack phase acked) trivial
  sample c x := h c (.sample x) trivial
  reduce c := h c .reduce trivial
  undo c := h c .undo trivial
  changeState c state := h c (.changeState state) trivial
  windowEvent c event := h c (.windowEvent event) trivial
  fire c phase := h c (.fire phase) trivial
  shrink c features := h c (.shrink features) trivial
  restore c features := h c (.restore features) trivial
  advance c features d := h c (.advance features d) trivial
  edit c features e he := h c (.edit features e) he

/-- A stable property outlives a report. -/
theorem Stable.handle (h : Stable allowed P) {c : Connection} {e : Event}
    (he : e.Reports allowed) (hc : P c) : P (c.handle e) := by
  cases e with
  | adopt handover => exact he.elim
  | release => exact he.elim
  | renew config => exact he.elim
  | ack phase acked => exact h.ack c phase acked hc
  | sample x => exact h.sample c x hc
  | reduce => exact h.reduce c hc
  | shrink features => exact h.shrink c features hc
  | undo => exact h.undo c hc
  | restore features => exact h.restore c features hc
  | changeState state => exact h.changeState c state hc
  | windowEvent event => exact h.windowEvent c event hc
  | fire phase => exact h.fire c phase hc
  | advance features d => exact h.advance c features d hc
  | edit features e => exact h.edit c features e he hc

/-- A stable property outlives reports in any number. -/
theorem Stable.handleAll (h : Stable allowed P) {c : Connection} {events : List Event}
    (hevents : ∀ e ∈ events, e.Reports allowed) (hc : P c) : P (c.handleAll events) :=
  List.foldlRecOn events Connection.handle hc fun _ hc e hmem => h.handle (hevents e hmem) hc

/-- An event after others. -/
theorem handleAll_append_singleton (c : Connection) (events : List Event) (e : Event) :
    c.handleAll (events ++ [e]) = (c.handleAll events).handle e := by
  simp only [handleAll, List.foldl_append, List.foldl_cons, List.foldl_nil]

end Connection

/-- What a history of reports does to a connection is a list of events, if all timers fire the
connection itself. -/
theorem Session.exists_handleAll {allowed : Edit → Prop} {s : Session} {ops : List Operation}
    (hown : s.OwnTimers) (hops : ∀ op ∈ ops, op.Reports allowed) :
    ∃ events : List Connection.Event, (∀ e ∈ events, e.Reports allowed) ∧
      (s.performAll ops).connection = s.connection.handleAll events := by
  have hstable : Connection.Stable allowed fun c =>
      ∃ events : List Connection.Event, (∀ e ∈ events, e.Reports allowed) ∧
        c = s.connection.handleAll events := by
    refine Connection.stable_of_handle fun c e he hc => ?_
    obtain ⟨events, hevents, rfl⟩ := hc
    refine ⟨events ++ [e], ?_, (s.connection.handleAll_append_singleton events e).symm⟩
    intro other hmem
    rcases List.mem_append.mp hmem with hold | hlast
    · exact hevents other hold
    · rw [List.mem_singleton.mp hlast]
      exact he
  exact performAll_of_stable hstable ⟨[], by simp, rfl⟩ hown hops

end LowOrbit
