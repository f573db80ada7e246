import LowOrbit.Proofs.Rounds

/-!
# The detectors during a handover

While a connection is suspended, samples of the packets in flight still come in. They meet a window
of zero, which is below the smallest window at which slow start may end early, so the detectors do
not look at them, unless the smallest window is configured as zero as well.
`Connection.stays_still_iff` says that this is the only way to make them look, and the only way in
which a slow start threshold becomes zero; `Connection.threshold_zero_suspended` is a run in which
it does.
-/

namespace LowOrbit

/-- While slow start is not watched, a sample brings up no exit. -/
theorem Cubic.exits_of_not_watches (x : Cubic) {s : Socket} {sample : RttSample}
    (h : x.watches s = false) : x.exits s sample = [] := by
  unfold exits
  rw [h]
  split <;> rfl

namespace Connection

variable {c c' c'' : Connection} {e : Event}

/-- The detectors of the connection, if its engine has any. -/
def hystart? (c : Connection) : Option Hystart :=
  match c.engine with
  | .reno => none
  | .cubic x => some x.hystart

/-- The detectors and the slow start threshold stay as they are. -/
structure Still (c c' : Connection) : Prop where
  hystart_eq : c'.hystart? = c.hystart?
  ssthresh_eq : c'.socket.ssthresh = c.socket.ssthresh

/-- The detectors look for an exit in slow start, and at any window, a closed one included. -/
def Exposed (c : Connection) : Prop :=
  ∃ h, c.hystart? = some h ∧ h.enabled = true ∧ h.found = false ∧ h.lowWindow = 0 ∧
    0 < c.socket.ssthresh

/-- The event is a sample, or brings new sequence numbers and times, or whatever else a host keeps
apart from its window and threshold. -/
def Event.Delivers : Event → Prop
  | .sample _ | .advance _ _ => True
  | .edit _ e => e.cwnd = none ∧ e.ssthresh = none
  | _ => False

/-- Staying still twice is staying still. -/
theorem Still.trans (h : c.Still c') (h' : c'.Still c'') : c.Still c'' :=
  ⟨h'.hystart_eq.trans h.hystart_eq, h'.ssthresh_eq.trans h.ssthresh_eq⟩

/-- A connection that stays still does not become exposed. -/
theorem Still.exposed_iff (h : c.Still c') : c'.Exposed ↔ c.Exposed := by
  unfold Exposed
  rw [h.hystart_eq, h.ssthresh_eq]

/-! ## Samples at a closed window -/

/-- A connection is exposed exactly if its detectors look at a closed window. -/
theorem exposed_iff_watches {x : Cubic} (hx : c.engine = .cubic x) (hclosed : c.socket.cwnd = 0) :
    c.Exposed ↔ x.watches c.socket = true := by
  have hhystart : c.hystart? = some x.hystart := by rw [hystart?, hx]
  have hwatches : x.watches c.socket = true ↔ x.hystart.enabled = true ∧ x.hystart.found = false ∧
      0 < c.socket.ssthresh ∧ x.hystart.lowWindow = 0 := by
    simp [Cubic.watches, Socket.inSlowStart, hclosed, and_assoc]
  rw [hwatches, and_comm (a := 0 < c.socket.ssthresh)]
  simp [Exposed, hhystart]

/-- A connection with a Reno engine does not look at samples. -/
theorem sample_of_reno (hreno : c.engine = .reno) (sample : RttSample) :
    c.handle (.sample sample) = c := by
  obtain ⟨link, engine, schedule, timer⟩ := c
  subst hreno
  rfl

/-- A sample lowers the threshold of a cubic engine to the window if it brings up an exit. -/
theorem ssthresh_sample {x : Cubic} (hx : c.engine = .cubic x) (sample : RttSample) :
    (c.handle (.sample sample)).socket.ssthresh =
      if (x.exits c.socket sample).isEmpty then c.socket.ssthresh else c.socket.cwnd := by
  show (c.engine.sample c.socket sample).2.ssthresh = _
  rw [hx]
  show (if (x.exits c.socket sample).isEmpty then c.socket
    else { c.socket with ssthresh := c.socket.cwnd }).ssthresh = _
  split <;> rfl

/-- A sample at a closed window leaves a connection that is not exposed still. -/
theorem still_sample (hclosed : c.socket.cwnd = 0) (hsafe : ¬ c.Exposed) (sample : RttSample) :
    c.Still (c.handle (.sample sample)) := by
  cases hengine : c.engine with
  | reno =>
      rw [sample_of_reno hengine]
      exact ⟨rfl, rfl⟩
  | cubic x =>
      have hwatches : x.watches c.socket = false :=
        eq_false_of_ne_true (mt (exposed_iff_watches hengine hclosed).mpr hsafe)
      have hprocesses : x.processes c.socket sample = false := by
        rw [Cubic.processes, hwatches, Bool.and_false]
      refine ⟨?_, ?_⟩
      · rw [hystart?, cubic_sample hengine sample, hystart?, hengine]
        exact congrArg some (Cubic.hystart_sample_of_not_processes hprocesses)
      · rw [ssthresh_sample hengine, x.exits_of_not_watches hwatches]
        rfl

/-- While the window is closed, what is delivered to a connection that is not exposed leaves it
still, and the window closed. -/
theorem still_of_delivers (hclosed : c.socket.cwnd = 0) (hsafe : ¬ c.Exposed) (he : e.Delivers) :
    c.Still (c.handle e) ∧ (c.handle e).socket.cwnd = 0 := by
  cases e with
  | sample sample =>
      refine ⟨still_sample hclosed hsafe sample, ?_⟩
      obtain ⟨ssthresh, hframe⟩ := c.engine.sample_frame c.link.socket sample
      show (c.engine.sample c.link.socket sample).2.cwnd = 0
      rw [hframe]
      exact hclosed
  | advance features d => cases features <;> exact ⟨⟨rfl, rfl⟩, hclosed⟩
  | edit features edit =>
      have hcwnd : (c.link.socket.edit edit).cwnd = 0 := (Socket.cwnd_edit he.1 _).trans hclosed
      have hssthresh : (c.link.socket.edit edit).ssthresh = c.socket.ssthresh := by
        show edit.ssthresh.getD c.link.socket.ssthresh = _
        rw [he.2]
        rfl
      cases features <;> exact ⟨⟨rfl, hssthresh⟩, hcwnd⟩
  | _ => exact he.elim

/-- So does everything that is delivered until the window opens. -/
theorem still_handleAll {deliveries : List Event} (hclosed : c.socket.cwnd = 0)
    (hsafe : ¬ c.Exposed) (hdeliveries : ∀ e ∈ deliveries, e.Delivers) :
    c.Still (c.handleAll deliveries) := by
  induction deliveries generalizing c with
  | nil => exact ⟨rfl, rfl⟩
  | cons e rest ih =>
      obtain ⟨hstill, hclosed'⟩ :=
        still_of_delivers hclosed hsafe (hdeliveries e List.mem_cons_self)
      have hsafe' : ¬ (c.handle e).Exposed := mt hstill.exposed_iff.mp hsafe
      exact hstill.trans
        (ih hclosed' hsafe' fun e' he' => hdeliveries e' (List.mem_cons_of_mem _ he'))

/-- The number after a sequence number comes after it. -/
theorem after_succ (a : SeqNum) : (a + 1).after a = true := by
  have hdistance : a - (a + 1) = 4294967295 := by grind
  rw [SeqNum.after, hdistance]
  rfl

/-- Sooner or later round trips are taken into account, at a time at which no round has begun. -/
theorem exists_later (x : Cubic) :
    ∃ later, x.state.acceptsDelay later = true ∧ x.hystart.roundStart ≠ some later := by
  obtain ⟨later, hlater⟩ : ∃ later, later =
      x.state.epochStart.getD 0 + x.hystart.roundStart.getD 0 + 1000000001 := ⟨_, rfl⟩
  refine ⟨later, ?_, fun hround => ?_⟩
  · unfold Cubic.State.acceptsDelay
    cases hstart : x.state.epochStart with
    | none => rfl
    | some start =>
        rw [hstart, Option.getD_some] at hlater
        simp only [Option.all_some, decide_eq_true_eq]
        omega
  · rw [hround, Option.getD_some] at hlater
    omega

/-- A sample that is processed after all sent packets have been acknowledged begins a round. -/
theorem roundStart_sample {x : Cubic} {s : Socket} {sample : RttSample}
    (hprocesses : x.processes s sample = true) (hover : s.sndUna = x.hystart.endSeq + 1) :
    (x.sample s sample).hystart.roundStart = some s.now := by
  have hround : x.hystart.roundOver s = true := by
    rw [Hystart.roundOver, hover, after_succ, Bool.or_true]
  obtain ⟨found, counters, hframe⟩ :=
    x.hystart.sample_frame s sample.delay (x.sample s sample).state.delayMin
  rw [(Cubic.sample_of_processes hprocesses).2.1, hframe]
  show (x.hystart.enterRound s).roundStart = _
  rw [Hystart.enterRound, if_pos hround]
  rfl

/-- Something can be delivered to an exposed connection that does not leave it still: a sample that
begins a round. -/
theorem not_still_of_exposed (hclosed : c.socket.cwnd = 0) (hexposed : c.Exposed) :
    ∃ deliveries : List Event, (∀ e ∈ deliveries, e.Delivers) ∧
      ¬ c.Still (c.handleAll deliveries) := by
  cases hengine : c.engine with
  | reno =>
      obtain ⟨h, hhystart, -⟩ := hexposed
      simp [hystart?, hengine] at hhystart
  | cubic x =>
      obtain ⟨later, haccepts, hround⟩ := exists_later x
      let moved : Event :=
        .edit .full { now := some later, sndUna := some (x.hystart.endSeq + 1) }
      let sample : RttSample := { packets := 1, micros := 1 }
      refine ⟨[moved, .sample sample], ?_, fun hstill => ?_⟩
      · intro e he
        rcases List.mem_pair.mp he with rfl | rfl
        · exact ⟨rfl, rfl⟩
        · trivial
      · have hmoved : (c.handle moved).engine = .cubic x := hengine
        have hwatches : x.watches (c.handle moved).socket = true :=
          (exposed_iff_watches hengine hclosed).mp hexposed
        have haccepted : (x.acceptedDelay? (c.handle moved).socket sample).isSome = true := by
          have htaken : 0 ≤ sample.micros ∧
              x.state.acceptsDelay (c.handle moved).socket.now = true := ⟨by decide, haccepts⟩
          rw [Cubic.acceptedDelay?, if_pos htaken]
          rfl
        have hprocesses : x.processes (c.handle moved).socket sample = true := by
          rw [Cubic.processes, haccepted, hwatches]
          rfl
        have hbegan : (x.sample (c.handle moved).socket sample).hystart.roundStart = some later :=
          roundStart_sample hprocesses rfl
        have hsame : ((c.handle moved).handle (.sample sample)).hystart? = c.hystart? :=
          hstill.hystart_eq
        rw [hystart?, cubic_sample hmoved sample, hystart?, hengine] at hsame
        have hhystart : (x.sample (c.handle moved).socket sample).hystart = x.hystart :=
          Option.some.inj hsame
        exact hround (hhystart ▸ hbegan)

/-! ## Thresholds of zero -/

/-- An adopted engine does not lower the threshold to zero. -/
theorem ssthresh_adopt_pos (hpos : 0 < c.socket.ssthresh) : 0 < c.adopt.socket.ssthresh := by
  show 0 < (c.engine.adopt c.link.socket).2.ssthresh
  cases c.engine with
  | reno => exact hpos
  | cubic x =>
      show 0 < x.adoptedSsthresh c.link.socket
      unfold Cubic.adoptedSsthresh
      split
      · rename_i threshold hthreshold
        split
        · exact hpos
        · rename_i hset
          exact Nat.pos_of_ne_zero fun hzero => hset (.inr hzero)
      · exact hpos

/-- What lowers the threshold to zero is an exit that a sample brings up at a closed window. -/
theorem exposed_of_ssthresh_sample (hpos : 0 < c.socket.ssthresh) {sample : RttSample}
    (hzero : (c.handle (.sample sample)).socket.ssthresh = 0) :
    c.socket.cwnd = 0 ∧ c.Exposed := by
  cases hengine : c.engine with
  | reno =>
      rw [sample_of_reno hengine] at hzero
      exact absurd hzero (Nat.ne_of_gt hpos)
  | cubic x =>
      rw [ssthresh_sample hengine] at hzero
      split at hzero
      · exact absurd hzero (Nat.ne_of_gt hpos)
      · rename_i hexits
        refine ⟨hzero, (exposed_iff_watches hengine hzero).mpr ?_⟩
        -- Without being watched for, no exit is found.
        refine eq_true_of_ne_false fun hwatches => hexits ?_
        rw [x.exits_of_not_watches hwatches]
        rfl

/-- Only a sample at a closed window of an exposed connection lowers the threshold to zero, apart
from what the host writes. -/
theorem exposed_of_ssthresh_zero (hhook : ∀ features edit, e ≠ .edit features edit)
    (hpos : 0 < c.socket.ssthresh) (hzero : (c.handle e).socket.ssthresh = 0) :
    (∃ sample, e = .sample sample) ∧ c.socket.cwnd = 0 ∧ c.Exposed := by
  have hsame : (c.handle e).socket.ssthresh ≠ c.socket.ssthresh := by
    rw [hzero]
    exact Nat.ne_of_lt hpos
  cases e with
  | edit features edit => exact absurd rfl (hhook features edit)
  | sample sample => exact ⟨⟨sample, rfl⟩, exposed_of_ssthresh_sample hpos hzero⟩
  | adopt handover =>
      have hadopted := ssthresh_adopt_pos hpos
      cases handover with
      | none => exact absurd hzero (Nat.ne_of_gt hadopted)
      | some pair =>
          obtain ⟨timer, phase⟩ := pair
          obtain ⟨cwnd, rto, wakeUps, hframe⟩ := c.adopt.link.act_frame
            c.adopt.schedule.window.span (c.adopt.schedule.adoptAction phase)
          replace hzero : (c.adopt.link.act c.adopt.schedule.window.span
            (c.adopt.schedule.adoptAction phase)).socket.ssthresh = 0 := hzero
          rw [hframe] at hzero
          exact absurd hzero (Nat.ne_of_gt hadopted)
  | ack phase acked =>
      obtain ⟨cwnd, credit, rto, wakeUps, hframe⟩ := c.ack_frame phase acked
      refine absurd ?_ hsame
      show (c.ack phase acked).link.socket.ssthresh = _
      rw [hframe]
      rfl
  | fire phase =>
      obtain ⟨cwnd, rto, wakeUps, hframe⟩ := c.fire_frame phase
      refine absurd ?_ hsame
      show (c.fire phase).2.link.socket.ssthresh = _
      rw [hframe]
      rfl
  | shrink features =>
      have hthreshold : 2 ≤ c.lossThreshold := c.engine.minThreshold_le_lossThreshold _
      have hshrunk : (c.handle (.shrink features)).socket.ssthresh = c.lossThreshold := by
        cases features <;> rfl
      omega
  | undo => exact absurd (congrArg Socket.ssthresh (c.link.socket_raiseSaved _)) hsame
  | restore features =>
      have hundone := congrArg Socket.ssthresh (c.link.socket_raiseSaved c.link.socket.priorCwnd)
      cases features <;> exact absurd hundone hsame
  | advance features d => cases features <;> exact absurd rfl hsame
  | _ => exact absurd rfl hsame

/-- While the window of a connection is closed, whatever is delivered in the way of samples,
sequence numbers and times leaves the detectors and the slow start threshold as they are, unless the
connection is exposed; if it is, something can be delivered that does not. Nothing but a sample at a
closed window of an exposed connection ever lowers the threshold to zero, apart from what the host
writes. And in a run, only a configuration with zero for the smallest window exposes a connection.
-/
theorem stays_still_iff (c : Connection) :
    (c.socket.cwnd = 0 →
      ((∀ deliveries : List Event, (∀ e ∈ deliveries, e.Delivers) →
          c.Still (c.handleAll deliveries)) ↔ ¬ c.Exposed)) ∧
    (∀ e : Event, (∀ features edit, e ≠ .edit features edit) → 0 < c.socket.ssthresh →
      (c.handle e).socket.ssthresh = 0 →
        (∃ sample, e = .sample sample) ∧ c.socket.cwnd = 0 ∧ c.Exposed) ∧
    (∀ config r, Recorded config c r → c.Exposed →
      config.hystart = true ∧ config.hystartLowWindow = 0) := by
  refine ⟨fun hclosed => ⟨fun hstill hexposed => ?_, fun hsafe deliveries hdeliveries => ?_⟩,
    fun e hhook hpos hzero => exposed_of_ssthresh_zero hhook hpos hzero, ?_⟩
  · obtain ⟨deliveries, hdeliveries, hmoved⟩ := not_still_of_exposed hclosed hexposed
    exact hmoved (hstill deliveries hdeliveries)
  · exact still_handleAll hclosed hsafe hdeliveries
  · intro config r hrecorded hexposed
    obtain ⟨h, hhystart, henabled, -, hlow, -⟩ := hexposed
    cases hengine : c.engine with
    | reno => simp [hystart?, hengine] at hhystart
    | cubic x =>
        obtain rfl : x.hystart = h := by simpa [hystart?, hengine] using hhystart
        obtain ⟨henabled', -, -, hlow', -⟩ :=
          Hystart.settings_of_blank_eq (hrecorded.follows hengine).1
        exact ⟨henabled'.symm.trans henabled, hlow'.symm.trans hlow⟩

/-- The connection of the example is suspended with 40 packets in flight. Their samples form a
train, but it does not end slow start. -/
theorem stays_still_iff_atHandover :
    let c := (Session.atHandover.adopt .connection).connection
    let deliveries : List Event :=
      (List.replicate 6 [.advance .full 1000000, .sample { packets := 1, micros := 10000 }]).flatten
    c.isSuspended = true ∧ c.socket.cwnd = 0 ∧ c.Still (c.handleAll deliveries) := by
  intro c deliveries
  have hsafe : ¬ c.Exposed := by
    rintro ⟨h, hhystart, -, -, hlow, -⟩
    obtain rfl := Option.some.inj hhystart
    exact absurd hlow (by decide)
  have hdeliveries : ∀ e ∈ deliveries, e.Delivers := by simp [deliveries, Event.Delivers]
  exact ⟨rfl, rfl, ((stays_still_iff c).1 rfl).mpr hsafe deliveries hdeliveries⟩

/-- The same flow, with a smallest window of zero, which a configuration may have. The sixth sample
ends slow start, at a window of zero: the threshold becomes zero, and the exit is counted, while the
connection is suspended with 40 packets. -/
theorem threshold_zero_suspended :
    let config : Config := { hystartLowWindow := 0 }
    let adopted : Connection :=
      { link := { socket := { cwnd := 40 } }, engine := Engine.ofConfig config,
        schedule := Handover.Schedule.ofConfig config }
    let c := adopted.handle (.adopt (some (0, Handover.instant)))
    let deliveries : List Event :=
      (List.replicate 6 [.advance .full 1000000, .sample { packets := 1, micros := 10000 }]).flatten
    let d := c.handleAll deliveries
    config.validate = .ok () ∧ c.link.gate = .suspended 40 ∧ c.socket.ssthresh = 2147483647 ∧
      d.link.gate = .suspended 40 ∧ d.socket.ssthresh = 0 ∧
      (c.hystart?.map fun h => (h.found, h.counters)) = some (false, {}) ∧
      (d.hystart?.map fun h => (h.found, h.counters)) = some (true, { trainExits := 1 }) := by
  decide +kernel

end Connection

end LowOrbit
