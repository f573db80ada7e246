import LowOrbit.Proofs.Rounds

/-!
# Sequence numbers without an origin

Sequence numbers begin anywhere and wrap around, so nothing that congestion control does may depend
on where they began. Two runs whose hosts write the same values, but for sequence numbers that lie a
fixed distance `k` apart, stay the same for good: so do windows, thresholds and all that the engine
remembers, and the ends of their rounds lie `k` apart too. Read `Connection.handleAll_translate`
first. Behind it is the order of sequence numbers, which looks at their distance only
(`SeqNum.after_add_right`).
-/

namespace LowOrbit

open Handover (Action Link Schedule)

/-! ## Sockets -/

/-- The order does not depend on where the numbers begin. -/
theorem SeqNum.after_add_right (a b k : SeqNum) : (a + k).after (b + k) = a.after b := by
  unfold SeqNum.after
  have hdistance : b + k - (a + k) = b - a := by grind
  rw [hdistance]

/-- A number comes after another if it is ahead of it by at most half the circle. -/
theorem SeqNum.after_iff (a b : SeqNum) :
    a.after b = true ↔ 1 ≤ (a - b).toNat ∧ (a - b).toNat ≤ 2147483648 := by
  have ha := a.toNat_lt
  have hb := b.toNat_lt
  unfold SeqNum.after
  rw [decide_eq_true_iff, UInt32.le_iff_toNat_le, UInt32.toNat_sub, UInt32.toNat_sub]
  show 2147483648 ≤ _ ↔ _
  omega

namespace Socket

variable {k : SeqNum}

/-- The socket with all sequence numbers `k` further. -/
def translate (k : SeqNum) (s : Socket) : Socket :=
  { s with sndNxt := s.sndNxt + k, sndUna := s.sndUna + k }

/-- The edit with all sequence numbers `k` further. -/
def Edit.translate (k : SeqNum) (e : Edit) : Edit :=
  { e with sndNxt := e.sndNxt.map (· + k), sndUna := e.sndUna.map (· + k) }

/-- A translated edit does to a translated socket what the edit does to the socket. -/
theorem edit_translate (k : SeqNum) (s : Socket) (e : Edit) :
    (s.translate k).edit (e.translate k) = (s.edit e).translate k := by
  have hgetD (written : Option SeqNum) (old : SeqNum) :
      (written.map (· + k)).getD (old + k) = written.getD old + k := by
    cases written <;> rfl
  simp only [edit, translate, Edit.translate, hgetD]

/-- Features do not concern sequence numbers. -/
theorem Features.present_translate (k : SeqNum) (f : Features) (s : Socket) :
    f.present (s.translate k) = (f.present s).translate k := by
  cases f <;> rfl

/-- Waking writers does not concern sequence numbers. -/
theorem wakeWriters_translate (k : SeqNum) (s : Socket) :
    (s.translate k).wakeWriters = s.wakeWriters.translate k := by
  show (if s.writeBlocked then _ else _) = Socket.translate k (if s.writeBlocked then _ else _)
  split <;> rfl

end Socket

namespace Growth

/-- Slow start does not look at sequence numbers. -/
theorem throughSlowStart_translate (k : SeqNum) (s : Socket) (acked : Nat) :
    throughSlowStart (s.translate k) acked =
      ((throughSlowStart s acked).1.translate k, (throughSlowStart s acked).2) := by
  show (if s.inSlowStart then _ else _) = _
  unfold throughSlowStart
  split <;> rfl

/-- Additive increase does not look at sequence numbers. -/
theorem additive_translate (k : SeqNum) (divisor acked : Nat) (s : Socket) :
    additive divisor acked (s.translate k) = (additive divisor acked s).translate k := by
  have hsettled (divisor : Nat) :
      settleStale divisor (s.translate k) = (settleStale divisor s).translate k := by
    show (if divisor ≤ s.credit then _ else _) = _
    unfold settleStale
    split <;> rfl
  have hredeemed (divisor : Nat) (s : Socket) :
      redeem divisor (s.translate k) = (redeem divisor s).translate k := by
    show (if divisor ≤ s.credit then _ else _) = _
    unfold redeem
    split <;> rfl
  have hearned (s : Socket) : earn acked (s.translate k) = (earn acked s).translate k := rfl
  simp only [additive, hsettled, hearned, hredeemed]
  rfl

end Growth

/-! ## Gates -/

namespace Handover

/-- The link with all sequence numbers of its socket `k` further. -/
def Link.translate (k : SeqNum) (l : Link) : Link := { l with socket := l.socket.translate k }

/-- The gate does not look at sequence numbers. -/
theorem Link.act_translate (k : SeqNum) (l : Link) (span : Nat) (a : Action) :
    (l.translate k).act span a = (l.act span a).translate k := by
  cases a with
  | suspend =>
      show (if l.isClosed then _ else _) = Link.translate k (if l.isClosed then _ else _)
      split <;> rfl
  | resume =>
      show (if l.isClosed then _ else _) = Link.translate k (if l.isClosed then _ else _)
      split
      · show Link.mk _ (Socket.wakeWriters _) = Link.mk _ ((Socket.wakeWriters _).translate k)
        rw [← Socket.wakeWriters_translate]
        rfl
      · rfl
  | keep => rfl

/-- Raising the saved window does not look at sequence numbers. -/
theorem Link.raiseSaved_translate (k : SeqNum) (l : Link) (cwnd : Nat) :
    (l.translate k).raiseSaved cwnd = (l.raiseSaved cwnd).translate k := by
  obtain ⟨gate, socket⟩ := l
  cases gate <;> rfl

end Handover

/-! ## Engines -/

namespace Hystart

/-- The detectors with another end of the round. -/
def endingAt (h : Hystart) (endSeq : SeqNum) : Hystart := { h with endSeq := endSeq }

/-- Two states of the detectors that agree but for the end of the round, which lies `k` further in
the second if a round is open. -/
structure Apart (k : SeqNum) (h h' : Hystart) : Prop where
  agree : h' = h.endingAt h'.endSeq
  endSeq : h.roundStart.isSome = true → h'.endSeq = h.endSeq + k

variable {k : SeqNum} {h h' : Hystart}

/-- The detectors agree with themselves while no round is open. -/
theorem apart_of_roundStart_none (hnone : h.roundStart = none) : h.Apart k h where
  agree := rfl
  endSeq hopen := by
    rw [hnone] at hopen
    cases hopen

/-- A reset closes the round. -/
theorem Apart.reset (hh : h.Apart k h') : h.reset.Apart k h'.reset where
  agree := by
    rw [hh.agree]
    rfl
  endSeq := nofun

/-- New rounds end at sequence numbers that are as far apart as the sockets. -/
theorem Apart.resetRound (hh : h.Apart k h') (s : Socket) :
    (h.resetRound s).Apart k (h'.resetRound (s.translate k)) where
  agree := by
    rw [hh.agree]
    rfl
  endSeq _ := rfl

/-- Slow start is watched by both, or by none. -/
theorem Apart.enabled_eq (hh : h.Apart k h') : h'.enabled = h.enabled := by
  rw [hh.agree]
  rfl

/-- The two rounds are over at the same sample. -/
theorem Apart.roundOver_eq (hh : h.Apart k h') (s : Socket) :
    h'.roundOver (s.translate k) = h.roundOver s := by
  have hstart : h'.roundStart = h.roundStart := by
    rw [hh.agree]
    rfl
  unfold roundOver
  rw [hstart]
  cases hopen : h.roundStart with
  | none => rfl
  | some start =>
      rw [hh.endSeq (by rw [hopen]; rfl)]
      exact congrArg (false || ·) (SeqNum.after_add_right s.sndUna h.endSeq k)

/-- The two samples belong to rounds that are `k` apart. -/
theorem Apart.enterRound (hh : h.Apart k h') (s : Socket) :
    (h.enterRound s).Apart k (h'.enterRound (s.translate k)) := by
  unfold Hystart.enterRound
  rw [hh.roundOver_eq s]
  split
  · exact hh.resetRound s
  · exact hh

/-- The train does not depend on the end of the round. -/
theorem noteAck_endingAt (h : Hystart) (endSeq : SeqNum) (s : Socket) :
    (h.endingAt endSeq).noteAck (s.translate k) = (h.noteAck s).endingAt endSeq := by
  show (if h.continuesTrain s then _ else _) = _
  unfold noteAck
  split <;> rfl

/-- The round trips kept do not depend on the end of the round. -/
theorem noteDelay_endingAt (h : Hystart) (endSeq : SeqNum) (delay : Nat) :
    (h.endingAt endSeq).noteDelay delay = (h.noteDelay delay).endingAt endSeq := by
  show (if h.watchDelay then _ else _) = _
  unfold noteDelay
  split <;> rfl

/-- Within a round, a sample leaves the start and the end of the round alone. -/
theorem round_note (h : Hystart) (s : Socket) (delay cwnd : Nat) (exits : List Exit) :
    (((h.noteAck s).noteDelay delay).noteExits cwnd exits).roundStart = h.roundStart ∧
      (((h.noteAck s).noteDelay delay).noteExits cwnd exits).endSeq = h.endSeq := by
  unfold noteAck noteDelay noteExits
  split <;> split <;> exact ⟨rfl, rfl⟩

/-- The detectors find the same in the two samples. -/
theorem Apart.sampleExits_eq (hh : h.Apart k h') (s : Socket) (delay delayMin : Nat) :
    h'.sampleExits (s.translate k) delay delayMin = h.sampleExits s delay delayMin := by
  unfold sampleExits
  rw [(hh.enterRound s).agree]
  rfl

/-- Whatever exits they brought up, the two samples leave the detectors `k` apart. -/
theorem Apart.note (hh : h.Apart k h') (s : Socket) (delay cwnd : Nat) (exits : List Exit) :
    (((h.noteAck s).noteDelay delay).noteExits cwnd exits).Apart k
      (((h'.noteAck (s.translate k)).noteDelay delay).noteExits cwnd exits) := by
  obtain ⟨hstart, hend⟩ := h.round_note s delay cwnd exits
  obtain ⟨-, hend'⟩ := h'.round_note (s.translate k) delay cwnd exits
  refine ⟨?_, fun hopen => ?_⟩
  · rw [hend']
    conv_lhs => rw [hh.agree, noteAck_endingAt, noteDelay_endingAt]
    rfl
  · rw [hstart] at hopen
    rw [hend', hend]
    exact hh.endSeq hopen

/-- The two samples leave the detectors `k` apart. -/
theorem Apart.sample (hh : h.Apart k h') (s : Socket) (delay delayMin : Nat) :
    (h.sample s delay delayMin).Apart k (h'.sample (s.translate k) delay delayMin) := by
  show Apart k (noteExits _ s.cwnd (h.sampleExits s delay delayMin))
    (noteExits _ s.cwnd (h'.sampleExits (s.translate k) delay delayMin))
  rw [hh.sampleExits_eq]
  exact (hh.enterRound s).note s delay s.cwnd _

/-- At a sample, an open round ends if the first number not acknowledged is ahead of its end by at
most half the circle, and goes on otherwise. -/
theorem enterRound_of_open {start : Nat} (hopen : h.roundStart = some start) (s : Socket) :
    h.enterRound s =
      if 1 ≤ (s.sndUna - h.endSeq).toNat ∧ (s.sndUna - h.endSeq).toNat ≤ 2147483648 then
        h.resetRound s
      else h := by
  have hover : h.roundOver s = true ↔
      1 ≤ (s.sndUna - h.endSeq).toNat ∧ (s.sndUna - h.endSeq).toNat ≤ 2147483648 := by
    rw [← SeqNum.after_iff]
    simp [roundOver, hopen]
  unfold enterRound
  simp only [hover]

end Hystart

/-- Two cubic engines that agree but for the end of the round. -/
structure Cubic.Apart (k : SeqNum) (x x' : Cubic) : Prop where
  params : x'.params = x.params
  state : x'.state = x.state
  hystart : x.hystart.Apart k x'.hystart
  initialSsthresh : x'.initialSsthresh = x.initialSsthresh

namespace Cubic

variable {k : SeqNum} {x x' : Cubic}

/-- The engines differ in the end of the round only. -/
theorem Apart.agree (h : x.Apart k x') :
    x' = { x with hystart := { x.hystart with endSeq := x'.hystart.endSeq } } := by
  obtain ⟨params, state, hystart, initialSsthresh⟩ := x'
  obtain ⟨rfl, rfl, hhystart, rfl⟩ := h
  exact congrArg (Cubic.mk x.params x.state · x.initialSsthresh) hhystart.agree

/-- Both engines ask for the same threshold when they are adopted. -/
theorem Apart.adoptedSsthresh_eq (h : x.Apart k x') (s : Socket) :
    x'.adoptedSsthresh (s.translate k) = x.adoptedSsthresh s := by
  unfold adoptedSsthresh
  rw [h.initialSsthresh, h.hystart.enabled_eq]
  rfl

/-- Adopted on both sockets, the engines begin rounds that are `k` apart. -/
theorem Apart.adopt (h : x.Apart k x') (s : Socket) :
    (x.adopt s).Apart k (x'.adopt (s.translate k)) := by
  have henabled : x'.hystart.reset.enabled = x.hystart.reset.enabled := h.hystart.enabled_eq
  refine ⟨h.params, rfl, ?_, h.initialSsthresh⟩
  simp only [Cubic.adopt, henabled]
  split
  · exact h.hystart.reset.resetRound s
  · exact h.hystart.reset

/-- Both engines grow the window alike. -/
theorem Apart.grow (h : x.Apart k x') (s : Socket) (acked : Nat) :
    (x.grow s acked).1.Apart k (x'.grow (s.translate k) acked).1 ∧
      (x'.grow (s.translate k) acked).2 = (x.grow s acked).2.translate k := by
  simp only [Cubic.grow, Growth.throughSlowStart_translate, h.params, h.state]
  rcases Growth.throughSlowStart s acked with ⟨started, _ | rest⟩
  · exact ⟨h, rfl⟩
  · exact ⟨⟨rfl, rfl, h.hystart, h.initialSsthresh⟩, Growth.additive_translate k _ rest started⟩

/-- Both engines take the same round trip into account. -/
theorem Apart.acceptedDelay_eq (h : x.Apart k x') (s : Socket) (sample : RttSample) :
    x'.acceptedDelay? (s.translate k) sample = x.acceptedDelay? s sample := by
  unfold acceptedDelay?
  rw [h.state]
  rfl

/-- Both engines watch slow start, or none. -/
theorem Apart.watches_eq (h : x.Apart k x') (s : Socket) :
    x'.watches (s.translate k) = x.watches s := by
  unfold watches
  rw [h.hystart.agree]
  rfl

/-- Both engines find the same reasons to leave slow start. -/
theorem Apart.exits_eq (h : x.Apart k x') (s : Socket) (sample : RttSample) :
    x'.exits (s.translate k) sample = x.exits s sample := by
  simp only [exits, h.acceptedDelay_eq, h.watches_eq, h.hystart.sampleExits_eq, h.state]

/-- At a sample that the detectors process, an open round ends, and a new one begins, if the first
number not acknowledged is ahead of its end by at most half the circle. The sample then counts
towards the new round, and otherwise towards the old one. -/
theorem round_sample {s : Socket} {sample : RttSample} (h : x.processes s sample = true)
    (hopen : x.hystart.roundStart.isSome = true) :
    let ahead := (s.sndUna - x.hystart.endSeq).toNat
    let round :=
      if 1 ≤ ahead ∧ ahead ≤ 2147483648 then x.hystart.resetRound s else x.hystart
    let y := x.sample s sample
    y.hystart.roundStart = round.roundStart ∧ y.hystart.endSeq = round.endSeq ∧
      (round.watchDelay = true → y.hystart.currRtt = min round.currRtt sample.delay ∧
        y.hystart.sampleCount = min (round.sampleCount + 1) 8) := by
  intro ahead round y
  obtain ⟨start, hstart⟩ := Option.isSome_iff_exists.mp hopen
  obtain ⟨-, hy, -⟩ := sample_of_processes h
  obtain ⟨found, counters, hframe⟩ :=
    x.hystart.sample_frame s sample.delay (x.sample s sample).state.delayMin
  rw [Hystart.enterRound_of_open hstart s] at hframe
  show (x.sample s sample).hystart.roundStart = _ ∧ (x.sample s sample).hystart.endSeq = _ ∧ _
  rw [hy, hframe]
  exact ⟨rfl, rfl, fun hwatch => ⟨if_pos hwatch, if_pos hwatch⟩⟩

/-- Both engines take a sample alike. -/
theorem Apart.sample (h : x.Apart k x') (s : Socket) (sample : RttSample) :
    (x.sample s sample).Apart k (x'.sample (s.translate k) sample) := by
  unfold Cubic.sample
  rw [h.acceptedDelay_eq]
  split
  · rename_i delay _
    refine ⟨h.params, congrArg (State.recordDelay delay) h.state, ?_, h.initialSsthresh⟩
    simp only [h.watches_eq, h.state]
    split
    · exact h.hystart.sample s delay _
    · exact h.hystart
  · exact h

end Cubic

/-- Two engines that agree but for the end of the round. -/
inductive Engine.Apart (k : SeqNum) : Engine → Engine → Prop
  | reno : Apart k .reno .reno
  | cubic {x x' : Cubic} (h : x.Apart k x') : Apart k (.cubic x) (.cubic x')

namespace Engine

variable {k : SeqNum} {e e' : Engine}

/-- The second engine has no memory if the first has none. -/
theorem Apart.eq_reno (h : Apart k .reno e') : e' = .reno := by
  cases h
  rfl

/-- The second engine is cubic if the first is. -/
theorem Apart.exists_cubic {x : Cubic} (h : Apart k (.cubic x) e') :
    ∃ x', e' = .cubic x' ∧ x.Apart k x' := by
  cases h with
  | cubic h => exact ⟨_, rfl, h⟩

/-- An engine as configured has no round open. -/
theorem apart_ofConfig (k : SeqNum) (config : Config) :
    Apart k (ofConfig config) (ofConfig config) := by
  unfold ofConfig
  split
  · exact .reno
  · exact .cubic ⟨rfl, rfl, Hystart.apart_of_roundStart_none rfl, rfl⟩

/-- Both engines find the same threshold after a loss. -/
theorem Apart.lossThreshold_eq (h : Apart k e e') (cwnd : Nat) :
    e'.lossThreshold cwnd = e.lossThreshold cwnd := by
  cases h with
  | reno => rfl
  | @cubic x x' h =>
      show max (Cubic.scaled cwnd x'.params.beta 1024) _ = _
      rw [h.params]
      rfl

/-- A loss leaves the detectors alone. -/
theorem Apart.reduce (h : Apart k e e') (cwnd : Nat) :
    Apart k (e.reduce cwnd) (e'.reduce cwnd) := by
  cases h with
  | reno => exact .reno
  | @cubic x x' h =>
      refine .cubic ⟨h.params, ?_, h.hystart, h.initialSsthresh⟩
      show x'.state.reduce x'.params cwnd = x.state.reduce x.params cwnd
      rw [h.state, h.params]

/-- Both engines are adopted alike. -/
theorem Apart.adopt (h : Apart k e e') (s : Socket) :
    Apart k (e.adopt s).1 (e'.adopt (s.translate k)).1 ∧
      (e'.adopt (s.translate k)).2 = (e.adopt s).2.translate k := by
  cases h with
  | reno => exact ⟨.reno, rfl⟩
  | cubic h =>
      refine ⟨.cubic (h.adopt s), ?_⟩
      simp only [Engine.adopt, h.adoptedSsthresh_eq]
      rfl

/-- Both windows grow alike. -/
theorem Apart.grow (h : Apart k e e') (s : Socket) (acked : Nat) :
    Apart k (e.grow s acked).1 (e'.grow (s.translate k) acked).1 ∧
      (e'.grow (s.translate k) acked).2 = (e.grow s acked).2.translate k := by
  cases h with
  | reno =>
      refine ⟨.reno, ?_⟩
      show Reno.grow (s.translate k) acked = (Reno.grow s acked).translate k
      unfold Reno.grow
      rw [Growth.throughSlowStart_translate]
      rcases Growth.throughSlowStart s acked with ⟨started, _ | rest⟩
      · rfl
      · exact Growth.additive_translate k started.cwnd rest started
  | cubic h =>
      obtain ⟨hgrown, hsocket⟩ := h.grow s acked
      exact ⟨.cubic hgrown, hsocket⟩

/-- Both engines take a sample alike. -/
theorem Apart.sample (h : Apart k e e') (s : Socket) (sample : RttSample) :
    Apart k (e.sample s sample).1 (e'.sample (s.translate k) sample).1 ∧
      (e'.sample (s.translate k) sample).2 = (e.sample s sample).2.translate k := by
  cases h with
  | reno => exact ⟨.reno, rfl⟩
  | cubic h =>
      refine ⟨.cubic (h.sample s sample), ?_⟩
      simp only [Engine.sample, h.exits_eq]
      split <;> rfl

/-- A loss state begins rounds that are `k` apart. -/
theorem Apart.changeState (h : Apart k e e') (s : Socket) (state : AvoidanceState) :
    Apart k (e.changeState s state) (e'.changeState (s.translate k) state) := by
  cases h with
  | reno => cases state <;> exact .reno
  | cubic h =>
      cases state with
      | loss => exact .cubic ⟨h.params, rfl, h.hystart.reset.resetRound s, h.initialSsthresh⟩
      | _ => exact .cubic h

/-- Window events leave the detectors alone. -/
theorem Apart.windowEvent (h : Apart k e e') (s : Socket) (event : WindowEvent) :
    Apart k (e.windowEvent s event) (e'.windowEvent (s.translate k) event) := by
  cases h with
  | reno => cases event <;> exact .reno
  | cubic h =>
      cases event with
      | sendStart =>
          have hshifted := congrArg (Cubic.State.shiftEpoch (s.now - s.lastSend) s.now) h.state
          exact .cubic ⟨h.params, hshifted, h.hystart, h.initialSsthresh⟩
      | _ => exact .cubic h

end Engine

/-! ## Connections -/

namespace Connection

/-- The event with all sequence numbers that the host writes `k` further. -/
def Event.translate (k : SeqNum) : Event → Event
  | .edit features e => .edit features (e.translate k)
  | e => e

/-- Two connections that agree but for sequence numbers, which lie `k` further in the second. -/
structure Apart (k : SeqNum) (c c' : Connection) : Prop where
  link : c'.link = c.link.translate k
  engine : Engine.Apart k c.engine c'.engine
  schedule : c'.schedule = c.schedule
  timer : c'.timer = c.timer

variable {k : SeqNum} {c c' : Connection}

/-- What changes the socket alike keeps two connections apart by `k`. -/
theorem Apart.mapSocket (h : c.Apart k c') {f g : Socket → Socket}
    (hfg : ∀ s, g (s.translate k) = (f s).translate k) :
    (c.mapSocket f).Apart k (c'.mapSocket g) where
  link := by
    show { c'.link with socket := g c'.link.socket } = _
    rw [h.link]
    exact congrArg (Link.mk c.link.gate) (hfg c.link.socket)
  engine := h.engine
  schedule := h.schedule
  timer := h.timer

/-- Both connections are brought in line with the clock alike. -/
theorem Apart.reconcile (h : c.Apart k c') (phase : Nat) :
    (c.reconcile phase).Apart k (c'.reconcile phase) := by
  unfold Connection.reconcile
  rw [h.timer]
  split
  · refine ⟨?_, h.engine, h.schedule, rfl⟩
    show c'.schedule.reconcile phase c'.link = _
    rw [h.schedule, h.link]
    exact Link.act_translate k c.link _ _
  · exact h

/-- Both windows grow alike. -/
theorem Apart.grow (h : c.Apart k c') (acked : Nat) : (c.grow acked).Apart k (c'.grow acked) := by
  obtain ⟨hgrown, hsocket⟩ := h.engine.grow c.link.socket acked
  unfold Connection.grow
  rw [h.link]
  exact ⟨congrArg (Link.mk c.link.gate) hsocket, hgrown, h.schedule, h.timer⟩

/-- Both connections take an acknowledgment alike. -/
theorem Apart.ack (h : c.Apart k c') (phase acked : Nat) :
    (c.ack phase acked).Apart k (c'.ack phase acked) := by
  have hlimited : c'.link.socket.cwndLimited = c.link.socket.cwndLimited := by
    rw [h.link]
    rfl
  have hblackout : c'.inBlackout phase = c.inBlackout phase := by
    unfold inBlackout
    rw [h.timer, h.schedule, h.link]
    rfl
  simp only [Connection.ack, hlimited, hblackout]
  split
  · split
    · exact h.reconcile phase
    · exact (h.reconcile phase).grow acked
  · exact h

/-- Both connections take a sample alike. -/
theorem Apart.sample (h : c.Apart k c') (sample : RttSample) :
    (c.sample sample).Apart k (c'.sample sample) := by
  obtain ⟨hsampled, hsocket⟩ := h.engine.sample c.link.socket sample
  unfold Connection.sample
  rw [h.link]
  exact ⟨congrArg (Link.mk c.link.gate) hsocket, hsampled, h.schedule, h.timer⟩

/-- Both connections adopt their algorithm alike. -/
theorem Apart.adopt (h : c.Apart k c') : c.adopt.Apart k c'.adopt := by
  obtain ⟨hadopted, hsocket⟩ := h.engine.adopt c.link.socket
  unfold Connection.adopt
  rw [h.link]
  exact ⟨congrArg (Link.mk .opened) hsocket, hadopted, h.schedule, rfl⟩

/-- Handover awareness comes to both connections alike. -/
theorem Apart.attach (h : c.Apart k c') (timer phase : Nat) :
    (c.attach timer phase).Apart k (c'.attach timer phase) := by
  refine ⟨?_, h.engine, h.schedule, rfl⟩
  show c'.schedule.adopt phase c'.link = _
  rw [h.schedule, h.link]
  exact Link.act_translate k c.link _ _

/-- A loss changes both connections alike. -/
theorem Apart.reduce (h : c.Apart k c') : c.reduce.Apart k c'.reduce := by
  have hcwnd : c'.link.effectiveCwnd = c.link.effectiveCwnd := by
    rw [h.link]
    rfl
  refine ⟨h.link, ?_, h.schedule, h.timer⟩
  show Engine.Apart k _ (c'.engine.reduce c'.link.effectiveCwnd)
  rw [hcwnd]
  exact h.engine.reduce c.link.effectiveCwnd

/-- The host hears the same threshold from both connections. -/
theorem Apart.lossThreshold_eq (h : c.Apart k c') : c'.lossThreshold = c.lossThreshold := by
  unfold lossThreshold
  rw [h.link]
  exact h.engine.lossThreshold_eq c.link.effectiveCwnd

/-- A loss that did not happen changes both connections alike. -/
theorem Apart.undo (h : c.Apart k c') : c.undo.Apart k c'.undo := by
  refine ⟨?_, h.engine, h.schedule, h.timer⟩
  show c'.link.raiseSaved c'.link.socket.priorCwnd = _
  rw [h.link]
  exact Link.raiseSaved_translate k c.link c.link.socket.priorCwnd

/-- The host hears the same window to restore from both connections. -/
theorem Apart.undoCwnd_eq (h : c.Apart k c') : c'.undoCwnd = c.undoCwnd := by
  unfold undoCwnd isSuspended
  rw [h.link]
  rfl

/-- The timer fires both connections alike. -/
theorem Apart.fire (h : c.Apart k c') (phase : Nat) :
    (c.fire phase).2.Apart k (c'.fire phase).2 := by
  have hestablished : (c.link.translate k).socket.established = c.link.socket.established := rfl
  unfold Connection.fire
  rw [h.timer]
  split
  · refine ⟨?_, h.engine, h.schedule, rfl⟩
    show (c'.schedule.fire phase c'.link).2 = (c.schedule.fire phase c.link).2.translate k
    rw [h.schedule, h.link]
    unfold Schedule.fire
    rw [hestablished]
    split
    · exact Link.act_translate k c.link _ _
    · rfl
  · exact h

/-- An event and its translation keep two connections apart by `k`. -/
theorem Apart.handle (h : c.Apart k c') (e : Event) :
    (c.handle e).Apart k (c'.handle (e.translate k)) := by
  cases e with
  | adopt handover =>
      cases handover with
      | none => exact h.adopt
      | some at' => exact h.adopt.attach at'.1 at'.2
  | release =>
      refine ⟨?_, h.engine, h.schedule, rfl⟩
      show Link.mk .opened c'.link.socket = _
      rw [h.link]
      rfl
  | renew config =>
      refine ⟨?_, Engine.apart_ofConfig k config, h.schedule, rfl⟩
      show Link.mk .opened c'.link.socket = _
      rw [h.link]
      rfl
  | ack phase acked => exact h.ack phase acked
  | sample x => exact h.sample x
  | reduce => exact h.reduce
  | shrink features =>
      have hshrunk (s : Socket) :
          features.present (Session.shrink c'.lossThreshold (s.translate k)) =
            (features.present (Session.shrink c.lossThreshold s)).translate k := by
        rw [h.lossThreshold_eq, ← Socket.Features.present_translate]
        rfl
      simp only [Connection.handle, Event.translate]
      exact h.reduce.mapSocket hshrunk
  | undo => exact h.undo
  | restore features =>
      have hrestored (s : Socket) : features.present { s.translate k with cwnd := c'.undoCwnd } =
          (features.present { s with cwnd := c.undoCwnd }).translate k := by
        rw [h.undoCwnd_eq, ← Socket.Features.present_translate]
        rfl
      simp only [Connection.handle, Event.translate]
      exact h.undo.mapSocket hrestored
  | changeState state =>
      refine ⟨h.link, ?_, h.schedule, h.timer⟩
      show Engine.Apart k _ (c'.engine.changeState c'.link.socket state)
      rw [h.link]
      exact h.engine.changeState c.link.socket state
  | windowEvent event =>
      refine ⟨h.link, ?_, h.schedule, h.timer⟩
      show Engine.Apart k _ (c'.engine.windowEvent c'.link.socket event)
      rw [h.link]
      exact h.engine.windowEvent c.link.socket event
  | fire phase => exact h.fire phase
  | advance features d =>
      have hadvanced (s : Socket) : features.present ((s.translate k).advance d) =
          (features.present (s.advance d)).translate k :=
        features.present_translate k (s.advance d)
      simp only [Connection.handle, Event.translate]
      exact h.mapSocket hadvanced
  | edit features e =>
      have hedited (s : Socket) : features.present ((s.translate k).edit (e.translate k)) =
          (features.present (s.edit e)).translate k := by
        rw [Socket.edit_translate, Socket.Features.present_translate]
      simp only [Connection.handle, Event.translate]
      exact h.mapSocket hedited

/-- Two runs with the same events, but for sequence numbers that lie `k` apart, stay apart by
`k`. -/
theorem Apart.handleAll (h : c.Apart k c') (events : List Event) :
    (c.handleAll events).Apart k (c'.handleAll (events.map (Event.translate k))) := by
  induction events generalizing c c' with
  | nil => exact h
  | cons e rest ih => exact ih (h.handle e)

/-- A new connection with the same configuration, on a socket whose sequence numbers lie `k`
further. -/
theorem create_translate {config : Config} {socket : Socket}
    (hcreate : Connection.create config socket = .ok c) (k : SeqNum) :
    ∃ c', Connection.create config (socket.translate k) = .ok c' ∧ c.Apart k c' := by
  unfold Connection.create at hcreate ⊢
  cases hvalid : config.validate with
  | error e => simp [hvalid] at hcreate
  | ok =>
      rw [hvalid] at hcreate
      rw [← Except.ok.inj hcreate]
      exact ⟨_, rfl, rfl, Engine.apart_ofConfig k config, rfl, rfl⟩

/-- Two connections are made alike on sockets whose sequence numbers lie `k` apart, and live through
the same events, but that sequence numbers which the host writes lie `k` apart as well. Then they
agree after every event on window, threshold and all that the socket holds besides sequence numbers,
on the gate, and on what the engine remembers. The end of the round is the only exception: while a
round is open, it lies `k` further in the second run. At a sample that the detectors process, an
open round ends, and a new one begins, exactly if the first number not acknowledged is ahead of the
end of the round by 1 to `2 ^ 31`. Any other sample leaves the detectors alone. -/
theorem handleAll_translate {config : Config} {socket : Socket}
    (hcreate : Connection.create config socket = .ok c) (k : SeqNum) :
    ∃ c', Connection.create config (socket.translate k) = .ok c' ∧
      ∀ events : List Event,
        let d := c.handleAll events
        let d' := c'.handleAll (events.map (Event.translate k))
        d'.link = d.link.translate k ∧ d'.schedule = d.schedule ∧ d'.timer = d.timer ∧
          (d.engine = .reno → d'.engine = .reno) ∧
          ∀ x, d.engine = .cubic x → ∃ x', d'.engine = .cubic x' ∧
            x' = { x with hystart := { x.hystart with endSeq := x'.hystart.endSeq } } ∧
            (x.hystart.roundStart.isSome = true → x'.hystart.endSeq = x.hystart.endSeq + k) ∧
            ∀ sample, ∃ y, (d.handle (.sample sample)).engine = .cubic y ∧
              (x.processes d.socket sample = true → x.hystart.roundStart.isSome = true →
                let ahead := (d.socket.sndUna - x.hystart.endSeq).toNat
                let h :=
                  if 1 ≤ ahead ∧ ahead ≤ 2147483648 then x.hystart.resetRound d.socket
                  else x.hystart
                y.hystart.roundStart = h.roundStart ∧ y.hystart.endSeq = h.endSeq ∧
                  (h.watchDelay = true → y.hystart.currRtt = min h.currRtt sample.delay ∧
                    y.hystart.sampleCount = min (h.sampleCount + 1) 8)) ∧
              (x.processes d.socket sample = false → y.hystart = x.hystart) := by
  obtain ⟨c', hcreate', hapart⟩ := create_translate hcreate k
  refine ⟨c', hcreate', fun events => ?_⟩
  intro d d'
  have hd : d.Apart k d' := hapart.handleAll events
  refine ⟨hd.link, hd.schedule, hd.timer, fun hreno => ?_, fun x hx => ?_⟩
  · have hengine := hd.engine
    rw [hreno] at hengine
    exact hengine.eq_reno
  · have hengine := hd.engine
    rw [hx] at hengine
    obtain ⟨x', hx', hcubic⟩ := hengine.exists_cubic
    refine ⟨x', hx', hcubic.agree, hcubic.hystart.endSeq, fun sample => ?_⟩
    exact ⟨_, cubic_sample hx sample, fun hprocesses hopen => Cubic.round_sample hprocesses hopen,
      fun hignored => Cubic.hystart_sample_of_not_processes hignored⟩

/-- A round that begins just before the sequence numbers wrap around, and ends behind: the first
run counts from 0, and the second from `2 ^ 32 - 50`. Its round ends at 50, and 46 packets are
acknowledged before the wrap. -/
theorem handleAll_translate_wrap :
    let socket : Socket := { cwnd := 40, sndNxt := 100 }
    let sample : RttSample := { packets := 1, micros := 30000 }
    let events : List Event := [.adopt none, .edit .full { sndUna := some 46 }, .sample sample,
      .edit .full { sndUna := some 101, now := some 30000000 }]
    ∃ c c', Connection.create {} socket = .ok c ∧
      Connection.create {} (socket.translate 4294967246) = .ok c' ∧
      let d := c.handleAll events
      let d' := c'.handleAll (events.map (Event.translate 4294967246))
      ∃ x x' y, d.engine = .cubic x ∧ d'.engine = .cubic x' ∧
        x.hystart.endSeq = 100 ∧ x'.hystart.endSeq = 50 ∧ d'.socket.sndUna = 51 ∧
        x'.hystart.roundStart = some 0 ∧ x'.hystart.sampleCount = 1 ∧
        (d.handle (.sample sample)).engine = .cubic y ∧ y.hystart.roundStart = some 30000000 := by
  intro socket sample events
  have hcreate : Connection.create {} socket = .ok _ := rfl
  obtain ⟨c', hcreate', hruns⟩ := handleAll_translate hcreate 4294967246
  obtain ⟨hlink, -, -, -, hcubic⟩ := hruns events
  let x : Cubic := ((Cubic.ofConfig {}).adopt socket).sample { socket with sndUna := 46 } sample
  obtain ⟨x', hx', hagree, hend, hsample⟩ := hcubic x rfl
  obtain ⟨y, hy, hround, -⟩ := hsample sample
  obtain ⟨hstart, -, -⟩ := hround (by decide) (by decide)
  have hseen : x.hystart.roundStart = some 0 ∧ x.hystart.sampleCount = 1 := by decide
  have hsndUna : (c'.handleAll (events.map (Event.translate 4294967246))).socket.sndUna = 51 := by
    unfold Connection.socket
    rw [hlink]
    decide
  refine ⟨_, c', hcreate, hcreate', x, x', y, rfl, hx', by decide, ?_, hsndUna, ?_, ?_, hy, ?_⟩
  · exact (hend (by decide)).trans (by decide)
  · exact (congrArg (fun x => x.hystart.roundStart) hagree).trans hseen.1
  · exact (congrArg (fun x => x.hystart.sampleCount) hagree).trans hseen.2
  · exact hstart.trans (by decide)

end Connection

end LowOrbit
