import LowOrbit.Proofs.Cubic.Reports
import LowOrbit.Proofs.Episodes
import Mathlib.Data.List.Chain

/-!
# The samples of a round

Of all the samples of a round, the detectors keep the time of the last one in the train, the
smallest round trip, and a count that stops at eight. This module keeps the samples themselves along
a run (`Connection.Recorded`) and shows that nothing is lost: what the detectors keep sums them up
(`Hystart.Follows`), and slow start is left early at a sample exactly if all samples of the round
together give a reason to (`Connection.found_iff`).
-/

namespace LowOrbit

/-! ## Dense trains -/

/-- Each of the times comes at most `gap` after the one before. -/
def Dense (gap : Nat) (times : List Nat) : Prop := times.IsChain fun t t' => t' ≤ t + gap

/-- What is kept of some times sums them up at time `now`: while they are dense, the last of them is
kept, and once they are not, what is kept lies too far back for anything to come within the gap. -/
def SumsUp (gap now : Nat) (times : List Nat) (kept : Option Nat) : Prop :=
  Dense gap times ∧ kept = times.getLast? ∨
    ¬ Dense gap times ∧ ∃ last, kept = some last ∧ last + gap < now

section

variable {gap now : Nat} {times : List Nat} {kept : Option Nat}

/-- A single time sums itself up. -/
theorem sumsUp_singleton (gap now t : Nat) : SumsUp gap now [t] (some t) :=
  .inl ⟨List.isChain_singleton t, rfl⟩

/-- The summary stays good as time passes. -/
theorem SumsUp.mono {now' : Nat} (h : SumsUp gap now times kept) (hle : now ≤ now') :
    SumsUp gap now' times kept := by
  rcases h with hdense | ⟨hgap, last, hkept, hfar⟩
  · exact .inl hdense
  · exact .inr ⟨hgap, last, hkept, Nat.lt_of_lt_of_le hfar hle⟩

/-- From the summary one can tell whether the times are dense with `now` added to them. -/
theorem SumsUp.dense_append_iff (h : SumsUp gap now times kept) (hne : times ≠ []) :
    Dense gap (times ++ [now]) ↔ kept.any (fun last => now - last ≤ gap) = true := by
  obtain ⟨last, hlast⟩ := Option.ne_none_iff_exists'.mp (mt List.getLast?_eq_none_iff.mp hne)
  have happend : Dense gap (times ++ [now]) ↔ Dense gap times ∧ now ≤ last + gap := by
    rw [Dense, Dense, List.isChain_append, hlast]
    simp
  rw [happend]
  rcases h with ⟨hdense, rfl⟩ | ⟨hgap, far, rfl, hfar⟩
  · rw [hlast]
    simp [hdense, Nat.add_comm]
  · simp [hgap]
    omega

/-- The summary with `now` added: it moves on to `now` if it lies within the gap. -/
theorem SumsUp.append (h : SumsUp gap now times kept) (hne : times ≠ []) :
    SumsUp gap now (times ++ [now])
      (if kept.any (fun last => now - last ≤ gap) then some now else kept) := by
  have hiff := h.dense_append_iff hne
  split
  · rename_i hnear
    exact .inl ⟨hiff.mpr hnear, by simp⟩
  · rename_i hfar
    refine .inr ⟨mt hiff.mp hfar, ?_⟩
    obtain ⟨last, hlast⟩ := Option.ne_none_iff_exists'.mp (mt List.getLast?_eq_none_iff.mp hne)
    have hsome : ∃ last, kept = some last := by
      rcases h with ⟨-, rfl⟩ | ⟨-, far, rfl, -⟩
      · exact ⟨last, hlast⟩
      · exact ⟨far, rfl⟩
    obtain ⟨far, rfl⟩ := hsome
    refine ⟨far, rfl, ?_⟩
    simp only [Option.any_some, decide_eq_true_eq] at hfar
    omega

end

/-- A number is below the smallest of some if it is below all of them. -/
theorem lt_foldl_min_iff {n init : Nat} {xs : List Nat} :
    n < xs.foldl min init ↔ n < init ∧ ∀ x ∈ xs, n < x := by
  induction xs generalizing init with
  | nil => simp
  | cons x xs ih => rw [List.foldl_cons, ih, List.forall_mem_cons, Nat.lt_min, and_assoc]

/-- The round trip in microseconds that a sample stands for: at least one, and a count. -/
def RttSample.delay (sample : RttSample) : Nat := max (min sample.micros.toNat maxCount) 1

/-! ## Rounds -/

namespace Hystart

/-- A sample that the detectors have processed. -/
structure Measurement where
  time : Nat
  /-- The round trip in microseconds. -/
  delay : Nat
  deriving DecidableEq, Repr

/-- A round: when it began, the sequence number whose acknowledgment ends it, and all samples that
have been processed since, in order. -/
structure Round where
  start : Option Nat := none
  endSeq : SeqNum := 0
  samples : List Measurement := []
  deriving DecidableEq, Repr

namespace Round

/-- A round that begins on a socket, without samples. -/
def begin (s : Socket) : Round := { start := some s.now, endSeq := s.sndNxt }

/-- Whether the next sample belongs to a new round. -/
def isOver (r : Round) (s : Socket) : Bool := r.start.isNone || s.sndUna.after r.endSeq

/-- Begins a round if the last one is over. -/
def enter (r : Round) (s : Socket) : Round := if r.isOver s then begin s else r

/-- Adds a sample to the round that it belongs to. -/
def take (r : Round) (s : Socket) (delay : Nat) : Round :=
  { r.enter s with samples := (r.enter s).samples ++ [⟨s.now, delay⟩] }

/-- The start of the round and the times of its samples. -/
def times (r : Round) : List Nat := r.start.toList ++ r.samples.map Measurement.time

/-- The round trips of the round. -/
def delays (r : Round) : List Nat := r.samples.map Measurement.delay

variable {r : Round} {s : Socket}

/-- A sample belongs to a round that has begun. -/
theorem start_enter (r : Round) (s : Socket) : ∃ start, (r.enter s).start = some start := by
  unfold enter
  split
  · exact ⟨s.now, rfl⟩
  · rename_i hgoing
    simp only [isOver, Bool.or_eq_true, not_or] at hgoing
    exact Option.ne_none_iff_exists'.mp fun h => hgoing.1 (by rw [h]; rfl)

/-- A sample adds its time to the times. -/
theorem times_take (r : Round) (s : Socket) (delay : Nat) :
    (r.take s delay).times = (r.enter s).times ++ [s.now] := by
  simp [take, times]

/-- A sample adds its round trip to the round trips. -/
theorem delays_take (r : Round) (s : Socket) (delay : Nat) :
    (r.take s delay).delays = (r.enter s).delays ++ [delay] := by
  simp [take, delays]

end Round

/-! ## What the detectors keep of a round -/

/-- The detectors before they have seen anything. -/
def blank (h : Hystart) : Hystart where
  enabled := h.enabled
  watchTrain := h.watchTrain
  watchDelay := h.watchDelay
  lowWindow := h.lowWindow
  ackDelta := h.ackDelta

/-- Detectors that have the same settings watch for the same. -/
theorem settings_of_blank_eq {h h' : Hystart} (heq : h.blank = h'.blank) :
    h.enabled = h'.enabled ∧ h.watchTrain = h'.watchTrain ∧ h.watchDelay = h'.watchDelay ∧
      h.lowWindow = h'.lowWindow ∧ h.ackDelta = h'.ackDelta := by
  simpa [blank] using heq

/-- The detectors work as configured. -/
def Configured (config : Config) (h : Hystart) : Prop := h.blank = (ofConfig config).blank

/-- What the detectors keep sums up a round at time `now`. -/
structure Follows (now : Nat) (h : Hystart) (r : Round) : Prop where
  roundStart_eq : h.roundStart = r.start
  endSeq_eq : r.start.isSome = true → h.endSeq = r.endSeq
  lastAck : r.start.isSome = true → h.watchTrain = true → SumsUp h.ackDelta now r.times h.lastAck
  currRtt_eq : r.start.isSome = true → h.watchDelay = true →
    h.currRtt = r.delays.foldl min maxCount
  sampleCount_eq : r.start.isSome = true → h.watchDelay = true →
    h.sampleCount = min r.delays.length minSamples

variable {config : Config} {h : Hystart} {r : Round} {s : Socket} {now : Nat}

/-- New detectors follow the empty round. -/
theorem follows_of_roundStart_none (hnone : h.roundStart = none) (now : Nat) :
    h.Follows now {} where
  roundStart_eq := hnone
  endSeq_eq := nofun
  lastAck := nofun
  currRtt_eq := nofun
  sampleCount_eq := nofun

/-- A new round is followed from its start on. -/
theorem follows_resetRound (h : Hystart) (s : Socket) :
    (h.resetRound s).Follows s.now (Round.begin s) where
  roundStart_eq := rfl
  endSeq_eq _ := rfl
  lastAck _ _ := sumsUp_singleton _ _ _
  currRtt_eq _ _ := rfl
  sampleCount_eq _ _ := rfl

/-- A round is followed as time passes. -/
theorem Follows.mono {now' : Nat} (hr : h.Follows now r) (hle : now ≤ now') :
    h.Follows now' r where
  roundStart_eq := hr.roundStart_eq
  endSeq_eq := hr.endSeq_eq
  lastAck hstart htrain := (hr.lastAck hstart htrain).mono hle
  currRtt_eq := hr.currRtt_eq
  sampleCount_eq := hr.sampleCount_eq

/-- The detectors know when the round that they follow is over. -/
theorem Follows.roundOver_eq (hr : h.Follows now r) (s : Socket) : h.roundOver s = r.isOver s := by
  unfold roundOver Round.isOver
  rw [hr.roundStart_eq]
  cases hstart : r.start with
  | none => rfl
  | some start => rw [hr.endSeq_eq (by rw [hstart]; rfl)]

/-- The detectors enter the round that a sample belongs to. -/
theorem Follows.enterRound (hr : h.Follows s.now r) :
    (h.enterRound s).Follows s.now (r.enter s) := by
  unfold Hystart.enterRound Round.enter
  rw [hr.roundOver_eq]
  split
  · exact follows_resetRound h s
  · exact hr

/-- The train goes on at a sample exactly if the times of the round are still dense with its own. -/
theorem Follows.continuesTrain_iff (hr : h.Follows s.now r) {start : Nat}
    (hstart : r.start = some start) :
    h.continuesTrain s = true ↔
      h.watchTrain = true ∧ Dense h.ackDelta (r.times ++ [s.now]) := by
  have hsome : r.start.isSome = true := by rw [hstart]; rfl
  have hne : r.times ≠ [] := by simp [Round.times, hstart]
  simp only [continuesTrain, Bool.and_eq_true, hr.roundStart_eq, hsome, and_true]
  refine and_congr_right fun htrain => ?_
  exact ((hr.lastAck hsome htrain).dense_append_iff hne).symm

/-- The train detector finds an exit exactly if the times of the round are dense and span more than
the threshold. -/
theorem Follows.trainExit_iff (hr : h.Follows s.now r) {start : Nat}
    (hstart : r.start = some start) (delayMin : Nat) :
    (h.trainExit? s delayMin).isSome = true ↔
      h.watchTrain = true ∧ Dense h.ackDelta (r.times ++ [s.now]) ∧
        start + Nanos.micros (trainThreshold s delayMin) < s.now := by
  have hspan : Nanos.micros (trainThreshold s delayMin) < s.now - start ↔
      start + Nanos.micros (trainThreshold s delayMin) < s.now := by omega
  rw [← and_assoc, ← hr.continuesTrain_iff hstart, ← hspan]
  simp only [trainExit?, hr.roundStart_eq, hstart, Option.getD_some]
  by_cases hgoes : h.continuesTrain s = true
  · rw [if_pos hgoes]
    by_cases hlong : Nanos.micros (trainThreshold s delayMin) < s.now - start
    · simp [hgoes, hlong]
    · simp [hlong]
  · simp [hgoes]

/-- The delay detector finds an exit exactly if the round has nine samples or more, and all of their
round trips exceed the threshold. -/
theorem Follows.delayExit_iff (hr : h.Follows now r) (hstart : r.start.isSome = true)
    {delay : Nat} (hdelay : delay ≤ maxCount) (delayMin : Nat) :
    (h.delayExit? delay delayMin).isSome = true ↔
      h.watchDelay = true ∧ 9 ≤ (r.delays ++ [delay]).length ∧
        ∀ d ∈ r.delays ++ [delay], delayThreshold delayMin < d := by
  by_cases hwatch : h.watchDelay = true
  · have hsmallest : min h.currRtt delay = (r.delays ++ [delay]).foldl min maxCount := by
      rw [hr.currRtt_eq hstart hwatch, List.foldl_append]
      rfl
    have hcount : minSamples ≤ h.sampleCount ↔ 9 ≤ (r.delays ++ [delay]).length := by
      rw [hr.sampleCount_eq hstart hwatch, List.length_append, minSamples]
      simp only [List.length_singleton]
      omega
    have hcapped : (∀ d ∈ r.delays ++ [delay], delayThreshold delayMin < d) →
        delayThreshold delayMin < maxCount := fun hall =>
      Nat.lt_of_lt_of_le (hall delay (by simp)) hdelay
    unfold delayExit?
    simp only [hwatch, true_and, hsmallest, hcount, lt_foldl_min_iff]
    split
    · rename_i hfound
      simp only [Option.isSome_some, true_iff]
      exact ⟨hfound.1, hfound.2.2⟩
    · rename_i hnone
      simp only [Option.isSome_none, Bool.false_eq_true, false_iff]
      exact fun hall => hnone ⟨hall.1, hcapped hall.2, hall.2⟩
  · simp [delayExit?, hwatch]

/-- A sample moves the end of the train to itself if it continues it, and counts its round trip. -/
theorem sample_frame (h : Hystart) (s : Socket) (delay delayMin : Nat) :
    let entered := h.enterRound s
    ∃ found counters, h.sample s delay delayMin =
      { entered with
        lastAck := if entered.continuesTrain s then some s.now else entered.lastAck
        currRtt := if entered.watchDelay then min entered.currRtt delay else entered.currRtt
        sampleCount :=
          if entered.watchDelay then min (entered.sampleCount + 1) minSamples
          else entered.sampleCount
        found := found
        counters := counters } := by
  intro entered
  show ∃ found counters, ((entered.noteAck s).noteDelay delay).noteExits s.cwnd
    (entered.exits s delay delayMin) = _
  unfold noteExits noteDelay noteAck
  split <;> split <;> exact ⟨_, _, rfl⟩

/-- Entering a round leaves the settings of the detectors alone. -/
theorem blank_enterRound (h : Hystart) (s : Socket) : (h.enterRound s).blank = h.blank := by
  unfold enterRound
  split <;> rfl

/-- A sample leaves the settings of the detectors alone. -/
theorem blank_sample (h : Hystart) (s : Socket) (delay delayMin : Nat) :
    (h.sample s delay delayMin).blank = h.blank := by
  obtain ⟨found, counters, hframe⟩ := h.sample_frame s delay delayMin
  rw [hframe]
  exact h.blank_enterRound s

/-- A sample is followed into its round. -/
theorem Follows.sample (hr : h.Follows s.now r) (delay delayMin : Nat) :
    (h.sample s delay delayMin).Follows s.now (r.take s delay) := by
  obtain ⟨found, counters, hframe⟩ := h.sample_frame s delay delayMin
  obtain ⟨start, hstart⟩ := r.start_enter s
  have hsome : (r.enter s).start.isSome = true := by rw [hstart]; rfl
  have hentered := hr.enterRound
  rw [hframe]
  refine ⟨hentered.roundStart_eq, hentered.endSeq_eq, fun _ htrain => ?_, fun _ hdelay => ?_,
    fun _ hdelay => ?_⟩
  · have hgoes : (h.enterRound s).continuesTrain s =
        (h.enterRound s).lastAck.any fun last => s.now - last ≤ (h.enterRound s).ackDelta := by
      rw [continuesTrain, hentered.roundStart_eq, hsome, show _ = true from htrain]
      rfl
    have hne : (r.enter s).times ≠ [] := by simp [Round.times, hstart]
    rw [Round.times_take, hgoes]
    exact (hentered.lastAck hsome htrain).append hne
  · have hwatch : (h.enterRound s).watchDelay = true := hdelay
    simp only [if_pos hwatch]
    rw [hentered.currRtt_eq hsome hwatch, Round.delays_take, List.foldl_append]
    rfl
  · have hwatch : (h.enterRound s).watchDelay = true := hdelay
    simp only [if_pos hwatch]
    rw [hentered.sampleCount_eq hsome hwatch, Round.delays_take, List.length_append,
      List.length_singleton, minSamples]
    omega

/-- The detectors find an exit at a sample exactly if all samples of its round, with itself as the
last one, form a train that is long enough or have all been delayed. -/
theorem Follows.sampleExits_iff (hr : h.Follows s.now r) {delay : Nat}
    (hdelay : delay ≤ maxCount) (delayMin : Nat) :
    (h.sampleExits s delay delayMin).isEmpty = false ↔
      (h.watchTrain = true ∧ Dense h.ackDelta (r.take s delay).times ∧
          ∃ start, (r.take s delay).start = some start ∧
            start + Nanos.micros (trainThreshold s delayMin) < s.now) ∨
        (h.watchDelay = true ∧ 9 ≤ (r.take s delay).delays.length ∧
          ∀ d ∈ (r.take s delay).delays, delayThreshold delayMin < d) := by
  obtain ⟨start, hstart⟩ := r.start_enter s
  have hentered := hr.enterRound
  obtain ⟨-, htrains, hdelays, -, hgap⟩ := settings_of_blank_eq (h.blank_enterRound s)
  have htrain := hentered.trainExit_iff hstart delayMin
  have hdelayed := hentered.delayExit_iff (by rw [hstart]; rfl) hdelay delayMin
  rw [htrains, hgap, ← Round.times_take r s delay] at htrain
  rw [hdelays, ← Round.delays_take] at hdelayed
  have htaken : (r.take s delay).start = some start := hstart
  rw [← hdelayed]
  simp only [htaken, Option.some.injEq, exists_eq_left', ← htrain, sampleExits, exits]
  cases (h.enterRound s).trainExit? s delayMin <;>
    cases (h.enterRound s).delayExit? delay delayMin <;> simp

end Hystart

/-! ## Engines -/

namespace Cubic

variable {x : Cubic} {s : Socket} {sample : RttSample}

/-- Whether the detectors process a sample. -/
def processes (x : Cubic) (s : Socket) (sample : RttSample) : Bool :=
  (x.acceptedDelay? s sample).isSome && x.watches s

/-- What a sample that is accepted adds is the round trip that it stands for. -/
theorem acceptedDelay_eq {delay : Nat} (h : x.acceptedDelay? s sample = some delay) :
    delay = sample.delay := by
  unfold acceptedDelay? at h
  split at h
  · exact (Option.some.inj h).symm
  · cases h

/-- A sample that the detectors process reaches them, and they look for an exit in it. -/
theorem sample_of_processes (h : x.processes s sample = true) :
    let delayMin := (x.sample s sample).state.delayMin
    x.hystart.found = false ∧
      (x.sample s sample).hystart = x.hystart.sample s sample.delay delayMin ∧
      x.exits s sample = x.hystart.sampleExits s sample.delay delayMin := by
  simp only [processes, Bool.and_eq_true] at h
  obtain ⟨haccepted, hwatches⟩ := h
  obtain ⟨delay, hdelay⟩ := Option.isSome_iff_exists.mp haccepted
  have hfound : x.hystart.found = false := by
    simp only [watches, Bool.and_eq_true, Bool.not_eq_true'] at hwatches
    exact hwatches.1.1.2
  rw [← acceptedDelay_eq hdelay]
  simp only [Cubic.sample, exits, hdelay, if_pos hwatches]
  exact ⟨hfound, trivial, trivial⟩

/-- Any other sample leaves the detectors alone. -/
theorem hystart_sample_of_not_processes (h : x.processes s sample = false) :
    (x.sample s sample).hystart = x.hystart := by
  unfold Cubic.sample
  split
  · rename_i delay hdelay
    simp only [processes, hdelay, Option.isSome_some, Bool.true_and] at h
    simp only [h, Bool.false_eq_true, if_false]
  · rfl

end Cubic

/-! ## Runs -/

namespace Connection

open Hystart (Round Configured Follows)

variable {c : Connection} {x : Cubic} {e : Event} {config : Config} {r : Round}

/-- The round after an event that reaches the cubic engine `x`. -/
def roundAfter (c : Connection) (x : Cubic) (r : Round) : Event → Round
  | .sample sample => if x.processes c.socket sample then r.take c.socket sample.delay else r
  | .adopt _ => if x.hystart.enabled then .begin c.socket else {}
  | .changeState .loss => .begin c.socket
  | .renew _ => {}
  | _ => r

/-- The configuration in force after an event. -/
def Event.configAfter (config : Config) : Event → Config
  | .renew config => config
  | _ => config

/-- What a run with a clock that does not go back leads to, together with the configuration in force
and the round of the cubic engine, if it has one. -/
inductive Recorded : Config → Connection → Round → Prop
  | create {config : Config} {socket : Socket} {c : Connection}
      (hcreate : Connection.create config socket = .ok c) : Recorded config c {}
  | handle {config : Config} {c : Connection} {r : Round} {e : Event} (h : Recorded config c r)
      (hclock : c.socket.now ≤ (c.handle e).socket.now) :
      Recorded (e.configAfter config) (c.handle e)
        (match c.engine with
          | .reno => {}
          | .cubic x => c.roundAfter x r e)

/-- Whatever happens but a new configuration, the detectors follow the round and stay as
configured. -/
theorem follows_cubicAfter (hconfig : x.hystart.Configured config)
    (hr : x.hystart.Follows c.socket.now r) (hrenew : ∀ config, e ≠ .renew config) :
    (c.cubicAfter x e).hystart.Configured config ∧
      (c.cubicAfter x e).hystart.Follows c.socket.now (c.roundAfter x r e) := by
  cases e with
  | renew config => exact absurd rfl (hrenew config)
  | ack phase acked =>
      have hsame : (c.cubicAfter x (.ack phase acked)).hystart = x.hystart := by
        simp only [cubicAfter, Cubic.grow]
        split
        · split <;> rfl
        · rfl
      rw [hsame]
      exact ⟨hconfig, hr⟩
  | sample sample =>
      show (x.sample c.socket sample).hystart.Configured config ∧
        (x.sample c.socket sample).hystart.Follows c.socket.now
          (if x.processes c.socket sample then r.take c.socket sample.delay else r)
      by_cases hprocesses : x.processes c.socket sample = true
      · rw [if_pos hprocesses, (Cubic.sample_of_processes hprocesses).2.1]
        exact ⟨(Hystart.blank_sample _ _ _ _).trans hconfig, hr.sample _ _⟩
      · rw [if_neg hprocesses,
          Cubic.hystart_sample_of_not_processes (eq_false_of_ne_true hprocesses)]
        exact ⟨hconfig, hr⟩
  | adopt handover =>
      show (x.adopt c.socket).hystart.Configured config ∧
        (x.adopt c.socket).hystart.Follows c.socket.now
          (if x.hystart.enabled then .begin c.socket else {})
      have henabled : x.hystart.reset.enabled = x.hystart.enabled := rfl
      simp only [Cubic.adopt, henabled]
      split
      · exact ⟨hconfig, Hystart.follows_resetRound _ _⟩
      · exact ⟨hconfig, Hystart.follows_of_roundStart_none rfl _⟩
  | changeState state =>
      cases state with
      | loss => exact ⟨hconfig, Hystart.follows_resetRound _ _⟩
      | _ => exact ⟨hconfig, hr⟩
  | windowEvent event => cases event <;> exact ⟨hconfig, hr⟩
  | _ => exact ⟨hconfig, hr⟩

/-- The detectors of a new engine work as configured, and no round has begun. -/
theorem follows_ofConfig (hx : Engine.ofConfig config = .cubic x) (now : Nat) :
    x.hystart.Configured config ∧ x.hystart.Follows now {} := by
  rw [eq_cubic_of_ofConfig hx]
  exact ⟨rfl, Hystart.follows_of_roundStart_none rfl now⟩

/-- Along a run, the detectors work as configured and follow the round. -/
theorem Recorded.follows (h : Recorded config c r) (hx : c.engine = .cubic x) :
    x.hystart.Configured config ∧ x.hystart.Follows c.socket.now r := by
  induction h generalizing x with
  | create hcreate => exact follows_ofConfig ((engine_create hcreate).symm.trans hx) _
  | @handle config c r e h hclock ih =>
      by_cases hrenew : ∃ config', e = .renew config'
      · obtain ⟨config', rfl⟩ := hrenew
        cases hengine : c.engine with
        | reno => exact follows_ofConfig hx _
        | cubic x₀ => exact follows_ofConfig hx _
      · have hkept : ∀ config', e ≠ .renew config' := fun config' h => hrenew ⟨config', h⟩
        cases hengine : c.engine with
        | reno => exact nomatch (reno_handle hengine hkept).symm.trans hx
        | cubic x₀ =>
            have hsame : e.configAfter config = config := by
              cases e with
              | renew config' => exact absurd rfl (hkept config')
              | _ => rfl
            obtain rfl : c.cubicAfter x₀ e = x :=
              Engine.cubic.inj ((cubic_handle hengine hkept).symm.trans hx)
            obtain ⟨hconfig, hr⟩ := ih hengine
            obtain ⟨hconfig', hr'⟩ := follows_cubicAfter hconfig hr hkept
            rw [hsame]
            exact ⟨hconfig', hr'.mono hclock⟩

/-- Every connection that is reached without the clock going back has such a record. -/
theorem Reachable.exists_recorded (h : Reachable config (· ≤ ·) c) :
    ∃ config' r, Recorded config' c r := by
  induction h with
  | create _ hcreate => exact ⟨_, _, .create hcreate⟩
  | handle _ _ hclock ih =>
      obtain ⟨config', r, hrecorded⟩ := ih
      exact ⟨_, _, hrecorded.handle hclock⟩

/-- At a sample that the detectors process, with the clock at `now`, an exit becomes known in
exactly two cases. In the first, trains are watched, the times of the round form a train, the start
of the round and the present sample included, and it has lasted for longer than the smallest round
trip and the cushion, or half of that without pacing. In the second, delays are watched, the round
has at least nine samples, and every one of them took longer than the smallest round trip by more
than an eighth of it, which counts as 4 ms at least and as 16 ms at most. -/
theorem found_iff (h : Recorded config c r) (hx : c.engine = .cubic x) {sample : RttSample}
    (hprocesses : x.processes c.socket sample = true) :
    let now := c.socket.now
    let round := r.take c.socket sample.delay
    ∃ start y, round.start = some start ∧ (c.handle (.sample sample)).engine = .cubic y ∧
      x.hystart.found = false ∧
      let delayMin := y.state.delayMin
      let cushioned := delayMin + Hystart.cushion c.socket
      let long := if c.socket.paced then cushioned else cushioned / 2
      let slow := min (delayMin + max 4000 (min (delayMin / 8) 16000)) maxCount
      (y.hystart.found = true ↔
        (config.hystartDetect.testBit 0 = true ∧ Dense config.hystartAckDelta round.times ∧
            start + Nanos.micros long < now) ∨
          (config.hystartDetect.testBit 1 = true ∧ 9 ≤ round.samples.length ∧
            ∀ m ∈ round.samples, slow < m.delay)) := by
  intro now round
  obtain ⟨hconfig, hr⟩ := h.follows hx
  obtain ⟨start, hstart⟩ := r.start_enter c.socket
  obtain ⟨hunknown, hhystart, -⟩ := Cubic.sample_of_processes hprocesses
  refine ⟨start, _, hstart, cubic_sample hx sample, hunknown, ?_⟩
  intro delayMin cushioned long slow
  have hdelay : sample.delay ≤ maxCount := by
    unfold RttSample.delay maxCount
    omega
  have hexits := hr.sampleExits_iff hdelay delayMin
  obtain ⟨-, htrains, hdelays, -, hgap⟩ := Hystart.settings_of_blank_eq hconfig
  rw [htrains, hdelays, hgap] at hexits
  have hfound : (x.sample c.socket sample).hystart.found = true ↔
      (x.hystart.sampleExits c.socket sample.delay delayMin).isEmpty = false := by
    rw [hhystart, (x.hystart.sample_record c.socket sample.delay delayMin).1, hunknown]
    simp
  have hround : round.start = some start := hstart
  have hlong : (∃ start', round.start = some start' ∧ start' + Nanos.micros long < now) ↔
      start + Nanos.micros long < now := by
    rw [hround]
    exact ⟨fun ⟨_, hstart', hlt⟩ => Option.some.inj hstart' ▸ hlt, fun hlt => ⟨start, rfl, hlt⟩⟩
  have hlength : round.delays.length = round.samples.length := List.length_map _
  have hslow : (∀ d ∈ round.delays, slow < d) ↔ ∀ m ∈ round.samples, slow < m.delay :=
    List.forall_mem_map
  rw [hfound, hexits, ← hlong, ← hlength, ← hslow]
  exact Iff.rfl

/-- Slow start begins at time 0, and the first acknowledgment comes 2 ms later, from a path with a
round trip of 3 ms: a train of 2 ms is longer than half of that. -/
theorem found_iff_early :
    let c : Connection :=
      { link := { socket := { cwnd := 40 } }, engine := Engine.ofConfig {},
        schedule := Handover.Schedule.ofConfig {} }
    let d := (c.handle (.adopt none)).handle (.advance .full 2000000)
    let x : Cubic := (Cubic.ofConfig {}).adopt c.socket
    let sample : RttSample := { packets := 1, micros := 3000 }
    Recorded {} d (.begin c.socket) ∧ d.engine = .cubic x ∧ x.processes d.socket sample = true ∧
      ∃ y, (d.handle (.sample sample)).engine = .cubic y ∧ y.state.delayMin = 3000 ∧
        y.hystart.found = true := by
  intro c d x sample
  have hcreate : Connection.create {} { cwnd := 40 } = .ok c := rfl
  have hadopted : Recorded {} (c.handle (.adopt none)) (.begin c.socket) :=
    (Recorded.create hcreate).handle (e := .adopt none) (Nat.le_refl 0)
  have hlater : Recorded {} d (.begin c.socket) :=
    hadopted.handle (e := .advance .full 2000000) (by decide)
  have hprocesses : x.processes d.socket sample = true := by decide
  obtain ⟨start, y, hstart, hy, -, hfound⟩ := found_iff hlater rfl hprocesses
  have hbegan : ((Round.begin c.socket).take d.socket sample.delay).start = some 0 := by decide
  have htimes : ((Round.begin c.socket).take d.socket sample.delay).times = [0, 2000000] := by
    decide
  obtain rfl : 0 = start := Option.some.inj (hbegan.symm.trans hstart)
  obtain rfl : x.sample d.socket sample = y := Engine.cubic.inj hy
  refine ⟨hlater, rfl, hprocesses, _, hy, rfl, hfound.mpr (.inl ⟨rfl, ?_, by decide⟩)⟩
  rw [htimes]
  exact List.isChain_pair.mpr (by decide)

end Connection

end LowOrbit
