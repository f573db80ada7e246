import LowOrbit.Proofs.Events

/-!
# Leaving slow start early

An episode is a stretch of events in which the engine does not start over: the algorithm is not
adopted, its state is not replaced, and no retransmission times out. Whatever else happens in an
episode, slow start is left early at most once, by a round-trip time sample, and the counters record
exactly that (`Connection.exits_of_episode`). Two detectors look at every sample, so that one exit
may be counted by both of them. A single sample is the subject of `Connection.sample_cases`.
-/

namespace LowOrbit

/-! ## Counters -/

namespace ExitCounters

/-- A count of exits and the sum of their windows go from `n` and `sum` to `n'` and `sum'`: both
stay, or one exit at window `cwnd` is added. -/
def Counted (cwnd n sum n' sum' : Nat) : Prop :=
  n' = n ∧ sum' = sum ∨ n' = n + 1 ∧ sum' = sum + cwnd

/-- Between `c` and `c'` each detector counts at most one exit, at window `cwnd`. -/
structure Steps (cwnd : Nat) (c c' : ExitCounters) : Prop where
  train : Counted cwnd c.trainExits c.trainCwnd c'.trainExits c'.trainCwnd
  delay : Counted cwnd c.delayExits c.delayCwnd c'.delayExits c'.delayCwnd

/-- One detector at least has counted exits between `c` and `c'`. -/
def Grew (c c' : ExitCounters) : Prop :=
  c'.trainExits ≠ c.trainExits ∨ c'.delayExits ≠ c.delayExits

/-- Nothing grows if nothing changes. -/
theorem not_grew_self (c : ExitCounters) : ¬ Grew c c := by
  intro h
  rcases h with h | h
  · exact h rfl
  · exact h rfl

/-- Counters that do not change count no exit. -/
theorem steps_self (cwnd : Nat) (c : ExitCounters) : Steps cwnd c c where
  train := .inl ⟨rfl, rfl⟩
  delay := .inl ⟨rfl, rfl⟩

end ExitCounters

/-! ## The detectors -/

namespace Hystart

open ExitCounters (Counted Grew Steps)

variable (h : Hystart) (s : Socket)

/-- The train detector finds nothing, or a train. -/
theorem trainExit?_cases (delayMin : Nat) :
    h.trainExit? s delayMin = none ∨
      ∃ length threshold, h.trainExit? s delayMin = some (.train length threshold delayMin) := by
  unfold trainExit?
  split
  · by_cases hlong :
        Nanos.micros (trainThreshold s delayMin) < s.now - h.roundStart.getD s.now
    · exact .inr ⟨_, _, if_pos hlong⟩
    · exact .inl (if_neg hlong)
  · exact .inl rfl

/-- The delay detector finds nothing, or a delay. -/
theorem delayExit?_cases (delay delayMin : Nat) :
    h.delayExit? delay delayMin = none ∨
      ∃ rtt threshold, h.delayExit? delay delayMin = some (.delay rtt threshold) := by
  unfold delayExit?
  by_cases hlong : h.watchDelay ∧ minSamples ≤ h.sampleCount ∧
      delayThreshold delayMin < min h.currRtt delay
  · exact .inr ⟨_, _, if_pos hlong⟩
  · exact .inl (if_neg hlong)

/-- Each detector counts what it finds at a sample, and that is one exit at most. -/
theorem counters_exits (cwnd delay delayMin : Nat) (c : ExitCounters) :
    let c' := (h.exits s delay delayMin).foldl (ExitCounters.count cwnd) c
    Steps cwnd c c' ∧ (Grew c c' ↔ (h.exits s delay delayMin).isEmpty = false) := by
  rcases h.trainExit?_cases s delayMin with htrain | ⟨length, threshold, htrain⟩ <;>
    rcases h.delayExit?_cases delay delayMin with hdelay | ⟨rtt, threshold', hdelay⟩ <;>
    simp only [exits, htrain, hdelay]
  · exact ⟨ExitCounters.steps_self cwnd c, by simp [ExitCounters.not_grew_self]⟩
  · exact ⟨⟨.inl ⟨rfl, rfl⟩, .inr ⟨rfl, rfl⟩⟩, by simp [Grew, ExitCounters.count]⟩
  · exact ⟨⟨.inr ⟨rfl, rfl⟩, .inl ⟨rfl, rfl⟩⟩, by simp [Grew, ExitCounters.count]⟩
  · exact ⟨⟨.inr ⟨rfl, rfl⟩, .inr ⟨rfl, rfl⟩⟩, by simp [Grew, ExitCounters.count]⟩

/-- Entering a round does not touch what is known of exits. -/
theorem enterRound_record :
    (h.enterRound s).found = h.found ∧ (h.enterRound s).counters = h.counters := by
  unfold enterRound
  split
  · exact ⟨rfl, rfl⟩
  · exact ⟨rfl, rfl⟩

/-- Adding a sample to the train does not touch what is known of exits. -/
theorem noteAck_record :
    (h.noteAck s).found = h.found ∧ (h.noteAck s).counters = h.counters := by
  unfold noteAck
  split
  · exact ⟨rfl, rfl⟩
  · exact ⟨rfl, rfl⟩

/-- Adding a round trip to the round does not touch what is known of exits. -/
theorem noteDelay_record (delay : Nat) :
    (h.noteDelay delay).found = h.found ∧ (h.noteDelay delay).counters = h.counters := by
  unfold noteDelay
  split
  · exact ⟨rfl, rfl⟩
  · exact ⟨rfl, rfl⟩

/-- A sample adds the exits that it brings up to what is known, and nothing else. -/
theorem sample_record (delay delayMin : Nat) :
    (h.sample s delay delayMin).found =
        (h.found || !(h.sampleExits s delay delayMin).isEmpty) ∧
      (h.sample s delay delayMin).counters =
        (h.sampleExits s delay delayMin).foldl (ExitCounters.count s.cwnd) h.counters := by
  have hround := h.enterRound_record s
  have hack := (h.enterRound s).noteAck_record s
  have hdelay := ((h.enterRound s).noteAck s).noteDelay_record delay
  simp only [sample, sampleExits, noteExits]
  rw [hdelay.1, hack.1, hround.1, hdelay.2, hack.2, hround.2]
  exact ⟨rfl, rfl⟩

/-- While no exit is known, a sample either brings none up and leaves what is known of exits as it
is, or brings some up, and then they are known and counted. -/
theorem sample_cases_of_unknown (hunknown : h.found = false) (delay delayMin : Nat) :
    h.sampleExits s delay delayMin = [] ∧ (h.sample s delay delayMin).found = h.found ∧
        (h.sample s delay delayMin).counters = h.counters ∨
      (h.sampleExits s delay delayMin).isEmpty = false ∧
        (h.sample s delay delayMin).found = true ∧
        Steps s.cwnd h.counters (h.sample s delay delayMin).counters ∧
        Grew h.counters (h.sample s delay delayMin).counters := by
  obtain ⟨hfound, hrecorded⟩ := h.sample_record s delay delayMin
  have hcounted := (h.enterRound s).counters_exits s s.cwnd delay delayMin h.counters
  rw [← sampleExits, ← hrecorded] at hcounted
  cases hempty : (h.sampleExits s delay delayMin).isEmpty with
  | true =>
      have hnil : h.sampleExits s delay delayMin = [] := List.isEmpty_iff.mp hempty
      refine .inl ⟨hnil, ?_, ?_⟩
      · rw [hfound, hempty, hunknown]
        rfl
      · rw [hrecorded, hnil]
        rfl
  | false =>
      refine .inr ⟨rfl, ?_, hcounted.1, hcounted.2.mpr hempty⟩
      rw [hfound, hempty, hunknown]
      rfl

end Hystart

namespace Cubic

open ExitCounters (Grew Steps)

/-- Only a sample that slow start is watched for can change what is known of exits. It does so if a
detector finds something, and then no exit was known before. -/
theorem sample_cases (c : Cubic) (s : Socket) (x : RttSample) :
    c.exits s x = [] ∧ (c.sample s x).hystart.found = c.hystart.found ∧
        (c.sample s x).hystart.counters = c.hystart.counters ∨
      (c.exits s x).isEmpty = false ∧ c.hystart.found = false ∧
        (c.sample s x).hystart.found = true ∧
        Steps s.cwnd c.hystart.counters (c.sample s x).hystart.counters ∧
        Grew c.hystart.counters (c.sample s x).hystart.counters := by
  cases hdelay : c.acceptedDelay? s x with
  | none =>
      have hexits : c.exits s x = [] := by simp [exits, hdelay]
      have hsame : c.sample s x = c := by simp [sample, hdelay]
      rw [hsame]
      exact .inl ⟨hexits, rfl, rfl⟩
  | some delay =>
      cases hwatches : c.watches s with
      | false =>
          have hexits : c.exits s x = [] := by simp [exits, hdelay, hwatches]
          have hsame : (c.sample s x).hystart = c.hystart := by simp [sample, hdelay, hwatches]
          rw [hsame]
          exact .inl ⟨hexits, rfl, rfl⟩
      | true =>
          -- Slow start is watched only as long as no exit is known.
          have hunknown : c.hystart.found = false := by
            simp only [watches, Bool.and_eq_true, Bool.not_eq_true'] at hwatches
            exact hwatches.1.1.2
          have hexits : c.exits s x =
              c.hystart.sampleExits s delay (c.state.recordDelay delay).delayMin := by
            simp [exits, hdelay, hwatches]
          have hsample : (c.sample s x).hystart =
              c.hystart.sample s delay (c.state.recordDelay delay).delayMin := by
            simp [sample, hdelay, hwatches]
          have hcases := c.hystart.sample_cases_of_unknown s hunknown delay
            (c.state.recordDelay delay).delayMin
          rw [← hexits, ← hsample] at hcases
          rcases hcases with hsilent | ⟨hfinds, hrecorded⟩
          · exact .inl hsilent
          · exact .inr ⟨hfinds, hunknown, hrecorded⟩

end Cubic

/-! ## One event -/

/-- Whether the engine knows of a reason to have left slow start. Only CUBIC looks for one. -/
def Engine.foundExit : Engine → Bool
  | .reno => false
  | .cubic c => c.hystart.found

namespace Connection

open ExitCounters (Grew Steps)

/-- The engine starts over at this event, and with it a new episode begins. -/
def Event.StartsEpisode : Event → Prop
  | .adopt _ | .renew _ | .changeState .loss => True
  | _ => False

/-- Whether a step from `c` to `c'` finds a reason to leave slow start that was not known before. -/
def discovers (c c' : Connection) : Bool := !c.engine.foundExit && c'.engine.foundExit

/-- From `c` to `c'` the knowledge about exits stays as it is. -/
structure Keeps (c c' : Connection) : Prop where
  foundExit_eq : c'.engine.foundExit = c.engine.foundExit
  counters_eq : c'.engine.exitCounters = c.engine.exitCounters

/-- From `c` to `c'` an exit is found at window `cwnd`, and counted. -/
structure Exits (cwnd : Nat) (c c' : Connection) : Prop where
  unknown : c.engine.foundExit = false
  known : c'.engine.foundExit = true
  steps : Steps cwnd c.engine.exitCounters c'.engine.exitCounters
  grew : Grew c.engine.exitCounters c'.engine.exitCounters

variable {c c' c'' : Connection} {cwnd : Nat}

/-- Keeping the knowledge about exits twice is keeping it. -/
theorem Keeps.trans (h : c.Keeps c') (h' : c'.Keeps c'') : c.Keeps c'' where
  foundExit_eq := h'.foundExit_eq.trans h.foundExit_eq
  counters_eq := h'.counters_eq.trans h.counters_eq

/-- An exit may be found after events that keep the knowledge about exits. -/
theorem Keeps.trans_exits (h : c.Keeps c') (hexits : Exits cwnd c' c'') : Exits cwnd c c'' where
  unknown := h.foundExit_eq ▸ hexits.unknown
  known := hexits.known
  steps := h.counters_eq ▸ hexits.steps
  grew := h.counters_eq ▸ hexits.grew

/-- The knowledge of an exit may be kept after it has been found. -/
theorem Exits.trans_keeps (h : Exits cwnd c c') (hkeeps : c'.Keeps c'') : Exits cwnd c c'' where
  unknown := h.unknown
  known := hkeeps.foundExit_eq.trans h.known
  steps := hkeeps.counters_eq ▸ h.steps
  grew := hkeeps.counters_eq ▸ h.grew

/-- Nothing is discovered where the knowledge about exits stays as it is. -/
theorem Keeps.discovers_eq (h : c.Keeps c') : c.discovers c' = false := by
  rw [discovers, h.foundExit_eq]
  cases c.engine.foundExit <;> rfl

/-- An exit is discovered. -/
theorem Exits.discovers_eq (h : Exits cwnd c c') : c.discovers c' = true := by
  rw [discovers, h.unknown, h.known]
  rfl

/-- A sample finds an exit and lowers the slow start threshold to the window, or it changes neither
the knowledge about exits nor the socket. -/
theorem sample_cases (c : Connection) (x : RttSample) :
    c.Keeps (c.sample x) ∧ (c.sample x).socket = c.socket ∨
      Exits c.socket.cwnd c (c.sample x) ∧
        (c.sample x).socket = { c.socket with ssthresh := c.socket.cwnd } := by
  obtain ⟨⟨gate, s⟩, engine, schedule, timer⟩ := c
  cases engine with
  | reno => exact .inl ⟨⟨rfl, rfl⟩, rfl⟩
  | cubic cubic =>
      rcases cubic.sample_cases s x with
        ⟨hexits, hfound, hcounters⟩ | ⟨hexits, hunknown, hknown, hsteps, hgrew⟩
      · refine .inl ⟨⟨hfound, hcounters⟩, ?_⟩
        show (if (cubic.exits s x).isEmpty then s else { s with ssthresh := s.cwnd }) = s
        rw [hexits]
        rfl
      · refine .inr ⟨⟨hunknown, hknown, hsteps, hgrew⟩, ?_⟩
        show (if (cubic.exits s x).isEmpty then s else { s with ssthresh := s.cwnd }) =
          { s with ssthresh := s.cwnd }
        rw [hexits]
        rfl

/-- Growth does not touch what is known of exits. -/
theorem keeps_grow (c : Connection) (acked : Nat) : c.Keeps (c.grow acked) := by
  obtain ⟨⟨gate, s⟩, engine, schedule, timer⟩ := c
  cases engine with
  | reno => exact ⟨rfl, rfl⟩
  | cubic cubic =>
      have hhystart : (cubic.grow s acked).1.hystart = cubic.hystart := by
        unfold Cubic.grow
        split <;> rfl
      constructor
      · show (cubic.grow s acked).1.hystart.found = cubic.hystart.found
        rw [hhystart]
      · show (cubic.grow s acked).1.hystart.counters = cubic.hystart.counters
        rw [hhystart]

/-- The knowledge about exits is knowledge of the engine. -/
theorem keeps_of_engine_eq (h : c'.engine = c.engine) : c.Keeps c' :=
  ⟨by rw [h], by rw [h]⟩

/-- Within an episode, whatever is not a sample leaves the knowledge about exits alone. -/
theorem keeps_handle (c : Connection) {e : Event} (hepisode : ¬ e.StartsEpisode)
    (hsample : ∀ x, e ≠ .sample x) : c.Keeps (c.handle e) := by
  cases e with
  | adopt handover => exact absurd trivial hepisode
  | renew config => exact absurd trivial hepisode
  | sample x => exact absurd rfl (hsample x)
  | ack phase acked =>
      have hreconciled : c.Keeps (c.reconcile phase) :=
        keeps_of_engine_eq (c.engine_reconcile phase)
      rcases c.ack_cases phase acked with ⟨-, heq⟩ | ⟨-, -, heq⟩ | ⟨-, -, heq⟩ <;>
        rw [handle, heq]
      · exact keeps_of_engine_eq rfl
      · exact hreconciled
      · exact hreconciled.trans ((c.reconcile phase).keeps_grow acked)
  | changeState state =>
      cases state with
      | loss => exact absurd trivial hepisode
      | _ =>
          refine keeps_of_engine_eq ?_
          show c.engine.changeState _ _ = c.engine
          cases c.engine <;> rfl
  | fire phase => exact keeps_of_engine_eq (c.engine_fire phase)
  | reduce =>
      obtain ⟨link, engine, schedule, timer⟩ := c
      cases engine <;> exact ⟨rfl, rfl⟩
  | shrink features =>
      obtain ⟨link, engine, schedule, timer⟩ := c
      cases engine <;> exact ⟨rfl, rfl⟩
  | windowEvent event =>
      obtain ⟨link, engine, schedule, timer⟩ := c
      cases engine <;> cases event <;> exact ⟨rfl, rfl⟩
  | release => exact keeps_of_engine_eq rfl
  | undo => exact keeps_of_engine_eq rfl
  | restore features => exact keeps_of_engine_eq rfl
  | advance features d => exact keeps_of_engine_eq rfl
  | edit features e => exact keeps_of_engine_eq rfl

/-- Within an episode, an event keeps the knowledge about exits, or it is a sample that finds an
exit at the present window. -/
theorem handle_cases (c : Connection) {e : Event} (hepisode : ¬ e.StartsEpisode) :
    c.Keeps (c.handle e) ∨ Exits c.socket.cwnd c (c.handle e) ∧ ∃ x, e = .sample x := by
  by_cases hsample : ∃ x, e = .sample x
  · obtain ⟨x, rfl⟩ := hsample
    rcases c.sample_cases x with ⟨hkeeps, -⟩ | ⟨hexits, -⟩
    · exact .inl hkeeps
    · exact .inr ⟨hexits, x, rfl⟩
  · exact .inl (c.keeps_handle hepisode fun x hx => hsample ⟨x, hx⟩)

/-- An event within an episode records an exit correctly. An exit once known stays known. It is a
sample that makes an exit known, and exactly then a detector or both of them count it, at the window
of the moment. A sample writes nothing but the slow start threshold, and that only to the window,
when it makes an exit known: slow start is over then. -/
structure Records (c : Connection) (e : Event) : Prop where
  stays_known : c.engine.foundExit = true → (c.handle e).engine.foundExit = true
  steps : Steps c.socket.cwnd c.engine.exitCounters (c.handle e).engine.exitCounters
  grew_iff :
    Grew c.engine.exitCounters (c.handle e).engine.exitCounters ↔
      c.discovers (c.handle e) = true
  by_sample : c.discovers (c.handle e) = true → ∃ x, e = .sample x
  socket_sample : ∀ x, e = .sample x →
    (c.handle e).socket =
      { c.socket with
        ssthresh :=
          if c.discovers (c.handle e) then c.socket.cwnd else c.socket.ssthresh }
  leaves : c.discovers (c.handle e) = true → (c.handle e).socket.inSlowStart = false

/-- Every event within an episode records an exit correctly. -/
theorem records_handle (c : Connection) {e : Event} (hepisode : ¬ e.StartsEpisode) :
    c.Records e := by
  rcases c.handle_cases hepisode with hkeeps | ⟨hexits, hsample⟩
  · have hnone := hkeeps.discovers_eq
    refine ⟨fun hfound => hkeeps.foundExit_eq.trans hfound, ?_, ?_, ?_, ?_, ?_⟩
    · rw [hkeeps.counters_eq]
      exact ExitCounters.steps_self _ _
    · rw [hkeeps.counters_eq, hnone]
      simp [ExitCounters.not_grew_self]
    · simp [hnone]
    · rintro x rfl
      rw [hnone]
      rcases c.sample_cases x with ⟨-, hsocket⟩ | ⟨hexits, -⟩
      · exact hsocket
      · have hsome := hexits.discovers_eq
        rw [show c.sample x = c.handle (.sample x) from rfl, hnone] at hsome
        cases hsome
    · simp [hnone]
  · obtain ⟨x, rfl⟩ := hsample
    have hone := hexits.discovers_eq
    have hsocket : (c.handle (.sample x)).socket =
        { c.socket with ssthresh := c.socket.cwnd } := by
      rcases c.sample_cases x with ⟨hkeeps, -⟩ | ⟨-, hsocket⟩
      · have hnone := hkeeps.discovers_eq
        rw [show c.sample x = c.handle (.sample x) from rfl, hone] at hnone
        cases hnone
      · exact hsocket
    refine ⟨fun _ => hexits.known, hexits.steps, ?_, fun _ => ⟨x, rfl⟩, ?_, fun _ => ?_⟩
    · exact ⟨fun _ => hone, fun _ => hexits.grew⟩
    · intro _ _
      rw [hone]
      exact hsocket
    · rw [hsocket]
      simp [Socket.inSlowStart]

/-! ## Episodes -/

/-- The number of events that find a reason to leave slow start that was not known before. -/
def discoveries (c : Connection) : List Event → Nat
  | [] => 0
  | e :: rest => (c.discovers (c.handle e)).toNat + (c.handle e).discoveries rest

/-- Once an exit is known, the rest of the episode keeps the knowledge about exits. -/
theorem keeps_of_foundExit {episode : List Event} (hfound : c.engine.foundExit = true)
    (hepisode : ∀ e ∈ episode, ¬ e.StartsEpisode) :
    c.Keeps (c.handleAll episode) ∧ c.discoveries episode = 0 := by
  induction episode generalizing c with
  | nil => exact ⟨⟨rfl, rfl⟩, rfl⟩
  | cons e rest ih =>
      rcases c.handle_cases (hepisode e List.mem_cons_self) with hkeeps | ⟨hexits, -⟩
      · obtain ⟨hrest, hnone⟩ := ih (hkeeps.foundExit_eq.trans hfound) fun other hmem =>
          hepisode other (List.mem_cons_of_mem _ hmem)
        refine ⟨hkeeps.trans hrest, ?_⟩
        rw [discoveries, hkeeps.discovers_eq, hnone]
        rfl
      · have hunknown := hexits.unknown
        rw [hfound] at hunknown
        cases hunknown

/-- An episode keeps the knowledge about exits throughout, or exactly one of its events finds an
exit. -/
theorem discoveries_cases (c : Connection) {episode : List Event}
    (hepisode : ∀ e ∈ episode, ¬ e.StartsEpisode) :
    c.Keeps (c.handleAll episode) ∧ c.discoveries episode = 0 ∨
      (∃ cwnd, Exits cwnd c (c.handleAll episode)) ∧ c.discoveries episode = 1 := by
  induction episode generalizing c with
  | nil => exact .inl ⟨⟨rfl, rfl⟩, rfl⟩
  | cons e rest ih =>
      have hrest : ∀ e ∈ rest, ¬ e.StartsEpisode := fun other hmem =>
        hepisode other (List.mem_cons_of_mem _ hmem)
      rw [discoveries]
      rcases c.handle_cases (hepisode e List.mem_cons_self) with hkeeps | ⟨hexits, -⟩
      · rw [hkeeps.discovers_eq, Bool.toNat_false, Nat.zero_add]
        rcases ih (c.handle e) hrest with ⟨hkept, hnone⟩ | ⟨⟨cwnd, hlater⟩, hone⟩
        · exact .inl ⟨hkeeps.trans hkept, hnone⟩
        · exact .inr ⟨⟨cwnd, hkeeps.trans_exits hlater⟩, hone⟩
      -- The exit is known from here on, so that no other is found.
      · obtain ⟨hkept, hnone⟩ := keeps_of_foundExit hexits.known hrest
        refine .inr ⟨⟨c.socket.cwnd, hexits.trans_keeps hkept⟩, ?_⟩
        rw [hexits.discovers_eq, hnone]
        rfl

/-- Take any connection and any events from one start of its engine to the next: acknowledgments,
samples, losses, firings, the passing of time and whatever the host writes to its socket. A reason
to leave slow start becomes known at most once and is not forgotten. Each detector counts at most
one exit, and a detector counts one exactly if a reason becomes known. Every single event records
this correctly, with the window of the moment and the slow start threshold. -/
theorem exits_of_episode (c : Connection) (episode : List Event)
    (hepisode : ∀ e ∈ episode, ¬ e.StartsEpisode) :
    let finish := c.handleAll episode
    let old := c.engine.exitCounters
    let new := finish.engine.exitCounters
    c.discoveries episode ≤ 1 ∧
      (c.engine.foundExit = true → finish.engine.foundExit = true) ∧
      (new.trainExits = old.trainExits ∨ new.trainExits = old.trainExits + 1) ∧
      (new.delayExits = old.delayExits ∨ new.delayExits = old.delayExits + 1) ∧
      (new.trainExits = old.trainExits + 1 ∨ new.delayExits = old.delayExits + 1 ↔
        c.engine.foundExit = false ∧ finish.engine.foundExit = true) ∧
      ∀ before e after, episode = before ++ e :: after → (c.handleAll before).Records e := by
  intro finish old new
  have hrecords : ∀ before e after, episode = before ++ e :: after →
      (c.handleAll before).Records e := by
    intro before e after hsplit
    refine records_handle _ (hepisode e ?_)
    rw [hsplit]
    exact List.mem_append_right _ List.mem_cons_self
  rcases c.discoveries_cases hepisode with ⟨hkeeps, hnone⟩ | ⟨⟨cwnd, hexits⟩, hone⟩
  · have hcounters : new = old := hkeeps.counters_eq
    have hfound : finish.engine.foundExit = c.engine.foundExit := hkeeps.foundExit_eq
    refine ⟨by omega, fun h => hfound.trans h, .inl (by rw [hcounters]), .inl (by rw [hcounters]),
      ?_, hrecords⟩
    rw [hcounters, hfound]
    simp
  · have htrain : new.trainExits = old.trainExits ∨ new.trainExits = old.trainExits + 1 :=
      hexits.steps.train.imp And.left And.left
    have hdelay : new.delayExits = old.delayExits ∨ new.delayExits = old.delayExits + 1 :=
      hexits.steps.delay.imp And.left And.left
    have hgrew : new.trainExits ≠ old.trainExits ∨ new.delayExits ≠ old.delayExits := hexits.grew
    refine ⟨by omega, fun _ => hexits.known, htrain, hdelay, ⟨fun _ => ?_, fun _ => ?_⟩, hrecords⟩
    · exact ⟨hexits.unknown, hexits.known⟩
    · omega

/-- The connection of the example adopts the algorithm and measures a round trip of 10 ms every
millisecond. After six of them the train is longer than half a round trip, and slow start is left
at the window of 40 packets. Neither an acknowledgment nor further samples change that. -/
theorem exits_of_episode_atHandover :
    let start := Session.atHandover.connection.handle (.adopt none)
    let steps : List Event := [.advance .full 1000000, .sample ⟨1, 10000⟩]
    let episode : List Event :=
      steps ++ steps ++ steps ++ steps ++ steps ++ steps ++ [.ack 0 3] ++ steps
    let finish := start.handleAll episode
    (∀ e ∈ episode, ¬ e.StartsEpisode) ∧ start.discoveries episode ≤ 1 ∧
      start.engine.foundExit = false ∧ finish.engine.foundExit = true ∧
      finish.engine.exitCounters =
        { trainExits := 1, trainCwnd := 40, delayExits := 0, delayCwnd := 0 } := by
  intro start steps episode finish
  have hepisode : ∀ e ∈ episode, ¬ e.StartsEpisode := by
    simp [episode, steps, Event.StartsEpisode]
  have hall := exits_of_episode start episode hepisode
  exact ⟨hepisode, hall.1, by decide, by decide, by decide⟩

end Connection

end LowOrbit
