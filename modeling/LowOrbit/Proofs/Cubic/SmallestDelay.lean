import LowOrbit.Proofs.Cubic.Epochs
import LowOrbit.Proofs.Rounds

/-!
# The smallest round trip

The cubic engine keeps one number of all round trips that it has seen, and zero stands for none at
all. This module keeps the accepted samples themselves along a run (`Connection.accepted`), from the
last start of the engine on, and shows that the number is the smallest of their round trips, at any
time and whatever happens in between (`Connection.delayMin_eq_min`).
-/

namespace LowOrbit

/-! ## What counts as accepted -/

/-- A sample stands for a round trip of at least one microsecond. -/
theorem RttSample.delay_pos (sample : RttSample) : 0 < sample.delay := by
  unfold RttSample.delay
  omega

namespace Cubic

variable {p : Params} {x : Cubic} {s : Socket} {sample : RttSample} {samples : List RttSample}

/-- A sample at time `now` is accepted if it carries a round trip and if no epoch is open that has
begun less than a second ago. -/
def Accepts (x : Cubic) (now : Nat) (sample : RttSample) : Prop :=
  0 ≤ sample.micros ∧ ∀ start ∈ x.state.epochStart, start + 1000000000 ≤ now

instance (x : Cubic) (now : Nat) (sample : RttSample) : Decidable (x.Accepts now sample) :=
  inferInstanceAs (Decidable (_ ∧ _))

/-- An accepted sample adds its round trip, and no other sample adds any. -/
theorem acceptedDelay_eq_ite (x : Cubic) (s : Socket) (sample : RttSample) :
    x.acceptedDelay? s sample = if x.Accepts s.now sample then some sample.delay else none := by
  have hiff : 0 ≤ sample.micros ∧ x.state.acceptsDelay s.now = true ↔ x.Accepts s.now sample := by
    unfold Accepts State.acceptsDelay
    cases x.state.epochStart with
    | none => simp
    | some start =>
        have hsecond : 1000000000 ≤ s.now - start ↔ start + 1000000000 ≤ s.now := by omega
        simp [hsecond]
  unfold acceptedDelay?
  simp only [hiff]
  rfl

namespace State

variable {st : State}

/-! ## One report -/

/-- Idle time leaves the smallest round trip alone. -/
theorem delayMin_shiftEpoch (idle now : Nat) (st : State) :
    (st.shiftEpoch idle now).delayMin = st.delayMin := by
  unfold shiftEpoch
  split
  · split <;> rfl
  · rfl

/-- The state keeps the smallest round trip of some samples, or zero if there are none. -/
def Smallest (samples : List RttSample) (st : State) : Prop :=
  st.delayMin = (samples.map RttSample.delay).min?.getD 0

/-- Zero stands for no samples. -/
theorem Smallest.eq_zero_iff (h : st.Smallest samples) : st.delayMin = 0 ↔ samples = [] := by
  rw [h]
  cases hmin : (samples.map RttSample.delay).min? with
  | none =>
      rw [List.min?_eq_none_iff, List.map_eq_nil_iff] at hmin
      simp [hmin]
  | some m =>
      obtain ⟨sample, hmem, rfl⟩ := List.mem_map.mp (List.min?_mem hmin)
      have hpos := sample.delay_pos
      have hne : samples ≠ [] := List.ne_nil_of_mem hmem
      simp only [Option.getD_some, hne, iff_false]
      omega

/-- With one more sample, its round trip is the smallest if it is smaller than the smallest so
far. -/
theorem Smallest.record (h : st.Smallest samples) (sample : RttSample) :
    (st.recordDelay sample.delay).Smallest (sample :: samples) := by
  have hzero := h.eq_zero_iff
  unfold Smallest at h ⊢
  rw [List.map_cons, List.min?_cons, Option.getD_some]
  unfold recordDelay
  cases hmin : (samples.map RttSample.delay).min? with
  | none =>
      rw [hmin, Option.getD_none] at h
      rw [if_pos (.inl h)]
      rfl
  | some m =>
      rw [hmin, Option.getD_some] at h
      have hne : st.delayMin ≠ 0 := by
        intro hnone
        rw [hzero.mp hnone] at hmin
        cases hmin
      rw [Option.elim_some]
      split
      · show sample.delay = min sample.delay m
        omega
      · omega

end State

end Cubic

/-! ## Runs -/

namespace Connection

open LowOrbit.Cubic.State (Smallest)

variable {c : Connection} {x y : Cubic} {e : Event} {samples : List RttSample}

/-- The samples that the cubic engine has accepted since it last started over, the last one first,
after an event. -/
def acceptedAfter (c : Connection) (samples : List RttSample) : Event → List RttSample
  | .sample sample =>
    match c.engine with
    | .cubic x => if x.Accepts c.socket.now sample then sample :: samples else samples
    | .reno => samples
  | .adopt _ | .renew _ | .changeState .loss => []
  | _ => samples

/-- The same after events in order. -/
def accepted (c : Connection) (samples : List RttSample) : List Event → List RttSample
  | [] => samples
  | e :: rest => (c.handle e).accepted (c.acceptedAfter samples e) rest

/-- Between two starts of the engine, no event but a sample concerns the smallest round trip. -/
theorem delayMin_cubicAfter (c : Connection) (x : Cubic) (hepisode : ¬ e.StartsEpisode)
    (hsample : ∀ sample, e ≠ .sample sample) :
    (c.cubicAfter x e).state.delayMin = x.state.delayMin := by
  cases e with
  | sample sample => exact absurd rfl (hsample sample)
  | adopt handover => exact absurd trivial hepisode
  | renew config => exact absurd trivial hepisode
  | ack phase acked =>
      simp only [cubicAfter, Cubic.grow]
      split
      · split
        · rfl
        · exact (Cubic.State.update_frame _ _ _ _ _).1
      · rfl
  | changeState state =>
      cases state with
      | loss => exact absurd trivial hepisode
      | _ => rfl
  | windowEvent event =>
      cases event with
      | sendStart => exact Cubic.State.delayMin_shiftEpoch _ _ _
      | _ => rfl
  | _ => rfl

/-- What the engine keeps stays the smallest round trip of the samples that it has accepted. -/
theorem smallest_cubicAfter (hx : c.engine = .cubic x) (h : x.state.Smallest samples)
    (hrenew : ∀ config, e ≠ .renew config) :
    (c.cubicAfter x e).state.Smallest (c.acceptedAfter samples e) := by
  have hkept (hepisode : ¬ e.StartsEpisode) (hsample : ∀ sample, e ≠ .sample sample) :
      (c.cubicAfter x e).state.Smallest samples :=
    (delayMin_cubicAfter c x hepisode hsample).trans h
  cases e with
  | sample sample =>
      show (x.sample c.socket sample).state.Smallest _
      unfold acceptedAfter Cubic.sample
      rw [hx, Cubic.acceptedDelay_eq_ite]
      dsimp only
      split
      · exact h.record sample
      · exact h
  | adopt handover => rfl
  | renew config => exact absurd rfl (hrenew config)
  | changeState state =>
      cases state with
      | loss => rfl
      | _ => exact hkept id nofun
  | _ => exact hkept id nofun

/-- The same holds after any events. -/
theorem smallest_handleAll {events : List Event}
    (h : ∀ x, c.engine = .cubic x → x.state.Smallest samples)
    (hx : (c.handleAll events).engine = .cubic x) :
    x.state.Smallest (c.accepted samples events) := by
  induction events generalizing c samples with
  | nil => exact h x hx
  | cons e rest ih =>
      refine ih (c := c.handle e) (fun y hy => ?_) hx
      by_cases hrenew : ∃ config, e = .renew config
      · -- The new engine has seen no samples.
        obtain ⟨config, rfl⟩ := hrenew
        have hengine : Engine.ofConfig config = .cubic y := hy
        rw [eq_cubic_of_ofConfig hengine]
        rfl
      · have hkept : ∀ config, e ≠ .renew config := fun config h => hrenew ⟨config, h⟩
        cases hengine : c.engine with
        | reno => exact nomatch (reno_handle hengine hkept).symm.trans hy
        | cubic x₀ =>
            obtain rfl : c.cubicAfter x₀ e = y :=
              Engine.cubic.inj ((cubic_handle hengine hkept).symm.trans hy)
            exact smallest_cubicAfter hengine (h x₀ hengine) hkept

/-- Once there is a smallest round trip, one event that does not start the engine over keeps one,
and does not make it larger. -/
theorem delayMin_cubicAfter_le (c : Connection) (hepisode : ¬ e.StartsEpisode)
    (hseen : x.state.delayMin ≠ 0) :
    (c.cubicAfter x e).state.delayMin ≠ 0 ∧
      (c.cubicAfter x e).state.delayMin ≤ x.state.delayMin := by
  by_cases hsample : ∃ sample, e = .sample sample
  · obtain ⟨sample, rfl⟩ := hsample
    show (x.sample c.socket sample).state.delayMin ≠ 0 ∧
      (x.sample c.socket sample).state.delayMin ≤ x.state.delayMin
    unfold Cubic.sample
    split
    · rename_i delay hdelay
      have hpos : 0 < delay := by
        rw [Cubic.acceptedDelay_eq hdelay]
        exact sample.delay_pos
      dsimp only
      unfold Cubic.State.recordDelay
      split
      · dsimp only
        omega
      · exact ⟨hseen, le_rfl⟩
    · exact ⟨hseen, le_rfl⟩
  · rw [delayMin_cubicAfter c x hepisode fun sample h => hsample ⟨sample, h⟩]
    exact ⟨hseen, le_rfl⟩

/-- Nor do any number of them. -/
theorem delayMin_handleAll_le {events : List Event} (hevents : ∀ e ∈ events, ¬ e.StartsEpisode)
    (hx : c.engine = .cubic x) :
    ∃ y, (c.handleAll events).engine = .cubic y ∧
      (x.state.delayMin ≠ 0 →
        y.state.delayMin ≠ 0 ∧ y.state.delayMin ≤ x.state.delayMin) := by
  induction events generalizing c x with
  | nil => exact ⟨x, hx, fun hseen => ⟨hseen, le_rfl⟩⟩
  | cons e rest ih =>
      obtain ⟨hepisode, hrest⟩ := List.forall_mem_cons.mp hevents
      have hrenew (config : Config) : e ≠ .renew config := fun h => hepisode (h ▸ trivial)
      obtain ⟨y, hy, hfalls⟩ := ih hrest (cubic_handle hx hrenew)
      refine ⟨y, hy, fun hseen => ?_⟩
      obtain ⟨hseen', hle⟩ := c.delayMin_cubicAfter_le hepisode hseen
      obtain ⟨hseen'', hle'⟩ := hfalls hseen'
      exact ⟨hseen'', hle'.trans hle⟩

/-- A connection without a cubic engine gets none from anything but a new configuration. -/
theorem reno_handleAll {events : List Event} (hevents : ∀ e ∈ events, ∀ config, e ≠ .renew config)
    (hreno : c.engine = .reno) : (c.handleAll events).engine = .reno := by
  induction events generalizing c with
  | nil => exact hreno
  | cons e rest ih =>
      obtain ⟨hrenew, hrest⟩ := List.forall_mem_cons.mp hevents
      exact ih hrest (reno_handle hreno hrenew)

/-- After any run, the cubic engine keeps the smallest round trip of the samples that it has
accepted since it last started over, counted as at least one microsecond and at most `2 ^ 32 - 1`;
it keeps zero exactly if it has accepted none. From there on, until it starts over again, it does
not lose a smallest round trip, and does not take a larger one for it. A Reno connection has no such
number to change, and stays one. -/
theorem delayMin_eq_min {config : Config} {socket : Socket}
    (hcreate : Connection.create config socket = .ok c) (events : List Event) :
    (∀ x, (c.handleAll events).engine = .cubic x →
      let samples := c.accepted [] events
      let delays := samples.map fun sample => max 1 (min sample.micros.toNat 4294967295)
      x.state.delayMin = delays.min?.getD 0 ∧ (x.state.delayMin = 0 ↔ samples = []) ∧
        ∀ later : List Event, (∀ e ∈ later, ¬ e.StartsEpisode) →
          ∃ y, (c.handleAll (events ++ later)).engine = .cubic y ∧
            (x.state.delayMin ≠ 0 →
              y.state.delayMin ≠ 0 ∧ y.state.delayMin ≤ x.state.delayMin)) ∧
      ((c.handleAll events).engine = .reno →
        ∀ later : List Event, (∀ e ∈ later, ∀ config, e ≠ .renew config) →
          (c.handleAll (events ++ later)).engine = .reno) := by
  have happend (later : List Event) :
      c.handleAll (events ++ later) = (c.handleAll events).handleAll later := List.foldl_append
  have hnew : ∀ x, c.engine = .cubic x → x.state.Smallest [] := by
    intro x hx
    have hengine : Engine.ofConfig config = .cubic x := (engine_create hcreate).symm.trans hx
    rw [eq_cubic_of_ofConfig hengine]
    rfl
  refine ⟨fun x hx => ?_, fun hreno later hlater => ?_⟩
  · intro samples delays
    have hsmallest : x.state.Smallest samples := smallest_handleAll hnew hx
    have hdelays : delays = samples.map RttSample.delay :=
      List.map_congr_left fun sample _ => max_comm _ _
    refine ⟨hdelays ▸ hsmallest, hsmallest.eq_zero_iff, fun later hlater => ?_⟩
    rw [happend]
    exact delayMin_handleAll_le hlater hx
  · rw [happend]
    exact reno_handleAll hlater hreno

/-- Two samples are accepted, the second with the smaller round trip. Then a loss ends the epoch, an
acknowledgment opens another, and a sample half a second later is too early to count. -/
theorem delayMin_eq_min_early :
    let before : List Event := [.adopt none, .sample { packets := 1, micros := 20000 },
      .sample { packets := 1, micros := 15000 }]
    let after : List Event := [.reduce, .edit .full { cwnd := some 28, ssthresh := some 28 },
      .ack 0 1, .advance .full 500000000, .sample { packets := 1, micros := 10000 }]
    ∃ c x y, Connection.create {} { cwnd := 40 } = .ok c ∧
      (c.handleAll before).engine = .cubic x ∧ x.state.delayMin = 15000 ∧
      (c.handleAll (before ++ after)).engine = .cubic y ∧ y.state.epochStart = some 0 ∧
      y.state.delayMin = 15000 := by
  intro before after
  have hcreate : Connection.create {} { cwnd := 40 } = .ok _ := rfl
  obtain ⟨hbefore, -⟩ := delayMin_eq_min hcreate before
  obtain ⟨hafter, -⟩ := delayMin_eq_min hcreate (before ++ after)
  obtain ⟨hmin, -, -⟩ := hbefore _ rfl
  obtain ⟨hmin', -, -⟩ := hafter _ rfl
  exact ⟨_, _, _, hcreate, rfl, hmin.trans (by decide), rfl, by decide, hmin'.trans (by decide)⟩

end Connection

end LowOrbit
