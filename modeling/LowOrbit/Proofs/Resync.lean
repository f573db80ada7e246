import LowOrbit.Proofs.Timeline

/-!
# What the clock shows

A host follows its timeline through every history (`Host.Follows.handleAll`): the base of its clock
is the one that the latest resynchronization found, and the sleep of the running resynchronization
ends at the next full minute after the latest start. Two results come out of this. Whatever the
clock follows, it shows the wall-clock time of the latest resynchronization put forward by the
monotonic time since (`Host.reading_follows_mono`). If it follows the ticker, it is resynchronized
at the right moments and no others (`Host.resynced_when_due`).
-/

namespace LowOrbit

namespace PhaseClock

/-- What a clock shows at the monotonic time `mono'` if it was synchronized at the wall-clock time
`wall` and the monotonic time `mono`. -/
def reading (wall mono mono' : Nat) : Nat :=
  (wrapSigned (wrapSigned ((wall % cycle : Nat) - (min mono maxSigned : Nat)) +
    (min mono' maxSigned : Nat)) % (cycle : Int)).toNat

/-- As long as no number is too large, a clock adds the monotonic time that has passed since the
synchronization to the wall-clock time. The monotonic time may have gone back. -/
theorem reading_of_le {wall mono mono' : Nat} (hmono : mono ≤ maxSigned)
    (hmono' : mono' ≤ maxSigned) (hsum : ((wall % cycle : Nat) : Int) + mono' - mono ≤ maxSigned) :
    (reading wall mono mono' : Int) = ((wall : Int) + mono' - mono) % (cycle : Int) := by
  have hfits : wrapSigned ((wall % cycle : Nat) - (mono : Int) + mono') =
      (wall % cycle : Nat) - (mono : Int) + mono' := by
    simp only [maxSigned] at *
    exact wrapSigned_of_mem (by omega) (by omega)
  rw [reading, Nat.min_eq_left hmono, Nat.min_eq_left hmono', wrapSigned_add_wrapSigned, hfits]
  simp only [cycle]
  omega

/-- While the monotonic time stands still, a clock shows the wall-clock time of its synchronization,
however large the numbers are. -/
theorem reading_self (wall mono : Nat) : reading wall mono mono = wall % cycle := by
  have hfits : wrapSigned ((wall % cycle : Nat) : Int) = (wall % cycle : Nat) := by
    simp only [cycle]
    exact wrapSigned_of_mem (by omega) (by omega)
  rw [reading, wrapSigned_add_wrapSigned, Int.sub_add_cancel, hfits]
  simp only [cycle]
  omega

end PhaseClock

/-- The base that the latest resynchronization found. -/
def Timeline.base (t : Timeline) : Int :=
  (PhaseClock.create t.syncSource (Nanos.millis t.syncTime)).base

namespace Host

/-- What a host and its timeline agree on. -/
structure Follows (h : Host) (t : Timeline) : Prop where
  now_eq : h.ticker.now = t.now
  available_eq : h.ticker.available = t.available
  source_eq : h.clock.source = t.source
  stopped_eq : h.clock.stopped = t.stopped
  base_eq : h.clock.base = t.base
  due_eq : h.clock.sync.map Sleep.due = t.started.map fun start => lastMinute start t.now + minute

variable {h : Host} {t : Timeline}

/-- The base that a resynchronization finds depends on the source and the time only. -/
theorem currentBase_eq {c : PhaseClock} {source : TimeSource} (hsource : c.source = source)
    (elapsed : Nat) : c.currentBase elapsed = (PhaseClock.create source elapsed).base := by
  subst hsource
  rfl

/-- A resynchronization is one on the timeline. -/
theorem Follows.resync (hf : h.Follows t) : h.resync.Follows t.sync where
  now_eq := hf.now_eq
  available_eq := hf.available_eq
  source_eq := hf.source_eq
  stopped_eq := hf.stopped_eq
  base_eq := by
    show h.clock.currentBase (Nanos.millis h.ticker.now) = _
    rw [currentBase_eq hf.source_eq, hf.now_eq]
    rfl
  due_eq := hf.due_eq

/-- A sleep until the next resynchronization lasts a minute. -/
theorem due_scheduleSync (h : Host) :
    h.scheduleSync.clock.sync.map Sleep.due = some (h.ticker.now + minute) := by
  show some (h.ticker.now + Nanos.coveringMillis syncInterval) = some (h.ticker.now + minute)
  rw [show Nanos.coveringMillis syncInterval = minute from rfl]

/-- The clock can be started if and only if its timeline says so. -/
theorem Follows.timersAvailable_iff (hf : h.Follows t) :
    h.timersAvailable = .ok () ↔ t.canStart = true := by
  simp only [timersAvailable, Timeline.canStart, hf.stopped_eq, hf.available_eq]
  cases t.stopped <;> cases t.available <;> simp

/-- Starting the clock is a start on the timeline. -/
theorem Follows.startClock (hf : h.Follows t) : h.startClock.Follows (t.next (.clock .start)) := by
  simp only [Host.startClock, Timeline.next]
  split
  · rename_i hok
    rw [if_pos (hf.timersAvailable_iff.mp hok)]
    have hsynced := hf.resync
    refine ⟨hsynced.now_eq, hsynced.available_eq, hsynced.source_eq, hsynced.stopped_eq,
      hsynced.base_eq, ?_⟩
    have hfirst : lastMinute t.now t.now = t.now := by simp [lastMinute]
    show h.resync.scheduleSync.clock.sync.map Sleep.due = some (lastMinute t.now t.now + minute)
    rw [due_scheduleSync, hfirst, ← hf.now_eq]
    rfl
  · rename_i herror
    have hcannot : ¬ t.canStart = true := fun hcan => by
      rw [hf.timersAvailable_iff.mpr hcan] at herror
      cases herror
    rw [if_neg hcannot]
    exact hf

/-! ## Letting time pass -/

/-- The sleep of the running resynchronization ends at the next full minute. -/
theorem Follows.due_of_started (hf : h.Follows t) {start : Nat}
    (hstarted : t.started = some start) :
    h.clock.sync.map Sleep.due = some (lastMinute start t.now + minute) := by
  rw [hf.due_eq, hstarted]
  rfl

/-- Time that passes without a full minute after the start leaves the clock alone. -/
theorem Follows.moveTo (hf : h.Follows t) (hsound : t.Sound) {later : Nat} (hle : t.now ≤ later)
    (hquiet : ∀ due, h.clock.sync.map Sleep.due = some due → later < due) :
    (h.moveTo later).Follows (t.pass (later - t.now)) := by
  have hlater : t.now + (later - t.now) = later := Nat.add_sub_of_le hle
  have hsame : ∀ start, t.started = some start → lastMinute start later = lastMinute start t.now :=
    fun start hstarted => lastMinute_eq_of_lt (hsound.started_le start hstarted) hle
      (hquiet _ (hf.due_of_started hstarted))
  have hpass : t.pass (later - t.now) = { t with now := t.now + (later - t.now) } := by
    refine Timeline.pass_of_quiet fun start hstarted => ?_
    rw [hlater, hsame start hstarted]
    exact (lastMinute_bounds (hsound.started_le start hstarted)).1
  rw [hpass, hlater]
  refine ⟨rfl, hf.available_eq, hf.source_eq, hf.stopped_eq, hf.base_eq, ?_⟩
  show h.clock.sync.map Sleep.due = t.started.map fun start => lastMinute start later + minute
  cases hstarted : t.started with
  | none => rw [hf.due_eq, hstarted, Option.map_none, Option.map_none]
  | some start => rw [hf.due_of_started hstarted, Option.map_some, hsame start hstarted]

/-- When the sleep of the running resynchronization ends, serving it is a resynchronization at the
full minute. -/
theorem Follows.serve (hf : h.Follows t) (hsound : t.Sound) {due : Nat}
    (hdue : h.clock.sync.map Sleep.due = some due) :
    t.now < due ∧ (h.serve due).Follows (t.pass (due - t.now)) := by
  obtain ⟨start, hstarted, hnext⟩ : ∃ start, t.started = some start ∧
      lastMinute start t.now + minute = due := by
    rw [hf.due_eq] at hdue
    simpa using hdue
  have hafter : t.now < due := hnext ▸ (lastMinute_bounds (hsound.started_le start hstarted)).2
  have hlast : lastMinute start due = due := by rw [← hnext, lastMinute_next]
  refine ⟨hafter, ?_⟩
  have hserved : h.serve due = (h.moveTo due).serveSync := by
    obtain ⟨sleep, hsleep, hend⟩ : ∃ sleep, h.clock.sync = some sleep ∧ sleep.due = due := by
      simpa using hdue
    have hends : (h.moveTo due).clock.sync.any (·.due ≤ due) = true := by
      show h.clock.sync.any _ = true
      simp [hsleep, hend]
    simp only [Host.serve, if_pos hends]
  have hinstant : t.now + (due - t.now) = due := Nat.add_sub_of_le (Nat.le_of_lt hafter)
  have hpass : t.pass (due - t.now) =
      { t with now := due, syncTime := due, syncSource := t.source } := by
    rw [Timeline.pass_of_full hstarted] <;> rw [hinstant, hlast]
    exact hafter
  rw [hserved, hpass]
  refine ⟨rfl, hf.available_eq, hf.source_eq, hf.stopped_eq, currentBase_eq hf.source_eq _, ?_⟩
  show (h.moveTo due).resync.scheduleSync.clock.sync.map Sleep.due = _
  rw [due_scheduleSync, hstarted, Option.map_some, hlast]
  rfl

/-- The moment that is served next is the end of the sleep of the resynchronization. -/
theorem nextDue_sync (h : Host) (last : Nat) :
    Ticker.nextDue h.clock.sync.toList last =
      (h.clock.sync.map Sleep.due).filter fun due => due ≤ last := by
  cases hsync : h.clock.sync with
  | none => rfl
  | some sleep =>
      simp only [Option.toList_some, Option.map_some, Ticker.nextDue, List.filter_cons,
        List.filter_nil, Option.filter_some]
      split <;> rfl

/-- Serving all sleeps that end up to some time, and going on to it, is letting it pass on the
timeline. The induction is on the rounds, each of which takes at least a millisecond. -/
theorem Follows.drive (rounds : Nat) {last : Nat} (hf : h.Follows t) (hsound : t.Sound)
    (hle : t.now ≤ last) (hrounds : last - t.now < rounds) :
    ((Ticker.drive (·.clock.sync.toList) Host.serve last rounds h).moveTo last).Follows
      (t.pass (last - t.now)) := by
  induction rounds generalizing h t with
  | zero => exact absurd hrounds (Nat.not_lt_zero _)
  | succ rounds ih =>
      simp only [Ticker.drive, nextDue_sync]
      cases hnext : (h.clock.sync.map Sleep.due).filter fun due => due ≤ last with
      | none =>
          refine hf.moveTo hsound hle fun due hdue => ?_
          rw [hdue] at hnext
          simpa [Option.filter_some] using hnext
      | some due =>
          obtain ⟨hdue, hbefore⟩ : h.clock.sync.map Sleep.due = some due ∧ due ≤ last := by
            simpa [Option.filter_eq_some_iff] using hnext
          obtain ⟨hafter, hserved⟩ := hf.serve hsound hdue
          have hnow : (t.pass (due - t.now)).now = due := by
            obtain ⟨time, source, hpass⟩ := t.pass_frame (due - t.now)
            rw [hpass]
            exact Nat.add_sub_of_le (Nat.le_of_lt hafter)
          have hthere : (t.pass (due - t.now)).Sound := hsound.next (.run (due - t.now))
          have hgo := ih hserved hthere (by omega) (by omega)
          rw [hnow, hsound.pass_pass] at hgo
          have hall : due - t.now + (last - due) = last - t.now := by omega
          rwa [hall] at hgo

/-! ## Histories -/

/-- A new host follows the beginning of its timeline. -/
theorem follows_create (source : TimeSource) (available : Bool) :
    (create source available).Follows (Timeline.create source available) where
  now_eq := rfl
  available_eq := rfl
  source_eq := rfl
  stopped_eq := rfl
  base_eq := rfl
  due_eq := rfl

/-- A host follows its timeline through every event. -/
theorem Follows.handle (hf : h.Follows t) (hsound : t.Sound) (e : Event) :
    (h.handle e).Follows (t.next e) := by
  cases e with
  | clock op =>
      cases op with
      | step s =>
          exact ⟨hf.now_eq, hf.available_eq, congrArg (·.step s) hf.source_eq, hf.stopped_eq,
            hf.base_eq, hf.due_eq⟩
      | resync => exact hf.resync
      | shutdown => exact ⟨hf.now_eq, hf.available_eq, hf.source_eq, rfl, hf.base_eq, rfl⟩
      | start => exact hf.startClock
  | run ms =>
      have hrun := hf.drive (ms + 1) hsound (Nat.le_add_right t.now ms) (by omega)
      rw [Nat.add_sub_cancel_left] at hrun
      show (h.run ms).Follows (t.pass ms)
      simp only [Host.run, hf.now_eq]
      exact hrun
  | enter available =>
      exact ⟨hf.now_eq, rfl, hf.source_eq, hf.stopped_eq, hf.base_eq, hf.due_eq⟩

/-- A host follows its timeline through every history. -/
theorem Follows.handleAll (hf : h.Follows t) (hsound : t.Sound) (events : List Event) :
    (h.handleAll events).Follows (t.nextAll events) := by
  induction events generalizing h t with
  | nil => exact hf
  | cons e rest ih => exact ih (hf.handle hsound e) (hsound.next e)

/-! ## Readings -/

/-- The clock shows what follows from the wall-clock time and the monotonic time at the latest
resynchronization. -/
theorem Follows.nowInCycle_eq (hf : h.Follows t) :
    h.nowInCycle = PhaseClock.reading (t.syncSource.wall (Nanos.millis t.syncTime))
      (t.syncSource.mono (Nanos.millis t.syncTime)) (t.source.mono h.ticker.elapsed) := by
  simp only [Host.nowInCycle, PhaseClock.nowInCycle, PhaseClock.signedMono, hf.base_eq,
    hf.source_eq]
  rfl

/-- The clock reads the wall clock: through every history of a host, it shows the wall-clock time
`wall` at the latest resynchronization, put forward by the monotonic time that has passed since,
which may be negative. The bounds are those of signed 64-bit numbers. Without them the clock shows
the wall-clock time of the resynchronization as long as the monotonic time stands still. So what it
is wrong by, compared with the wall clock now, is how far the two clocks have drifted apart. -/
theorem reading_follows_mono (source : TimeSource) (available : Bool) (events : List Event) :
    let h := (create source available).handleAll events
    let t := (Timeline.create source available).nextAll events
    let wall := t.syncSource.wall (Nanos.millis t.syncTime)
    let mono := t.syncSource.mono (Nanos.millis t.syncTime)
    let wall' := h.clock.source.wall h.ticker.elapsed
    let mono' := h.clock.source.mono h.ticker.elapsed
    (mono ≤ maxSigned → mono' ≤ maxSigned →
      ((wall % cycle : Nat) : Int) + mono' - mono ≤ maxSigned →
      (h.nowInCycle : Int) = ((wall : Int) + mono' - mono) % (cycle : Int) ∧
      (h.phase : Int) = ((wall : Int) + mono' - mono) % (Handover.period : Int) ∧
      ((h.nowInCycle : Int) - wall') % (cycle : Int) =
        (((mono' : Int) - mono) - ((wall' : Int) - wall)) % (cycle : Int)) ∧
    (mono' = mono → h.nowInCycle = wall % cycle ∧ h.phase = wall % Handover.period) := by
  intro h t wall mono wall' mono'
  have hfollows : h.Follows t :=
    (follows_create source available).handleAll (Timeline.sound_create source available) events
  have hreading : h.nowInCycle = PhaseClock.reading wall mono mono' := by
    rw [hfollows.nowInCycle_eq, ← hfollows.source_eq]
  have hperiod : (Handover.period : Int) ∣ (cycle : Int) := ⟨4, rfl⟩
  refine ⟨fun hmono hmono' hsum => ?_, fun hstill => ?_⟩
  · have hnow : (h.nowInCycle : Int) = ((wall : Int) + mono' - mono) % (cycle : Int) := by
      rw [hreading, PhaseClock.reading_of_le hmono hmono' hsum]
    refine ⟨hnow, ?_, ?_⟩
    · rw [Host.phase, Int.natCast_emod, hnow, Int.emod_emod_of_dvd _ hperiod]
    · rw [hnow, Int.emod_sub_emod]
      congr 1
      omega
  · have hnow : h.nowInCycle = wall % cycle := by
      rw [hreading, hstill, PhaseClock.reading_self]
    refine ⟨hnow, ?_⟩
    rw [Host.phase, hnow, Nat.mod_mod_of_dvd wall (Int.natCast_dvd_natCast.mp hperiod)]

/-- The monotonic time goes back by three seconds, and so does what the clock shows. -/
theorem reading_follows_mono_back :
    let h := (create (.manual 61000000000 5000000000) true).handleAll
      [.clock (.step (.setMono 2000000000))]
    (h.nowInCycle : Int) = 58000000000 ∧ (h.phase : Int) = 13000000000 := by
  have hfits := (reading_follows_mono (.manual 61000000000 5000000000) true
    [.clock (.step (.setMono 2000000000))]).1 (by decide) (by decide) (by decide)
  exact ⟨hfits.1.trans (by decide), hfits.2.1.trans (by decide)⟩

/-- A clock that follows the ticker shows what follows from the skew in force at the latest
resynchronization. -/
theorem Follows.nowInCycle_of_simulated (hf : h.Follows t) (hsound : t.Sound) {start : Nat}
    (hsimulated : t.Simulated start) :
    ∃ skew, t.syncSource = .simulated start skew ∧
      h.nowInCycle = PhaseClock.reading (start + Nanos.millis t.syncTime + skew)
        (Nanos.millis t.syncTime) h.ticker.elapsed ∧
      (h.ticker.elapsed + cycle ≤ maxSigned →
        h.nowInCycle = (start + skew + h.ticker.elapsed) % cycle) := by
  obtain ⟨skew', hsource⟩ := hsimulated.source_eq
  obtain ⟨skew, hsync⟩ := hsimulated.syncSource_eq
  have hreading := hf.nowInCycle_eq
  rw [hsource, hsync] at hreading
  refine ⟨skew, hsync, hreading, fun hfits => ?_⟩
  have hpast : Nanos.millis t.syncTime ≤ h.ticker.elapsed := by
    rw [Ticker.elapsed, hf.now_eq]
    exact Nat.mul_le_mul_right _ hsound.syncTime_le
  have hsum : (((start + Nanos.millis t.syncTime + skew) % cycle : Nat) : Int) +
      h.ticker.elapsed - Nanos.millis t.syncTime ≤ maxSigned := by
    simp only [cycle] at *
    omega
  have hadded := PhaseClock.reading_of_le (by omega) (by omega) hsum
  have hnow : (h.nowInCycle : Int) =
      ((start + skew + h.ticker.elapsed : Nat) : Int) % (cycle : Int) := by
    rw [hreading]
    refine hadded.trans (congrArg (· % (cycle : Int)) ?_)
    omega
  exact_mod_cast hnow

/-- An event in whose course the clock is not resynchronized leaves its base alone. -/
theorem Follows.base_handle_of_not_syncs (hf : h.Follows t) (hsound : t.Sound) {e : Event}
    (hnot : ∀ instant, ¬ t.Syncs instant e) : (h.handle e).clock.base = h.clock.base := by
  obtain ⟨htime, hsource⟩ := hsound.sync_next_of_not_syncs hnot
  have hbase : (t.next e).base = t.base := by
    simp only [Timeline.base, htime, hsource]
  rw [(hf.handle hsound e).base_eq, hbase, hf.base_eq]

/-- Cutting the time that passes into runs makes no difference to the clock. -/
theorem Follows.run_run (hf : h.Follows t) (hsound : t.Sound) (ms ms' : Nat) :
    ((h.run ms).run ms').clock.base = (h.run (ms + ms')).clock.base ∧
      ((h.run ms).run ms').nowInCycle = (h.run (ms + ms')).nowInCycle := by
  have hcut := (hf.handle hsound (.run ms)).handle (hsound.pass ms) (.run ms')
  have hwhole := hf.handle hsound (.run (ms + ms'))
  simp only [Timeline.next, hsound.pass_pass] at hcut hwhole
  refine ⟨hcut.base_eq.trans hwhole.base_eq.symm, hcut.nowInCycle_eq.trans ?_⟩
  simp only [Ticker.elapsed, hcut.now_eq]
  rw [← hwhole.now_eq]
  exact hwhole.nowInCycle_eq.symm

/-- The clock is resynchronized from time to time if and only if a task is alive that does so. -/
theorem Follows.isSyncing_iff (hf : h.Follows t) (hsound : t.Sound) :
    h.clock.isSyncing = true ↔ t.tasks.live ≠ [] := by
  have hdue := congrArg Option.isSome hf.due_eq
  rw [Option.isSome_map, Option.isSome_map] at hdue
  rw [hsound.live_ne_nil_iff, PhaseClock.isSyncing, hdue]

/-- If the clock cannot be started, the attempt says why and changes nothing. -/
theorem Follows.start_refused (hf : h.Follows t) {e : Error}
    (herror : h.timersAvailable = .error e) :
    h.answer? .start = some (.error e) ∧ h.perform .start = h ∧ t.next (.clock .start) = t := by
  refine ⟨congrArg some herror, ?_, ?_⟩
  · simp only [perform, Host.startClock, herror]
  · refine if_neg fun hcan => ?_
    rw [hf.timersAvailable_iff.mpr hcan] at herror
    cases herror

/-- The clock of a host that follows the ticker is resynchronized when it is made, when it is asked
to, when it is started successfully and every minute from the latest start on until a shutdown, and
at no other time. So at every moment it shows what follows from the skew in force at the latest
resynchronization, wherever the time that passes is cut into runs. A clock that was shut down, or
has no runtime, cannot be started, and the attempt changes nothing. Of the tasks that resynchronize
it at most one is alive. -/
theorem resynced_when_due (start : Nat) (available : Bool) (events : List Event) :
    let h := (create (.simulated start 0) available).handleAll events
    let t := (Timeline.create (.simulated start 0) available).nextAll events
    (∃ skew, t.syncSource = .simulated start skew ∧
      h.nowInCycle = PhaseClock.reading (start + Nanos.millis t.syncTime + skew)
        (Nanos.millis t.syncTime) h.ticker.elapsed ∧
      (h.ticker.elapsed + cycle ≤ maxSigned →
        h.nowInCycle = (start + skew + h.ticker.elapsed) % cycle)) ∧
    (∀ e, (∀ instant, ¬ t.Syncs instant e) →
      (h.handle e).clock.base = h.clock.base ∧ (t.next e).syncTime = t.syncTime ∧
        (t.next e).syncSource = t.syncSource) ∧
    (∀ e instant, t.Syncs instant e →
      t.Syncs (t.next e).syncTime e ∧ instant ≤ (t.next e).syncTime ∧
        (t.next e).syncSource = h.clock.source) ∧
    (∀ ms ms', ((h.run ms).run ms').clock.base = (h.run (ms + ms')).clock.base ∧
      ((h.run ms).run ms').nowInCycle = (h.run (ms + ms')).nowInCycle) ∧
    (.clock .shutdown ∈ events →
      h.answer? .start = some (.error .clockStopped) ∧ h.perform .start = h ∧
        t.next (.clock .start) = t) ∧
    (.clock .shutdown ∉ events → h.ticker.available = false →
      h.answer? .start = some (.error .noRuntime) ∧ h.perform .start = h ∧
        t.next (.clock .start) = t) ∧
    (.clock .shutdown ∉ events → h.ticker.available = true →
      h.answer? .start = some (.ok ()) ∧ t.canStart = true) ∧
    t.tasks.live.length ≤ 1 ∧ (h.clock.isSyncing = true ↔ t.tasks.live ≠ []) := by
  intro h t
  have hsound : t.Sound := (Timeline.sound_create _ available).nextAll events
  have hfollows : h.Follows t :=
    (follows_create _ available).handleAll (Timeline.sound_create _ available) events
  have hsimulated : t.Simulated start :=
    Timeline.Simulated.nextAll ⟨⟨0, rfl⟩, ⟨0, rfl⟩⟩ events
  have hstopped : h.clock.stopped = true ↔ .clock .shutdown ∈ events := by
    rw [hfollows.stopped_eq, Timeline.stopped_nextAll]
    simp [Timeline.create]
  refine ⟨hfollows.nowInCycle_of_simulated hsound hsimulated, fun e hnot => ?_,
    fun e instant hsyncs => ?_, hfollows.run_run hsound, fun hshut => ?_, fun hnot hnone => ?_,
    fun hnot hsome => ?_, hsound.length_live_le, hfollows.isSyncing_iff hsound⟩
  · exact ⟨hfollows.base_handle_of_not_syncs hsound hnot, hsound.sync_next_of_not_syncs hnot⟩
  · rw [hfollows.source_eq]
    exact hsound.syncs_next hsyncs
  · refine hfollows.start_refused ?_
    simp only [timersAvailable, if_pos (hstopped.mpr hshut)]
  · refine hfollows.start_refused ?_
    have hgoes : h.clock.stopped = false := by simpa using mt hstopped.mp hnot
    simp [timersAvailable, hgoes, hnone]
  · have hgoes : h.clock.stopped = false := by simpa using mt hstopped.mp hnot
    refine ⟨by simp [answer?, timersAvailable, hgoes, hsome], ?_⟩
    simp [Timeline.canStart, ← hfollows.stopped_eq, ← hfollows.available_eq, hgoes, hsome]

/-- The wall clock is put forward by seven seconds half a minute after the start. The clock takes
notice at the next full minute, shows so ten seconds after the second one, and is shut down then. -/
theorem resynced_when_due_skewed :
    let h := (create (.simulated 0 0) true).handleAll [.clock .start, .run 30000,
      .clock (.step (.skew 7000000000)), .run 100000, .clock .shutdown]
    h.nowInCycle = 17000000000 ∧ h.perform .start = h := by
  have hall := resynced_when_due 0 true [.clock .start, .run 30000,
    .clock (.step (.skew 7000000000)), .run 100000, .clock .shutdown]
  obtain ⟨⟨skew, hsync, -, hnow⟩, -, -, -, hrefused, -⟩ := hall
  have hskew : (7000000000 : Nat) = skew := by
    have hsource : TimeSource.simulated 0 7000000000 = .simulated 0 skew := hsync
    simpa using hsource
  subst hskew
  exact ⟨(hnow (by decide)).trans (by decide), (hrefused (by decide)).2.1⟩

end Host

end LowOrbit
