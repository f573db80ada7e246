import LowOrbit.Proofs.Timers.Sleeps
import LowOrbit.Proofs.Timers.Spent

/-!
# What a script and its timer come to in a turn

A firing of a scripted target is a step of the script together with its answer, which says when
the next one is to come (`Timer.instantAfter`). A firing ends by arming the timer again or by
stopping it, unless the timer has been cancelled meanwhile (`Session.Concludes`). In its turn a
timer fires until an answer asks for a delay, and the calls that are recorded are those of these
firings at their instants (`Session.stands_serveScript`).
-/

namespace LowOrbit

open Timer (Outcome Record ScriptStep Status Table Target Task)

namespace Timer

/-! ## The log of a script -/

/-- What a step of a script may answer while the connection is locked or not. What the connection
answers that it fires is up to the connection, but a locked one is busy. -/
def ScriptStep.Answers (locked : Bool) : ScriptStep → Outcome → Prop
  | .rearm delay, outcome => outcome = .rearm delay
  | .busy, outcome => outcome = .busy
  | .stop, outcome => outcome = .stop
  | .fire, outcome => outcome = .busy ↔ locked = true
  | .release, outcome => outcome = .rearm Handover.minDelay
  | .releaseStop, outcome => outcome = .stop
  | .readopt, outcome => outcome = .rearm Handover.minDelay

/-- A firing of a scripted target: the step that was played, and the answer. -/
structure Firing where
  step : ScriptStep
  outcome : Outcome
  deriving DecidableEq, Repr

/-- The timer is to fire again: it has been neither stopped nor cancelled. -/
def Firing.GoesOn (f : Firing) : Prop := f.outcome ≠ .stop ∧ ¬ f.step.Cancels

/-- The instant of the firing after one at `instant` that was answered by `outcome`, in milliseconds
of ticker time: the delay that the answer asks for is added, and the sum is rounded up. -/
def nextInstant (instant : Nat) (outcome : Outcome) : Nat :=
  Nanos.coveringMillis (Nanos.millis instant + (Session.delayAfter outcome).getD 0)

/-- The instant of the firing after some firings, the first of which was at `first`. -/
def instantAfter (first : Nat) (fired : List Firing) : Nat :=
  fired.foldl (fun instant f => nextInstant instant f.outcome) first

/-- The calls of a target in the course of some firings, the first of which is at `first`. -/
def callsFrom (first : Nat) : List Firing → List (Nat × ScriptStep)
  | [] => []
  | f :: rest => (first, f.step) :: callsFrom (nextInstant first f.outcome) rest

variable (first : Nat)

/-- Some firings first, then the others. -/
theorem instantAfter_append (fired fired' : List Firing) :
    instantAfter first (fired ++ fired') = instantAfter (instantAfter first fired) fired' := by
  simp [instantAfter]

/-- The calls of some firings come first, then those of the others. -/
theorem callsFrom_append (fired fired' : List Firing) :
    callsFrom first (fired ++ fired') =
      callsFrom first fired ++ callsFrom (instantAfter first fired) fired' := by
  induction fired generalizing first with
  | nil => rfl
  | cons f rest ih => simp [callsFrom, ih, instantAfter]

/-- A whole number of milliseconds is rounded up with a delay by rounding up the delay. -/
theorem nextInstant_of_delayAfter {outcome : Outcome} {delay : Nat}
    (h : Session.delayAfter outcome = some delay) :
    nextInstant first outcome = first + Nanos.coveringMillis delay := by
  simp only [nextInstant, h, Option.getD_some, Nanos.coveringMillis, Nanos.millis]
  omega

/-- The firing after one that asks for a delay is later by the milliseconds that cover it. -/
theorem instantAfter_of_delayAfter {f : Firing} {delay : Nat}
    (h : Session.delayAfter f.outcome = some delay) :
    instantAfter first [f] = first + Nanos.coveringMillis delay := by
  rw [instantAfter, List.foldl_cons, List.foldl_nil, nextInstant_of_delayAfter first h]

end Timer

open Timer (Firing callsFrom instantAfter instantAfter_append callsFrom_append
  instantAfter_of_delayAfter)

namespace Session

variable {s t : Session} {locked : Bool} {id first : Nat}

/-! ## A single firing -/

/-- Cancelling the timer of the connection cancels it, and a cancelled timer stays so. -/
theorem status?_cancelTimer {status : Status} (hstatus : s.timers.status? id = some status)
    (h : s.connection.timer = some id ∨ status = .cancelled) :
    s.cancelTimer.timers.status? id = some .cancelled := by
  rcases h with htimer | rfl
  · obtain ⟨record, hrecord, -⟩ := Option.map_eq_some_iff.mp hstatus
    unfold cancelTimer
    rw [htimer]
    exact Table.status?_update_self hrecord Record.cancel
  · exact Table.isCancelled_iff_status?.mp
      ((Moment.later_cancelTimer s).cancelled id (Table.isCancelled_iff_status?.mpr hstatus))

/-- Adopting the algorithm anew cancels the timer of the connection, which gets another one or
none. -/
theorem status?_adopt {status : Status} (hstatus : s.timers.status? id = some status)
    (h : s.connection.timer = some id ∨ status = .cancelled) (target : Target) :
    (s.adopt target).connection.timer ≠ some id ∧
      (s.adopt target).timers.status? id = some .cancelled := by
  have hcancelled := status?_cancelTimer hstatus h
  rcases s.adopt_cases target with ⟨heq, htimers⟩ | ⟨heq, htimers⟩ <;> rw [heq, htimers]
  · exact ⟨nofun, hcancelled⟩
  · obtain ⟨record, hrecord, hrecord'⟩ := Option.map_eq_some_iff.mp hcancelled
    have hlt := Table.lt_nextId hrecord
    refine ⟨fun h => ?_, ?_⟩
    · rw [s.cancelTimer_frame.2, ← Option.some.inj h] at hlt
      exact Nat.lt_irrefl _ hlt
    · show ((Table.arm _ _ _).record? id).map Record.status = some .cancelled
      rw [Table.record?_arm, if_neg (Nat.ne_of_lt hlt), hrecord]
      exact congrArg some hrecord'

/-- Cancelling the timer of the connection calls nobody. -/
theorem calls_cancelTimer (s : Session) : s.cancelTimer.calls = s.calls := by
  unfold cancelTimer
  split <;> rfl

/-- Adopting the algorithm calls nobody. -/
theorem calls_adopt (s : Session) (target : Target) : (s.adopt target).calls = s.calls := by
  rw [← s.calls_cancelTimer]
  simp only [adopt]
  split
  · split <;> rfl
  · rfl

/-- Playing a step of a script calls nobody else. -/
theorem calls_play (s : Session) (locked : Bool) (step : ScriptStep) :
    (s.play locked step).2.calls = s.calls := by
  cases step with
  | fire => cases locked <;> rfl
  | release => exact s.calls_cancelTimer
  | releaseStop => exact s.calls_cancelTimer
  | readopt => exact s.calls_adopt .connection
  | _ => rfl

/-- A step of a script answers as it should. -/
theorem answers_play (s : Session) (locked : Bool) (step : ScriptStep) :
    step.Answers locked (s.play locked step).1 := by
  cases step with
  | fire =>
      cases locked with
      | true => exact ⟨fun _ => rfl, fun _ => rfl⟩
      | false =>
          refine ⟨fun h => ?_, nofun⟩
          have hfire : (s.connection.fire s.host.phase).1 = .busy := h
          rcases s.connection.outcome_fire s.host.phase with hstop | ⟨delay, -, hrearm⟩
          · rw [hstop] at hfire
            cases hfire
          · rw [hrearm] at hfire
            cases hfire
  | _ => rfl

/-- What has become of a timer after a firing of it. -/
inductive Concludes (s : Session) (id : Nat) (f : Firing) : Option Nat → Prop where
  /-- It is to fire again after a delay. -/
  | again {delay : Nat} (hgoesOn : f.GoesOn) (hdelay : delayAfter f.outcome = some delay)
      (htimer : s.connection.timer = some id) (hstatus : s.timers.status? id = some .armed) :
      Concludes s id f (some delay)
  /-- Its target has stopped it. -/
  | stopped (hstop : f.outcome = .stop) (hnot : ¬ f.step.Cancels)
      (htimer : s.connection.timer = some id) (hstatus : s.timers.status? id = some .idle) :
      Concludes s id f none
  /-- It has been cancelled in the course of the firing. -/
  | cancelled (hcancels : f.step.Cancels) (htimer : s.connection.timer ≠ some id)
      (hstatus : s.timers.status? id = some .cancelled) : Concludes s id f none

/-- A firing that does not cancel the timer ends by arming it again or stopping it, as it is
answered. -/
theorem concludes_of_firing {f : Firing} (hnot : ¬ f.step.Cancels)
    (htimer : s.connection.timer = some id) (hstatus : s.timers.status? id = some .firing) :
    (s.endFiring id f.outcome).1.Concludes id f (s.endFiring id f.outcome).2 := by
  obtain ⟨record, hrecord, hfiring⟩ := Option.map_eq_some_iff.mp hstatus
  cases hdelay : delayAfter f.outcome with
  | some delay =>
      have hgoesOn : f.GoesOn := by
        refine ⟨fun hstop => ?_, hnot⟩
        rw [hstop] at hdelay
        cases hdelay
      rw [endFiring_of_firing hrecord hfiring hdelay]
      exact .again hgoesOn hdelay htimer (Table.status?_update_self hrecord _)
  | none =>
      have hstop : f.outcome = .stop := by
        cases houtcome : f.outcome <;> rw [houtcome] at hdelay <;> first | rfl | cases hdelay
      have hend : s.endFiring id f.outcome =
          ({ s with timers := s.timers.update id (·.stop) }.endTask id, none) := by
        rw [hstop]
        rfl
      rw [hend]
      refine .stopped hstop hnot htimer ?_
      show ((s.timers.update id Record.stop).endTask id).status? id = some .idle
      rw [Table.status?_endTask, Table.status?_update_self hrecord]
      simp [Record.stop, hfiring]

/-- A firing in the course of which the timer was cancelled is the last one. -/
theorem concludes_of_cancelled {f : Firing} (hcancels : f.step.Cancels)
    (htimer : s.connection.timer ≠ some id) (hstatus : s.timers.status? id = some .cancelled) :
    (s.endFiring id f.outcome).1.Concludes id f (s.endFiring id f.outcome).2 := by
  have hlater : s.timers.Later (s.endFiring id f.outcome).1.timers :=
    (Moment.Step.finish s id f.outcome).later
  have hcancelled := Table.isCancelled_iff_status?.mp
    (hlater.cancelled id (Table.isCancelled_iff_status?.mpr hstatus))
  rcases s.endFiring_cases id f.outcome with
    ⟨record, delay, hrecord, hfiring, -⟩ | ⟨hnone, -⟩
  · rw [Table.status?, hrecord, Option.map_some, hfiring] at hstatus
    cases hstatus
  · rw [hnone]
    refine .cancelled hcancels ?_ hcancelled
    rw [connection_endFiring]
    exact htimer

/-- What becomes of a timer that is firing by a step of its script. -/
theorem concludes_play (htimer : s.connection.timer = some id)
    (hstatus : s.timers.status? id = some .firing) (locked : Bool) (step : ScriptStep) :
    ((s.play locked step).2.endFiring id (s.play locked step).1).1.Concludes id
      ⟨step, (s.play locked step).1⟩
      ((s.play locked step).2.endFiring id (s.play locked step).1).2 := by
  by_cases hcancels : step.Cancels
  · have hdropped : (s.play locked step).2.connection.timer ≠ some id ∧
        (s.play locked step).2.timers.status? id = some .cancelled := by
      cases step with
      | release => exact ⟨nofun, status?_cancelTimer hstatus (.inl htimer)⟩
      | releaseStop => exact ⟨nofun, status?_cancelTimer hstatus (.inl htimer)⟩
      | readopt => exact status?_adopt hstatus (.inl htimer) .connection
      | _ => exact hcancels.elim
    exact concludes_of_cancelled (f := ⟨step, _⟩) hcancels hdropped.1 hdropped.2
  · refine concludes_of_firing (f := ⟨step, _⟩) hcancels ?_ ?_
    · rcases play_of_not_cancels hcancels with heq | heq <;> rw [heq]
      · exact htimer
      · exact (s.timer_tryFire locked).trans htimer
    · rcases play_of_not_cancels hcancels with heq | heq <;> rw [heq]
      · exact hstatus
      · rw [(s.tryFire_frame locked).2]
        exact hstatus

/-! ## Firings so far -/

/-- What has become of a timer with a script after some firings, the first of which was at `first`.
Whether its owner has cancelled it is said apart, by `dropped`. -/
inductive Stands (s : Session) (id first : Nat) (steps : List ScriptStep) (dropped : Prop) :
    List Firing → Prop where
  /-- Its task sleeps until the next firing. -/
  | waits {fired : List Firing} {left : List ScriptStep}
      (hsteps : fired.map Firing.step ++ left = steps) (hgoesOn : ∀ f ∈ fired, f.GoesOn)
      (hdropped : ¬ dropped) (htimer : s.connection.timer = some id)
      (hstatus : s.timers.status? id = some .armed)
      (htask : ∀ task ∈ s.timers.tasks, task.id = id →
        task.sleep.due = instantAfter first fired ∧ task.target = .script left) :
      Stands s id first steps dropped fired
  /-- Its target has stopped it. -/
  | stopped {fired : List Firing} {last : Firing}
      (hsteps : (fired ++ [last]).map Firing.step <+: steps ++ [.stop])
      (hgoesOn : ∀ f ∈ fired, f.GoesOn) (hdropped : ¬ dropped) (hstop : last.outcome = .stop)
      (hnot : ¬ last.step.Cancels) (htimer : s.connection.timer = some id)
      (hstatus : s.timers.status? id = some .idle) :
      Stands s id first steps dropped (fired ++ [last])
  /-- It has been cancelled. -/
  | cancelled {fired : List Firing} (hsteps : fired.map Firing.step <+: steps ++ [.stop])
      (hgoesOn : ∀ f ∈ fired.dropLast, f.GoesOn)
      (hwhy : dropped ∨ ∃ f ∈ fired, f.step.Cancels) (htimer : s.connection.timer ≠ some id)
      (hstatus : s.timers.status? id = some .cancelled) : Stands s id first steps dropped fired

variable {steps left : List ScriptStep} {fired fired' : List Firing} {dropped : Prop}

/-- The status of a timer with a script is known, and it is the timer of the connection unless it
has been cancelled. -/
theorem Stands.known (h : s.Stands id first steps dropped fired) :
    ∃ status, s.timers.status? id = some status ∧
      (s.connection.timer = some id ∨ status = .cancelled) := by
  cases h with
  | waits _ _ _ htimer hstatus => exact ⟨_, hstatus, .inl htimer⟩
  | stopped _ _ _ _ _ htimer hstatus => exact ⟨_, hstatus, .inl htimer⟩
  | cancelled _ _ _ _ hstatus => exact ⟨_, hstatus, .inr rfl⟩

/-- What a log and its timer have in common: the script is played from its start, and each firing
but the last goes on. -/
theorem Stands.plays (h : s.Stands id first steps dropped fired) :
    fired.map Firing.step <+: steps ++ [.stop] ∧ ∀ f ∈ fired.dropLast, f.GoesOn := by
  cases h with
  | waits hsteps hgoesOn =>
      refine ⟨?_, fun f hf => hgoesOn f (List.dropLast_subset _ hf)⟩
      rw [← hsteps, List.append_assoc]
      exact List.prefix_append _ _
  | stopped hsteps hgoesOn =>
      refine ⟨hsteps, ?_⟩
      rwa [List.dropLast_concat]
  | cancelled hsteps hgoesOn => exact ⟨hsteps, hgoesOn⟩

/-- The log says what the timer is doing. -/
theorem Stands.status (h : s.Stands id first steps dropped fired) :
    (dropped ∨ (∃ f ∈ fired, f.step.Cancels) → s.timers.status? id = some .cancelled) ∧
      (¬ (dropped ∨ ∃ f ∈ fired, f.step.Cancels) → (∃ f ∈ fired, f.outcome = .stop) →
        s.timers.status? id = some .idle) ∧
      (¬ (dropped ∨ ∃ f ∈ fired, f.step.Cancels) → (¬ ∃ f ∈ fired, f.outcome = .stop) →
        s.timers.status? id = some .armed ∧
          ∀ task ∈ s.timers.tasks, task.id = id →
            task.sleep.due = instantAfter first fired) := by
  cases h with
  | waits hsteps hgoesOn hdropped htimer hstatus htask =>
      refine ⟨fun h => ?_, fun _ ⟨f, hf, hstop⟩ => absurd hstop (hgoesOn f hf).1,
        fun _ _ => ⟨hstatus, fun task hmem hid => (htask task hmem hid).1⟩⟩
      rcases h with h | ⟨f, hf, hcancels⟩
      · exact absurd h hdropped
      · exact absurd hcancels (hgoesOn f hf).2
  | @stopped fired last hsteps hgoesOn hdropped hstop hnot htimer hstatus =>
      refine ⟨fun h => ?_, fun _ _ => hstatus, fun _ h => absurd ⟨last, by simp, hstop⟩ h⟩
      rcases h with h | ⟨f, hf, hcancels⟩
      · exact absurd h hdropped
      · rcases List.mem_append.mp hf with hold | hlast
        · exact absurd hcancels (hgoesOn f hold).2
        · exact absurd (List.mem_singleton.mp hlast ▸ hcancels) hnot
  | cancelled hsteps hgoesOn hwhy htimer hstatus =>
      exact ⟨fun _ => hstatus, fun h => absurd hwhy h, fun h => absurd hwhy h⟩

/-- A timer stands as before if nothing happens to its record, to its task and to the timer of the
connection. -/
theorem Stands.keep (h : s.Stands id first steps dropped fired)
    (htimer : t.connection.timer = s.connection.timer)
    (hstatus : t.timers.status? id = s.timers.status? id)
    (htasks : ∀ task ∈ t.timers.tasks, task.id = id → task ∈ s.timers.tasks) :
    t.Stands id first steps dropped fired := by
  cases h with
  | waits hsteps hgoesOn hdropped htimer' hstatus' htask =>
      exact .waits hsteps hgoesOn hdropped (htimer.trans htimer') (hstatus.trans hstatus')
        fun task hmem hid => htask task (htasks task hmem hid) hid
  | stopped hsteps hgoesOn hdropped hstop hnot htimer' hstatus' =>
      exact .stopped hsteps hgoesOn hdropped hstop hnot (htimer.trans htimer')
        (hstatus.trans hstatus')
  | cancelled hsteps hgoesOn hwhy htimer' hstatus' =>
      exact .cancelled hsteps hgoesOn hwhy (htimer ▸ htimer') (hstatus.trans hstatus')

/-- Firings that go on are followed by those of the rest of the script. -/
theorem Stands.prepend (h : s.Stands id (instantAfter first fired) left dropped fired')
    (hsteps : fired.map Firing.step ++ left = steps) (hgoesOn : ∀ f ∈ fired, f.GoesOn) :
    s.Stands id first steps dropped (fired ++ fired') := by
  subst hsteps
  cases h with
  | @waits _ left' hsteps' hgoesOn' hdropped htimer hstatus htask =>
      have hall : (fired ++ fired').map Firing.step ++ left' = fired.map Firing.step ++ left := by
        rw [List.map_append, List.append_assoc, hsteps']
      refine .waits hall (fun f hf => ?_) hdropped htimer hstatus ?_
      · exact (List.mem_append.mp hf).elim (hgoesOn f) (hgoesOn' f)
      · rw [instantAfter_append]
        exact htask
  | @stopped fired' last hsteps' hgoesOn' hdropped hstop hnot htimer hstatus =>
      rw [← List.append_assoc]
      refine .stopped ?_ (fun f hf => ?_) hdropped hstop hnot htimer hstatus
      · rw [List.append_assoc fired, List.map_append, List.append_assoc]
        exact (List.prefix_append_right_inj _).mpr hsteps'
      · exact (List.mem_append.mp hf).elim (hgoesOn f) (hgoesOn' f)
  | cancelled hsteps' hgoesOn' hwhy htimer hstatus =>
      refine .cancelled ?_ (fun f hf => ?_) ?_ htimer hstatus
      · rw [List.map_append, List.append_assoc]
        exact (List.prefix_append_right_inj _).mpr hsteps'
      · rw [List.dropLast_append] at hf
        split at hf
        · exact hgoesOn f (List.dropLast_subset _ hf)
        · exact (List.mem_append.mp hf).elim (hgoesOn f) (hgoesOn' f)
      · exact hwhy.imp_right fun ⟨f, hf, hcancels⟩ =>
          ⟨f, List.mem_append_right _ hf, hcancels⟩

/-! ## A turn -/

/-- An armed timer fires its target: the call is recorded at the present instant, and the firing
concludes as the step says. -/
theorem fires (htimer : s.connection.timer = some id)
    (hstatus : s.timers.status? id = some .armed) (locked : Bool) (step : ScriptStep) :
    ∃ begun, s.beginFiring? id = some begun ∧
      let answer := (begun.recordCall step).play locked step
      let ended := answer.2.endFiring id answer.1
      step.Answers locked answer.1 ∧ ended.1.host.ticker.now = s.host.ticker.now ∧
        ended.1.calls.toList = s.calls.toList ++ [(s.host.ticker.now, step)] ∧
        ended.1.Concludes id ⟨step, answer.1⟩ ended.2 := by
  obtain ⟨record, hrecord, harmed⟩ := Option.map_eq_some_iff.mp hstatus
  refine ⟨_, beginFiring?_of_armed hrecord harmed, answers_play _ locked step, ?_, ?_, ?_⟩
  · rw [(passes_endFiring _ id _).1.now_eq, (passes_play _ locked step).now_eq]
    rfl
  · rw [calls_endFiring, calls_play]
    simp [recordCall]
  · refine concludes_play ?_ ?_ locked step
    · exact htimer
    · exact Table.status?_update_self hrecord _

/-- After a firing that was the last one, the timer has been stopped or cancelled. -/
theorem Concludes.stands {f : Firing} (h : s.Concludes id f none)
    (hsteps : [f.step] <+: steps ++ [.stop]) : s.Stands id first steps False [f] := by
  cases h with
  | stopped hstop hnot htimer hstatus =>
      show s.Stands id first steps False ([] ++ [f])
      exact .stopped hsteps nofun not_false hstop hnot htimer hstatus
  | cancelled hcancels htimer hstatus =>
      exact .cancelled hsteps nofun (.inr ⟨f, by simp, hcancels⟩) htimer hstatus

/-- In its turn a timer plays its script until an answer asks for a delay, and every call is
recorded at the present instant. -/
theorem stands_serveScript (htimer : s.connection.timer = some id)
    (hstatus : s.timers.status? id = some .armed) :
    ∃ fired : List Firing,
      (serveScript locked id steps s).calls.toList =
        s.calls.toList ++ callsFrom s.host.ticker.now fired ∧
      (∀ f ∈ fired, f.step.Answers locked f.outcome) ∧
      (serveScript locked id steps s).Stands id s.host.ticker.now steps False fired := by
  induction steps generalizing s with
  | nil =>
      obtain ⟨begun, hbegin, -, -, hcalls, hconcludes⟩ :=
        fires htimer hstatus locked .stop
      unfold serveScript
      rw [hbegin]
      exact ⟨[⟨.stop, .stop⟩], hcalls, by simp [ScriptStep.Answers],
        hconcludes.stands (List.prefix_refl _)⟩
  | cons step rest ih =>
      obtain ⟨begun, hbegin, hanswers, hnow, hcalls, hconcludes⟩ :=
        fires htimer hstatus locked step
      unfold serveScript
      rw [hbegin]
      simp only
      generalize (begun.recordCall step).play locked step = answered
        at hanswers hnow hcalls hconcludes ⊢
      obtain ⟨outcome, played⟩ := answered
      simp only at hnow hcalls hconcludes hanswers
      rcases hend : played.endFiring id outcome with ⟨ended, _ | delay⟩ <;>
        rw [hend] at hnow hcalls hconcludes <;> simp only
      · exact ⟨[⟨step, outcome⟩], hcalls, by simpa using hanswers, hconcludes.stands (by simp)⟩
      · cases hconcludes with
        | again hgoesOn hdelay htimer' hstatus' =>
            have hinstant := instantAfter_of_delayAfter s.host.ticker.now hdelay
            split
            -- Without a delay the next firing is at the same instant.
            · rename_i hzero
              rw [hzero, Nat.add_zero] at hinstant
              obtain ⟨fired, hfired, hall, hstands⟩ := ih htimer' hstatus'
              rw [hnow] at hfired hstands
              refine ⟨[⟨step, outcome⟩] ++ fired, ?_, ?_, ?_⟩
              · rw [hfired, hcalls, callsFrom_append, hinstant, List.append_assoc]
                rfl
              · simpa using ⟨hanswers, hall⟩
              · rw [← hinstant] at hstands
                exact hstands.prepend rfl (by simpa using hgoesOn)
            · refine ⟨[⟨step, outcome⟩], hcalls, by simpa using hanswers,
                .waits rfl (by simpa using hgoesOn) not_false htimer' hstatus'
                  fun task hmem hid => ?_⟩
              rw [eq_of_mem_tasks_resleep hmem hid, hinstant, ← hnow]
              exact ⟨rfl, rfl⟩

end Session

end LowOrbit
