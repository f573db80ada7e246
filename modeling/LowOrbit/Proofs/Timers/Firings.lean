import LowOrbit.Proofs.Timers.Scripts

/-!
# The instants at which a timer fires

Time passes from one end of a sleep to the next, so a timer fires at the very instant at which its
sleep ends, neither early nor late. `Session.Account` is what a session with a timer for a script
keeps in every turn and with every operation: the calls of the script are in the log, each at its
instant, and what the timer is doing follows from them. The main theorem, `Session.calls_on_time`,
draws the conclusions for every delay, every script and every history.
-/

namespace LowOrbit

open Timer (Firing Record ScriptStep Table Target Task callsFrom callsFrom_append instantAfter)

/-- The operation takes the timer from the connection. -/
def Operation.Cancels : Operation → Prop
  | .adopt _ | .release | .renew => True
  | _ => False

/-- These firings are possible in the course of the operation. They need time to pass, and answer as
they do on a connection that is locked or not. -/
def Operation.Fires : Operation → List Firing → Prop
  | .run _ locked _, fired => ∀ f ∈ fired, f.step.Answers locked f.outcome
  | _, fired => fired = []

/-- Firings of which something holds, followed by those of the operation. -/
def Operation.Adds (op : Operation) (answered : List Firing → Prop) (fired : List Firing) : Prop :=
  ∃ old new, answered old ∧ op.Fires new ∧ old ++ new = fired

namespace Session

variable {s t : Session} {locked : Bool} {id first : Nat} {steps : List ScriptStep}
  {fired : List Firing} {dropped : Prop}

/-! ## Letting time pass -/

/-- The calls of a script follow `calls` in the log, the timer `id` stands accordingly, and
`answered` holds of the firings. -/
def Logs (id first : Nat) (steps : List ScriptStep) (calls : List (Nat × ScriptStep))
    (answered : List Firing → Prop) (dropped : Prop) (s : Session) : Prop :=
  ∃ fired, s.calls.toList = calls ++ callsFrom first fired ∧ answered fired ∧
    s.Stands id first steps dropped fired

/-- What is known of a session with a timer for a script: besides this timer only timers that fire
the connection are not spent, and the calls of the script are in the log. -/
structure Account (id first : Nat) (steps : List ScriptStep) (calls : List (Nat × ScriptStep))
    (answered : List Firing → Prop) (dropped : Prop) (s : Session) : Prop where
  sound : Moment.Sound ⟨s, none⟩
  admits : s.Admits fun task => task.id = id ∨ task.target = .connection
  log : s.Logs id first steps calls answered dropped

variable {calls : List (Nat × ScriptStep)} {answered : List Firing → Prop}

/-- The log stands as before if nothing is called and nothing happens to the timer. -/
theorem Logs.keep (h : s.Logs id first steps calls answered dropped) (hcalls : t.calls = s.calls)
    (htimer : t.connection.timer = s.connection.timer)
    (hstatus : t.timers.status? id = s.timers.status? id)
    (htasks : ∀ task ∈ t.timers.tasks, task.id = id → task ∈ s.timers.tasks) :
    t.Logs id first steps calls answered dropped := by
  obtain ⟨fired, hfired, hanswers, hstands⟩ := h
  exact ⟨fired, hcalls ▸ hfired, hanswers, hstands.keep htimer hstatus htasks⟩

/-- The end of a task calls nobody. -/
theorem Logs.endTask (h : s.Logs id first steps calls answered dropped) (other : Nat) :
    (s.endTask other).Logs id first steps calls answered dropped :=
  h.keep rfl rfl (s.timers.status?_endTask other id) fun _ hmem _ => (List.mem_filter.mp hmem).1

/-- No turn of the timer of a script or of one that fires the connection brings another kind of
timer about. -/
theorem closed_script (id : Nat) :
    Task.Closed fun task => task.id = id ∨ task.target = .connection where
  connection _ h := .inr h
  suffix task steps next rest h htarget _ hid _ := by
    rcases h with h | h
    · exact .inl (hid.trans h)
    · rw [h] at htarget
      cases htarget

/-- The turn of a timer that fires the connection adds no calls. -/
theorem calls_serveConnection (s : Session) (locked : Bool) (id : Nat) :
    (s.serveConnection locked id).calls = s.calls := by
  refine s.serveConnection_keeps locked id (I := fun t => t.calls = s.calls) rfl
    (fun begun hbegin => ?_) (fun t ht => ?_) (fun t outcome ht => ?_) fun t delay ht => ht
  · obtain ⟨record, rfl⟩ := beginFiring?_frame hbegin
    rfl
  · rw [← ht]
    exact t.calls_play locked .fire
  · rw [calls_endFiring]
    exact ht

/-- The turn of a timer that fires the connection calls no script. -/
theorem Logs.serveConnection {other : Nat} (h : s.Logs id first steps calls answered dropped)
    (hne : other ≠ id) (locked : Bool) :
    (s.serveConnection locked other).Logs id first steps calls answered dropped := by
  refine h.keep (s.calls_serveConnection locked other)
    (s.connection_serveConnection_frame locked other).1 ?_ fun task hmem hid => ?_
  · rw [Table.status?, record?_serveConnection s locked (Ne.symm hne)]
    rfl
  · rcases mem_tasks_serveConnection hmem with hold | ⟨hnew, -⟩
    · exact hold
    · exact absurd (hnew.symm.trans hid) hne

/-- The turn of the timer at the moment at which its sleep ends plays the rest of the script. -/
theorem Logs.serveScript {task : Task} (h : s.Logs task.id first steps calls answered dropped)
    (hanswered : ∀ fired new, answered fired → (∀ f ∈ new, f.step.Answers locked f.outcome) →
      answered (fired ++ new))
    (hmem : task ∈ s.timers.tasks) (hspent : ¬ s.timers.Spent task.id)
    (hdue : task.sleep.due = s.host.ticker.now) :
    (s.serveTask locked task).Logs task.id first steps calls answered dropped := by
  obtain ⟨fired, hcalls, hfired, hstands⟩ := h
  -- A timer that is not spent has been waiting for this very moment.
  cases hstands with
  | @waits _ left hsteps hgoesOn hdropped htimer hstatus htask =>
      obtain ⟨hinstant, htarget⟩ := htask task hmem rfl
      obtain rfl : dropped = False := eq_false hdropped
      rw [Session.serveTask, htarget]
      obtain ⟨new, hcalls', hnew, hstands'⟩ :=
        @stands_serveScript s locked task.id left htimer hstatus
      rw [← hdue, hinstant] at hcalls' hstands'
      refine ⟨fired ++ new, ?_, hanswered fired new hfired hnew, hstands'.prepend hsteps hgoesOn⟩
      rw [hcalls', hcalls, callsFrom_append, List.append_assoc]
  | stopped _ _ _ _ _ _ hstatus => exact absurd (Table.spent_iff.mpr (.inl hstatus)) hspent
  | cancelled _ _ _ _ hstatus => exact absurd (Table.spent_iff.mpr (.inr hstatus)) hspent

/-- The turn of a task at the moment at which its sleep ends keeps the account. -/
theorem Account.serveTask (h : s.Account id first steps calls answered dropped)
    (hanswered : ∀ fired new, answered fired → (∀ f ∈ new, f.step.Answers locked f.outcome) →
      answered (fired ++ new))
    {task : Task} (hmem : task ∈ s.timers.tasks) (hdue : task.sleep.due = s.host.ticker.now) :
    (s.serveTask locked task).Account id first steps calls answered dropped := by
  refine ⟨h.sound.steps (steps_serveTask h.sound hmem),
    admits_serveTask (closed_script id) h.sound h.admits hmem, ?_⟩
  by_cases hspent : s.timers.Spent task.id
  · rw [serveTask_of_beginFiring? (beginFiring?_of_spent hspent)]
    exact h.log.endTask task.id
  · by_cases hid : task.id = id
    · subst hid
      exact h.log.serveScript hanswered hmem hspent hdue
    · have htarget : task.target = .connection :=
        (h.admits task hmem).elim (·.resolve_left hid) (absurd · hspent)
      rw [Session.serveTask, htarget]
      exact h.log.serveConnection hid locked

/-- The account is kept while time passes. -/
theorem Account.run (h : s.Account id first steps calls answered dropped)
    (hanswered : ∀ fired new, answered fired → (∀ f ∈ new, f.step.Answers locked f.outcome) →
      answered (fired ++ new))
    (hahead : s.Ahead) (ms : Nat) :
    (s.run ms locked).Account id first steps calls answered dropped := by
  have hkeep : ∀ (t : Session) (host : Host), t.Account id first steps calls answered dropped →
      Account id first steps calls answered dropped { t with host := host } :=
    fun t host ht => ⟨ht.sound, ht.admits, ht.log.keep rfl rfl rfl fun _ hmem _ => hmem⟩
  have hturns : OnTime (Account id first steps calls answered dropped) locked :=
    { moveTo := fun t moment ht => hkeep t _ ht
      serveSync := fun t ht => hkeep t _ ht
      serveTask := fun t task ht hmem hdue => ht.serveTask hanswered hmem hdue }
  obtain ⟨hadmits, hlog⟩ := reap_keeps
    (I := fun t => (t.Admits fun task => task.id = id ∨ task.target = .connection) ∧
      t.Logs id first steps calls answered dropped)
    (fun t other ht _ => ⟨admits_endTask ht.1 other, ht.2.endTask other⟩) ⟨h.admits, h.log⟩
  exact (hturns.run ⟨h.sound.steps (steps_reap h.sound), hadmits, hlog⟩ hahead ms).1

/-! ## Histories -/

/-- The log of a timer that is cancelled by its owner. -/
theorem Logs.cancel (h : s.Logs id first steps calls answered dropped) (hcalls : t.calls = s.calls)
    (htimer : t.connection.timer ≠ some id) (hstatus : t.timers.status? id = some .cancelled)
    {dropped' : Prop} (hdropped : dropped') :
    t.Logs id first steps calls answered dropped' := by
  obtain ⟨fired, hfired, hanswers, hstands⟩ := h
  obtain ⟨hsteps, hgoesOn⟩ := hstands.plays
  exact ⟨fired, hcalls ▸ hfired, hanswers,
    .cancelled hsteps hgoesOn (.inl hdropped) htimer hstatus⟩

/-- What holds of the firings may be weakened, and it does not matter in what words it is said
whether the owner has cancelled the timer. -/
theorem Logs.imp (h : s.Logs id first steps calls answered dropped)
    {answered' : List Firing → Prop} {dropped' : Prop}
    (hanswered : ∀ fired, answered fired → answered' fired) (hdropped : dropped = dropped') :
    s.Logs id first steps calls answered' dropped' := by
  subst hdropped
  obtain ⟨fired, hcalls, hfired, hstands⟩ := h
  exact ⟨fired, hcalls, hanswered fired hfired, hstands⟩

/-- An operation that does not let time pass calls nobody. -/
theorem calls_perform {op : Operation} (hrun : ∀ ms locked onSocket, op ≠ .run ms locked onSocket) :
    (s.perform op).1.calls = s.calls := by
  cases op with
  | adopt target => exact s.calls_adopt target
  | release => exact s.calls_cancelTimer
  | renew => exact s.calls_cancelTimer
  | clock o => rfl
  | _ => exact (host_perform (by trivial) hrun (by simp)).2.2

/-- Every operation keeps the account and adds its firings to it, if it adopts the algorithm, if at
all, with the connection as target. -/
theorem Account.perform (h : s.Account id first steps calls answered dropped) (hahead : s.Ahead)
    {op : Operation} (hop : op.AdoptsItself) :
    (s.perform op).1.Account id first steps calls (op.Adds answered) (dropped ∨ op.Cancels) := by
  refine ⟨h.sound.steps (steps_perform h.sound op),
    admits_perform (closed_script id) h.sound h.admits hop, ?_⟩
  have hnone : op.Fires [] := by cases op <;> simp [Operation.Fires]
  have hlog : s.Logs id first steps calls (op.Adds answered) dropped :=
    h.log.imp (fun fired hfired => ⟨fired, [], hfired, hnone, List.append_nil fired⟩) rfl
  obtain ⟨fired, -, -, hstands⟩ := h.log
  obtain ⟨status, hstatus, hknown⟩ := hstands.known
  have hkeep : op.Reports (fun _ => True) →
      (∀ ms locked onSocket, op ≠ .run ms locked onSocket) → dropped = (dropped ∨ op.Cancels) →
      (s.perform op).1.Logs id first steps calls (op.Adds answered) (dropped ∨ op.Cancels) := by
    intro hreports hrun hdropped
    obtain ⟨htimers, htimer⟩ := timers_perform hreports hrun
    refine (hlog.imp (fun _ hfired => hfired) hdropped).keep (calls_perform hrun) htimer
      (by rw [htimers]) fun task hmem _ => ?_
    rwa [htimers] at hmem
  have hsame : dropped = (dropped ∨ False) := (or_false dropped).symm
  cases op with
  | adopt target =>
      obtain ⟨htimer, hcancelled⟩ := status?_adopt hstatus hknown target
      exact hlog.cancel (s.calls_adopt target) htimer hcancelled (.inr trivial)
  | release =>
      have hcancelled := status?_cancelTimer hstatus hknown
      exact hlog.cancel (t := s.release) s.calls_cancelTimer nofun hcancelled (.inr trivial)
  | renew =>
      have hcancelled := status?_cancelTimer hstatus hknown
      exact hlog.cancel (t := s.renew) s.calls_cancelTimer nofun hcancelled (.inr trivial)
  | run ms locked onSocket =>
      have hran := ((Account.mk h.sound h.admits hlog).run
        (fun fired new ⟨old, new', hold, hnew', heq⟩ hnew => ⟨old, new' ++ new, hold,
          fun f hf => (List.mem_append.mp hf).elim (hnew' f) (hnew f), by
            rw [← heq, List.append_assoc]⟩)
        hahead ms).log.imp (fun _ hfired => hfired) hsame
      simp only [Session.perform]
      split
      · exact hran.keep rfl rfl rfl fun _ hmem _ => hmem
      · exact hran
  | _ => exact hkeep trivial (by simp) hsame

/-- Every history keeps the account and adds its firings to it, operation by operation, if each
adoption in it has the connection as target. -/
theorem Account.performAll (h : s.Account id first steps calls answered dropped) (hahead : s.Ahead)
    {ops : List Operation} (hops : ∀ op ∈ ops, op.AdoptsItself) :
    (s.performAll ops).Account id first steps calls
      (fun fired => ∃ old turns, answered old ∧ List.Forall₂ Operation.Fires ops turns ∧
        old ++ turns.flatten = fired)
      (dropped ∨ ∃ op ∈ ops, op.Cancels) := by
  induction ops generalizing s answered dropped with
  | nil =>
      refine ⟨h.sound, h.admits, h.log.imp (fun fired hfired => ?_) (by simp)⟩
      exact ⟨fired, [], hfired, .nil, List.append_nil fired⟩
  | cons op rest ih =>
      have hfirst := h.perform hahead (hops op (by simp))
      have hall := ih hfirst (ahead_perform hahead op) fun other hmem => hops other (by simp [hmem])
      refine ⟨hall.sound, hall.admits, hall.log.imp ?_ (by simp [or_assoc])⟩
      rintro _ ⟨_, turns, ⟨old, new, hold, hnew, rfl⟩, hturns, rfl⟩
      exact ⟨old, new :: turns, hold, .cons hnew hturns, by simp⟩

/-- A spent timer calls its script no more while time passes. -/
theorem calls_run_of_spent (hsound : Moment.Sound ⟨s, none⟩)
    (hs : s.Admits fun task => task.id = id ∨ task.target = .connection)
    (hspent : s.timers.Spent id) (ms : Nat) (locked : Bool) :
    (s.run ms locked).calls = s.calls := by
  refine (run_of_admits (P := fun t => t.calls = s.calls ∧ t.timers.Spent id) (closed_script id)
    (fun _ _ ht => ht) (fun _ ht => ht) (fun t other ht => ⟨ht.1, ht.2.endTask other⟩)
    (fun t task ht htask hnot => ?_) hsound hs ⟨rfl, hspent⟩ ms).1.1
  -- A task that still has a firing ahead of it is not that of the script.
  have hne : id ≠ task.id := fun hid => hnot (hid ▸ ht.2)
  rw [serveTask, htask.resolve_left (Ne.symm hne)]
  refine ⟨(t.calls_serveConnection locked task.id).trans ht.1, ?_⟩
  obtain ⟨record, hrecord, hover⟩ := ht.2
  exact ⟨record, (record?_serveConnection t locked hne).trans hrecord, hover⟩

/-- A spent timer calls its script no more. -/
theorem calls_performAll_of_spent (hsound : Moment.Sound ⟨s, none⟩)
    (hs : s.Admits fun task => task.id = id ∨ task.target = .connection)
    (hspent : s.timers.Spent id) {ops : List Operation} (hops : ∀ op ∈ ops, op.AdoptsItself) :
    (s.performAll ops).calls = s.calls := by
  induction ops generalizing s with
  | nil => rfl
  | cons op rest ih =>
      have hop := hops op (by simp)
      have hcalls : (s.perform op).1.calls = s.calls := by
        cases op with
        | run ms locked onSocket =>
            have hran := calls_run_of_spent hsound hs hspent ms locked
            simp only [perform]
            split <;> exact hran
        | _ => exact calls_perform (by simp)
      rw [← hcalls]
      have hsteps := steps_perform hsound op
      exact ih (hsound.steps hsteps) (admits_perform (closed_script id) hsound hs hop)
        (hsteps.spent hspent) fun other hmem => hops other (by simp [hmem])

/-! ## Arming a timer -/

/-- A timer has been armed for a target, whose first firing is after a delay. -/
structure Arms (s : Session) (delay : Nat) (target : Target) (u : Session) : Prop where
  timer_eq : u.connection.timer = some s.timers.nextId
  timers_eq : u.timers = s.cancelTimer.timers.arm (s.host.ticker.sleep delay) target
  now_eq : u.host.ticker.now = s.host.ticker.now
  sync_eq : u.host.clock.sync = s.host.clock.sync
  calls_eq : u.calls = s.calls

/-- Whatever the delay, there is a session in which a timer has been armed with it. -/
theorem exists_arms (s : Session) (delay : Nat) (target : Target) : ∃ u, s.Arms delay target u :=
  ⟨{ s with
      connection := { s.connection with timer := some s.timers.nextId }
      timers := s.cancelTimer.timers.arm (s.host.ticker.sleep delay) target },
    rfl, rfl, rfl, rfl, rfl⟩

/-- An adoption that leaves the connection with a timer has armed it with the delay to the next edge
of the handover window. -/
theorem arms_adopt {target : Target}
    (harmed : (s.adopt target).connection.timer.isSome = true) :
    s.Arms ((s.adopt target).connection.nextDelay s.host.phase) target (s.adopt target) := by
  obtain ⟨hnow, hclock⟩ := s.host_adopt target
  rcases s.adopt_cases target with ⟨heq, -⟩ | ⟨heq, htimers⟩
  · rw [heq] at harmed
    cases harmed
  · exact ⟨by rw [heq]; rfl, htimers, hnow, by rw [hclock], s.calls_adopt target⟩

/-- A timer that has just been armed. -/
theorem Arms.account {u : Session} {delay : Nat} (h : s.Arms delay (.script steps) u)
    (hsound : Moment.Sound ⟨s, none⟩) :
    u.Account s.timers.nextId (Nanos.coveringMillis (s.host.ticker.elapsed + delay)) steps
      s.calls.toList (· = []) False := by
  have hnext := s.cancelTimer_frame.2
  have harmed : Moment.Sound ⟨u, none⟩ := by
    have hcancelled := (Moment.sound_cancelTimer hsound).arm (s.host.ticker.sleep delay)
      (.script steps)
    rw [hnext, ← h.timers_eq, ← h.timer_eq] at hcancelled
    exact hcancelled
  refine ⟨harmed, fun task hmem => ?_, [], ?_, rfl, ?_⟩
  · by_cases hid : task.id = s.timers.nextId
    · exact .inl (.inl hid)
    · refine .inr (harmed.spent_of_ne (List.mem_map_of_mem hmem) fun hcurrent => hid ?_)
      exact (Option.some.inj (h.timer_eq.symm.trans hcurrent)).symm
  · rw [h.calls_eq]
    simp [callsFrom]
  · have hsteps : [].map Firing.step ++ steps = steps := rfl
    refine .waits hsteps (by simp) not_false h.timer_eq ?_ fun task hmem hid => ?_
    · rw [h.timers_eq, ← hnext]
      exact Table.status?_arm _ _ _
    · rw [h.timers_eq] at hmem
      rcases List.mem_append.mp hmem with hold | hnew
      · rw [s.cancelTimer_frame.1] at hold
        have hlt := hsound.task_lt task.id (List.mem_map_of_mem hold)
        exact absurd hid (Nat.ne_of_lt hlt)
      · rw [List.mem_singleton.mp hnew]
        refine ⟨?_, rfl⟩
        show s.host.ticker.now + Nanos.coveringMillis delay = _
        rw [instantAfter, List.foldl_nil]
        simp only [Ticker.elapsed, Nanos.coveringMillis, Nanos.millis]
        omega

/-- A timer that has just been armed sleeps, and if it sleeps for a while, it does not wait for a
turn. -/
theorem Arms.ahead {u : Session} {delay : Nat} {target : Target} (h : s.Arms delay target u)
    (hsound : Moment.Sound ⟨s, none⟩) (hs : s.Ahead) :
    u.Ahead ∧ (0 < delay → ∀ task ∈ u.pending, task.id ≠ s.timers.nextId) := by
  have htasks : ∀ task ∈ u.timers.tasks, task ∈ s.timers.tasks ∨
      task.sleep = s.host.ticker.sleep delay := by
    intro task hmem
    rw [h.timers_eq] at hmem
    rcases List.mem_append.mp hmem with hold | hnew
    · exact .inl (s.cancelTimer_frame.1 ▸ hold)
    · exact .inr (by rw [List.mem_singleton.mp hnew])
  constructor
  · intro sleep hmem
    rw [h.now_eq]
    rcases mem_sleeps_iff.mp hmem with hsync | ⟨task, htask, rfl⟩
    · exact hs sleep (mem_sleeps_iff.mpr (.inl (h.sync_eq ▸ hsync)))
    · rcases htasks task htask with hold | hnew
      · exact hs _ (mem_sleeps_iff.mpr (.inr ⟨task, hold, rfl⟩))
      · rw [hnew]
        exact Nat.le_add_right _ _
  · intro hdelay task hmem hid
    obtain ⟨htask, hdue⟩ := List.mem_filter.mp hmem
    rcases htasks task htask with hold | hnew
    · exact Nat.ne_of_lt (hsound.task_lt task.id (List.mem_map_of_mem hold)) hid
    · have hpos := mt Nanos.coveringMillis_eq_zero_iff.mp (Nat.pos_iff_ne_zero.mp hdelay)
      simp only [hnew, h.now_eq, Ticker.sleep, decide_eq_true_eq] at hdue
      omega

/-! ## The timer of a script -/

/-- A task that sleeps until the next firing has been neither missed nor, if it does not wait for a
turn, reached. -/
theorem Account.instant_bounds (h : s.Account id first steps calls answered dropped)
    (hahead : s.Ahead) (hstatus : s.timers.status? id = some .armed) {instant : Nat}
    (htask : ∀ task ∈ s.timers.tasks, task.id = id → task.sleep.due = instant) :
    s.host.ticker.now ≤ instant ∧
      ((∀ task ∈ s.pending, task.id ≠ id) → s.host.ticker.now < instant) := by
  obtain ⟨record, hrecord, harmed⟩ := Option.map_eq_some_iff.mp hstatus
  have hfits := h.sound.fits id record hrecord
  unfold Record.Fits at hfits
  rw [harmed] at hfits
  obtain ⟨task, hmem, hid⟩ := List.mem_map.mp hfits.2.2.1
  rw [← htask task hmem hid]
  refine ⟨hahead _ (mem_sleeps_iff.mpr (.inr ⟨task, hmem, rfl⟩)), fun hpending => ?_⟩
  refine Nat.lt_of_not_le fun hdue => hpending task (List.mem_filter.mpr ⟨hmem, ?_⟩) hid
  simpa using hdue

/-- A script that leaves the connection to its owner is harmless in what is left of it, too. -/
theorem Account.harmless (h : s.Account id first steps calls answered dropped)
    (hsteps : ∀ step ∈ steps, ¬ step.Cancels) : s.Admits fun task => task.target.Harmless := by
  intro task hmem
  rcases h.admits task hmem with (hid | htarget) | hspent
  · obtain ⟨fired, -, -, hstands⟩ := h.log
    cases hstands with
    | @waits _ left hleft _ _ _ _ htask =>
        have htarget := (htask task hmem hid).2
        refine .inl ?_
        show task.target.Harmless
        rw [htarget]
        refine fun step hstep => hsteps step ?_
        rw [← hleft]
        exact List.mem_append_right _ hstep
    | stopped _ _ _ _ _ _ hstatus => exact .inr (hid ▸ Table.spent_iff.mpr (.inl hstatus))
    | cancelled _ _ _ _ hstatus => exact .inr (hid ▸ Table.spent_iff.mpr (.inr hstatus))
  · refine .inl ?_
    show task.target.Harmless
    rw [htarget]
    trivial
  · exact .inr hspent

/-- The firings of a timer, whatever the history in the course of which it is armed for a script,
whatever the delay, and whatever happens afterwards; later adoptions have the connection as target,
so that all calls are those of this script. The first call is at the end of the delay, and each
answer puts off the next one, by a millisecond if the target was busy and as it asks otherwise, to a
whole millisecond every time. None is missed: the next one lies ahead once time has passed. No call
follows an answer that stops the timer or a step that cancels it, and none comes after its owner has
cancelled it. The timer is armed until then, idle after a stop and cancelled after a cancellation.
A firing that finds the connection locked is answered by busy and leaves it alone, and so does
all time that passes meanwhile, if the script does no more to the connection than fire it. -/
theorem calls_on_time {config : Config} {socket : Socket.Edit} {features : Socket.Features}
    {source : TimeSource} {tickerAvailable : Bool} {s : Session}
    (hcreate : create config socket features source tickerAvailable = .ok s)
    (before : List Operation) {delay : Nat} {u : Session}
    (harms : (s.performAll before).Arms delay (.script steps) u) (after : List Operation)
    (hafter : ∀ op ∈ after, op.AdoptsItself) :
    let v := s.performAll before
    let id := v.timers.nextId
    let first := Nanos.coveringMillis (v.host.ticker.elapsed + delay)
    let t := u.performAll after
    ∃ turns : List (List Firing),
      let fired := turns.flatten
      let cancelled := (∃ op ∈ after, op.Cancels) ∨ ∃ f ∈ fired, f.step.Cancels
      let stopped := ∃ f ∈ fired, f.outcome = .stop
      List.Forall₂ Operation.Fires after turns ∧
      t.calls.toList = v.calls.toList ++ callsFrom first fired ∧
      fired.map Firing.step <+: steps ++ [.stop] ∧
      (∀ f ∈ fired.dropLast, f.GoesOn) ∧
      (cancelled → t.timers.status? id = some .cancelled) ∧
      (¬ cancelled → stopped → t.timers.status? id = some .idle) ∧
      (¬ cancelled → ¬ stopped →
        t.timers.status? id = some .armed ∧ t.host.ticker.now ≤ instantAfter first fired ∧
          (0 < delay ∨ (∃ op ∈ after, op.TakesTime) →
            t.host.ticker.now < instantAfter first fired)) ∧
      (cancelled ∨ stopped → ∀ later, (∀ op ∈ later, op.AdoptsItself) →
        (t.performAll later).calls = t.calls) ∧
      t.tryFire true = (.busy, t) ∧
      ((∀ step ∈ steps, ¬ step.Cancels) → ∀ ms, (t.run ms true).connection = t.connection) := by
  intro v id first t
  have hs : Moment.Sound ⟨s, none⟩ ∧ s.Ahead := by
    rw [eq_of_create hcreate]
    exact ⟨Table.sound_empty, nofun⟩
  have hv : Moment.Sound ⟨v, none⟩ := hs.1.steps (steps_performAll hs.1 before)
  obtain ⟨hu, hlate⟩ := harms.ahead hv (ahead_performAll hs.2 before)
  have ht := (harms.account hv).performAll hu hafter
  have haheadt : t.Ahead := ahead_performAll hu after
  obtain ⟨fired, hcalls, ⟨_, turns, rfl, hturns, rfl⟩, hstands⟩ :=
    ht.log.imp (fun _ h => h) (false_or _)
  obtain ⟨hsteps, hgoesOn⟩ := hstands.plays
  obtain ⟨hcancelled, hstopped, harmed⟩ := hstands.status
  refine ⟨turns, hturns, hcalls, hsteps, hgoesOn, hcancelled, hstopped, fun hnot hnot' => ?_,
    fun hover => ?_, rfl, fun hharmless => connection_run_locked ht.sound (ht.harmless hharmless)⟩
  · obtain ⟨hstatus, htask⟩ := harmed hnot hnot'
    obtain ⟨hle, hlt⟩ := ht.instant_bounds haheadt hstatus htask
    exact ⟨hstatus, hle, fun h => hlt (pending_performAll hu (h.imp_left hlate))⟩
  · have hspent : t.timers.Spent id := by
      rw [Table.spent_iff]
      by_cases hcancel : (∃ op ∈ after, op.Cancels) ∨ ∃ f ∈ turns.flatten, f.step.Cancels
      · exact .inr (hcancelled hcancel)
      · exact .inl (hstopped hcancel (hover.resolve_left hcancel))
    exact fun later => calls_performAll_of_spent ht.sound ht.admits hspent

/-- The timer of the example is armed 200 ms before the next edge of the handover window. Its target
fires the connection, which is locked, so that it is called again a millisecond later. Then it asks
for two and a half milliseconds, which end at a whole one, and stops the timer for good. -/
theorem calls_on_time_atHandover :
    let steps : List ScriptStep := [.fire, .rearm 2500000, .stop]
    let u := atHandover.adopt (.script steps)
    let t := u.performAll [.run 300 true false]
    atHandover.Arms 200000000 (.script steps) u ∧
      t.calls.toList = [(200, .fire), (201, .rearm 2500000), (204, .stop)] ∧
      t.timers.status? 0 = some .idle ∧
      ∀ later, (∀ op ∈ later, op.AdoptsItself) → (t.performAll later).calls = t.calls := by
  intro steps u t
  have hdelay : u.connection.nextDelay atHandover.host.phase = 200000000 := by decide +kernel
  have harms : atHandover.Arms (u.connection.nextDelay atHandover.host.phase) (.script steps) u :=
    arms_adopt (by decide +kernel)
  have hidle : t.timers.status? 0 = some .idle := by decide +kernel
  rw [hdelay] at harms
  obtain ⟨turns, -, -, -, -, -, -, harmed, hover, -⟩ :=
    calls_on_time create_atHandover [] harms [.run 300 true false]
      (by simp [Operation.AdoptsItself])
  refine ⟨harms, by decide +kernel, hidle, hover ?_⟩
  -- An idle timer is not armed, so it has been cancelled or stopped.
  by_contra hnot
  obtain ⟨hnot, hnot'⟩ := not_or.mp hnot
  have hstatus : t.timers.status? 0 = some .armed := (harmed hnot hnot').1
  rw [hidle] at hstatus
  cases hstatus

end Session

end LowOrbit
