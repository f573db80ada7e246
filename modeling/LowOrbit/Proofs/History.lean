import LowOrbit.Session.Operation

/-!
# Histories of a session

A history is a list of operations, performed in order. What holds of a session after every history
follows from what one operation keeps (`Session.Along.performAll`). Letting time pass is the one
operation that does many things: it serves sleeps one at a time, so what it keeps follows from
what a single turn keeps (`Session.Turns.run`).
-/

namespace LowOrbit.Session

open Timer (Task)

/-- The session after a list of operations. -/
def performAll (s : Session) (ops : List Operation) : Session :=
  ops.foldl (fun s op => (s.perform op).1) s

/-- Each operation of a list meets a condition on it and on the session that performs it. -/
def Along (condition : Session → Operation → Prop) : Session → List Operation → Prop
  | _, [] => True
  | s, op :: rest => condition s op ∧ Along condition (s.perform op).1 rest

/-- A condition on operations alone holds along a list if it holds of its members. -/
theorem along_of_forall {condition : Operation → Prop} {ops : List Operation}
    (h : ∀ op ∈ ops, condition op) (s : Session) : Along (fun _ op => condition op) s ops := by
  induction ops generalizing s with
  | nil => trivial
  | cons op rest ih =>
      exact ⟨h op (by simp), ih (fun other hmem => h other (by simp [hmem])) _⟩

/-- What every operation that meets the condition keeps, a history along which all meet it
keeps. -/
theorem Along.performAll {condition : Session → Operation → Prop} {I : Session → Prop}
    (hstep : ∀ s op, I s → condition s op → I (s.perform op).1) {s : Session}
    {ops : List Operation} (hs : I s) (hops : Along condition s ops) : I (s.performAll ops) := by
  induction ops generalizing s with
  | nil => exact hs
  | cons op rest ih => exact ih (hstep s op hs hops.1) hops.2

/-- What a step keeps, its repetition keeps. -/
theorem repeat_keeps {I : Session → Prop} {f : Session → Session} (h : ∀ s, I s → I (f s))
    (n : Nat) {s : Session} (hs : I s) : I (Nat.repeat f n s) := by
  induction n with
  | zero => exact hs
  | succ n ih => exact h _ ih

/-! ## Letting time pass -/

/-- Ending the task of one timer cancels no other timer and revives none. -/
theorem isCancelled_endTask (s : Session) (id other : Nat) :
    (s.endTask id).timers.isCancelled other = s.timers.isCancelled other := by
  show ((s.timers.update id Timer.Record.letGo).record? other).any (·.status == .cancelled) =
    (s.timers.record? other).any (·.status == .cancelled)
  simp only [Timer.Table.update, Timer.Table.record?, List.getElem?_modify]
  cases s.timers.records[other]? with
  | none => rfl
  | some record =>
      by_cases h : id = other
      · simp [h, Timer.Record.letGo]
      · simp [h]

/-- What ending the task of a cancelled timer keeps, ending the tasks of all of them keeps. -/
theorem reap_keeps {I : Session → Prop}
    (hend : ∀ s id, I s → s.timers.isCancelled id = true → I (s.endTask id)) {s : Session}
    (hs : I s) : I s.reap := by
  have hall : ∀ tasks : List Task, ∀ t : Session, I t →
      (∀ task ∈ tasks, t.timers.isCancelled task.id = true) →
      I (tasks.foldl (fun t task => t.endTask task.id) t) := by
    intro tasks
    induction tasks with
    | nil => exact fun t ht _ => ht
    | cons task rest ih =>
        intro t ht hcancelled
        refine ih _ (hend t task.id ht (hcancelled task (by simp))) fun other hmem => ?_
        -- Ending one task leaves the timers of the rest cancelled.
        rw [isCancelled_endTask]
        exact hcancelled other (by simp [hmem])
  refine hall s.timers.cancelledTasks s hs fun task hmem => ?_
  exact (List.mem_filter.mp hmem).2

/-- A property of sessions that every single turn keeps while time passes up to the moment `last`:
moving to a moment, the turn of the resynchronization, and the turn of a task whose sleep ends by
`last`. -/
structure Wakes (I : Session → Prop) (locked : Bool) (last : Nat) : Prop where
  moveTo : ∀ s moment, I s → I { s with host := s.host.moveTo moment }
  serveSync : ∀ s, I s → I { s with host := s.host.serveSync }
  serveTask : ∀ s task, I s → task ∈ s.timers.tasks → task.sleep.due ≤ last →
    I (s.serveTask locked task)

/-- A property that ending the task of a cancelled timer keeps too. -/
structure Turns (I : Session → Prop) (locked : Bool) (last : Nat) : Prop
    extends Wakes I locked last where
  endTask : ∀ s id, I s → s.timers.isCancelled id = true → I (s.endTask id)

namespace Wakes

variable {I : Session → Prop} {locked : Bool} {last : Nat}

/-- The end of a single sleep keeps the property. -/
theorem serveSleep (h : Wakes I locked last) {s : Session} (hs : I s) {sleep : Sleep}
    (hdue : sleep.due ≤ last) : I (serveSleep locked s sleep) := by
  unfold Session.serveSleep
  split
  · exact h.serveSync s hs
  · split
    · rename_i task hfind
      have hsleep : task.sleep = sleep := by simpa using List.find?_some hfind
      exact h.serveTask s task hs (List.mem_of_find?_eq_some hfind) (hsleep ▸ hdue)
    · exact hs

/-- Serving everyone who wakes up at a moment keeps the property. -/
theorem serve (h : Wakes I locked last) {s : Session} (hs : I s) {moment : Nat}
    (hmoment : moment ≤ last) : I (serve locked moment s) := by
  have hmoved := h.moveTo s moment hs
  refine List.foldlRecOn (motive := I) _ _ hmoved fun t ht sleep hmem => ?_
  have hdue : sleep.due ≤ moment := by
    simp only [Ticker.dueBy, List.mem_mergeSort, List.mem_filter, decide_eq_true_eq] at hmem
    exact hmem.2
  exact h.serveSleep ht (Nat.le_trans hdue hmoment)

/-- Serving moment after moment up to `last` keeps the property. -/
theorem drive (h : Wakes I locked last) (rounds : Nat) {s : Session} (hs : I s) :
    I (Ticker.drive sleeps (Session.serve locked) last rounds s) := by
  induction rounds generalizing s with
  | zero => exact hs
  | succ rounds ih =>
      unfold Ticker.drive
      split
      · rename_i moment hnext
        have hmem := List.min?_mem hnext
        -- The moment is the end of one of the sleeps that end up to `last`.
        have hmoment : moment ≤ last := by
          simp only [List.mem_map, List.mem_filter, decide_eq_true_eq] at hmem
          obtain ⟨sleep, ⟨-, hle⟩, rfl⟩ := hmem
          exact hle
        exact ih (h.serve hs hmoment)
      · exact hs

end Wakes

namespace Turns

variable {I : Session → Prop} {locked : Bool} {last : Nat}

/-- Ending the tasks of all cancelled timers keeps the property. -/
theorem reap (h : Turns I locked last) {s : Session} (hs : I s) : I s.reap :=
  reap_keeps h.endTask hs

/-- Letting time pass up to `last` keeps the property. -/
theorem run {s : Session} {ms : Nat} (h : Turns I locked (s.host.ticker.now + ms)) (hs : I s) :
    I (s.run ms locked) :=
  h.moveTo _ _ (h.toWakes.drive _ (h.reap hs))

end Turns

end LowOrbit.Session
