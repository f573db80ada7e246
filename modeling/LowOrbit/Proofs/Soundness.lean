import LowOrbit.Proofs.Turn
import Mathlib.Data.List.Nodup

/-!
# Sound tables of timers

Between two steps of a session its timers are sound (`Table.Sound`): every task is that of another
timer and holds the connection once, and every record agrees with its task, with the timer of the
connection and with the firing that is under way, if any. Each operation on a table keeps it sound
and makes it later (`Table.Later`): it revives neither cancelled timers nor ended tasks.
-/

namespace LowOrbit.Timer

/-- What a record says about its timer: whether it is the timer of the connection, whether a firing
of it is under way, and whether it has a task. -/
def Record.Fits (r : Record) (current running task : Prop) : Prop :=
  match r.status with
  | .idle => ¬ running ∧ ¬ task ∧ r.releasePending = false
  | .armed => current ∧ ¬ running ∧ task ∧ r.releasePending = false
  | .firing => current ∧ running ∧ task ∧ r.releasePending = false
  | .cancelled => (r.releasePending = true ↔ running) ∧ (running → task)

namespace Table

/-- The timers that have a task. -/
def taskIds (t : Table) : List Nat := t.tasks.map Task.id

/-- The timers between two steps: `current` is the timer of the connection, and `running` is the one
that is running its target. -/
structure Sound (t : Table) (current running : Option Nat) : Prop where
  nodup : t.taskIds.Nodup
  holds_eq : t.holds = t.tasks.length
  task_lt : ∀ id ∈ t.taskIds, id < t.nextId
  running_lt : ∀ id, running = some id → id < t.nextId
  fits : ∀ id record, t.record? id = some record →
    record.Fits (current = some id) (running = some id) (id ∈ t.taskIds)

variable {t : Table} {current running : Option Nat} {id : Nat}

/-- There are no timers in an empty table. -/
theorem sound_empty : ({} : Table).Sound none none where
  nodup := List.nodup_nil
  holds_eq := rfl
  task_lt _ hmem := absurd hmem List.not_mem_nil
  running_lt _ h := nomatch h
  fits _ _ h := by simp [record?] at h

/-- Changing the record of one timer leaves the timers sound if the new record fits. -/
theorem Sound.update (h : t.Sound current running) {current' running' : Option Nat}
    {f : Record → Record}
    (hcurrent : ∀ other, other ≠ id → (current' = some other ↔ current = some other))
    (hrunning : ∀ other, other ≠ id → (running' = some other ↔ running = some other))
    (hlt : running' = some id → id < t.nextId)
    (hself : ∀ record, t.record? id = some record →
      (f record).Fits (current' = some id) (running' = some id) (id ∈ t.taskIds)) :
    (t.update id f).Sound current' running' where
  nodup := h.nodup
  holds_eq := h.holds_eq
  task_lt other hmem := by
    show other < (t.records.modify id f).length
    rw [List.length_modify]
    exact h.task_lt other hmem
  running_lt other hother := by
    show other < (t.records.modify id f).length
    rw [List.length_modify]
    by_cases hsame : other = id
    · subst hsame
      exact hlt hother
    · exact h.running_lt other ((hrunning other hsame).mp hother)
  fits other record hrecord := by
    by_cases hsame : other = id
    · subst hsame
      rw [record?_update_self] at hrecord
      obtain ⟨old, hold, rfl⟩ := Option.map_eq_some_iff.mp hrecord
      exact hself old hold
    · rw [t.record?_update_of_ne id hsame] at hrecord
      have hfits := h.fits other record hrecord
      rw [← hcurrent other hsame, ← hrunning other hsame] at hfits
      exact hfits

/-- Cancelling the timer of the connection leaves the connection without one. -/
theorem Sound.cancel (h : t.Sound (some id) running) : (t.cancel id).Sound none running := by
  refine h.update (fun other hne => ?_) (fun _ _ => Iff.rfl) (h.running_lt id)
    fun record hrecord => ?_
  · simpa using Ne.symm hne
  · have hfits := h.fits id record hrecord
    obtain ⟨status, pending⟩ := record
    cases status <;> simp_all [Record.Fits, Record.cancel, Record.isFiring]

/-- A new timer has a task. -/
theorem taskIds_arm (t : Table) (sleep : Sleep) (target : Target) :
    (t.arm sleep target).taskIds = t.taskIds ++ [t.nextId] := List.map_append

/-- A new timer takes the next place. -/
theorem nextId_arm (t : Table) (sleep : Sleep) (target : Target) :
    (t.arm sleep target).nextId = t.nextId + 1 := List.length_append

/-- A new timer has a new record. -/
theorem record?_arm (t : Table) (sleep : Sleep) (target : Target) (id : Nat) :
    (t.arm sleep target).record? id = if id = t.nextId then some {} else t.record? id := by
  show (t.records ++ [({} : Record)])[id]? =
    if id = t.records.length then some {} else t.records[id]?
  split
  · rename_i heq
    rw [heq, List.getElem?_concat_length]
  · rename_i hne
    rw [List.getElem?_append]
    split
    · rfl
    · rw [List.getElem?_eq_none (by simp; omega), List.getElem?_eq_none (by omega)]

/-- Arming a timer for a connection that has none leaves the timers sound. -/
theorem Sound.arm (h : t.Sound none running) (sleep : Sleep) (target : Target) :
    (t.arm sleep target).Sound (some t.nextId) running where
  nodup := by
    rw [taskIds_arm, List.nodup_append]
    refine ⟨h.nodup, List.nodup_singleton _, fun other hother new hnew => ?_⟩
    rw [List.mem_singleton.mp hnew]
    exact Nat.ne_of_lt (h.task_lt other hother)
  holds_eq := by
    show t.holds + 1 = (t.tasks ++ [_]).length
    rw [h.holds_eq, List.length_append]
    rfl
  task_lt other hmem := by
    rw [nextId_arm]
    rw [taskIds_arm] at hmem
    rcases List.mem_append.mp hmem with hold | hnew
    · exact Nat.lt_succ_of_lt (h.task_lt other hold)
    · exact Nat.lt_succ_of_le (Nat.le_of_eq (List.mem_singleton.mp hnew))
  running_lt other hother := by
    rw [nextId_arm]
    exact Nat.lt_succ_of_lt (h.running_lt other hother)
  fits other record hrecord := by
    rw [record?_arm] at hrecord
    rw [taskIds_arm]
    split at hrecord
    · rename_i heq
      obtain rfl := Option.some.inj hrecord
      subst heq
      exact ⟨rfl, fun hrunning => Nat.lt_irrefl _ (h.running_lt _ hrunning), by simp, rfl⟩
    · rename_i hne
      have hfits := h.fits other record hrecord
      unfold Record.Fits at hfits ⊢
      cases hstatus : record.status <;> simp_all

/-- What remains of the timers with a task after one of them has ended. -/
theorem mem_taskIds_endTask {other : Nat} :
    other ∈ (t.endTask id).taskIds ↔ other ∈ t.taskIds ∧ other ≠ id := by
  simp only [taskIds, Table.endTask, List.mem_map, List.mem_filter, decide_eq_true_eq]
  constructor
  · rintro ⟨task, ⟨hmem, hne⟩, rfl⟩
    exact ⟨⟨task, hmem, rfl⟩, hne⟩
  · rintro ⟨⟨task, hmem, rfl⟩, hne⟩
    exact ⟨task, ⟨hmem, hne⟩, rfl⟩

/-- A task that has ended is gone. -/
theorem notMem_taskIds_endTask (t : Table) (id : Nat) : id ∉ (t.endTask id).taskIds :=
  fun hmem => (mem_taskIds_endTask.mp hmem).2 rfl

/-- There is one task less once a task has ended. -/
theorem length_tasks_endTask (hnodup : t.taskIds.Nodup) (hmem : id ∈ t.taskIds) :
    (t.endTask id).tasks.length = t.tasks.length - 1 := by
  have hone : t.tasks.countP (·.id = id) = 1 := by
    have hcount := List.count_eq_one_of_mem hnodup hmem
    rw [taskIds, List.count, List.countP_map] at hcount
    rw [← hcount]
    exact List.countP_congr fun task _ => by simp
  have hsplit :=
    List.length_eq_countP_add_countP (fun task : Task => decide (task.id = id)) (l := t.tasks)
  show (t.tasks.filter (·.id ≠ id)).length = t.tasks.length - 1
  rw [← List.countP_eq_length_filter, hsplit, hone]
  simp

/-- Ending the task of a timer that fires no more leaves the timers sound. What the record says then
is written first. -/
theorem Sound.endTask (h : t.Sound current running)
    (hrunning : ∀ other, other ≠ id → running ≠ some other) (hmem : id ∈ t.taskIds)
    {f : Record → Record}
    (hover : ∀ record, t.record? id = some record →
      (f record).status = .idle ∨ (f record).status = .cancelled) :
    ((t.update id f).endTask id).Sound current none where
  nodup := by
    refine List.Nodup.sublist ?_ h.nodup
    exact List.Sublist.map Task.id List.filter_sublist
  holds_eq := by
    have hlength := length_tasks_endTask (t := t.update id f) h.nodup hmem
    show t.holds - 1 = _
    rw [hlength, h.holds_eq]
    rfl
  task_lt other hother := by
    have hlength : ((t.update id f).endTask id).nextId = t.nextId := by
      simp [nextId, Table.endTask, Table.update]
    rw [hlength]
    exact h.task_lt other (mem_taskIds_endTask.mp hother).1
  running_lt _ hother := nomatch hother
  fits other record hrecord := by
    by_cases hsame : other = id
    · subst hsame
      have hgone := (t.update other f).notMem_taskIds_endTask other
      rw [record?_endTask_self, record?_update_self] at hrecord
      obtain ⟨written, hwritten, rfl⟩ := Option.map_eq_some_iff.mp hrecord
      obtain ⟨old, hold, rfl⟩ := Option.map_eq_some_iff.mp hwritten
      rcases hover old hold with hidle | hcancelled
      · simp [Record.Fits, Record.letGo, hidle, hgone]
      · simp [Record.Fits, Record.letGo, hcancelled]
    · rw [record?_endTask_of_ne _ _ hsame, record?_update_of_ne _ _ hsame] at hrecord
      have hfits := h.fits other record hrecord
      have hnot := hrunning other hsame
      have htask : other ∈ ((t.update id f).endTask id).taskIds ↔ other ∈ t.taskIds := by
        rw [mem_taskIds_endTask]
        exact and_iff_left hsame
      unfold Record.Fits at hfits ⊢
      cases hstatus : record.status <;> simp_all

/-- A task that goes to sleep is still there. -/
theorem taskIds_resleep (t : Table) (id : Nat) (sleep : Sleep) (target : Target) :
    (t.resleep id sleep target).taskIds = t.taskIds := by
  simp only [taskIds, Table.resleep, List.map_map]
  refine List.map_congr_left fun task _ => ?_
  by_cases hid : task.id = id <;> simp [hid]

/-- Putting a task to sleep leaves the timers sound. -/
theorem Sound.resleep (h : t.Sound current running) (id : Nat) (sleep : Sleep) (target : Target) :
    (t.resleep id sleep target).Sound current running := by
  have hids := t.taskIds_resleep id sleep target
  refine ⟨hids ▸ h.nodup, ?_, hids ▸ h.task_lt, h.running_lt, hids ▸ h.fits⟩
  show t.holds = (t.tasks.map _).length
  rw [List.length_map]
  exact h.holds_eq

/-- Writing a record back changes nothing. -/
theorem update_id (t : Table) (id : Nat) : t.update id (fun record => record) = t := by
  show { t with records := t.records.modify id (fun record => record) } = t
  rw [show t.records.modify id (fun record => record) = t.records from List.modify_id _ _]

/-- A timer that has a record is one of those ever armed. -/
theorem lt_nextId {record : Record} (h : t.record? id = some record) : id < t.nextId :=
  (List.getElem?_eq_some_iff.mp h).1

/-- A timer that is running its target has a task, and its record says that it is firing, unless it
has been cancelled meanwhile. -/
theorem Sound.of_running (h : t.Sound current (some id)) :
    id ∈ t.taskIds ∧ ∃ record, t.record? id = some record ∧
      (record.status = .firing ∧ current = some id ∧ record.releasePending = false ∨
        record.status = .cancelled ∧ record.releasePending = true) := by
  obtain ⟨record, hrecord⟩ : ∃ record, t.record? id = some record :=
    ⟨_, List.getElem?_eq_getElem (h.running_lt id rfl)⟩
  have hfits := h.fits id record hrecord
  unfold Record.Fits at hfits
  split at hfits
  · exact absurd rfl hfits.1
  · exact absurd rfl hfits.2.1
  · rename_i hfiring
    exact ⟨hfits.2.2.1, record, hrecord, .inl ⟨hfiring, hfits.1, hfits.2.2.2⟩⟩
  · rename_i hcancelled
    exact ⟨hfits.2 rfl, record, hrecord, .inr ⟨hcancelled, hfits.1.mpr rfl⟩⟩

/-- A timer has been cancelled if its record says so. -/
theorem isCancelled_iff :
    t.isCancelled id = true ↔
      ∃ record, t.record? id = some record ∧ record.status = .cancelled := by
  simp [isCancelled, Option.any_eq_true]

/-- A timer is firing if its record says so. -/
theorem isFiring_iff :
    t.isFiring id = true ↔ ∃ record, t.record? id = some record ∧ record.status = .firing := by
  simp [isFiring, Record.isFiring, Option.any_eq_true]

/-- A timer that is firing is armed or firing. -/
theorem isArmed_of_isFiring (h : t.isFiring id = true) :
    (t.record? id).any Record.isArmed = true := by
  obtain ⟨record, hrecord, hstatus⟩ := isFiring_iff.mp h
  simp [hrecord, Record.isArmed, hstatus]

/-- The record of a sound timer owes the connection a hold exactly while a firing of the timer is
under way that has been cancelled. -/
theorem Sound.releasePending_iff (h : t.Sound current running) (id : Nat) :
    t.releasePending id = true ↔ running = some id ∧ t.isCancelled id = true := by
  unfold releasePending isCancelled
  cases hrecord : t.record? id with
  | none => simp
  | some record =>
      have hfits := h.fits id record hrecord
      unfold Record.Fits at hfits
      cases hstatus : record.status <;> simp_all

/-- The timer that says that it is firing is the one that is running its target. -/
theorem Sound.running_of_isFiring (h : t.Sound current running) (hfiring : t.isFiring id = true) :
    running = some id := by
  obtain ⟨record, hrecord, hstatus⟩ := isFiring_iff.mp hfiring
  have hfits := h.fits id record hrecord
  unfold Record.Fits at hfits
  rw [hstatus] at hfits
  exact hfits.2.1

/-- A record says that its timer is firing exactly while a firing of the timer is under way that has
not been cancelled. -/
theorem Sound.isFiring_iff (h : t.Sound current running) (id : Nat) :
    t.isFiring id = true ↔ running = some id ∧ t.isCancelled id = false := by
  constructor
  · intro hfiring
    refine ⟨h.running_of_isFiring hfiring, ?_⟩
    obtain ⟨record, hrecord, hstatus⟩ := Table.isFiring_iff.mp hfiring
    simp [isCancelled, hrecord, hstatus]
  · rintro ⟨rfl, hnot⟩
    obtain ⟨-, record, hrecord, ⟨hfiring, -⟩ | ⟨hcancelled, -⟩⟩ := h.of_running
    · exact Table.isFiring_iff.mpr ⟨record, hrecord, hfiring⟩
    · simp [isCancelled, hrecord, hcancelled] at hnot

/-- A timer with a task is armed or firing, unless it has been cancelled. -/
theorem Sound.isArmed_of_mem (h : t.Sound current running) (hmem : id ∈ t.taskIds)
    (hnot : t.isCancelled id = false) : (t.record? id).any Record.isArmed = true := by
  have hrecord := List.getElem?_eq_getElem (h.task_lt id hmem)
  have hfits := h.fits id _ hrecord
  unfold Record.Fits at hfits
  unfold isCancelled at hnot
  rw [show t.record? id = some _ from hrecord, Option.any_some] at hnot ⊢
  split at hfits
  · exact absurd hmem hfits.2.1
  · rename_i hstatus
    simp [Record.isArmed, hstatus]
  · rename_i hstatus
    simp [Record.isArmed, hstatus]
  · rename_i hstatus
    simp [hstatus] at hnot

/-- The timer that is armed or firing is that of the connection. -/
theorem Sound.current_of_isArmed (h : t.Sound current running)
    (harmed : (t.record? id).any Record.isArmed = true) : current = some id := by
  obtain ⟨record, hrecord, hstatus⟩ := (Option.any_eq_true _ _).mp harmed
  have hfits := h.fits id record hrecord
  unfold Record.Fits at hfits
  cases hcases : record.status with
  | idle => simp [Record.isArmed, hcases] at hstatus
  | armed =>
      rw [hcases] at hfits
      exact hfits.1
  | firing =>
      rw [hcases] at hfits
      exact hfits.1
  | cancelled => simp [Record.isArmed, hcases] at hstatus

/-- What a table keeps as time goes by: a cancelled timer stays cancelled, and a task that has ended
does not come back. -/
structure Later (t t' : Table) : Prop where
  nextId_le : t.nextId ≤ t'.nextId
  cancelled : ∀ id, t.isCancelled id = true → t'.isCancelled id = true
  ended : ∀ id, id < t.nextId → id ∈ t'.taskIds → id ∈ t.taskIds

/-- Nothing changes. -/
theorem Later.refl (t : Table) : t.Later t := ⟨Nat.le_refl _, fun _ h => h, fun _ _ h => h⟩

/-- What is later than something later is later. -/
theorem Later.trans {t' t'' : Table} (h : t.Later t') (h' : t'.Later t'') : t.Later t'' where
  nextId_le := Nat.le_trans h.nextId_le h'.nextId_le
  cancelled id hid := h'.cancelled id (h.cancelled id hid)
  ended id hlt hmem := h.ended id hlt (h'.ended id (Nat.lt_of_lt_of_le hlt h.nextId_le) hmem)

/-- A table is later after one of its records has changed, if a cancelled one stays so. -/
theorem later_update {f : Record → Record}
    (hf : ∀ record, t.record? id = some record → record.status = .cancelled →
      (f record).status = .cancelled) : t.Later (t.update id f) where
  nextId_le := Nat.le_of_eq (List.length_modify _ _ _).symm
  cancelled other hother := by
    obtain ⟨record, hrecord, hcancelled⟩ := isCancelled_iff.mp hother
    refine isCancelled_iff.mpr ?_
    by_cases hsame : other = id
    · subst hsame
      rw [record?_update_self, hrecord]
      exact ⟨_, rfl, hf record hrecord hcancelled⟩
    · rw [t.record?_update_of_ne id hsame]
      exact ⟨record, hrecord, hcancelled⟩
  ended _ _ hmem := hmem

/-- A table is later after a timer has been armed. -/
theorem later_arm (t : Table) (sleep : Sleep) (target : Target) : t.Later (t.arm sleep target) where
  nextId_le := by
    rw [nextId_arm]
    exact Nat.le_succ _
  cancelled other hother := by
    obtain ⟨record, hrecord, hcancelled⟩ := isCancelled_iff.mp hother
    refine isCancelled_iff.mpr ⟨record, ?_, hcancelled⟩
    rw [record?_arm, if_neg (Nat.ne_of_lt (lt_nextId hrecord))]
    exact hrecord
  ended other hlt hmem := by
    rw [taskIds_arm] at hmem
    rcases List.mem_append.mp hmem with hold | hnew
    · exact hold
    · exact absurd (List.mem_singleton.mp hnew) (Nat.ne_of_lt hlt)

/-- A table is later after a task has ended. -/
theorem later_endTask (t : Table) (id : Nat) : t.Later (t.endTask id) := by
  have hletGo : t.Later (t.update id Record.letGo) := later_update fun _ _ h => h
  exact ⟨hletGo.nextId_le, hletGo.cancelled, fun _ _ hmem => (mem_taskIds_endTask.mp hmem).1⟩

end Table

end LowOrbit.Timer
