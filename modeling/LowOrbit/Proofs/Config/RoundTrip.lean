import LowOrbit.Proofs.Config.Members

/-!
# Configurations survive being written and read

A configuration that is written and read again is the same but for its lengths of time, which are
rounded to what the text has room for (`Config.read?_render`). Every member that is written is a
text of the grammar whose value its key takes, and together they leave nothing of the defaults.
-/

namespace LowOrbit

namespace Nanos

/-- `RoundsTo unit d r` says that `r` is the whole number of units nearest to `d`, and the larger
one if `d` lies halfway between two. -/
def RoundsTo (unit d r : Nat) : Prop := unit ∣ r ∧ r ≤ d + unit / 2 ∧ d < r + unit / 2

/-- The nearest number of units is what a length of time rounds to. -/
theorem roundsTo_nearest {unit : Nat} (hunit : 0 < unit) (heven : 2 ∣ unit) (d : Nat) :
    RoundsTo unit d (nearest unit d * unit) := by
  have hdiv := Nat.div_add_mod (d + unit / 2) unit
  have hmod := Nat.mod_lt (d + unit / 2) hunit
  refine ⟨Nat.dvd_mul_left unit _, ?_⟩
  rw [nearest, Nat.mul_comm]
  omega

/-- Whole units are rounded to themselves. -/
theorem nearest_mul {unit : Nat} (hunit : 0 < unit) (n : Nat) : nearest unit (n * unit) = n := by
  rw [nearest, Nat.mul_comm, Nat.mul_add_div hunit,
    Nat.div_eq_of_lt (Nat.div_lt_self hunit (by decide)), Nat.add_zero]

/-- A length of time is rounded to itself exactly if it is a whole number of units. -/
theorem nearest_mul_eq_iff {unit : Nat} (hunit : 0 < unit) (d : Nat) :
    nearest unit d * unit = d ↔ unit ∣ d := by
  constructor
  · intro h
    exact ⟨nearest unit d, by rw [Nat.mul_comm, h]⟩
  · rintro ⟨n, rfl⟩
    rw [Nat.mul_comm unit n, nearest_mul hunit]

end Nanos

namespace Config

open Json (IsKey IsMembers IsText IsValue blank_nil isKey_quoted named)
open Nanos (RoundsTo nearest)

/-- The configuration with its lengths of time rounded to what its text has room for. -/
def rounded (c : Config) : Config :=
  { c with
    startOffset := Nanos.millis (nearest 1000000 c.startOffset)
    endOffset := Nanos.millis (nearest 1000000 c.endOffset)
    hystartAckDelta := Nanos.micros (nearest 1000 c.hystartAckDelta) }

/-- The parameters of the configuration are numbers of the widths that they have, and its lengths of
time round to numbers of 64 binary digits. -/
structure Fits (c : Config) : Prop where
  startOffset_le : nearest 1000000 c.startOffset ≤ maxCount64
  endOffset_le : nearest 1000000 c.endOffset ≤ maxCount64
  beta_le : c.beta ≤ maxCount
  initialSsthresh_le : ∀ threshold ∈ c.initialSsthresh, threshold ≤ maxCount
  bicScale_le : c.bicScale ≤ maxCount
  hystartDetect_le : c.hystartDetect ≤ 255
  hystartLowWindow_le : c.hystartLowWindow ≤ maxCount
  hystartAckDelta_le : nearest 1000 c.hystartAckDelta ≤ maxCount64

/-! ## Members as text -/

/-- `Writes field member` says that `field` is the key and the text of the value of `member`. -/
def Writes (field : String × String) (member : String × Json) : Prop :=
  field.1 = member.1 ∧ IsValue field.2.toList member.2

/-- No key of a configuration needs escapes. -/
theorem plain_of_mem_keys : ∀ key ∈ keys, key.toList.all Json.isPlain = true := by
  decide

/-- Members that are written one after the other, with commas between them, are a text of the
grammar. The induction is on the members. -/
theorem isMembers_intercalate {fields : List (String × String)} {members : List (String × Json)}
    (h : List.Forall₂ Writes fields members) (hkeys : ∀ field ∈ fields, field.1 ∈ keys)
    (hne : fields ≠ []) : IsMembers ([','].intercalate (fields.map fieldText)) members := by
  have hmember : ∀ field : String × String,
      fieldText field = '"' :: field.1.toList ++ ['"', ':'] ++ [] ++ field.2.toList ++ [] := by
    intro field
    simp [fieldText]
  induction h with
  | nil => exact absurd rfl hne
  | @cons field member fields members hfield hrest ih =>
      obtain ⟨key, v⟩ := member
      obtain ⟨rfl, hv⟩ := hfield
      have hkey : IsKey _ field.1 :=
        isKey_quoted (plain_of_mem_keys field.1 (hkeys field List.mem_cons_self))
      cases hrest with
      | nil =>
          rw [List.map_singleton, List.intercalate_singleton, hmember]
          exact .last hkey blank_nil hv blank_nil
      | cons _ _ =>
          have hmore := ih (fun other h => hkeys other (List.mem_cons_of_mem _ h)) (by simp)
          have hmembers := IsMembers.cons hkey blank_nil hv blank_nil hmore
          rw [List.map_cons, List.map_cons, List.intercalate_cons_cons, hmember]
          simpa using hmembers

/-- The members of a configuration as the values that their texts denote. -/
def values (c : Config) : List (String × Json) :=
  [("cc_algorithm", .string c.algorithm.name),
   ("debug", .bool c.debug),
   ("handover", .bool c.handover),
   ("handover_timer_only", .bool c.timerOnly),
   ("handover_start_ms", .integer false (lengthCount 1000000 c.startOffset)),
   ("handover_end_ms", .integer false (lengthCount 1000000 c.endOffset)),
   ("fast_convergence", .bool c.fastConvergence),
   ("beta", .integer false c.beta),
   ("initial_ssthresh", match c.initialSsthresh with
     | some threshold => .integer false threshold
     | none => .null),
   ("bic_scale", .integer false c.bicScale),
   ("tcp_friendliness", .bool c.tcpFriendliness),
   ("hystart", .bool c.hystart),
   ("hystart_detect", .integer false c.hystartDetect),
   ("hystart_low_window", .integer false c.hystartLowWindow),
   ("hystart_ack_delta_us", .integer false (lengthCount 1000 c.hystartAckDelta))]

/-- A truth value is written as such. -/
theorem isValue_bool (b : Bool) : IsValue (toString b).toList (.bool b) := by
  cases b with
  | true => exact .yes
  | false => exact .no

/-- A number is written as such. -/
theorem isValue_nat (n : Nat) : IsValue (toString n).toList (.integer false n) := by
  simpa [Json.sign] using IsValue.integer false n

/-- The name of an algorithm is written as such. -/
theorem isValue_name (a : Algorithm) :
    IsValue ("\"" ++ a.name ++ "\"").toList (.string a.name) := by
  have hplain : a.name.toList.all Json.isPlain = true := by
    cases a <;> rfl
  simpa using IsValue.string a.name (Json.spells_self hplain)

/-- The members of a configuration are written as their values. -/
theorem writes_fields (c : Config) : List.Forall₂ Writes c.fields c.values := by
  have hnull : IsValue "null".toList .null := .null
  unfold fields values
  cases c.initialSsthresh <;>
    simp only [List.forall₂_cons, List.Forall₂.nil, Writes, isValue_bool, isValue_nat,
      isValue_name, hnull, and_self]

/-- The text of a configuration is one of the object with its members. -/
theorem isText_render (c : Config) : IsText c.render (named c.values) := by
  have hkeys : ∀ field ∈ c.fields, field.1 ∈ keys := by
    intro field hfield
    rw [← map_fst_fields c]
    exact List.mem_map_of_mem hfield
  have hmembers := isMembers_intercalate c.writes_fields hkeys (by simp [fields])
  exact ⟨[], c.render, [], blank_nil, .object hmembers, blank_nil, by simp⟩

/-! ## Reading what was written -/

variable {c : Config}

/-- A length of time that rounds to a number of 64 binary digits is written as that number. -/
theorem lengthCount_of_le {unit d : Nat} (h : nearest unit d ≤ maxCount64) :
    lengthCount unit d = nearest unit d :=
  Nat.mod_eq_of_lt (Nat.lt_succ_of_le h)

/-- A length of time that rounds to a number of 64 binary digits fits the text. -/
theorem div_le_of_nearest_le {unit d : Nat} (h : nearest unit d ≤ maxCount64) :
    d / unit ≤ maxCount64 :=
  Nat.le_trans (Nat.div_le_div_right (Nat.le_add_right d (unit / 2))) h

/-- A configuration that fits can be written. -/
theorem Fits.render? (h : c.Fits) : c.render? = some c.render := by
  have hfits : c.fitsText = true := by
    simp [fitsText, div_le_of_nearest_le h.startOffset_le, div_le_of_nearest_le h.endOffset_le,
      div_le_of_nearest_le h.hystartAckDelta_le]
  rw [Config.render?, if_pos hfits]

/-- The members of a configuration that fits override whatever there was before. -/
theorem Fits.overrides_values (h : c.Fits) (base : Config) :
    Overrides base c.values c.rounded := by
  have hthreshold : Sets "initial_ssthresh"
      (match c.initialSsthresh with
        | some threshold => .integer false threshold
        | none => .null)
      fun d => { d with initialSsthresh := c.initialSsthresh } := by
    cases hthreshold : c.initialSsthresh with
    | none => exact .noInitialSsthresh
    | some threshold => exact .initialSsthresh (h.initialSsthresh_le threshold hthreshold)
  unfold values
  rw [lengthCount_of_le h.startOffset_le, lengthCount_of_le h.endOffset_le,
    lengthCount_of_le h.hystartAckDelta_le]
  refine .known (.algorithm c.algorithm) <| .known (.debug c.debug) ?_
  refine .known (.handover c.handover) <| .known (.timerOnly c.timerOnly) ?_
  refine .known (.startOffset h.startOffset_le) <| .known (.endOffset h.endOffset_le) ?_
  refine .known (.fastConvergence c.fastConvergence) <| .known (.beta h.beta_le) ?_
  refine .known hthreshold <| .known (.bicScale h.bicScale_le) ?_
  refine .known (.tcpFriendliness c.tcpFriendliness) <| .known (.hystart c.hystart) ?_
  refine .known (.hystartDetect h.hystartDetect_le) ?_
  refine .known (.hystartLowWindow h.hystartLowWindow_le) ?_
  exact .known (.hystartAckDelta h.hystartAckDelta_le) (.nil c.rounded)

/-- No known key is written twice. -/
theorem unrepeated_values (c : Config) : Unrepeated c.values := by
  have hkeys : c.values.map Prod.fst = keys := rfl
  have hall : known c.values = c.values := by
    refine List.filter_eq_self.mpr fun m hm => decide_eq_true ?_
    rw [← hkeys]
    exact List.mem_map_of_mem hm
  rw [Unrepeated, hall, hkeys]
  decide

/-- A rounded length of time is written as the same number. -/
theorem lengthCount_nearest {unit : Nat} (hunit : 0 < unit) (d : Nat) :
    lengthCount unit (nearest unit d * unit) = lengthCount unit d := by
  rw [lengthCount, Nanos.nearest_mul hunit, lengthCount]

/-- A rounded configuration has the same text. -/
theorem render_rounded (c : Config) : c.rounded.render = c.render := by
  have hfields : c.rounded.fields = c.fields := by
    unfold fields rounded Nanos.millis Nanos.micros
    rw [lengthCount_nearest (by decide), lengthCount_nearest (by decide),
      lengthCount_nearest (by decide)]
  rw [render, render, hfields]

/-- A rounded configuration fits. -/
theorem Fits.rounded (h : c.Fits) : c.rounded.Fits := by
  have hrounded : ∀ {unit d : Nat}, 0 < unit → nearest unit d ≤ maxCount64 →
      nearest unit (nearest unit d * unit) ≤ maxCount64 := by
    intro unit d hunit hle
    rwa [Nanos.nearest_mul hunit]
  unfold Config.rounded Nanos.millis Nanos.micros
  exact {
    startOffset_le := hrounded (by decide) h.startOffset_le
    endOffset_le := hrounded (by decide) h.endOffset_le
    beta_le := h.beta_le
    initialSsthresh_le := h.initialSsthresh_le
    bicScale_le := h.bicScale_le
    hystartDetect_le := h.hystartDetect_le
    hystartLowWindow_le := h.hystartLowWindow_le
    hystartAckDelta_le := hrounded (by decide) h.hystartAckDelta_le }

/-- Rounding leaves exactly those configurations alone whose lengths of time are whole units. -/
theorem rounded_eq_self_iff (c : Config) :
    c.rounded = c ↔
      1000000 ∣ c.startOffset ∧ 1000000 ∣ c.endOffset ∧ 1000 ∣ c.hystartAckDelta := by
  rw [← Nanos.nearest_mul_eq_iff (by decide), ← Nanos.nearest_mul_eq_iff (by decide),
    ← Nanos.nearest_mul_eq_iff (by decide)]
  constructor
  · intro h
    exact ⟨congrArg Config.startOffset h, congrArg Config.endOffset h,
      congrArg Config.hystartAckDelta h⟩
  · rintro ⟨hstart, hend, hdelta⟩
    unfold rounded Nanos.millis Nanos.micros
    rw [hstart, hend, hdelta]

/-- Take any configuration of which the lengths of time round to numbers that can be written. It is
written as a text, and what is read from this text is the configuration itself with its lengths of
time rounded: the offsets to the nearest millisecond and the distance of a train to the nearest
microsecond, with halves going up. So the same configuration is read exactly if these are whole
milliseconds and microseconds. What was read is written as the same text again. -/
theorem read?_render (h : c.Fits) :
    ∃ text, c.render? = some text ∧ read? text = some c.rounded ∧
      RoundsTo 1000000 c.startOffset c.rounded.startOffset ∧
      RoundsTo 1000000 c.endOffset c.rounded.endOffset ∧
      RoundsTo 1000 c.hystartAckDelta c.rounded.hystartAckDelta ∧
      (c.rounded = c ↔
        1000000 ∣ c.startOffset ∧ 1000000 ∣ c.endOffset ∧ 1000 ∣ c.hystartAckDelta) ∧
      c.rounded.render? = some text := by
  have hread : read? c.render = some c.rounded := by
    rw [read?_of_isText c.isText_render]
    exact override?_eq_some_iff.mpr ⟨c.unrepeated_values, h.overrides_values {}⟩
  refine ⟨c.render, h.render?, hread, ?_, ?_, ?_, c.rounded_eq_self_iff, ?_⟩
  · exact Nanos.roundsTo_nearest (by decide) (by decide) c.startOffset
  · exact Nanos.roundsTo_nearest (by decide) (by decide) c.endOffset
  · exact Nanos.roundsTo_nearest (by decide) (by decide) c.hystartAckDelta
  · rw [h.rounded.render?, render_rounded]

/-- An offset of one and a half milliseconds is read as two, and nothing else changes. -/
theorem read?_render_half :
    let c : Config := { startOffset := 1500000 }
    ∃ text, c.render? = some text ∧ read? text = some { c with startOffset := 2000000 } := by
  intro c
  have hfits : c.Fits :=
    ⟨by decide, by decide, by decide, by simp [c], by decide, by decide, by decide, by decide⟩
  have hrounded : c.rounded = { c with startOffset := 2000000 } := by decide
  obtain ⟨text, hrender, hread, -⟩ := read?_render hfits
  exact ⟨text, hrender, hrounded ▸ hread⟩

end Config

end LowOrbit
