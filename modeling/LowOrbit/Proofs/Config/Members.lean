import LowOrbit.Config.Text
import LowOrbit.Proofs.Json.Reading

/-!
# What a configuration text means

The members of a text override the defaults one at a time: a member with a known key makes the
change that `Sets` gives, and a member with an unknown key makes none. A text is read exactly if no
known key occurs twice and every known key has a value that it takes (`Config.read?_of_members`), so
that neither the order of the members nor the unknown ones matter.
-/

namespace LowOrbit

/-! ## Members of an object -/

namespace Json

variable {α : Type} {key other : String} {v : Json} {members : List (String × Json)}

/-- A key that no member has selects no member. -/
theorem filter_of_notMem (h : key ∉ members.map Prod.fst) : members.filter (·.1 = key) = [] := by
  rw [List.filter_eq_nil_iff]
  intro m hm hkey
  exact h (List.mem_map.mpr ⟨m, hm, by simpa using hkey⟩)

/-- A member does not count for another key. -/
theorem field_cons_of_ne (h : other ≠ key) (read : Json → Option α) (default : α) :
    field ((other, v) :: members) key read default = field members key read default := by
  simp [field, h]

/-- A member that is not there counts as the default. -/
theorem field_of_notMem (h : key ∉ members.map Prod.fst) (read : Json → Option α) (default : α) :
    field members key read default = some default := by
  simp [field, filter_of_notMem h]

/-- A member that is there once is read. -/
theorem field_cons_self (h : key ∉ members.map Prod.fst) (read : Json → Option α) (default : α) :
    field ((key, v) :: members) key read default = read v := by
  simp [field, filter_of_notMem h]

/-- A member that is there again is refused. -/
theorem field_cons_of_mem (h : key ∈ members.map Prod.fst) (read : Json → Option α) (default : α) :
    field ((key, v) :: members) key read default = none := by
  obtain ⟨⟨other, w⟩, hmem, rfl⟩ := List.mem_map.mp h
  have hagain : (other, w) ∈ members.filter (·.1 = other) := by simp [hmem]
  unfold field
  rw [List.filter_cons_of_pos (by simp)]
  cases hfound : members.filter (·.1 = other) with
  | nil => simp [hfound] at hagain
  | cons => rfl

/-- Only truth values are read as such. -/
theorem eq_bool_of_bool? {on : Bool} (h : v.bool? = some on) : v = .bool on := by
  cases v with
  | bool b => exact congrArg bool (Option.some.inj h)
  | _ => cases h

/-- An integer without sign is read if it is in range. -/
theorem nat?_of_le {limit n : Nat} (h : n ≤ limit) : (integer false n).nat? limit = some n :=
  if_pos h

/-- Only integers without sign that are in range are read as numbers. -/
theorem eq_integer_of_nat? {limit n : Nat} (h : v.nat? limit = some n) :
    v = .integer false n ∧ n ≤ limit := by
  unfold nat? at h
  split at h
  · split at h
    · rename_i hle
      cases h
      exact ⟨rfl, hle⟩
    · cases h
  · cases h

/-- Only null and numbers are read as numbers that may be null. -/
theorem null_or_nat?_of_optionalNat? {limit : Nat} {x : Option Nat}
    (h : v.optionalNat? limit = some x) : v = .null ∨ ∃ n, v.nat? limit = some n := by
  unfold optionalNat? at h
  split at h
  · exact .inl rfl
  · obtain ⟨n, hn, -⟩ := Option.map_eq_some_iff.mp h
    exact .inr ⟨n, hn⟩

/-- What a key stands for depends on its members only, in any order. -/
theorem field_congr {others : List (String × Json)}
    (h : (members.filter (·.1 = key)).Perm (others.filter (·.1 = key))) (read : Json → Option α)
    (default : α) : field members key read default = field others key read default := by
  unfold field
  generalize members.filter (·.1 = key) = found at h
  generalize others.filter (·.1 = key) = found' at h
  have hlength := h.length_eq
  match found, found' with
  | [], [] => rfl
  | [m], [m'] => rw [List.perm_singleton.mp h]
  | _ :: _ :: _, _ :: _ :: _ => rfl
  | [], _ :: _ => simp at hlength
  | _ :: _, [] => simp at hlength
  | [_], _ :: _ :: _ => simp at hlength
  | _ :: _ :: _, [_] => simp at hlength

end Json

namespace Config

open Json (Blank IsKey IsMembers IsText IsValue blank_nil isKey_quoted named)

/-! ## Known members -/

/-- `Sets key v f` says that `v` is of the type and in the range of the known key `key`, and that
`f` is the change that a member with this key and value makes to a configuration. -/
inductive Sets : String → Json → (Config → Config) → Prop where
  | algorithm (a : Algorithm) :
      Sets "cc_algorithm" (.string a.name) fun c => { c with algorithm := a }
  | variant (a : Algorithm) :
      Sets "cc_algorithm" (named [(a.name, .null)]) fun c => { c with algorithm := a }
  | debug (on) : Sets "debug" (.bool on) fun c => { c with debug := on }
  | handover (on) : Sets "handover" (.bool on) fun c => { c with handover := on }
  | timerOnly (on) : Sets "handover_timer_only" (.bool on) fun c => { c with timerOnly := on }
  | startOffset {n} : n ≤ maxCount64 →
      Sets "handover_start_ms" (.integer false n) fun c =>
        { c with startOffset := Nanos.millis n }
  | endOffset {n} : n ≤ maxCount64 →
      Sets "handover_end_ms" (.integer false n) fun c => { c with endOffset := Nanos.millis n }
  | fastConvergence (on) :
      Sets "fast_convergence" (.bool on) fun c => { c with fastConvergence := on }
  | beta {n} : n ≤ maxCount → Sets "beta" (.integer false n) fun c => { c with beta := n }
  | noInitialSsthresh :
      Sets "initial_ssthresh" .null fun c => { c with initialSsthresh := none }
  | initialSsthresh {n} : n ≤ maxCount →
      Sets "initial_ssthresh" (.integer false n) fun c => { c with initialSsthresh := some n }
  | bicScale {n} : n ≤ maxCount →
      Sets "bic_scale" (.integer false n) fun c => { c with bicScale := n }
  | tcpFriendliness (on) :
      Sets "tcp_friendliness" (.bool on) fun c => { c with tcpFriendliness := on }
  | hystart (on) : Sets "hystart" (.bool on) fun c => { c with hystart := on }
  | hystartDetect {n} : n ≤ 255 →
      Sets "hystart_detect" (.integer false n) fun c => { c with hystartDetect := n }
  | hystartLowWindow {n} : n ≤ maxCount →
      Sets "hystart_low_window" (.integer false n) fun c => { c with hystartLowWindow := n }
  | hystartAckDelta {n} : n ≤ maxCount64 →
      Sets "hystart_ack_delta_us" (.integer false n) fun c =>
        { c with hystartAckDelta := Nanos.micros n }

variable {base : Config} {key : String} {v : Json} {f : Config → Config}
  {members : List (String × Json)}

/-- Only known keys set anything. -/
theorem Sets.mem_keys (h : Sets key v f) : key ∈ keys := by
  cases h <;> simp [keys]

/-- An algorithm is read from its name. -/
theorem algorithm?_name (a : Algorithm) : algorithm? (.string a.name) = some a := by
  simp [algorithm?, Json.name?, Algorithm.ofName_name, Except.toOption]

/-- An algorithm is read from an object with its name as the only key. -/
theorem algorithm?_variant (a : Algorithm) : algorithm? (named [(a.name, .null)]) = some a := by
  simp [algorithm?, named, Json.name?, Algorithm.ofName_name, Except.toOption]

/-- Only names are read as algorithms. -/
theorem name_of_algorithm? {a : Algorithm} (h : algorithm? v = some a) :
    v = .string a.name ∨ v = named [(a.name, .null)] := by
  have hname : ∀ name : String, (Algorithm.ofName name).toOption = some a → name = a.name := by
    intro name hfound
    unfold Algorithm.ofName at hfound
    split at hfound
    · rename_i hreno
      cases hfound
      exact hreno
    · split at hfound
      · rename_i hcubic
        cases hfound
        exact hcubic
      · cases hfound
  obtain ⟨name, hv, hfound⟩ := Option.bind_eq_some_iff.mp h
  rw [← hname name hfound]
  unfold Json.name? at hv
  split at hv
  · exact .inl (congrArg Json.string hv)
  · rw [hv]
    exact .inr rfl
  · cases hv

/-- Members with unknown keys change nothing. -/
theorem override?_cons_of_notMem (h : key ∉ keys) :
    override? base ((key, v) :: members) = override? base members := by
  have hfield : ∀ {α : Type} (known : String), known ∈ keys → ∀ (read : Json → Option α)
      (default : α), Json.field ((key, v) :: members) known read default =
        Json.field members known read default := by
    intro α known hknown read default
    apply Json.field_cons_of_ne
    rintro rfl
    exact h hknown
  simp (disch := decide) only [override?, hfield]

/-- A member with a known key makes its change, if the key does not return. -/
theorem override?_cons_of_sets (h : Sets key v f) (hfresh : key ∉ members.map Prod.fst) :
    override? base ((key, v) :: members) = override? (f base) members := by
  cases h <;>
    simp only [override?, Json.field_cons_self hfresh, Json.field_of_notMem hfresh,
      Json.field_cons_of_ne, algorithm?_name, algorithm?_variant, Json.bool?, Json.nat?_of_le,
      Json.optionalNat?, Nanos.millis, Nanos.micros, Option.map_some, ne_eq, String.reduceEq,
      not_false_eq_true, *]

/-- `Accepts key read` says that `read` takes values of the known key `key` only. -/
def Accepts {α : Type} (key : String) (read : Json → Option α) : Prop :=
  ∀ v x, read v = some x → ∃ f, Sets key v f

/-- A reader of truth values accepts them for a key that takes truth values. -/
theorem accepts_bool (h : ∀ on, ∃ f, Sets key (.bool on) f) : Accepts key Json.bool? := by
  intro v on hv
  rw [Json.eq_bool_of_bool? hv]
  exact h on

/-- A reader of numbers accepts them for a key that takes numbers up to its limit. -/
theorem accepts_nat {limit : Nat} (h : ∀ n ≤ limit, ∃ f, Sets key (.integer false n) f) :
    Accepts key (Json.nat? limit) := by
  intro v n hv
  obtain ⟨rfl, hn⟩ := Json.eq_integer_of_nat? hv
  exact h n hn

/-- A reader of lengths of time accepts numbers for a key that takes numbers up to its limit. -/
theorem accepts_length {limit unit : Nat} (h : ∀ n ≤ limit, ∃ f, Sets key (.integer false n) f) :
    Accepts key fun v => (v.nat? limit).map (· * unit) := by
  intro v d hv
  obtain ⟨n, hn, -⟩ := Option.map_eq_some_iff.mp hv
  exact accepts_nat h v n hn

/-- If a configuration is overridden, then every known key has been read by a reader that takes
values of this key only. -/
theorem field_of_override? {c : Config} (h : override? base members = some c) (hkey : key ∈ keys) :
    ∃ (α : Type) (read : Json → Option α) (default x : α),
      Accepts key read ∧ Json.field members key read default = some x := by
  obtain ⟨_, halgorithm, h⟩ := Option.bind_eq_some_iff.mp h
  obtain ⟨_, hdebug, h⟩ := Option.bind_eq_some_iff.mp h
  obtain ⟨_, hhandover, h⟩ := Option.bind_eq_some_iff.mp h
  obtain ⟨_, htimerOnly, h⟩ := Option.bind_eq_some_iff.mp h
  obtain ⟨_, hstartOffset, h⟩ := Option.bind_eq_some_iff.mp h
  obtain ⟨_, hendOffset, h⟩ := Option.bind_eq_some_iff.mp h
  obtain ⟨_, hfastConvergence, h⟩ := Option.bind_eq_some_iff.mp h
  obtain ⟨_, hbeta, h⟩ := Option.bind_eq_some_iff.mp h
  obtain ⟨_, hinitialSsthresh, h⟩ := Option.bind_eq_some_iff.mp h
  obtain ⟨_, hbicScale, h⟩ := Option.bind_eq_some_iff.mp h
  obtain ⟨_, htcpFriendliness, h⟩ := Option.bind_eq_some_iff.mp h
  obtain ⟨_, hhystart, h⟩ := Option.bind_eq_some_iff.mp h
  obtain ⟨_, hhystartDetect, h⟩ := Option.bind_eq_some_iff.mp h
  obtain ⟨_, hhystartLowWindow, h⟩ := Option.bind_eq_some_iff.mp h
  obtain ⟨_, hhystartAckDelta, -⟩ := Option.bind_eq_some_iff.mp h
  have hname : Accepts "cc_algorithm" algorithm? := by
    intro v a hv
    rcases name_of_algorithm? hv with rfl | rfl
    · exact ⟨_, .algorithm a⟩
    · exact ⟨_, .variant a⟩
  have hthreshold : Accepts "initial_ssthresh" (Json.optionalNat? maxCount) := by
    intro v x hv
    rcases Json.null_or_nat?_of_optionalNat? hv with rfl | ⟨n, hn⟩
    · exact ⟨_, .noInitialSsthresh⟩
    · exact accepts_nat (fun n hn => ⟨_, .initialSsthresh hn⟩) v n hn
  simp only [keys, List.mem_cons, List.not_mem_nil, or_false] at hkey
  rcases hkey with rfl | rfl | rfl | rfl | rfl | rfl | rfl | rfl | rfl | rfl | rfl | rfl | rfl |
    rfl | rfl
  · exact ⟨_, _, _, _, hname, halgorithm⟩
  · exact ⟨_, _, _, _, accepts_bool fun on => ⟨_, .debug on⟩, hdebug⟩
  · exact ⟨_, _, _, _, accepts_bool fun on => ⟨_, .handover on⟩, hhandover⟩
  · exact ⟨_, _, _, _, accepts_bool fun on => ⟨_, .timerOnly on⟩, htimerOnly⟩
  · exact ⟨_, _, _, _, accepts_length fun n hn => ⟨_, .startOffset hn⟩, hstartOffset⟩
  · exact ⟨_, _, _, _, accepts_length fun n hn => ⟨_, .endOffset hn⟩, hendOffset⟩
  · exact ⟨_, _, _, _, accepts_bool fun on => ⟨_, .fastConvergence on⟩, hfastConvergence⟩
  · exact ⟨_, _, _, _, accepts_nat fun n hn => ⟨_, .beta hn⟩, hbeta⟩
  · exact ⟨_, _, _, _, hthreshold, hinitialSsthresh⟩
  · exact ⟨_, _, _, _, accepts_nat fun n hn => ⟨_, .bicScale hn⟩, hbicScale⟩
  · exact ⟨_, _, _, _, accepts_bool fun on => ⟨_, .tcpFriendliness on⟩, htcpFriendliness⟩
  · exact ⟨_, _, _, _, accepts_bool fun on => ⟨_, .hystart on⟩, hhystart⟩
  · exact ⟨_, _, _, _, accepts_nat fun n hn => ⟨_, .hystartDetect hn⟩, hhystartDetect⟩
  · exact ⟨_, _, _, _, accepts_nat fun n hn => ⟨_, .hystartLowWindow hn⟩, hhystartLowWindow⟩
  · exact ⟨_, _, _, _, accepts_length fun n hn => ⟨_, .hystartAckDelta hn⟩, hhystartAckDelta⟩

/-- If a configuration is overridden, then a known key does not return and has a value that it
takes. -/
theorem sets_of_override? {c : Config} (h : override? base ((key, v) :: members) = some c)
    (hkey : key ∈ keys) : key ∉ members.map Prod.fst ∧ ∃ f, Sets key v f := by
  obtain ⟨α, read, default, x, haccepts, hx⟩ := field_of_override? h hkey
  by_cases hagain : key ∈ members.map Prod.fst
  · rw [Json.field_cons_of_mem hagain] at hx
    cases hx
  · rw [Json.field_cons_self hagain] at hx
    exact ⟨hagain, haccepts v x hx⟩

/-! ## Texts -/

/-- `Overrides base members c` says that `c` is `base` with the changes that the known members among
`members` make. -/
inductive Overrides : Config → List (String × Json) → Config → Prop where
  | nil (c) : Overrides c [] c
  | unknown {base key v members c} :
      key ∉ keys → Overrides base members c → Overrides base ((key, v) :: members) c
  | known {base key v f members c} :
      Sets key v f → Overrides (f base) members c → Overrides base ((key, v) :: members) c

/-- The members with known keys. -/
def known (members : List (String × Json)) : List (String × Json) := members.filter (·.1 ∈ keys)

/-- No known key occurs twice. -/
def Unrepeated (members : List (String × Json)) : Prop := ((known members).map Prod.fst).Nodup

/-- A member with an unknown key is not among the known ones. -/
theorem known_cons_of_notMem (h : key ∉ keys) : known ((key, v) :: members) = known members := by
  simp [known, h]

/-- A member with a known key is among the known ones. -/
theorem known_cons_of_mem (h : key ∈ keys) :
    known ((key, v) :: members) = (key, v) :: known members := by
  simp [known, h]

/-- A known key occurs among the known members if it occurs at all. -/
theorem mem_map_known_iff (h : key ∈ keys) :
    key ∈ (known members).map Prod.fst ↔ key ∈ members.map Prod.fst := by
  simp only [known, List.mem_map, List.mem_filter, decide_eq_true_eq]
  constructor
  · rintro ⟨m, ⟨hm, -⟩, rfl⟩
    exact ⟨m, hm, rfl⟩
  · rintro ⟨m, hm, rfl⟩
    exact ⟨m, ⟨hm, h⟩, rfl⟩

/-- A configuration is overridden exactly if no known key occurs twice, and then every known member
makes its change. The induction is on the members, each of which changes what the rest override. -/
theorem override?_eq_some_iff {c : Config} :
    override? base members = some c ↔ Unrepeated members ∧ Overrides base members c := by
  induction members generalizing base with
  | nil =>
      constructor
      · intro h
        cases h
        exact ⟨List.nodup_nil, .nil _⟩
      · rintro ⟨-, hc⟩
        cases hc
        rfl
  | cons m members ih =>
      obtain ⟨key, v⟩ := m
      by_cases hkey : key ∈ keys
      · rw [Unrepeated, known_cons_of_mem hkey, List.map_cons, List.nodup_cons,
          mem_map_known_iff hkey]
        constructor
        · intro h
          obtain ⟨hfresh, f, hf⟩ := sets_of_override? h hkey
          rw [override?_cons_of_sets hf hfresh] at h
          obtain ⟨hrest, hc⟩ := ih.mp h
          exact ⟨⟨hfresh, hrest⟩, .known hf hc⟩
        · rintro ⟨⟨hfresh, hrest⟩, hc⟩
          cases hc with
          | unknown hunknown _ => exact absurd hkey hunknown
          | known hf hc =>
              rw [override?_cons_of_sets hf hfresh]
              exact ih.mpr ⟨hrest, hc⟩
      · rw [override?_cons_of_notMem hkey, ih, Unrepeated, Unrepeated, known_cons_of_notMem hkey]
        constructor
        · rintro ⟨hrest, hc⟩
          exact ⟨hrest, .unknown hkey hc⟩
        · rintro ⟨hrest, hc⟩
          cases hc with
          | unknown _ hc => exact ⟨hrest, hc⟩
          | known hf _ => exact absurd hf.mem_keys hkey

/-- Something overrides a configuration if every known member has a value that its key takes. -/
theorem exists_overrides_iff :
    (∃ c, Overrides base members c) ↔ ∀ m ∈ known members, ∃ f, Sets m.1 m.2 f := by
  induction members generalizing base with
  | nil => exact ⟨fun _ m hm => absurd hm List.not_mem_nil, fun _ => ⟨base, .nil base⟩⟩
  | cons m members ih =>
      obtain ⟨key, v⟩ := m
      by_cases hkey : key ∈ keys
      · rw [known_cons_of_mem hkey, List.forall_mem_cons]
        constructor
        · rintro ⟨c, hc⟩
          cases hc with
          | unknown hunknown _ => exact absurd hkey hunknown
          | known hf hc => exact ⟨⟨_, hf⟩, ih.mp ⟨c, hc⟩⟩
        · rintro ⟨⟨f, hf⟩, hrest⟩
          obtain ⟨c, hc⟩ := ih.mpr hrest
          exact ⟨c, .known hf hc⟩
      · rw [known_cons_of_notMem hkey, ← @ih base]
        constructor
        · rintro ⟨c, hc⟩
          cases hc with
          | unknown _ hc => exact ⟨c, hc⟩
          | known hf _ => exact absurd hf.mem_keys hkey
        · rintro ⟨c, hc⟩
          exact ⟨c, .unknown hkey hc⟩

/-- What is overridden depends on the known members only, in any order. -/
theorem override?_congr {others : List (String × Json)} (h : (known members).Perm (known others)) :
    override? base members = override? base others := by
  have hfield : ∀ {α : Type} (key : String), key ∈ keys → ∀ (read : Json → Option α) (default : α),
      Json.field members key read default = Json.field others key read default := by
    intro α key hkey read default
    have hfound : ∀ ms : List (String × Json),
        (known ms).filter (·.1 = key) = ms.filter (·.1 = key) := by
      intro ms
      rw [known, List.filter_filter]
      refine List.filter_congr fun m _ => ?_
      by_cases hm : m.1 = key
      · simp [hm, hkey]
      · simp [hm]
    apply Json.field_congr
    rw [← hfound members, ← hfound others]
    exact h.filter _
  simp (disch := decide) only [override?, hfield]

/-- The members of an object whose keys denote texts are found again. -/
theorem members?_named (members : List (String × Json)) :
    (named members).members? keys = some members := by
  induction members with
  | nil => rfl
  | cons m members ih =>
      simp only [named, Json.members?, List.map_cons, List.mapM_cons] at ih ⊢
      rw [ih]
      rfl

/-- The text of an object is read as the defaults that its members override. -/
theorem read?_of_isText {text : List Char} (h : IsText text (named members)) :
    read? text = override? {} members := by
  rw [read?, Json.read_of_isText h, Option.bind_some, members?_named, Option.bind_some]

/-- Take a text of an object, with its members in any order, with blanks wherever they may stand,
and with unknown keys that have any values. It is accepted exactly if no known key occurs twice and
every known key has a value that it takes. What is read is the default configuration, overridden by
the known members. Any other text whose known members are the same, in any order, is read alike. -/
theorem read?_of_members {text : List Char} (htext : IsText text (named members)) :
    ((∃ c, read? text = some c) ↔
        Unrepeated members ∧ ∀ m ∈ known members, ∃ f, Sets m.1 m.2 f) ∧
      (∀ c, read? text = some c ↔ Unrepeated members ∧ Overrides {} members c) ∧
      ∀ other others, IsText other (named others) → (known others).Perm (known members) →
        read? other = read? text := by
  have hread : ∀ c, read? text = some c ↔ Unrepeated members ∧ Overrides {} members c := by
    intro c
    rw [read?_of_isText htext, override?_eq_some_iff]
  refine ⟨?_, hread, ?_⟩
  · simp only [hread, exists_and_left, exists_overrides_iff]
  · intro other others hother hperm
    rw [read?_of_isText htext, read?_of_isText hother, override?_congr hperm]

/-- A text with an unknown member and its known member by itself are read alike. -/
theorem read?_of_members_debug :
    let text := "\x7b\"x\":[null] ,\"debug\": true\x7d".toList
    let other := "\x7b\"debug\":true\x7d".toList
    read? text = some { debug := true } ∧ read? other = read? text := by
  intro text other
  have hblank : Blank [' '] := by simp [Blank]
  have hx : IsKey ['"', 'x', '"', ':'] "x" := isKey_quoted rfl
  have hdebug : IsKey ['"', 'd', 'e', 'b', 'u', 'g', '"', ':'] "debug" := isKey_quoted rfl
  have harray : IsValue ['[', 'n', 'u', 'l', 'l', ']'] (.array [.null]) :=
    .array (.last blank_nil .null blank_nil)
  have htext : IsText text (named [("x", .array [.null]), ("debug", .bool true)]) := by
    have hmembers := IsMembers.cons hx blank_nil harray hblank (.last hdebug hblank .yes blank_nil)
    exact ⟨[], text, [], blank_nil, .object hmembers, blank_nil, by simp⟩
  have hother : IsText other (named [("debug", .bool true)]) := by
    have hmembers := IsMembers.last hdebug blank_nil .yes blank_nil
    exact ⟨[], other, [], blank_nil, .object hmembers, blank_nil, by simp⟩
  have hread := read?_of_members htext
  refine ⟨(hread.2.1 _).mpr ⟨?_, ?_⟩, hread.2.2 _ _ hother ?_⟩
  · simp [Unrepeated, known, keys]
  · exact .unknown (by decide) (.known (.debug true) (.nil _))
  · simp [known, keys]

/-- An algorithm is also selected by a value that is not its name. -/
theorem read?_variant :
    let text := "\x7b\"cc_algorithm\":\x7b\"reno\":null\x7d\x7d".toList
    let value := named [("reno", .null)]
    IsText text (named [("cc_algorithm", value)]) ∧ (∀ a : Algorithm, value ≠ .string a.name) ∧
      read? text = some { algorithm := .reno } := by
  intro text value
  have hvalue : IsValue "\x7b\"reno\":null\x7d".toList value := by
    have hkey : IsKey ['"', 'r', 'e', 'n', 'o', '"', ':'] "reno" := isKey_quoted rfl
    exact .object (IsMembers.last hkey blank_nil .null blank_nil)
  have htext : IsText text (named [("cc_algorithm", value)]) := by
    have hkey : IsKey "\"cc_algorithm\":".toList "cc_algorithm" := isKey_quoted rfl
    have hmembers := IsMembers.last hkey blank_nil hvalue blank_nil
    exact ⟨[], text, [], blank_nil, .object hmembers, blank_nil, by simp⟩
  refine ⟨htext, fun a => by simp [value, named], ?_⟩
  rw [read?_of_isText htext, override?_eq_some_iff]
  exact ⟨by simp [Unrepeated, known, keys], .known (.variant .reno) (.nil _)⟩

end Config

end LowOrbit
