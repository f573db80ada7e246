import LowOrbit.Json
import Mathlib.Data.List.Forall2

/-!
# The grammar of JSON

Which texts are texts of a value, by the standard grammar and without regard to how they are read.
Only strings that denote valid Unicode have a text here. `IsText s v` says that the text `s` is one
of the value `v`; `IsValue`, `IsItems` and `IsMembers` say so of its parts.
-/

namespace LowOrbit.Json

/-- A stretch of blanks. -/
def Blank (s : List Char) : Prop := ∀ c ∈ s, c = ' ' ∨ c = '\t' ∨ c = '\n' ∨ c = '\r'

/-- There may be no blanks. -/
theorem blank_nil : Blank [] := by simp [Blank]

/-! ## Strings -/

/-- The letters that stand for a character behind a backslash, each with that character. -/
def escapes : List (Char × Char) :=
  [('"', '"'), ('\\', '\\'), ('/', '/'), ('b', '\x08'), ('f', '\x0c'), ('n', '\n'), ('r', '\r'),
    ('t', '\t')]

/-- `IsHexDigit c n` says that `c` is the hexadecimal digit of `n`, in either case. -/
def IsHexDigit (c : Char) (n : Nat) : Prop :=
  n < 16 ∧ (c = n.digitChar ∨ c = n.digitChar.toUpper)

/-- `IsUnit s u` says that `s` is the number `u` in four hexadecimal digits. -/
def IsUnit (s : List Char) (u : Nat) : Prop :=
  List.Forall₂ IsHexDigit s [u / 4096, u / 256 % 16, u / 16 % 16, u % 16]

/-- `Spells s text` says that `s`, between quotes, denotes `text`. A character beyond 16 bits is
escaped as the two surrogates of its UTF-16 form. -/
inductive Spells : List Char → List Char → Prop where
  | nil : Spells [] []
  | plain (c) {s text} :
      0x20 ≤ c.toNat → c ≠ '"' → c ≠ '\\' → Spells s text → Spells (c :: s) (c :: text)
  | letter (letter c) {s text} :
      (letter, c) ∈ escapes → Spells s text → Spells ('\\' :: letter :: s) (c :: text)
  | unit (c) {digits s text} :
      IsUnit digits c.toNat → Spells s text → Spells ('\\' :: 'u' :: digits ++ s) (c :: text)
  | pair (c) {high low s text} :
      0x10000 ≤ c.toNat →
      IsUnit high (0xD800 + (c.toNat - 0x10000) / 0x400) →
      IsUnit low (0xDC00 + (c.toNat - 0x10000) % 0x400) →
      Spells s text →
      Spells ('\\' :: 'u' :: high ++ '\\' :: 'u' :: low ++ s) (c :: text)

/-! ## Numbers -/

/-- The sign of a number. -/
def sign (negative : Bool) : List Char := if negative then ['-'] else []

/-- Decimal digits, of which there is at least one. -/
def Digits (s : List Char) : Prop := s ≠ [] ∧ ∀ c ∈ s, c.isDigit = true

/-- The fraction of a number, or nothing. -/
inductive IsFraction : List Char → Prop where
  | none : IsFraction []
  | some {s} : Digits s → IsFraction ('.' :: s)

/-- The exponent of a number, or nothing. -/
inductive IsExponent : List Char → Prop where
  | none : IsExponent []
  | some {e plus s} :
      e = 'e' ∨ e = 'E' → plus = [] ∨ plus = ['+'] ∨ plus = ['-'] → Digits s →
      IsExponent (e :: plus ++ s)

/-- `IsDecimal s` says that `s` is a number with a fraction or an exponent. -/
def IsDecimal (s : List Char) : Prop :=
  ∃ negative n fraction exponent, IsFraction fraction ∧ IsExponent exponent ∧
    fraction ++ exponent ≠ [] ∧ s = sign negative ++ Nat.toDigits 10 n ++ fraction ++ exponent

/-! ## Values -/

/-- `IsKey s key` says that `s` is a text of `key` with the colon behind it. -/
def IsKey (s : List Char) (key : String) : Prop :=
  ∃ a body b, Blank a ∧ Spells body key.toList ∧ Blank b ∧ s = a ++ '"' :: body ++ '"' :: b ++ [':']

/-- The object with these members. -/
def named (members : List (String × Json)) : Json :=
  .object (members.map fun (key, value) => (some key, value))

mutual

/-- `IsValue s v` says that `s`, with no blanks around it, is a text of `v`. -/
inductive IsValue : List Char → Json → Prop where
  | null : IsValue ['n', 'u', 'l', 'l'] .null
  | yes : IsValue ['t', 'r', 'u', 'e'] (.bool true)
  | no : IsValue ['f', 'a', 'l', 's', 'e'] (.bool false)
  | integer (negative n) : IsValue (sign negative ++ Nat.toDigits 10 n) (.integer negative n)
  | decimal {s} : IsDecimal s → IsValue s (.decimal s)
  | string (text : String) {s} : Spells s text.toList → IsValue ('"' :: s ++ ['"']) (.string text)
  | emptyArray {b} : Blank b → IsValue ('[' :: b ++ [']']) (.array [])
  | array {s vs} : IsItems s vs → IsValue ('[' :: s ++ [']']) (.array vs)
  | emptyObject {b} : Blank b → IsValue ('\x7b' :: b ++ ['\x7d']) (named [])
  | object {s ms} : IsMembers s ms → IsValue ('\x7b' :: s ++ ['\x7d']) (named ms)

/-- `IsItems s vs` says that `s` is a text of the values `vs`, of which there is at least one, with
commas between them. -/
inductive IsItems : List Char → List Json → Prop where
  | last {a s b v} : Blank a → IsValue s v → Blank b → IsItems (a ++ s ++ b) [v]
  | cons {a s b t v vs} :
      Blank a → IsValue s v → Blank b → IsItems t vs → IsItems (a ++ s ++ b ++ ',' :: t) (v :: vs)

/-- `IsMembers s ms` says that `s` is a text of the members `ms`, of which there is at least one,
with commas between them. -/
inductive IsMembers : List Char → List (String × Json) → Prop where
  | last {k a s b key v} :
      IsKey k key → Blank a → IsValue s v → Blank b → IsMembers (k ++ a ++ s ++ b) [(key, v)]
  | cons {k a s b t key v ms} :
      IsKey k key → Blank a → IsValue s v → Blank b → IsMembers t ms →
      IsMembers (k ++ a ++ s ++ b ++ ',' :: t) ((key, v) :: ms)

end

/-- `IsText s v` says that `s` is a text of `v`, with or without blanks around it. -/
def IsText (s : List Char) (v : Json) : Prop :=
  ∃ a t b, Blank a ∧ IsValue t v ∧ Blank b ∧ s = a ++ t ++ b

/-! ## Texts without escapes -/

/-- A character needs no escape. -/
def isPlain (c : Char) : Bool := 0x20 ≤ c.toNat && c ≠ '"' && c ≠ '\\'

/-- Characters that need no escape spell themselves. -/
theorem spells_self {s : List Char} (h : s.all isPlain = true) : Spells s s := by
  induction s with
  | nil => exact .nil
  | cons c s ih =>
      simp only [isPlain, List.all_cons, Bool.and_eq_true, decide_eq_true_eq] at h
      obtain ⟨⟨⟨hprintable, hquote⟩, hescape⟩, hrest⟩ := h
      exact .plain c hprintable hquote hescape (ih hrest)

/-- A key that needs no escapes is written in quotes. -/
theorem isKey_quoted {key : String} (h : key.toList.all isPlain = true) :
    IsKey ('"' :: key.toList ++ ['"', ':']) key :=
  ⟨[], key.toList, [], blank_nil, spells_self h, blank_nil, by simp⟩

end LowOrbit.Json
