import LowOrbit.Json.Reader
import LowOrbit.Proofs.Json.Grammar
import Mathlib.Data.List.DropRight

/-!
# Every text of the grammar is read

The reader follows the grammar of JSON: a text of a value, with blanks wherever they may stand and
with arrays and objects nested to any depth, is read as that value (`read_of_isText`). Fuel for
twice the length of the text is enough. What a value is read as does not depend on the text behind
it, because a number ends in front of everything that may stand there (`Ends`).
-/

namespace LowOrbit.Json

/-! ## Blanks -/

/-- The reader knows the blanks of the grammar. -/
theorem isBlank_iff (c : Char) : isBlank c = true ↔ c = ' ' ∨ c = '\t' ∨ c = '\n' ∨ c = '\r' := by
  simp [isBlank, or_assoc]

/-- Blanks in front are skipped. -/
theorem skipBlanks_append {a : List Char} (ha : Blank a) (s : List Char) :
    skipBlanks (a ++ s) = skipBlanks s :=
  List.dropWhile_append_of_pos fun c hc => (isBlank_iff c).mpr (ha c hc)

/-- Nothing is skipped in front of a character that is not blank. -/
theorem skipBlanks_cons {c : Char} (hc : isBlank c = false) (s : List Char) :
    skipBlanks (c :: s) = c :: s :=
  List.dropWhile_cons_of_neg (by simp [hc])

/-- Behind blanks there are no more of them. -/
theorem skipBlanks_skipBlanks (s : List Char) : skipBlanks (skipBlanks s) = skipBlanks s :=
  List.dropWhile_idempotent isBlank s

/-! ## Strings -/

/-- Digits of the grammar are read as what they are worth. -/
theorem hexDigit?_of_isHexDigit {c : Char} {n : Nat} (h : IsHexDigit c n) :
    hexDigit? c = some n := by
  have hall : ∀ n : Fin 16, hexDigit? n.val.digitChar = some n.val ∧
      hexDigit? n.val.digitChar.toUpper = some n.val := by decide
  obtain ⟨hn, rfl | rfl⟩ := h
  · exact (hall ⟨n, hn⟩).1
  · exact (hall ⟨n, hn⟩).2

/-- An escaped unit is read as a piece. -/
theorem pieces_unit {digits : List Char} {u : Nat} (h : IsUnit digits u) (s : List Char) :
    pieces ('\\' :: 'u' :: digits ++ s) =
      (pieces s).map fun (found, rest) => (.unit u :: found, rest) := by
  obtain _ | ⟨ha, _ | ⟨hb, _ | ⟨hc, _ | ⟨hd, _ | _⟩⟩⟩⟩ := h
  have hworth : ((u / 4096 * 16 + u / 256 % 16) * 16 + u / 16 % 16) * 16 + u % 16 = u := by omega
  simp only [List.cons_append, List.nil_append, pieces, hexDigit?_of_isHexDigit ha,
    hexDigit?_of_isHexDigit hb, hexDigit?_of_isHexDigit hc, hexDigit?_of_isHexDigit hd]
  cases pieces s with
  | none => rfl
  | some found =>
      show some _ = some _
      rw [hworth]

/-- An escaped letter is read as its character. -/
theorem pieces_letter {letter c : Char} (h : (letter, c) ∈ escapes) (s : List Char) :
    pieces ('\\' :: letter :: s) =
      (pieces s).map fun (found, rest) => (.char c :: found, rest) := by
  simp only [escapes, List.mem_cons, Prod.mk.injEq, List.not_mem_nil, or_false] at h
  rcases h with ⟨rfl, rfl⟩ | ⟨rfl, rfl⟩ | ⟨rfl, rfl⟩ | ⟨rfl, rfl⟩ | ⟨rfl, rfl⟩ | ⟨rfl, rfl⟩ |
    ⟨rfl, rfl⟩ | ⟨rfl, rfl⟩ <;> (cases hs : pieces s <;> simp [pieces, escaped?, hs])

/-- Any other character is read as itself. -/
theorem pieces_plain {c : Char} (hprintable : 0x20 ≤ c.toNat) (hquote : c ≠ '"')
    (hescape : c ≠ '\\') (s : List Char) :
    pieces (c :: s) = (pieces s).map fun (found, rest) => (.char c :: found, rest) := by
  cases hs : pieces s <;> simp [pieces, hescape, hprintable, hs]

/-- A unit that is a character by itself denotes it, whatever follows. -/
theorem text?_unit (c : Char) (found : List Piece) :
    Piece.text? (.unit c.toNat :: found) = (Piece.text? found).map (c :: ·) := by
  have hvalid : c.toNat < 0xD800 ∨ 0xE000 ≤ c.toNat := by
    rcases c.valid with h | ⟨h, -⟩
    · exact .inl h
    · refine .inr ?_
      simp only [Char.toNat]
      omega
  cases found with
  | nil => simp [Piece.text?, hvalid]
  | cons piece found => cases piece <;> simp [Piece.text?, hvalid]

/-- A pair of surrogates denotes the character of which it is the UTF-16 form. -/
theorem text?_pair {c : Char} (hlarge : 0x10000 ≤ c.toNat) (found : List Piece) :
    Piece.text? (.unit (0xD800 + (c.toNat - 0x10000) / 0x400) ::
      .unit (0xDC00 + (c.toNat - 0x10000) % 0x400) :: found) =
        (Piece.text? found).map (c :: ·) := by
  have hbound : c.toNat < 0x110000 := by
    rcases c.valid with h | ⟨-, h⟩
    · simp only [Char.toNat]
      omega
    · exact h
  have hworth : 0x10000 + ((0xD800 + (c.toNat - 0x10000) / 0x400) - 0xD800) * 0x400 +
      ((0xDC00 + (c.toNat - 0x10000) % 0x400) - 0xDC00) = c.toNat := by omega
  rw [Piece.text?, if_neg (by omega), if_pos (by omega), hworth, Char.ofNat_toNat]

/-- A string literal of the grammar is read as the text that it denotes. The induction is on the
grammar. -/
theorem literal_of_spells {body text : List Char} (h : Spells body text) (s : List Char) :
    literal (body ++ '"' :: s) = some (some (String.ofList text), s) := by
  suffices hpieces : ∃ found, pieces (body ++ '"' :: s) = some (found, s) ∧
      Piece.text? found = some text by
    obtain ⟨found, hfound, htext⟩ := hpieces
    simp [literal, hfound, htext]
  induction h with
  | nil => exact ⟨[], rfl, rfl⟩
  | plain c hprintable hquote hescape _ ih =>
      obtain ⟨found, hfound, htext⟩ := ih
      refine ⟨.char c :: found, ?_, by simp [Piece.text?, htext]⟩
      rw [List.cons_append, pieces_plain hprintable hquote hescape, hfound]
      rfl
  | letter letter c hletter _ ih =>
      obtain ⟨found, hfound, htext⟩ := ih
      refine ⟨.char c :: found, ?_, by simp [Piece.text?, htext]⟩
      rw [List.cons_append, List.cons_append, pieces_letter hletter, hfound]
      rfl
  | unit c hunit _ ih =>
      obtain ⟨found, hfound, htext⟩ := ih
      refine ⟨.unit c.toNat :: found, ?_, ?_⟩
      · rw [List.append_assoc, pieces_unit hunit, hfound]
        rfl
      · rw [text?_unit c, htext]
        rfl
  | pair c hlarge hhigh hlow _ ih =>
      obtain ⟨found, hfound, htext⟩ := ih
      refine ⟨.unit (0xD800 + (c.toNat - 0x10000) / 0x400) ::
        .unit (0xDC00 + (c.toNat - 0x10000) % 0x400) :: found, ?_, ?_⟩
      · rw [List.append_assoc, List.append_assoc, pieces_unit hhigh, pieces_unit hlow, hfound]
        rfl
      · rw [text?_pair hlarge, htext]
        rfl

/-! ## Numbers -/

/-- A number may end in front of this text. -/
def Ends (s : List Char) : Prop :=
  ∀ c ∈ s.head?, c.isDigit = false ∧ c ≠ '.' ∧ c ≠ 'e' ∧ c ≠ 'E'

/-- Digits start with a digit. -/
theorem Digits.exists_cons {s : List Char} (h : Digits s) :
    ∃ c tail, s = c :: tail ∧ c.isDigit = true := by
  obtain ⟨hne, hall⟩ := h
  cases s with
  | nil => exact absurd rfl hne
  | cons c tail => exact ⟨c, tail, rfl, hall c List.mem_cons_self⟩

/-- All digits are taken, up to the end of the number. -/
theorem digits_append {found s : List Char} (hfound : Digits found)
    (hs : ∀ c ∈ s.head?, c.isDigit = false) : digits (found ++ s) = some (found, s) := by
  obtain ⟨hne, hall⟩ := hfound
  have htake : (found ++ s).takeWhile Char.isDigit = found := by
    rw [List.takeWhile_append_of_pos hall]
    cases s with
    | nil => simp
    | cons c s => simp [List.takeWhile_cons_of_neg, hs c rfl]
  have hdrop : (found ++ s).dropWhile Char.isDigit = s := by
    rw [List.dropWhile_append_of_pos hall]
    cases s with
    | nil => rfl
    | cons c s => exact List.dropWhile_cons_of_neg (by simp [hs c rfl])
  unfold digits
  rw [htake, hdrop]
  cases found with
  | nil => exact absurd rfl hne
  | cons => rfl

/-- The decimal notation of a number consists of digits. -/
theorem digits_toDigits (n : Nat) : Digits (Nat.toDigits 10 n) :=
  ⟨Nat.toDigits_ne_nil, fun _ hc => Nat.isDigit_of_mem_toDigits (by decide) (by decide) hc⟩

/-- The decimal notation of a positive number does not start with a zero. The induction takes away
the last digit. -/
theorem head?_toDigits {n : Nat} (hn : 0 < n) : (Nat.toDigits 10 n).head? ≠ some '0' := by
  have hdigit : ∀ n : Fin 10, n.val.digitChar = '0' → n.val = 0 := by decide
  induction n using Nat.strongRecOn with
  | ind n ih =>
      by_cases hsmall : n < 10
      · rw [Nat.toDigits_of_lt_base hsmall]
        intro h
        exact hn.ne' (hdigit ⟨n, hsmall⟩ (Option.some.inj h))
      · rw [Nat.toDigits_of_base_le (by decide) (by omega),
          List.head?_append_of_ne_nil _ Nat.toDigits_ne_nil]
        exact ih (n / 10) (by omega) (by omega)

/-- A decimal notation is read as the digits before the point, up to where it ends. -/
theorem wholeDigits_toDigits (n : Nat) {s : List Char} (hs : ∀ c ∈ s.head?, c.isDigit = false) :
    wholeDigits (Nat.toDigits 10 n ++ s) = some (Nat.toDigits 10 n, s) := by
  unfold wholeDigits
  rw [digits_append (digits_toDigits n) hs]
  by_cases hn : n = 0
  · rw [hn, Nat.toDigits_zero]
    rfl
  · split
    · rename_i hzero
      have hhead := head?_toDigits (Nat.pos_of_ne_zero hn)
      simp only [Option.some.injEq, Prod.mk.injEq] at hzero
      rw [hzero.1] at hhead
      exact absurd rfl hhead
    · rfl

/-- A fraction is read up to where it ends. -/
theorem fraction_of_isFraction {f s : List Char} (hf : IsFraction f)
    (hs : ∀ c ∈ s.head?, c.isDigit = false ∧ c ≠ '.') : fraction (f ++ s) = some (f, s) := by
  cases hf with
  | none =>
      cases s with
      | nil => rfl
      | cons c s => simp [fraction, (hs c rfl).2]
  | some hdigits =>
      simp only [List.cons_append, fraction]
      rw [digits_append hdigits fun c hc => (hs c hc).1]
      rfl

/-- A digit is not a sign. -/
theorem exponentSign_append {found : List Char} (hfound : Digits found) (s : List Char) :
    exponentSign (found ++ s) = ([], found ++ s) := by
  obtain ⟨c, tail, rfl, hc⟩ := hfound.exists_cons
  rw [List.cons_append, exponentSign]
  · intro rest h
    cases h
    exact absurd hc (by decide)
  · intro rest h
    cases h
    exact absurd hc (by decide)

/-- An exponent is read up to where it ends. -/
theorem exponent_of_isExponent {e s : List Char} (he : IsExponent e) (hs : Ends s) :
    exponent (e ++ s) = some (e, s) := by
  cases he with
  | none =>
      cases s with
      | nil => rfl
      | cons c s => simp [exponent, (hs c rfl).2.2]
  | @some e plus found he hplus hfound =>
      have hread : digits (found ++ s) = some (found, s) :=
        digits_append hfound fun c hc => (hs c hc).1
      have hsign : exponentSign (plus ++ (found ++ s)) = (plus, found ++ s) := by
        rcases hplus with rfl | rfl | rfl
        · exact exponentSign_append hfound s
        · rfl
        · rfl
      simp only [List.cons_append, List.append_assoc, exponent, if_pos he, hsign, hread]
      rfl

/-- The digits before an exponent end where it starts, and it does not start with a point. -/
theorem head?_exponent {e s : List Char} (he : IsExponent e) (hs : Ends s) :
    ∀ c ∈ (e ++ s).head?, c.isDigit = false ∧ c ≠ '.' := by
  intro c hc
  cases he with
  | none => exact ⟨(hs c hc).1, (hs c hc).2.1⟩
  | some he _ _ =>
      cases hc
      rcases he with rfl | rfl <;> decide

/-- The digits before a fraction end where it starts. -/
theorem head?_fraction {f s : List Char} (hf : IsFraction f)
    (hs : ∀ c ∈ s.head?, c.isDigit = false ∧ c ≠ '.') :
    ∀ c ∈ (f ++ s).head?, c.isDigit = false := by
  intro c hc
  cases hf with
  | none => exact (hs c hc).1
  | some _ =>
      cases hc
      decide

/-- What a number behind its sign is read as. -/
theorem unsigned_append (negative : Bool) (n : Nat) {f e s : List Char} (hf : IsFraction f)
    (he : IsExponent e) (hs : Ends s) :
    unsigned negative (Nat.toDigits 10 n ++ (f ++ (e ++ s))) =
      some (if f.isEmpty && e.isEmpty then .integer negative n
        else .decimal (sign negative ++ Nat.toDigits 10 n ++ f ++ e), s) := by
  have hexponent := head?_exponent he hs
  have hworth : Nat.ofDigitChars 10 (Nat.toDigits 10 n) 0 = n := Nat.ofDigitChars_ten_toDigits
  simp [unsigned, wholeDigits_toDigits n (head?_fraction hf hexponent),
    fraction_of_isFraction hf hexponent, exponent_of_isExponent he hs, hworth, sign]

/-! ## Values -/

/-- Blanks in front of a value are skipped. -/
theorem value_append {a : List Char} (ha : Blank a) (fuel : Nat) (s : List Char) :
    value fuel (a ++ s) = value fuel s := by
  cases fuel with
  | zero => rfl
  | succ fuel => simp only [value, skipBlanks_append ha]

/-- A value may be read behind the blanks in front of it. -/
theorem value_skipBlanks (fuel : Nat) (s : List Char) :
    value fuel (skipBlanks s) = value fuel s := by
  cases fuel with
  | zero => rfl
  | succ fuel => simp only [value, skipBlanks_skipBlanks]

/-- Items may be read behind the blanks in front of them. -/
theorem items_skipBlanks (fuel : Nat) (s : List Char) :
    items fuel (skipBlanks s) = items fuel s := by
  cases fuel with
  | zero => rfl
  | succ fuel => simp only [items, value_skipBlanks]

/-- Members may be read behind the blanks in front of them. -/
theorem members_skipBlanks (fuel : Nat) (s : List Char) :
    members fuel (skipBlanks s) = members fuel s := by
  cases fuel with
  | zero => rfl
  | succ fuel => simp only [members, skipBlanks_skipBlanks]

/-- A digit is not blank. -/
theorem isBlank_digit {c : Char} (hc : c.isDigit = true) : isBlank c = false := by
  cases h : isBlank c with
  | false => rfl
  | true => rcases (isBlank_iff c).mp h with rfl | rfl | rfl | rfl <;> exact absurd hc (by decide)

/-- A digit starts a number without sign. -/
theorem value_digit {c : Char} (hc : c.isDigit = true) (fuel : Nat) (s : List Char) :
    value (fuel + 1) (c :: s) = unsigned false (c :: s) := by
  rw [value, skipBlanks_cons (isBlank_digit hc)]
  -- No other value starts with a digit.
  split <;> try (rename_i heq; cases heq; exact absurd hc (by decide))
  unfold number
  split
  · rename_i heq
    cases heq
    exact absurd hc (by decide)
  · rfl

/-- A sign or a digit starts a number. -/
theorem value_sign (fuel : Nat) (negative : Bool) (n : Nat) (s : List Char) :
    value (fuel + 1) (sign negative ++ (Nat.toDigits 10 n ++ s)) =
      unsigned negative (Nat.toDigits 10 n ++ s) := by
  cases negative with
  | true => rfl
  | false =>
      obtain ⟨c, tail, htail, hc⟩ := (digits_toDigits n).exists_cons
      rw [htail]
      exact value_digit hc fuel (tail ++ s)

/-- A bracket with something behind it starts an array with items. -/
theorem value_array {s tail : List Char} {c : Char} (hs : skipBlanks s = c :: tail) (hc : c ≠ ']')
    (fuel : Nat) :
    value (fuel + 1) ('[' :: s) = (items fuel s).map fun (found, rest) => (.array found, rest) := by
  rw [← items_skipBlanks]
  simp only [value, skipBlanks_cons (c := '[') rfl, hs]
  split
  · rename_i heq
    cases heq
    exact absurd rfl hc
  · rfl

/-- A brace with something behind it starts an object with members. -/
theorem value_object {s tail : List Char} {c : Char} (hs : skipBlanks s = c :: tail)
    (hc : c ≠ '\x7d') (fuel : Nat) :
    value (fuel + 1) ('\x7b' :: s) =
      (members fuel s).map fun (found, rest) => (.object found, rest) := by
  rw [← members_skipBlanks]
  simp only [value, skipBlanks_cons (c := '\x7b') rfl, hs]
  split
  · rename_i heq
    cases heq
    exact absurd rfl hc
  · rfl

/-- What a value starts with is not blank and does not end an array. -/
theorem IsValue.exists_cons {s : List Char} {v : Json} (h : IsValue s v) :
    ∃ c tail, s = c :: tail ∧ isBlank c = false ∧ c ≠ ']' := by
  have hnumber : ∀ (negative : Bool) (n : Nat) (t : List Char), ∃ c tail,
      sign negative ++ Nat.toDigits 10 n ++ t = c :: tail ∧ isBlank c = false ∧ c ≠ ']' := by
    intro negative n t
    cases negative with
    | true => exact ⟨_, _, rfl, rfl, by decide⟩
    | false =>
        obtain ⟨c, tail, htail, hc⟩ := (digits_toDigits n).exists_cons
        refine ⟨c, tail ++ t, by rw [htail]; rfl, isBlank_digit hc, ?_⟩
        rintro rfl
        exact absurd hc (by decide)
  cases h with
  | integer negative n => simpa using hnumber negative n []
  | decimal hdecimal =>
      obtain ⟨negative, n, fraction, exponent, -, -, -, rfl⟩ := hdecimal
      simpa using hnumber negative n (fraction ++ exponent)
  | _ => exact ⟨_, _, rfl, rfl, by decide⟩

/-- Items start with something that does not end an array, behind blanks. -/
theorem IsItems.exists_cons {s : List Char} {vs : List Json} (h : IsItems s vs) (rest : List Char) :
    ∃ c tail, skipBlanks (s ++ rest) = c :: tail ∧ c ≠ ']' := by
  have hvalue : ∀ {a s : List Char} {v : Json} (rest : List Char), Blank a → IsValue s v →
      ∃ c tail, skipBlanks (a ++ (s ++ rest)) = c :: tail ∧ c ≠ ']' := by
    intro a s v rest ha hv
    obtain ⟨c, tail, rfl, hblank, hc⟩ := hv.exists_cons
    refine ⟨c, tail ++ rest, ?_, hc⟩
    rw [skipBlanks_append ha, List.cons_append, skipBlanks_cons hblank]
  cases h with
  | last ha hv _ => simpa using hvalue _ ha hv
  | cons ha hv _ _ => simpa using hvalue _ ha hv

/-- Members start with a quote, behind blanks. -/
theorem IsMembers.exists_cons {s : List Char} {ms : List (String × Json)} (h : IsMembers s ms)
    (rest : List Char) : ∃ c tail, skipBlanks (s ++ rest) = c :: tail ∧ c ≠ '\x7d' := by
  have hkey : ∀ {k : List Char} {key : String} (rest : List Char), IsKey k key →
      ∃ c tail, skipBlanks (k ++ rest) = c :: tail ∧ c ≠ '\x7d' := by
    rintro k key rest ⟨a, body, b, ha, -, -, rfl⟩
    refine ⟨'"', body ++ '"' :: b ++ [':'] ++ rest, ?_, by decide⟩
    simp only [List.append_assoc, List.cons_append, skipBlanks_append ha]
    exact skipBlanks_cons rfl _
  cases h with
  | last hk _ _ _ => simpa using hkey _ hk
  | cons hk _ _ _ _ => simpa using hkey _ hk

/-- What may stand behind a value in an array or an object. -/
def Delimits (c : Char) : Prop := c = ',' ∨ c = ']' ∨ c = '\x7d'

/-- A number ends in front of blanks, if it ends behind them. -/
theorem ends_append {b s : List Char} (hb : Blank b) (hs : Ends s) : Ends (b ++ s) := by
  cases b with
  | nil => exact hs
  | cons c b =>
      rintro c ⟨⟩
      rcases hb c List.mem_cons_self with rfl | rfl | rfl | rfl <;> decide

/-- A number ends in front of a delimiter. -/
theorem Delimits.ends {c : Char} (hc : Delimits c) (s : List Char) : Ends (c :: s) := by
  rintro c ⟨⟩
  rcases hc with rfl | rfl | rfl <;> decide

/-- Blanks end in front of a delimiter. -/
theorem Delimits.skipBlanks {c : Char} (hc : Delimits c) {b : List Char} (hb : Blank b)
    (s : List Char) : skipBlanks (b ++ c :: s) = c :: s := by
  rw [skipBlanks_append hb, skipBlanks_cons]
  rcases hc with rfl | rfl | rfl <;> rfl

/-- A value that is read wherever a number may end is read between blanks in front of a
delimiter. -/
theorem Delimits.value {c : Char} (hc : Delimits c) {fuel : Nat} {s : List Char} {v : Json}
    (hread : ∀ rest, Ends rest → value fuel (s ++ rest) = some (v, rest)) {a b : List Char}
    (ha : Blank a) (hb : Blank b) (t : List Char) :
    Json.value fuel (a ++ (s ++ (b ++ c :: t))) = some (v, b ++ c :: t) := by
  rw [value_append ha]
  exact hread _ (ends_append hb (hc.ends t))

/-- The last item of an array is followed by a bracket. -/
theorem items_last {s t rest : List Char} {v : Json} {fuel : Nat}
    (hv : value fuel s = some (v, t)) (ht : skipBlanks t = ']' :: rest) :
    items (fuel + 1) s = some ([v], rest) := by
  simp [items, hv, ht]

/-- Any other item is followed by a comma and further items. -/
theorem items_cons {s t rest : List Char} {v : Json} {fuel : Nat}
    (hv : value fuel s = some (v, t)) (ht : skipBlanks t = ',' :: rest) :
    items (fuel + 1) s = (items fuel rest).map fun (found, rest) => (v :: found, rest) := by
  cases hmore : items fuel rest <;> simp [items, hv, ht, hmore]

/-- The last member of an object is followed by a brace. -/
theorem members_last {k s t rest : List Char} {key : String} {v : Json} {fuel : Nat}
    (hk : IsKey k key) (hv : value fuel s = some (v, t)) (ht : skipBlanks t = '\x7d' :: rest) :
    members (fuel + 1) (k ++ s) = some ([(some key, v)], rest) := by
  obtain ⟨a, body, b, ha, hbody, hb, rfl⟩ := hk
  have hliteral := literal_of_spells hbody (b ++ ':' :: s)
  rw [String.ofList_toList] at hliteral
  simp [members, skipBlanks_append ha, skipBlanks_cons (c := '"') rfl, hliteral,
    skipBlanks_append hb, skipBlanks_cons (c := ':') rfl, hv, ht]

/-- Any other member is followed by a comma and further members. -/
theorem members_cons {k s t rest : List Char} {key : String} {v : Json} {fuel : Nat}
    (hk : IsKey k key) (hv : value fuel s = some (v, t)) (ht : skipBlanks t = ',' :: rest) :
    members (fuel + 1) (k ++ s) =
      (members fuel rest).map fun (found, rest) => ((some key, v) :: found, rest) := by
  obtain ⟨a, body, b, ha, hbody, hb, rfl⟩ := hk
  have hliteral := literal_of_spells hbody (b ++ ':' :: s)
  rw [String.ofList_toList] at hliteral
  cases hmore : members fuel rest <;>
    simp [members, skipBlanks_append ha, skipBlanks_cons (c := '"') rfl, hliteral,
      skipBlanks_append hb, skipBlanks_cons (c := ':') rfl, hv, ht, hmore]

mutual

/-- A value of the grammar is read as it is, if there is fuel for twice its length. -/
theorem value_of_isValue {s : List Char} {v : Json} (h : IsValue s v) {fuel : Nat}
    (hfuel : 2 * s.length ≤ fuel) {rest : List Char} (hrest : Ends rest) :
    value fuel (s ++ rest) = some (v, rest) := by
  obtain ⟨fuel, rfl⟩ : ∃ n, fuel = n + 1 := by
    obtain ⟨c, tail, rfl, -⟩ := h.exists_cons
    exact ⟨fuel - 1, by simp only [List.length_cons] at hfuel; omega⟩
  cases h with
  | null => rfl
  | yes => rfl
  | no => rfl
  | integer negative n =>
      have hread := unsigned_append negative n .none .none hrest
      rw [List.append_assoc, value_sign]
      simpa using hread
  | decimal hdecimal =>
      obtain ⟨negative, n, fraction, exponent, hfraction, hexponent, hne, rfl⟩ := hdecimal
      have hread := unsigned_append negative n hfraction hexponent hrest
      simp only [List.append_assoc, value_sign, hread]
      rw [if_neg (by simpa using hne)]
  | string text hspells =>
      have hliteral := literal_of_spells hspells rest
      rw [String.ofList_toList] at hliteral
      simp only [List.cons_append, List.append_assoc, List.nil_append, value,
        skipBlanks_cons (c := '"') rfl, hliteral]
      rfl
  | emptyArray hb =>
      simp only [List.cons_append, List.append_assoc, List.nil_append, value,
        skipBlanks_cons (c := '[') rfl, skipBlanks_append hb,
        skipBlanks_cons (c := ']') rfl]
  | @array s vs hitems =>
      obtain ⟨c, tail, htail, hc⟩ := hitems.exists_cons (']' :: rest)
      have hread : items fuel (s ++ ']' :: rest) = some (vs, rest) :=
        items_of_isItems hitems (by simp at hfuel; omega) rest
      simp only [List.cons_append, List.append_assoc, List.nil_append]
      rw [value_array htail hc, hread]
      rfl
  | emptyObject hb =>
      simp only [List.cons_append, List.append_assoc, List.nil_append, value,
        skipBlanks_cons (c := '\x7b') rfl, skipBlanks_append hb,
        skipBlanks_cons (c := '\x7d') rfl]
      rfl
  | @object s ms hmembers =>
      obtain ⟨c, tail, htail, hc⟩ := hmembers.exists_cons ('\x7d' :: rest)
      have hread := members_of_isMembers hmembers (by simp at hfuel; omega : _ ≤ fuel) rest
      simp only [List.cons_append, List.append_assoc, List.nil_append]
      rw [value_object htail hc, hread]
      rfl

/-- Items of the grammar are read as they are, up to the bracket behind them. -/
theorem items_of_isItems {s : List Char} {vs : List Json} (h : IsItems s vs) {fuel : Nat}
    (hfuel : 2 * s.length + 1 ≤ fuel) (rest : List Char) :
    items fuel (s ++ ']' :: rest) = some (vs, rest) := by
  obtain ⟨fuel, rfl⟩ : ∃ n, fuel = n + 1 := ⟨fuel - 1, by omega⟩
  cases h with
  | @last a s b v ha hv hb =>
      have hend : Delimits ']' := .inr (.inl rfl)
      have hread : ∀ rest, Ends rest → value fuel (s ++ rest) = some (v, rest) :=
        fun _ => value_of_isValue hv (by simp at hfuel; omega)
      simp only [List.append_assoc]
      exact items_last (hend.value hread ha hb rest) (hend.skipBlanks hb rest)
  | @cons a s b t v vs ha hv hb hvs =>
      have hend : Delimits ',' := .inl rfl
      have hread : ∀ rest, Ends rest → value fuel (s ++ rest) = some (v, rest) :=
        fun _ => value_of_isValue hv (by simp at hfuel; omega)
      have hmore : items fuel (t ++ ']' :: rest) = some (vs, rest) :=
        items_of_isItems hvs (by simp at hfuel; omega) rest
      simp only [List.append_assoc, List.cons_append]
      rw [items_cons (hend.value hread ha hb _) (hend.skipBlanks hb _), hmore]
      rfl

/-- Members of the grammar are read as they are, up to the brace behind them. -/
theorem members_of_isMembers {s : List Char} {ms : List (String × Json)} (h : IsMembers s ms)
    {fuel : Nat} (hfuel : 2 * s.length + 1 ≤ fuel) (rest : List Char) :
    members fuel (s ++ '\x7d' :: rest) = some (ms.map fun (key, v) => (some key, v), rest) := by
  obtain ⟨fuel, rfl⟩ : ∃ n, fuel = n + 1 := ⟨fuel - 1, by omega⟩
  cases h with
  | @last k a s b key v hk ha hv hb =>
      have hend : Delimits '\x7d' := .inr (.inr rfl)
      have hread : ∀ rest, Ends rest → value fuel (s ++ rest) = some (v, rest) :=
        fun _ => value_of_isValue hv (by simp at hfuel; omega)
      simp only [List.append_assoc]
      exact members_last hk (hend.value hread ha hb rest) (hend.skipBlanks hb rest)
  | @cons k a s b t key v ms hk ha hv hb hms =>
      have hend : Delimits ',' := .inl rfl
      have hread : ∀ rest, Ends rest → value fuel (s ++ rest) = some (v, rest) :=
        fun _ => value_of_isValue hv (by simp at hfuel; omega)
      have hmore := members_of_isMembers hms (by simp at hfuel; omega : _ ≤ fuel) rest
      simp only [List.append_assoc, List.cons_append]
      rw [members_cons hk (hend.value hread ha hb _) (hend.skipBlanks hb _), hmore]
      rfl

end

/-- A text of the grammar is read as the value of which it is a text. -/
theorem read_of_isText {s : List Char} {v : Json} (h : IsText s v) : read s = some v := by
  obtain ⟨a, t, b, ha, hv, hb, rfl⟩ := h
  have hends : Ends b := by simpa using ends_append hb (s := []) (by simp [Ends])
  have hread : value (2 * (a ++ t ++ b).length + 1) (a ++ t ++ b) = some (v, b) := by
    rw [List.append_assoc, value_append ha]
    exact value_of_isValue hv (by simp; omega) hends
  have hbehind : skipBlanks b = [] := List.dropWhile_eq_nil_iff.mpr fun c hc =>
    (isBlank_iff c).mpr (hb c hc)
  rw [read, hread]
  simp [hbehind]

end LowOrbit.Json
