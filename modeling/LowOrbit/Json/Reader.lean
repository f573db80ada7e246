import LowOrbit.Json

/-!
# Reading JSON

A reader of the standard grammar: blanks are space, tab, line feed and carriage return, control
characters do not stand in strings, and nothing but blanks follows the value. Each part of the
reader takes what it needs from the front of the text and returns the rest.
-/

namespace LowOrbit.Json

/-- The characters that may stand between the parts of a text. -/
def isBlank (c : Char) : Bool := c = ' ' || c = '\t' || c = '\n' || c = '\r'

/-- The text behind the blanks at its front. -/
def skipBlanks (s : List Char) : List Char := s.dropWhile isBlank

/-- A piece of a string literal: a character, or a UTF-16 unit in an escape. -/
inductive Piece where
  | char (c : Char)
  | unit (u : Nat)
  deriving DecidableEq, Repr

/-- The text of a string literal. Two units that form a surrogate pair denote one character, and a
unit that is half of a pair denotes nothing by itself. -/
def Piece.text? : List Piece → Option (List Char)
  | [] => some []
  | .char c :: rest => (Piece.text? rest).map (c :: ·)
  | .unit high :: .unit low :: rest =>
    if high < 0xD800 ∨ 0xE000 ≤ high then
      (Piece.text? (.unit low :: rest)).map (Char.ofNat high :: ·)
    else if high < 0xDC00 ∧ 0xDC00 ≤ low ∧ low < 0xE000 then
      (Piece.text? rest).map
        (Char.ofNat (0x10000 + (high - 0xD800) * 0x400 + (low - 0xDC00)) :: ·)
    else none
  | .unit u :: rest =>
    if u < 0xD800 ∨ 0xE000 ≤ u then (Piece.text? rest).map (Char.ofNat u :: ·) else none

/-- The value of a hexadecimal digit. -/
def hexDigit? (c : Char) : Option Nat :=
  if '0' ≤ c ∧ c ≤ '9' then some (c.toNat - '0'.toNat)
  else if 'a' ≤ c ∧ c ≤ 'f' then some (c.toNat - 'a'.toNat + 10)
  else if 'A' ≤ c ∧ c ≤ 'F' then some (c.toNat - 'A'.toNat + 10)
  else none

/-- The character that an escape of one letter stands for. -/
def escaped? : Char → Option Char
  | '"' => some '"'
  | '\\' => some '\\'
  | '/' => some '/'
  | 'b' => some '\x08'
  | 'f' => some '\x0c'
  | 'n' => some '\n'
  | 'r' => some '\r'
  | 't' => some '\t'
  | _ => none

/-- The pieces of a string literal behind its opening quote. -/
def pieces : List Char → Option (List Piece × List Char)
  | '"' :: rest => some ([], rest)
  | '\\' :: 'u' :: a :: b :: c :: d :: rest => do
    let a ← hexDigit? a
    let b ← hexDigit? b
    let c ← hexDigit? c
    let d ← hexDigit? d
    let (found, rest) ← pieces rest
    pure (.unit (((a * 16 + b) * 16 + c) * 16 + d) :: found, rest)
  | '\\' :: letter :: rest => do
    let c ← escaped? letter
    let (found, rest) ← pieces rest
    pure (.char c :: found, rest)
  | c :: rest =>
    if c.toNat < 0x20 ∨ c = '\\' then none
    else do
      let (found, rest) ← pieces rest
      pure (.char c :: found, rest)
  | [] => none

/-- A string literal behind its opening quote, as the text that it denotes. -/
def literal (s : List Char) : Option (Option String × List Char) :=
  (pieces s).map fun (found, rest) => ((Piece.text? found).map String.ofList, rest)

/-- Takes the digits at the front of a text. There must be one. -/
def digits (s : List Char) : Option (List Char × List Char) :=
  match s.takeWhile Char.isDigit with
  | [] => none
  | found => some (found, s.dropWhile Char.isDigit)

/-- Takes the digits of a number before its point. Only zero itself starts with a zero. -/
def wholeDigits (s : List Char) : Option (List Char × List Char) :=
  match digits s with
  | some ('0' :: _ :: _, _) => none
  | other => other

/-- Takes the fraction of a number if there is one. -/
def fraction (s : List Char) : Option (List Char × List Char) :=
  match s with
  | '.' :: rest => (digits rest).map fun (found, rest) => ('.' :: found, rest)
  | _ => some ([], s)

/-- Takes the sign of an exponent if there is one. -/
def exponentSign : List Char → List Char × List Char
  | '+' :: rest => (['+'], rest)
  | '-' :: rest => (['-'], rest)
  | s => ([], s)

/-- Takes the exponent of a number if there is one. -/
def exponent (s : List Char) : Option (List Char × List Char) :=
  match s with
  | c :: rest =>
    if c = 'e' ∨ c = 'E' then
      let (sign, rest) := exponentSign rest
      (digits rest).map fun (found, rest) => (c :: sign ++ found, rest)
    else some ([], s)
  | [] => some ([], s)

/-- A number behind its sign. -/
def unsigned (negative : Bool) (s : List Char) : Option (Json × List Char) := do
  let (whole, rest) ← wholeDigits s
  let (fraction, rest) ← fraction rest
  let (exponent, rest) ← exponent rest
  let sign := if negative then ['-'] else []
  pure (if fraction.isEmpty && exponent.isEmpty then .integer negative (Nat.ofDigitChars 10 whole 0)
    else .decimal (sign ++ whole ++ fraction ++ exponent), rest)

/-- A number. -/
def number : List Char → Option (Json × List Char)
  | '-' :: rest => unsigned true rest
  | s => unsigned false s

mutual

/-- A value and the text behind it. The number bounds the depth of the calls. -/
def value : Nat → List Char → Option (Json × List Char)
  | 0, _ => none
  | fuel + 1, s =>
    match skipBlanks s with
    | '\x7b' :: rest =>
      match skipBlanks rest with
      | '\x7d' :: rest => some (.object [], rest)
      | rest => (members fuel rest).map fun (found, rest) => (.object found, rest)
    | '[' :: rest =>
      match skipBlanks rest with
      | ']' :: rest => some (.array [], rest)
      | rest => (items fuel rest).map fun (found, rest) => (.array found, rest)
    | '"' :: rest => (literal rest).map fun (text, rest) => (.string text, rest)
    | 'n' :: 'u' :: 'l' :: 'l' :: rest => some (.null, rest)
    | 't' :: 'r' :: 'u' :: 'e' :: rest => some (.bool true, rest)
    | 'f' :: 'a' :: 'l' :: 's' :: 'e' :: rest => some (.bool false, rest)
    | rest => number rest

/-- The items of an array that has one, behind its opening bracket. -/
def items : Nat → List Char → Option (List Json × List Char)
  | 0, _ => none
  | fuel + 1, s => do
    let (item, rest) ← value fuel s
    match skipBlanks rest with
    | ']' :: rest => pure ([item], rest)
    | ',' :: rest =>
      let (found, rest) ← items fuel rest
      pure (item :: found, rest)
    | _ => none

/-- The members of an object that has one, behind its opening brace. -/
def members : Nat → List Char → Option (List (Option String × Json) × List Char)
  | 0, _ => none
  | fuel + 1, s =>
    match skipBlanks s with
    | '"' :: rest => do
      let (key, rest) ← literal rest
      match skipBlanks rest with
      | ':' :: rest =>
        let (item, rest) ← value fuel rest
        match skipBlanks rest with
        | '\x7d' :: rest => pure ([(key, item)], rest)
        | ',' :: rest =>
          let (found, rest) ← members fuel rest
          pure ((key, item) :: found, rest)
        | _ => none
      | _ => none
    | _ => none

end

/-- The value of a whole text. No call is nested deeper than twice the length of the text. -/
def read (s : List Char) : Option Json :=
  match value (2 * s.length + 1) s with
  | some (found, rest) => if (skipBlanks rest).isEmpty then some found else none
  | none => none

end LowOrbit.Json
