/-!
# JSON values

A JSON value as its text gives it: members in the order of the text, repeated keys kept, and
numbers with the distinction between integers and other decimals. A string literal may escape one
half of a surrogate pair without the other. Such a literal is well formed but denotes no text.
-/

namespace LowOrbit

/-- A JSON value. A string or key is `none` if its literal denotes no text. -/
inductive Json where
  | null
  | bool (value : Bool)
  /-- A number without fraction and exponent. The sign is kept for zero too. -/
  | integer (negative : Bool) (magnitude : Nat)
  /-- A number with a fraction or an exponent, as it is written. -/
  | decimal (literal : List Char)
  | string (text : Option String)
  | array (items : List Json)
  | object (members : List (Option String × Json))

namespace Json

/-- The truth value of a value. -/
def bool? : Json → Option Bool
  | bool value => some value
  | _ => none

/-- The number of a value, if it is an integer without sign and at most `limit`. -/
def nat? (limit : Nat) : Json → Option Nat
  | integer false n => if n ≤ limit then some n else none
  | _ => none

/-- The number of a value that may be null. -/
def optionalNat? (limit : Nat) : Json → Option (Option Nat)
  | null => some none
  | v => (v.nat? limit).map some

/-- The name that a value stands for. A name is a text, or the key of an object whose only member
is null. -/
def name? : Json → Option String
  | string text => text
  | object [(key, null)] => key
  | _ => none

/-- The members of a record with the keys `keys`. A record is an object all of whose keys denote
texts, or an array of the first values in the order of `keys`. -/
def members? (keys : List String) : Json → Option (List (String × Json))
  | object members => members.mapM fun (key, value) => key.map (·, value)
  | array items => if items.length ≤ keys.length then some (keys.zip items) else none
  | _ => none

/-- Reads the member `key` of an object. A missing member counts as `default`, and a repeated
member is refused. -/
def field {α : Type} (members : List (String × Json)) (key : String) (read : Json → Option α)
    (default : α) : Option α :=
  match members.filter (·.1 = key) with
  | [] => some default
  | [(_, value)] => read value
  | _ => none

end Json

end LowOrbit
