import UnityLint.Text.Basic

/-! # JSON values -/

namespace UnityLint

/-- A JSON value. Of a number only its value as a natural number below `2 ^ 64` is kept, and of a
string only a text: half of a surrogate pair has none. -/
inductive Json where
  | null
  | boolean (value : Bool)
  | number (natural : Option Nat)
  | string (text : Option String)
  | array (items : List Json)
  | object (fields : List (Option String × Json))
deriving Repr

namespace Json

def ofNat (value : Nat) : Json :=
  .number (some value)

def ofString (text : String) : Json :=
  .string (some text)

def keyed (fields : List (Option String × Json)) : Option (List (String × Json)) :=
  fields.mapM fun field => field.1.map fun key => (key, field.2)

def fieldOnce (fields : List (String × Json)) (name : String) : Option (Option Json) :=
  match fields.filter (·.1 = name) with
  | [] => some none
  | [field] => some (some field.2)
  | _ => none

/-- The values of the named fields of a record, each of which may be missing. A record is written as an
object, in which other fields do not matter, or as an array of its fields in order, which may end
early. -/
def record (names : List String) : Json → Option (List (Option Json))
  | .object fields => (keyed fields).bind fun fields => names.mapM (fieldOnce fields)
  | .array items =>
      if items.length ≤ names.length then
        some (items.map some ++ List.replicate (names.length - items.length) none)
      else
        none
  | _ => none

def nat? : Json → Option Nat
  | .number natural => natural
  | _ => none

def text? : Json → Option String
  | .string text => text
  | _ => none

def list? {α : Type} (item? : Json → Option α) : Json → Option (List α)
  | .array items => items.mapM item?
  | _ => none

end Json

end UnityLint
