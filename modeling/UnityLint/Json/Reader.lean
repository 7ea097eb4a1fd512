import UnityLint.Json.Basic

/-! # Reading JSON -/

namespace UnityLint.Json

def isSpace (char : Char) : Bool :=
  char = ' ' ∨ char = '\n' ∨ char = '\t' ∨ char = '\r'

def skipSpace (text : List Char) : List Char :=
  text.dropWhile isSpace

/-! ## Strings -/

def isHighHalf (unit : Nat) : Bool :=
  0xD800 ≤ unit && unit < 0xDC00

def isLowHalf (unit : Nat) : Bool :=
  0xDC00 ≤ unit && unit < 0xE000

def joinUnits : List Nat → Option (List Char)
  | [] => some []
  | [unit] => if isHighHalf unit || isLowHalf unit then none else some [Char.ofNat unit]
  | unit :: next :: rest =>
      if isHighHalf unit then
        if isLowHalf next then
          (joinUnits rest).map
            (Char.ofNat (0x10000 + (unit - 0xD800) * 0x400 + (next - 0xDC00)) :: ·)
        else
          none
      else if isLowHalf unit then
        none
      else
        (joinUnits (next :: rest)).map (Char.ofNat unit :: ·)

def escaped? (char : Char) : Option Char :=
  if char = '"' ∨ char = '\\' ∨ char = '/' then some char
  else if char = 'b' then some '\x08'
  else if char = 'f' then some '\x0c'
  else if char = 'n' then some '\n'
  else if char = 'r' then some '\r'
  else if char = 't' then some '\t'
  else none

def stringUnits : List Char → Option (List Nat × List Char)
  | [] => none
  | '\\' :: 'u' :: first :: second :: third :: fourth :: rest =>
      (Text.hexFrom 0 [first, second, third, fourth]).bind fun unit =>
        (stringUnits rest).map fun (units, rest) => (unit :: units, rest)
  | '\\' :: char :: rest =>
      (escaped? char).bind fun plain =>
        (stringUnits rest).map fun (units, rest) => (plain.toNat :: units, rest)
  | char :: rest =>
      if char = '"' then some ([], rest)
      else if char = '\\' ∨ char.toNat < 0x20 then none
      else (stringUnits rest).map fun (units, rest) => (char.toNat :: units, rest)

def unitsText (units : List Nat) : Option String :=
  (joinUnits units).map String.ofList

/-! ## Numbers -/

def dropDigits? (text : List Char) : Option (List Char) :=
  match text with
  | char :: rest => if char.isDigit then some (rest.dropWhile Char.isDigit) else none
  | [] => none

def dropFraction? : List Char → Option (List Char)
  | '.' :: rest => dropDigits? rest
  | text => some text

def dropSign : List Char → List Char
  | '+' :: rest => rest
  | '-' :: rest => rest
  | text => text

def dropExponent? : List Char → Option (List Char)
  | 'e' :: rest => dropDigits? (dropSign rest)
  | 'E' :: rest => dropDigits? (dropSign rest)
  | text => some text

def unsigned? (text : List Char) : Option (Option Nat × List Char) :=
  let whole := text.takeWhile Char.isDigit
  let rest := text.dropWhile Char.isDigit
  if whole = [] ∨ (1 < whole.length ∧ whole.head? = some '0') then
    none
  else
    ((dropFraction? rest).bind dropExponent?).map fun after =>
      (if after.length = rest.length then Text.word? whole else none, after)

def number? : List Char → Option (Json × List Char)
  | '-' :: rest => (unsigned? rest).map fun (_, after) => (.number none, after)
  | text => (unsigned? text).map fun (value, after) => (.number value, after)

/-! ## Values -/

def word (name : String) (value : Json) (text : List Char) : Option (Json × List Char) :=
  (Text.dropStart? name.toList text).map fun rest => (value, rest)

mutual

def valueWithin : Nat → List Char → Option (Json × List Char)
  | 0, _ => none
  | fuel + 1, text =>
      match skipSpace text with
      | '"' :: rest =>
          (stringUnits rest).map fun (units, rest) => (.string (unitsText units), rest)
      | '[' :: rest =>
          match skipSpace rest with
          | ']' :: rest => some (.array [], rest)
          | rest => (itemsWithin fuel rest).map fun (items, rest) => (.array items, rest)
      | '\x7b' :: rest =>
          match skipSpace rest with
          | '\x7d' :: rest => some (.object [], rest)
          | rest => (fieldsWithin fuel rest).map fun (fields, rest) => (.object fields, rest)
      | 't' :: rest => word "rue" (.boolean true) rest
      | 'f' :: rest => word "alse" (.boolean false) rest
      | 'n' :: rest => word "ull" .null rest
      | rest => number? rest

def itemsWithin : Nat → List Char → Option (List Json × List Char)
  | 0, _ => none
  | fuel + 1, text =>
      (valueWithin fuel text).bind fun (item, rest) =>
        match skipSpace rest with
        | ']' :: rest => some ([item], rest)
        | ',' :: rest => (itemsWithin fuel rest).map fun (items, rest) => (item :: items, rest)
        | _ => none

def fieldsWithin : Nat → List Char → Option (List (Option String × Json) × List Char)
  | 0, _ => none
  | fuel + 1, text =>
      match skipSpace text with
      | '"' :: rest =>
          (stringUnits rest).bind fun (units, rest) =>
            match skipSpace rest with
            | ':' :: rest =>
                (valueWithin fuel rest).bind fun (value, rest) =>
                  match skipSpace rest with
                  | '\x7d' :: rest => some ([(unitsText units, value)], rest)
                  | ',' :: rest =>
                      (fieldsWithin fuel rest).map fun (fields, rest) =>
                        ((unitsText units, value) :: fields, rest)
                  | _ => none
            | _ => none
      | _ => none

end

/-- The value that a text writes. Every two levels of the recursion consume a character. -/
def read? (text : List Char) : Option Json :=
  match valueWithin (2 * text.length + 2) text with
  | some (value, rest) => if skipSpace rest = [] then some value else none
  | none => none

end UnityLint.Json
