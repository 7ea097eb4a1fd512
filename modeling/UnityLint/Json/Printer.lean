import UnityLint.Json.Basic

/-! # Writing JSON

Two blanks for each level, a field or item on each line, and empty collections closed at once. -/

namespace UnityLint.Json

def hexDigit (value : Nat) : Char :=
  if value < 10 then Char.ofNat ('0'.toNat + value) else Char.ofNat ('a'.toNat + (value - 10))

def escapeChar (char : Char) : List Char :=
  if char = '"' then ['\\', '"']
  else if char = '\\' then ['\\', '\\']
  else if char = '\x08' then ['\\', 'b']
  else if char = '\x0c' then ['\\', 'f']
  else if char = '\n' then ['\\', 'n']
  else if char = '\r' then ['\\', 'r']
  else if char = '\t' then ['\\', 't']
  else if char.toNat < 0x20 then
    ['\\', 'u', '0', '0', hexDigit (char.toNat / 16), hexDigit (char.toNat % 16)]
  else [char]

def quote (text : String) : List Char :=
  '"' :: text.toList.flatMap escapeChar ++ ['"']

def newLine (level : Nat) : List Char :=
  '\n' :: List.replicate (2 * level) ' '

mutual

def render (level : Nat) : Json → List Char
  | .null => "null".toList
  | .boolean value => if value then "true".toList else "false".toList
  | .number natural => (natural.elim "null" toString).toList
  | .string text => text.elim "null".toList quote
  | .array [] => "[]".toList
  | .array (item :: items) =>
      '[' :: newLine (level + 1) ++ render (level + 1) item ++
        renderItems (level + 1) items ++ newLine level ++ [']']
  | .object [] => ['\x7b', '\x7d']
  | .object ((key, value) :: fields) =>
      '\x7b' :: newLine (level + 1) ++ quote (key.getD "") ++ ':' :: ' ' ::
        render (level + 1) value ++
        renderFields (level + 1) fields ++ newLine level ++ ['\x7d']

def renderItems (level : Nat) : List Json → List Char
  | [] => []
  | item :: items => ',' :: newLine level ++ render level item ++ renderItems level items

def renderFields (level : Nat) : List (Option String × Json) → List Char
  | [] => []
  | (key, value) :: fields =>
      ',' :: newLine level ++ quote (key.getD "") ++ ':' :: ' ' :: render level value ++
        renderFields level fields

end

def text (value : Json) : String :=
  String.ofList (render 0 value)

end UnityLint.Json
