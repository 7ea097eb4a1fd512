import UnityLint.Toml.Scalar

/-! # Reading TOML documents -/

namespace UnityLint.Toml

/-! ## Keys -/

def isBare (char : Char) : Bool :=
  char.isAlphanum ∨ char = '-' ∨ char = '_'

def simpleKey? : Reader String
  | '"' :: rest => (basicString rest).map fun (name, rest) => (String.ofList name, rest)
  | '\'' :: rest => (literalString rest).map fun (name, rest) => (String.ofList name, rest)
  | text =>
      let name := text.takeWhile isBare
      if name = [] then none else some (String.ofList name, text.dropWhile isBare)

def levelLimit : Nat := 80

def keyWithin : Nat → Reader (List String)
  | 0, _ => none
  | levels + 1, text =>
      (simpleKey? (skipSpace text)).bind fun (name, rest) =>
        match skipSpace rest with
        | '.' :: rest => (keyWithin levels rest).map fun (names, rest) => (name :: names, rest)
        | rest => some ([name], rest)

def key? : Reader (List String) :=
  keyWithin (levelLimit - 1)

/-! ## Values -/

def skipComment : List Char → List Char
  | '#' :: rest => rest.dropWhile isPlain
  | text => text

def skipLines : Nat → List Char → List Char
  | 0, text => text
  | fuel + 1, text =>
      let rest := skipSpace text
      match newline? (skipComment rest) with
      | some next => skipLines fuel next
      | none => rest

def skipBetween (text : List Char) : List Char :=
  skipLines (text.length + 1) text

def numeric? (text : List Char) : Option (Toml × List Char) :=
  (date? text).or ((float? text).or (integer? text))

def word? (text : List Char) : Option (Toml × List Char) :=
  match Text.dropStart? "true".toList text, Text.dropStart? "false".toList text with
  | some rest, _ => some (.boolean true, rest)
  | _, some rest => some (.boolean false, rest)
  | none, none => none

mutual

/-- A value with at most `levels` levels of arrays and tables inside; `fuel` bounds the steps. -/
def valueWithin : Nat → Nat → Reader Toml
  | 0, _, _ => none
  | fuel + 1, levels, text =>
      match text with
      | '"' :: _ | '\'' :: _ => (string? text).map fun (content, rest) => (.string content, rest)
      | '[' :: rest =>
          match levels with
          | 0 => none
          | levels + 1 =>
              match skipBetween rest with
              | ']' :: rest => some (.array [], rest)
              | rest =>
                  (itemsWithin fuel levels rest).map fun (items, rest) => (.array items, rest)
      | '\x7b' :: rest =>
          match levels with
          | 0 => none
          | levels + 1 =>
              match skipSpace rest with
              | '\x7d' :: rest => some (.table .closed [], rest)
              | rest => entriesWithin fuel levels (.table .closed []) rest
      | 't' :: _ | 'f' :: _ => word? text
      | _ => numeric? text

def itemsWithin : Nat → Nat → Reader (List Toml)
  | 0, _, _ => none
  | fuel + 1, levels, text =>
      (valueWithin fuel levels text).bind fun (item, rest) =>
        match skipBetween rest with
        | ']' :: rest => some ([item], rest)
        | ',' :: rest =>
            match skipBetween rest with
            | ']' :: rest => some ([item], rest)
            | rest =>
                (itemsWithin fuel levels rest).map fun (items, rest) => (item :: items, rest)
        | _ => none

def entriesWithin : Nat → Nat → Toml → Reader Toml
  | 0, _, _, _ => none
  | fuel + 1, levels, found, text =>
      (key? text).bind fun (names, rest) =>
        match rest with
        | '=' :: rest =>
            (valueWithin fuel levels (skipSpace rest)).bind fun (value, rest) =>
              ((names.getLast?).bind fun name => addDotted names.dropLast name value found).bind
                fun found =>
                  match skipSpace rest with
                  | '\x7d' :: rest => some (found, rest)
                  | ',' :: rest => entriesWithin fuel levels found rest
                  | _ => none
        | _ => none

end

def value? : Reader Toml := fun text =>
  valueWithin (2 * text.length + 2) (levelLimit - 1) text

/-! ## Documents -/

def lineEnd? (text : List Char) : Option (List Char) :=
  match skipComment (skipSpace text) with
  | [] => some []
  | rest => newline? rest

structure Draft where
  root : Toml := .table .headed []
  current : List String := []

namespace Draft

def add (draft : Draft) (names : List String) (value : Toml) : Option Draft :=
  names.getLast?.bind fun name =>
    (changeAt .implied (addDotted names.dropLast name value) draft.current draft.root).map
      fun root => { draft with root }

def openHeader (draft : Draft) (opening : String → Toml → Option Toml) (names : List String) :
    Option Draft :=
  names.getLast?.bind fun name =>
    (changeAt .implied (opening name) names.dropLast draft.root).map
      fun root => { root, current := names }

end Draft

def header? (draft : Draft) : Reader Draft
  | '[' :: '[' :: text => do
      let (names, rest) ← key? text
      let rest ← Text.dropStart? [']', ']'] rest
      let rest ← lineEnd? rest
      let draft ← draft.openHeader openNextTable names
      some (draft, rest)
  | '[' :: text => do
      let (names, rest) ← key? text
      let rest ← Text.dropStart? [']'] rest
      let rest ← lineEnd? rest
      let draft ← draft.openHeader openTable names
      some (draft, rest)
  | _ => none

def keyValue? (draft : Draft) : Reader Draft := fun text => do
  let (names, rest) ← key? text
  let rest ← skip '=' rest
  let (value, rest) ← value? (skipSpace rest)
  let rest ← lineEnd? rest
  let draft ← draft.add names value
  some (draft, rest)

def linesWithin : Nat → Draft → List Char → Option Draft
  | 0, _, _ => none
  | fuel + 1, draft, text =>
      match skipSpace text with
      | [] => some draft
      | '#' :: rest =>
          (lineEnd? ('#' :: rest)).bind fun next => linesWithin fuel draft next
      | '[' :: rest =>
          (header? draft ('[' :: rest)).bind fun (draft, next) => linesWithin fuel draft next
      | rest =>
          match newline? rest with
          | some next => linesWithin fuel draft next
          | none => (keyValue? draft rest).bind fun (draft, next) => linesWithin fuel draft next

def read? (text : List Char) : Option Toml :=
  let content := match text with
    | '﻿' :: rest => rest
    | _ => text
  (linesWithin (content.length + 1) {} content).map Draft.root

end UnityLint.Toml
