import UnityLint.Text.Basic

/-! # TOML values -/

namespace UnityLint

namespace Toml

inductive TableStyle where
  /-- Written as a value; nothing is added to it afterwards. -/
  | closed
  /-- Opened by a header of its own. -/
  | headed
  /-- Named on the way in a header. -/
  | implied
  /-- Named on the way in a dotted key. -/
  | dotted
deriving DecidableEq, Repr

end Toml

/-- A TOML value. Floats and dates are recognised, but their values are not kept. -/
inductive Toml where
  | string (text : String)
  | integer (value : Int)
  | float
  | boolean (value : Bool)
  | date
  | array (items : List Toml)
  | table (style : Toml.TableStyle) (entries : List (String × Toml))
  /-- Tables opened one after the other by headers in double brackets. -/
  | tables (items : List Toml)
deriving Repr

namespace Toml

def find? (name : String) (entries : List (String × Toml)) : Option Toml :=
  (entries.find? (·.1 = name)).map Prod.snd

def set (name : String) (value : Toml) : List (String × Toml) → List (String × Toml)
  | [] => [(name, value)]
  | entry :: rest =>
      if entry.1 = name then (name, value) :: rest else entry :: set name value rest

def changeLast (change : Toml → Option Toml) : List Toml → Option (List Toml)
  | [] => none
  | [last] => (change last).map ([·])
  | item :: rest => (changeLast change rest).map (item :: ·)

/-- Changes the table at the end of a path. Tables that are missing on the way are added with the given
style. A dotted key does not pass through a table that has a header or is closed, and nothing passes
through a value. -/
def changeAt (style : TableStyle) (change : Toml → Option Toml) : List String → Toml → Option Toml
  | [], target => change target
  | name :: path, .table own entries =>
      (match find? name entries with
        | none => changeAt style change path (.table style [])
        | some (.table inner innerEntries) =>
            if inner = TableStyle.closed ∨ (style = TableStyle.dotted ∧ inner = TableStyle.headed) then none
            else changeAt style change path (.table inner innerEntries)
        | some (.tables items) =>
            (changeLast (changeAt style change path) items).map .tables
        | some _ => none).map fun changed => .table own (set name changed entries)
  | _ :: _, _ => none

def addEntry (name : String) (value : Toml) : Toml → Option Toml
  | .table style entries =>
      match find? name entries with
      | none => some (.table style (set name value entries))
      | some _ => none
  | _ => none

/-- Adds an entry at the end of a dotted key; only tables made by dotted keys are extended that way. -/
def addDotted (path : List String) (name : String) (value : Toml) (target : Toml) : Option Toml :=
  if path = [] then
    addEntry name value target
  else
    changeAt .dotted
      (fun found => match found with
        | .table .dotted entries => addEntry name value (.table .dotted entries)
        | _ => none)
      path target

def openTable (name : String) : Toml → Option Toml
  | .table style entries =>
      match find? name entries with
      | none => some (.table style (set name (.table .headed []) entries))
      | some (.table .implied inner) =>
          some (.table style (set name (.table .headed inner) entries))
      | some _ => none
  | _ => none

def openNextTable (name : String) : Toml → Option Toml
  | .table style entries =>
      match find? name entries with
      | none => some (.table style (set name (.tables [.table .headed []]) entries))
      | some (.tables items) =>
          some (.table style (set name (.tables (items ++ [.table .headed []])) entries))
      | some _ => none
  | _ => none

/-! ## Records

The fields of a record are found in a table by name, or in an array by position. -/

/-- The values of the named fields, each of which may be missing. A date counts as a table with a
field of its own. -/
def record (names : List String) : Toml → Option (List (Option Toml))
  | .table _ entries => some (names.map (find? · entries))
  | .array items => some ((List.range names.length).map (items[·]?))
  | .tables items => some ((List.range names.length).map (items[·]?))
  | .date => some (names.map fun _ => none)
  | _ => none

def text? : Toml → Option String
  | .string text => some text
  | _ => none

def boolean? : Toml → Option Bool
  | .boolean value => some value
  | _ => none

def nat? : Toml → Option Nat
  | .integer (.ofNat value) => some value
  | _ => none

def list? {α : Type} (item? : Toml → Option α) : Toml → Option (List α)
  | .array items => items.mapM item?
  | .tables items => items.mapM item?
  | _ => none

end Toml

end UnityLint
