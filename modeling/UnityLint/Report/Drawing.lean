import UnityLint.Report.Basic
import UnityLint.Text.Wrap

/-! # Reports drawn over their source

A report shows the line of its label, the lines next to it, and the label below an underline. -/

namespace UnityLint.Report

def tabWidth : Nat := 4

def expandTabs : (column : Nat) → List Char → List Char
  | _, [] => []
  | column, char :: rest =>
      if char = '\t' then
        let width := tabWidth - column % tabWidth
        List.replicate width ' ' ++ expandTabs (column + width) rest
      else
        char :: expandTabs (column + 1) rest

/-- The lines of a source text; what follows the last line end counts only if it is not empty. -/
def lines (source : List Char) : List (List Char) :=
  let parts := Text.pieces (· = '\n') source
  if parts.getLast? = some [] then parts.dropLast else parts

def shown (line : List Char) : List Char :=
  expandTabs 0 (if line.getLast? = some '\r' then line.dropLast else line)

def byteSize (text : List Char) : Nat :=
  (String.ofList text).utf8ByteSize

def locate (offset : Nat) : List (List Char) → Nat × Nat
  | [] => (0, offset)
  | [_] => (0, offset)
  | line :: next :: rest =>
      if offset ≤ byteSize line then
        (0, offset)
      else
        let (number, position) := locate (offset - byteSize line - 1) (next :: rest)
        (number + 1, position)

def charsWithin : (size : Nat) → List Char → List Char
  | _, [] => []
  | size, char :: rest =>
      if char.utf8Size ≤ size then char :: charsWithin (size - char.utf8Size) rest else []

def blanks (count : Nat) : List Char :=
  List.replicate count ' '

/-- The columns that wrapped text takes up at most, with what stands in front of it. -/
def textWidth : Nat := 198

def paragraph (first others text : List Char) : List Char :=
  match Text.wrap (textWidth - first.length) text with
  | [] => []
  | line :: lines =>
      first ++ line ++ ['\n'] ++ lines.flatMap fun line => others ++ line ++ ['\n']

def padNumber (width number : Nat) : List Char :=
  let digits := (toString number).toList
  blanks (width - digits.length) ++ digits

def sourceRow (width number : Nat) (line : List Char) : List Char :=
  [' '] ++ padNumber width number ++ [' ', '│', ' '] ++ shown line ++ ['\n']

def noteRow (width : Nat) (note : List Char) : List Char :=
  blanks (width + 2) ++ ['·', ' '] ++ note ++ ['\n']

/-- The underline from one column to another, with the mark from which the label hangs. A label of no
length has an arrow for its underline. -/
def underline (start stop : Nat) (isEmpty : Bool) : List Char :=
  let middle := (start + stop) / 2
  blanks start ++ List.replicate (middle - start) '─' ++ [if isEmpty then '▲' else '┬'] ++
    List.replicate (stop - middle - 1) '─'

def neighbours (number : Nat) (lines : List (List Char)) : List (Nat × List Char) :=
  ([number - 1, number, number + 1].eraseDups).filterMap fun index =>
    lines[index]?.map fun line => (index, line)

def draw (report : Report) : String :=
  let lines := lines report.source.toList
  let (number, position) := locate report.offset lines
  let line := lines[number]?.getD []
  let start := (expandTabs 0 (charsWithin position line)).length
  let stop := max (start + 1) (expandTabs 0 (charsWithin (position + report.length) line)).length
  let rows := neighbours number lines
  let width := (toString ((rows.getLast?.map Prod.fst).getD 0 + 1)).length
  let notes :=
    noteRow width (underline start stop (report.length = 0)) ++
      noteRow width (blanks ((start + stop) / 2) ++ "╰── ".toList ++ report.label.toList)
  let drawn := rows.flatMap fun (index, line) =>
    sourceRow width (index + 1) line ++ (if index = number then notes else [])
  String.ofList <|
    paragraph "  × ".toList "  │ ".toList report.message.toList ++
    blanks (width + 2) ++ "╭─[".toList ++ report.name.toList ++
    (":" ++ toString (number + 1) ++ ":" ++ toString (position + 1) ++ "]\n").toList ++
    drawn ++
    blanks (width + 2) ++ "╰────\n".toList ++
    (report.help.elim [] fun help => paragraph "  help: ".toList (blanks 8) help.toList)

end UnityLint.Report
