import UnityLint.IgnoreFile.Pattern

/-! # Ignore files

An ignore file lists patterns, one on each line, for the paths below its directory. The last pattern
that applies decides. -/

namespace UnityLint

structure IgnoreRule where
  pattern : List IgnoreFile.Wildcard
  keeps : Bool
  onlyDirectories : Bool

abbrev IgnoreFile := List IgnoreRule

namespace IgnoreFile

inductive Verdict where
  | ignored
  | kept
deriving DecidableEq, Repr

/-! ## Reading -/

/-- Drops the blanks at the end of a line, unless a backslash keeps the last one. -/
def trimLine (line : List Char) : List Char :=
  if ['\\', ' '].isSuffixOf line then line else Text.trimEnd line

structure Line where
  text : List Char
  keeps : Bool
  anchored : Bool
  onlyDirectories : Bool

def Line.ofText (line : List Char) : Line :=
  let (keeps, anchored, text) := match line with
    | '\\' :: '!' :: rest => (false, false, '!' :: rest)
    | '\\' :: '#' :: rest => (false, false, '#' :: rest)
    | '!' :: '/' :: rest => (true, true, rest)
    | '!' :: rest => (true, false, rest)
    | '/' :: rest => (false, true, rest)
    | rest => (false, false, rest)
  match text.getLast? with
  | some '/' =>
      let body := text.dropLast
      { text := if body.getLast? = some '\\' then body.dropLast else body
        keeps, anchored, onlyDirectories := true }
  | _ => { text, keeps, anchored, onlyDirectories := false }

/-- The pattern of a line as it is matched. A name without a slash applies at any depth, and `**` at the
end stands for what is inside a directory only. -/
def Line.pattern (line : Line) : List Char :=
  let placed :=
    if line.anchored ∨ '/' ∈ line.text ∨ line.text = ['*', '*'] then line.text
    else '*' :: '*' :: '/' :: line.text
  if ['/', '*', '*'].isSuffixOf placed then placed ++ ['/', '*'] else placed

def rule? (line : List Char) : Option IgnoreRule :=
  match trimLine line with
  | [] => none
  | char :: rest =>
      if line.head? = some '#' then
        none
      else
        let found := Line.ofText (char :: rest)
        (Wildcard.read? found.pattern).map fun pattern =>
          { pattern, keeps := found.keeps, onlyDirectories := found.onlyDirectories }

/-- The lines of a file: each ends with a line feed, or with a carriage return and a line feed. -/
def lines (content : List UInt8) : List (List UInt8) :=
  let parts := Text.pieces (· = 0x0A) content
  parts.dropLast.map (fun line => if line.getLast? = some 0x0D then line.dropLast else line) ++
    (parts.getLast?.filter (· ≠ [])).toList

def decode : List (List UInt8) → List (List Char)
  | [] => []
  | line :: rest =>
      match String.fromUTF8? line.toByteArray with
      | some text => text.toList :: decode rest
      | none => []

def isByteOrderMark (char : Char) : Bool :=
  char.toNat = 0xFEFF

def dropByteOrderMark : List (List Char) → List (List Char)
  | [] => []
  | first :: rest => first.dropWhile isByteOrderMark :: rest

def ofContent (content : List UInt8) : IgnoreFile :=
  (dropByteOrderMark (decode (lines content))).filterMap rule?

/-! ## Verdicts -/

def verdict? (file : IgnoreFile) (path : List UInt8) (isDirectory : Bool) : Option Verdict :=
  (file.reverse.find? fun rule =>
      (!rule.onlyDirectories || isDirectory) && Wildcard.describes rule.pattern path).map
    fun rule => if rule.keeps then .kept else .ignored

end IgnoreFile

end UnityLint
