import UnityLint.Ends
import UnityLint.Text.Basic

/-! # Patterns of ignore files

A pattern is matched against the bytes of a path. A wildcard stops at slashes, and `**` that fills a path
component stands for any number of directories. -/

namespace UnityLint.IgnoreFile

inductive Wildcard where
  | byte (value : UInt8)
  | anyByte
  | anyName
  /-- `**` in front of a path: any directories, or none. -/
  | leading
  /-- `**` at the end of a path: all that is below. -/
  | trailing
  /-- `**` between two names: a slash, or any directories. -/
  | between
  | set (negated : Bool) (ranges : List (UInt8 × UInt8))
  /-- One of the branches; nothing if there are none. -/
  | choice (branches : List (List Wildcard))

namespace Wildcard

def slash : UInt8 := 0x2F

def bytes (text : List Char) : List UInt8 :=
  (String.ofList text).toUTF8.toList

/-! ## Matching -/

abbrev Accepts := List UInt8 → Bool

def isSlash (value : UInt8) : Bool :=
  value = slash

def isInName (value : UInt8) : Bool :=
  value ≠ slash

def isAny (_ : UInt8) : Bool :=
  true

def inRanges (negated : Bool) (ranges : List (UInt8 × UInt8)) (value : UInt8) : Bool :=
  ranges.any (fun (first, last) => first ≤ value && value ≤ last) != negated

mutual

def before (accepts : Accepts) : Wildcard → Accepts
  | .byte value => Ends.afterOne (· = value) accepts
  | .anyByte => Ends.afterOne isInName accepts
  | .anyName => Ends.afterMany isInName accepts
  | .leading => Ends.either accepts (Ends.afterMany isAny (Ends.afterOne isSlash accepts))
  | .trailing => Ends.afterOne isSlash (Ends.afterMany isAny accepts)
  | .between =>
      Ends.afterOne isSlash
        (Ends.either accepts (Ends.afterMany isAny (Ends.afterOne isSlash accepts)))
  | .set negated ranges => Ends.afterOne (inRanges negated ranges) accepts
  | .choice [] => accepts
  | .choice (branch :: branches) => someBefore accepts (branch :: branches)

def allBefore (accepts : Accepts) : List Wildcard → Accepts
  | [] => accepts
  | wildcard :: rest => before (allBefore accepts rest) wildcard

def someBefore (accepts : Accepts) : List (List Wildcard) → Accepts
  | [] => fun _ => false
  | branch :: branches => Ends.either (allBefore accepts branch) (someBefore accepts branches)

end

mutual

def answersBefore (text : List UInt8) (answers : List Bool) : Wildcard → List Bool
  | .byte value => Ends.afterOneAnswers (· = value) text answers
  | .anyByte => Ends.afterOneAnswers isInName text answers
  | .anyName => Ends.afterManyAnswers isInName text answers
  | .leading =>
      Ends.eitherAnswers answers
        (Ends.afterManyAnswers isAny text (Ends.afterOneAnswers isSlash text answers))
  | .trailing => Ends.afterOneAnswers isSlash text (Ends.afterManyAnswers isAny text answers)
  | .between =>
      Ends.afterOneAnswers isSlash text
        (Ends.eitherAnswers answers
          (Ends.afterManyAnswers isAny text (Ends.afterOneAnswers isSlash text answers)))
  | .set negated ranges => Ends.afterOneAnswers (inRanges negated ranges) text answers
  | .choice [] => answers
  | .choice (branch :: branches) => answersBeforeSome text answers (branch :: branches)

def answersBeforeAll (text : List UInt8) (answers : List Bool) : List Wildcard → List Bool
  | [] => answers
  | wildcard :: rest => answersBefore text (answersBeforeAll text answers rest) wildcard

def answersBeforeSome (text : List UInt8) (answers : List Bool) : List (List Wildcard) → List Bool
  | [] => Ends.noAnswers text
  | branch :: branches =>
      Ends.eitherAnswers (answersBeforeAll text answers branch)
        (answersBeforeSome text answers branches)

end

mutual

theorem answers_before (text : List UInt8) (accepts : Accepts) : (wildcard : Wildcard) →
    Ends.answers (before accepts wildcard) text =
      answersBefore text (Ends.answers accepts text) wildcard
  | .byte _ | .anyByte | .set _ _ => by
      simp only [before, answersBefore, Ends.answers_afterOne]
  | .anyName => by simp only [before, answersBefore, Ends.answers_afterMany]
  | .leading | .trailing | .between => by
      simp only [before, answersBefore, Ends.answers_afterOne, Ends.answers_afterMany,
        Ends.answers_either]
  | .choice [] => by simp only [before, answersBefore]
  | .choice (branch :: branches) => by
      simp only [before, answersBefore]
      exact answers_someBefore text accepts (branch :: branches)

theorem answers_allBefore (text : List UInt8) (accepts : Accepts) : (wildcards : List Wildcard) →
    Ends.answers (allBefore accepts wildcards) text =
      answersBeforeAll text (Ends.answers accepts text) wildcards
  | [] => by simp only [allBefore, answersBeforeAll]
  | wildcard :: rest => by
      simp only [allBefore, answersBeforeAll]
      rw [answers_before text _ wildcard, answers_allBefore text accepts rest]

theorem answers_someBefore (text : List UInt8) (accepts : Accepts) :
    (branches : List (List Wildcard)) →
    Ends.answers (someBefore accepts branches) text =
      answersBeforeSome text (Ends.answers accepts text) branches
  | [] => by simp only [someBefore, answersBeforeSome, Ends.noAnswers]
  | branch :: branches => by
      simp only [someBefore, answersBeforeSome, Ends.answers_either]
      rw [answers_allBefore text accepts branch, answers_someBefore text accepts branches]

end

def covers : List Wildcard → Accepts
  | [.leading], _ => true
  | wildcards, text => allBefore List.isEmpty wildcards text

def describes : List Wildcard → Accepts
  | [.leading], _ => true
  | wildcards, text =>
      Ends.whole (answersBeforeAll text (Ends.answers List.isEmpty text) wildcards)

theorem describes_eq_covers (wildcards : List Wildcard) (text : List UInt8) :
    describes wildcards text = covers wildcards text := by
  unfold describes covers
  split
  · rfl
  · rw [← answers_allBefore, Ends.whole_answers]

def isBlank (wildcards : List Wildcard) : Bool :=
  wildcards.all fun wildcard => match wildcard with
    | .choice [] => true
    | _ => false

/-! ## Reading -/

/-- The bytes that a range of characters covers. Beyond ASCII the bytes of its two ends count one by
one, except that the last of the first end and the first of the last end span a range. -/
def byteRanges (first last : Char) : List (UInt8 × UInt8) :=
  let firstBytes := bytes [first]
  let lastBytes := bytes [last]
  if first = last then
    firstBytes.map fun value => (value, value)
  else
    firstBytes.dropLast.map (fun value => (value, value)) ++
      (match firstBytes.getLast?, lastBytes.head? with
        | some low, some high => [(low, high)]
        | _, _ => []) ++
      lastBytes.tail.map fun value => (value, value)

inductive Bracket where
  | closed (ranges : List (Char × Char)) (rest : List Char)
  | unclosed
  | disordered

/-- Reads a set after its first character; `ranges` is reversed, and `dashed` says that the last
character was a dash after it. -/
def readSet (ranges : List (Char × Char)) (dashed : Bool) : List Char → Bracket
  | [] => .unclosed
  | ']' :: rest => .closed (if dashed then ('-', '-') :: ranges else ranges).reverse rest
  | char :: rest =>
      if dashed then
        match ranges with
        | (first, _) :: others =>
            if char < first then .disordered else readSet ((first, char) :: others) false rest
        | [] => .unclosed
      else if char = '-' then
        readSet ranges true rest
      else
        readSet ((char, char) :: ranges) false rest

def readBracket : List Char → Bracket
  | [] => .unclosed
  | char :: rest => readSet [(char, char)] false rest

structure Frame where
  finished : List (List Wildcard) := []
  current : List Wildcard := []

def Frame.choice (frame : Frame) : Wildcard :=
  .choice ((frame.finished ++ [frame.current.reverse]).filter fun branch => !isBlank branch)

structure Draft where
  inner : Frame := {}
  outer : List Frame := []
  /-- A bracket was never closed, so all brackets stand for themselves. -/
  plainBrackets : Bool := false

namespace Draft

def push (draft : Draft) (wildcard : Wildcard) : Draft :=
  { draft with inner := { draft.inner with current := wildcard :: draft.inner.current } }

def pushChar (draft : Draft) (char : Char) : Draft :=
  (bytes [char]).foldl (fun draft value => draft.push (.byte value)) draft

def pushDirectories (draft : Draft) (wildcard : Wildcard) : Draft :=
  match draft.inner.current with
  | .leading :: _ => draft
  | .trailing :: _ => draft
  | _ :: rest => { draft with inner := { draft.inner with current := wildcard :: rest } }
  | [] => draft.push wildcard

def isNested (draft : Draft) : Bool :=
  !draft.outer.isEmpty

end Draft

/-- The character in front of a branch, also where a backslash makes it stand for itself. -/
def opensBranch (before : Option Char) : Bool :=
  before = some ',' ∨ before = some '\x7b'

def readFrom : (fuel : Nat) → Draft → Option Char → List Char → Option (List Wildcard)
  | 0, _, _, _ => none
  | _ + 1, draft, _, [] => if draft.isNested then none else some draft.inner.current.reverse
  | fuel + 1, draft, before, char :: rest =>
      match char with
      | '?' => readFrom fuel (draft.push .anyByte) (some '?') rest
      | '*' =>
          match rest with
          | '*' :: rest =>
              let names := (draft.push .anyName).push .anyName
              let followed := rest.head?
              if draft.inner.current.isEmpty then
                match rest with
                | [] => readFrom fuel (draft.push .leading) (some '*') []
                | '/' :: rest => readFrom fuel (draft.push .leading) (some '/') rest
                | _ => readFrom fuel names (some '*') rest
              else if before ≠ some '/' ∧ !(draft.isNested ∧ opensBranch before) then
                readFrom fuel names (some '*') rest
              else if followed = none ∨
                  (draft.isNested ∧ (followed = some ',' ∨ followed = some '\x7d')) then
                readFrom fuel (draft.pushDirectories .trailing) (some '*') rest
              else if followed = some '/' then
                readFrom fuel (draft.pushDirectories .between) (some '/') rest.tail
              else
                readFrom fuel names (some '*') rest
          | _ => readFrom fuel (draft.push .anyName) (some '*') rest
      | '[' =>
          if draft.plainBrackets then
            readFrom fuel (draft.pushChar '[') (some '[') rest
          else
            let negated := rest.head? = some '!' ∨ rest.head? = some '^'
            match readBracket (if negated then rest.tail else rest) with
            | .closed ranges rest =>
                let wildcard := .set negated (ranges.flatMap fun (first, last) => byteRanges first last)
                readFrom fuel (draft.push wildcard) (some ']') rest
            | .unclosed =>
                readFrom fuel { draft.pushChar '[' with plainBrackets := true } (some '[') rest
            | .disordered => none
      | '\x7b' =>
          readFrom fuel { draft with inner := {}, outer := draft.inner :: draft.outer } (some char) rest
      | '\x7d' =>
          match draft.outer with
          | [] => none
          | frame :: outer =>
              readFrom fuel
                ({ draft with inner := frame, outer }.push draft.inner.choice) (some char) rest
      | ',' =>
          if draft.isNested then
            let inner : Frame :=
              { finished := draft.inner.finished ++ [draft.inner.current.reverse] }
            readFrom fuel { draft with inner } (some char) rest
          else
            readFrom fuel (draft.pushChar char) (some char) rest
      | '\\' =>
          match rest with
          | [] => none
          | next :: rest => readFrom fuel (draft.pushChar next) (some next) rest
      | _ => readFrom fuel (draft.pushChar char) (some char) rest

def read? (text : List Char) : Option (List Wildcard) :=
  readFrom (text.length + 1) {} none text

end Wildcard

end UnityLint.IgnoreFile
