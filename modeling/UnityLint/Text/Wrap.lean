import UnityLint.Text.Basic

/-! # Wrapped text

Text is filled into lines word by word. A character counts as one column, as it does in ASCII text. -/

namespace UnityLint.Text

structure Word where
  text : List Char
  blanks : List Char
deriving DecidableEq, Repr

namespace Word

def all (word : Word) : List Char :=
  word.text ++ word.blanks

def split (limit : Nat) (word : Word) : List Word :=
  if 0 < limit ∧ limit < word.text.length then
    { text := word.text.take limit, blanks := [] } ::
      split limit { word with text := word.text.drop limit }
  else
    [word]
termination_by word.text.length
decreasing_by
  rw [List.length_drop]
  omega

end Word

def words : List Char → List Word
  | [] => []
  | char :: rest =>
      match words rest with
      | [] => if char = ' ' then [⟨[], [' ']⟩] else [⟨[char], []⟩]
      | word :: others =>
          if char ≠ ' ' then { word with text := char :: word.text } :: others
          else if word.text = [] then { word with blanks := ' ' :: word.blanks } :: others
          else ⟨[], [' ']⟩ :: word :: others

theorem flatMap_all_words (text : List Char) : (words text).flatMap Word.all = text := by
  induction text with
  | nil => rfl
  | cons char rest induction =>
      simp only [words]
      cases found : words rest with
      | nil =>
          have empty : rest = [] := by rw [← induction, found, List.flatMap_nil]
          subst empty
          by_cases blank : char = ' ' <;> simp [blank, Word.all]
      | cons word others =>
          rw [found] at induction
          by_cases blank : char = ' '
          · by_cases bare : word.text = [] <;>
              simp_all [Word.all, List.flatMap_cons]
          · simp [blank, Word.all, ← induction, List.flatMap_cons]

def fillFrom (limit : Nat) : (line : List Word) → (width : Nat) → List Word → List (List Word)
  | line, _, [] => [line.reverse]
  | line, width, word :: rest =>
      if limit < width + word.text.length ∧ line ≠ [] then
        line.reverse :: fillFrom limit [word] word.all.length rest
      else
        fillFrom limit (word :: line) (width + word.all.length) rest

def lineText (line : List Word) : List Char :=
  line.dropLast.flatMap Word.all ++ (line.getLast?.map Word.text).getD []

/-- The lines that a text fills. A word that is too long for a line starts on a line of its own and is
cut. -/
def wrap (limit : Nat) (text : List Char) : List (List Char) :=
  (pieces (· = '\n') text).flatMap fun line =>
    (fillFrom limit [⟨[], []⟩] 0 ((words line).flatMap (Word.split limit))).map lineText

end UnityLint.Text
