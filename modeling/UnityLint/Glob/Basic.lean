import UnityLint.Ends
import UnityLint.Text.Basic

/-! # Globs

A glob describes whole paths: `?` is any character, `*` any text, `[a-z]` and `[!a-z]` a character of a
set, and `**` any number of directories. Slashes are characters like any other, except that `**` stops
only after one. -/

namespace UnityLint

namespace Glob

inductive Range where
  | single (char : Char)
  | between (first last : Char)
deriving DecidableEq, Repr

def Range.includes : Range → Char → Bool
  | .single char, found => found = char
  | .between first last, found => first ≤ found && found ≤ last

def ranges : List Char → List Range
  | first :: '-' :: last :: rest => .between first last :: ranges rest
  | char :: rest => .single char :: ranges rest
  | [] => []

inductive Token where
  | char (char : Char)
  | anyChar
  | oneOf (ranges : List Range)
  | noneOf (ranges : List Range)
  | anyText
  | anyDirectories
deriving DecidableEq, Repr

/-! ## Reading -/

inductive Fault where
  | wildcards
  | directories
  | set
deriving DecidableEq, Repr

def Fault.message : Fault → String
  | .wildcards => "wildcards are either regular `*` or recursive `**`"
  | .directories => "recursive wildcards must form a single path component"
  | .set => "invalid range pattern"

structure Error where
  position : Nat
  fault : Fault
deriving DecidableEq, Repr

def Error.message (error : Error) : String :=
  "Pattern syntax error near position " ++ toString error.position ++ ": " ++ error.fault.message

/-- A set whose closing bracket has not been reached. Its first character may be a bracket. -/
structure OpenSet where
  start : Nat
  negated : Bool
  chars : List Char := []

def OpenSet.token (openSet : OpenSet) : Token :=
  if openSet.negated then .noneOf (ranges openSet.chars) else .oneOf (ranges openSet.chars)

def startsComponent (before : Option Char) : Bool :=
  before.all (· = '/')

def scan : Option OpenSet → Nat → Option Char → List Char → Except Error (List Token)
  | none, _, _, [] => .ok []
  | some openSet, _, _, [] => .error ⟨openSet.start, .set⟩
  | some openSet, position, _, char :: rest =>
      if char = ']' ∧ openSet.chars ≠ [] then
        (openSet.token :: ·) <$> scan none (position + 1) (some char) rest
      else
        scan (some { openSet with chars := openSet.chars ++ [char] }) (position + 1) (some char) rest
  | none, position, _, '?' :: rest => (.anyChar :: ·) <$> scan none (position + 1) (some '?') rest
  | none, position, _, '*' :: '*' :: '*' :: _ => .error ⟨position + 2, .wildcards⟩
  | none, position, before, '*' :: '*' :: rest =>
      if startsComponent before then
        match rest with
        | [] => .ok [.anyDirectories]
        | '/' :: rest => (.anyDirectories :: ·) <$> scan none (position + 3) (some '/') rest
        | _ => .error ⟨position + 2, .directories⟩
      else
        .error ⟨position - 1, .directories⟩
  | none, position, _, '*' :: rest => (.anyText :: ·) <$> scan none (position + 1) (some '*') rest
  | none, position, _, '[' :: '!' :: rest =>
      scan (some { start := position, negated := true }) (position + 2) (some '!') rest
  | none, position, _, '[' :: rest =>
      scan (some { start := position, negated := false }) (position + 1) (some '[') rest
  | none, position, _, char :: rest => (.char char :: ·) <$> scan none (position + 1) (some char) rest

/-! ## Matching -/

def Token.before (token : Token) (accepts : List Char → Bool) : List Char → Bool :=
  match token with
  | .char wanted => Ends.afterOne (· = wanted) accepts
  | .anyChar => Ends.afterOne (fun _ => true) accepts
  | .oneOf ranges => Ends.afterOne (fun found => ranges.any (·.includes found)) accepts
  | .noneOf ranges => Ends.afterOne (fun found => !ranges.any (·.includes found)) accepts
  | .anyText => Ends.afterMany (fun _ => true) accepts
  | .anyDirectories =>
      Ends.either accepts <|
        Ends.either (Ends.afterMany (fun _ => true) (Ends.afterOne (· = '/') accepts)) <|
          Ends.atEnd accepts

def covers (tokens : List Token) : List Char → Bool :=
  tokens.foldr Token.before List.isEmpty

def Token.answersBefore (text : List Char) (token : Token) (answers : List Bool) : List Bool :=
  match token with
  | .char wanted => Ends.afterOneAnswers (· = wanted) text answers
  | .anyChar => Ends.afterOneAnswers (fun _ => true) text answers
  | .oneOf ranges => Ends.afterOneAnswers (fun found => ranges.any (·.includes found)) text answers
  | .noneOf ranges => Ends.afterOneAnswers (fun found => !ranges.any (·.includes found)) text answers
  | .anyText => Ends.afterManyAnswers (fun _ => true) text answers
  | .anyDirectories =>
      Ends.eitherAnswers answers <|
        Ends.eitherAnswers
          (Ends.afterManyAnswers (fun _ => true) text (Ends.afterOneAnswers (· = '/') text answers)) <|
          Ends.atEndAnswers answers

theorem Token.answers_before (token : Token) (accepts : List Char → Bool) (text : List Char) :
    Ends.answers (token.before accepts) text =
      token.answersBefore text (Ends.answers accepts text) := by
  cases token <;>
    simp only [before, answersBefore, Ends.answers_afterOne, Ends.answers_afterMany,
      Ends.answers_either, Ends.answers_atEnd]

end Glob

structure Glob where
  tokens : List Glob.Token
deriving DecidableEq, Repr

namespace Glob

def parse (text : List Char) : Except Error Glob :=
  Glob.mk <$> scan none 0 none text

/-- The glob describes the text. Every token looks at each end of the text once. -/
def matches? (glob : Glob) (text : List Char) : Bool :=
  Ends.whole
    (glob.tokens.foldr (Token.answersBefore text) (Ends.answers List.isEmpty text))

theorem answers_covers (tokens : List Token) (text : List Char) :
    Ends.answers (covers tokens) text =
      tokens.foldr (Token.answersBefore text) (Ends.answers List.isEmpty text) := by
  induction tokens with
  | nil => rfl
  | cons token tokens induction =>
      rw [List.foldr_cons, ← induction, ← Token.answers_before]
      rfl

theorem matches?_eq_covers (glob : Glob) (text : List Char) :
    glob.matches? text = covers glob.tokens text := by
  rw [matches?, ← answers_covers, Ends.whole_answers]

end Glob

end UnityLint
