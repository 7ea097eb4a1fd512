/-! # Text

Operations on text, written on lists of characters so that they can be evaluated and reasoned about
directly. -/

namespace UnityLint.Text

/-! ## Blank characters -/

/-- A blank character: one with the Unicode property `White_Space`. -/
def isBlank (char : Char) : Bool :=
  let code := char.toNat
  (9 ≤ code && code ≤ 13) || code == 0x20 || code == 0x85 || code == 0xA0 || code == 0x1680 ||
    (0x2000 ≤ code && code ≤ 0x200A) || code == 0x2028 || code == 0x2029 || code == 0x202F ||
    code == 0x205F || code == 0x3000

def trimStart (text : List Char) : List Char :=
  text.dropWhile isBlank

def dropEndWhile (drops : Char → Bool) (text : List Char) : List Char :=
  (text.reverse.dropWhile drops).reverse

def trimEnd (text : List Char) : List Char :=
  dropEndWhile isBlank text

def trim (text : List Char) : List Char :=
  trimEnd (trimStart text)

def trimWhile (drops : Char → Bool) (text : List Char) : List Char :=
  dropEndWhile drops (text.dropWhile drops)

def compact (text : List Char) : List Char :=
  text.filter fun char => !isBlank char

example : trim " a b\t".toList = "a b".toList := by decide
example : compact " A . B ".toList = "A.B".toList := by decide

/-! ## Searching and cutting -/

def occurs (needle : List Char) : List Char → Bool
  | [] => needle.isEmpty
  | char :: rest => needle.isPrefixOf (char :: rest) || occurs needle rest

theorem occurs_iff {needle text : List Char} : occurs needle text ↔ needle <:+: text := by
  induction text with
  | nil => simp [occurs, List.isEmpty_iff]
  | cons char rest induction =>
      rw [List.infix_cons_iff, ← induction]
      simp [occurs]

def dropStart? (start text : List Char) : Option (List Char) :=
  if start.isPrefixOf text then some (text.drop start.length) else none

def pieces {α : Type} (divides : α → Bool) : List α → List (List α)
  | [] => [[]]
  | head :: rest =>
      if divides head then
        [] :: pieces divides rest
      else
        match pieces divides rest with
        | [] => [[head]]
        | first :: others => (head :: first) :: others

example : pieces (· = '.') "a..b".toList = ["a".toList, [], "b".toList] := by decide

def upTo (stops : Char → Bool) (text : List Char) : List Char :=
  text.takeWhile fun char => !stops char

def afterLast (divides : Char → Bool) (text : List Char) : List Char :=
  (text.reverse.takeWhile fun char => !divides char).reverse

def cutFirst (divider : Char) : List Char → Option (List Char × List Char)
  | [] => none
  | char :: rest =>
      if char = divider then
        some ([], rest)
      else
        (cutFirst divider rest).map fun (before, after) => (char :: before, after)

def cutLast (divider : Char) : List Char → Option (List Char × List Char)
  | [] => none
  | char :: rest =>
      match cutLast divider rest with
      | some (before, after) => some (char :: before, after)
      | none => if char = divider then some ([], rest) else none

example : cutFirst '.' "a.b.c".toList = some ("a".toList, "b.c".toList) := by decide
example : cutLast '.' "a.b.c".toList = some ("a.b".toList, "c".toList) := by decide

def replaceChar (old new : Char) (text : List Char) : List Char :=
  text.map fun char => if char = old then new else char

/-- Removes the pairs of neighbouring occurrences of a character, from the left: of three in a row
one stays. -/
def dropPairs (char : Char) : List Char → List Char
  | [] => []
  | [last] => [last]
  | first :: second :: rest =>
      if first = char ∧ second = char then
        dropPairs char rest
      else
        first :: dropPairs char (second :: rest)

/-- Lower-cases the letters `A` to `Z` and keeps every other character. -/
def toLower (text : List Char) : List Char :=
  text.map Char.toLower

/-! ## Byte extents

A text is stored as UTF-8, and tools that read it report extents in bytes. -/

def dropBytes : Nat → List Char → Option (List Char)
  | 0, text => some text
  | _ + 1, [] => none
  | size + 1, char :: rest =>
      if char.utf8Size ≤ size + 1 then dropBytes (size + 1 - char.utf8Size) rest else none

def takeBytes : Nat → List Char → Option (List Char)
  | 0, _ => some []
  | _ + 1, [] => none
  | size + 1, char :: rest =>
      if char.utf8Size ≤ size + 1 then
        (takeBytes (size + 1 - char.utf8Size) rest).map (char :: ·)
      else
        none

/-- The characters stored in the bytes from `start` up to `stop`; nothing if an end of the extent
is outside the text or inside a character. -/
def slice (text : List Char) (start stop : Nat) : List Char :=
  ((dropBytes start text).bind (takeBytes (stop - start))).getD []

example : slice "aéb".toList 1 3 = "é".toList := by decide
example : slice "aéb".toList 1 2 = [] := by decide

/-! ## Numbers -/

def digitValue? (char : Char) : Option Nat :=
  if char.isDigit then some (char.toNat - '0'.toNat) else none

def decimalFrom : Nat → List Char → Option Nat
  | value, [] => some value
  | value, char :: rest =>
      (digitValue? char).bind fun digit => decimalFrom (10 * value + digit) rest

/-- The number below `2 ^ 64` written by one or more decimal digits, after at most one `+`. -/
def word? (text : List Char) : Option Nat :=
  let digits := match text with
    | '+' :: rest => rest
    | _ => text
  if digits.isEmpty then none else (decimalFrom 0 digits).filter (· < UInt64.size)

example : word? "+07".toList = some 7 := by decide
example : word? "18446744073709551616".toList = none := by decide

def hexValue? (char : Char) : Option Nat :=
  if char.isDigit then some (char.toNat - '0'.toNat)
  else if 'a' ≤ char && char ≤ 'f' then some (char.toNat - 'a'.toNat + 10)
  else if 'A' ≤ char && char ≤ 'F' then some (char.toNat - 'A'.toNat + 10)
  else none

def hexFrom : Nat → List Char → Option Nat
  | value, [] => some value
  | value, char :: rest => (hexValue? char).bind fun digit => hexFrom (16 * value + digit) rest

example : hexFrom 0 "fF".toList = some 255 := by decide

end UnityLint.Text
