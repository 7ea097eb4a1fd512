import UnityLint.Toml.Basic

/-! # Strings, numbers and dates in TOML

Each reader takes its form from the start of a text and returns the text after it. -/

namespace UnityLint.Toml

abbrev Reader (α : Type) := List Char → Option (α × List Char)

/-! ## Blanks -/

def isSpace (char : Char) : Bool :=
  char = ' ' ∨ char = '\t'

def skipSpace (text : List Char) : List Char :=
  text.dropWhile isSpace

def newline? : List Char → Option (List Char)
  | '\n' :: rest => some rest
  | '\r' :: '\n' :: rest => some rest
  | _ => none

def isPlain (char : Char) : Bool :=
  char = '\t' ∨ (0x20 ≤ char.toNat ∧ char.toNat ≠ 0x7F)

/-! ## Strings -/

def char? (code : Nat) : Option Char :=
  if code < 0xD800 ∨ (0xE000 ≤ code ∧ code < 0x110000) then some (Char.ofNat code) else none

def escaped? (char : Char) : Option Char :=
  if char = '"' ∨ char = '\\' then some char
  else if char = 'b' then some '\x08'
  else if char = 'f' then some '\x0c'
  else if char = 'n' then some '\n'
  else if char = 'r' then some '\r'
  else if char = 't' then some '\t'
  else none

def withChar (char : Char) (found : Option (List Char × List Char)) :
    Option (List Char × List Char) :=
  found.map fun (text, rest) => (char :: text, rest)

def basicString : Reader (List Char)
  | [] => none
  | '\\' :: 'u' :: a :: b :: c :: d :: rest =>
      ((Text.hexFrom 0 [a, b, c, d]).bind char?).bind fun char => withChar char (basicString rest)
  | '\\' :: 'U' :: a :: b :: c :: d :: e :: f :: g :: h :: rest =>
      ((Text.hexFrom 0 [a, b, c, d, e, f, g, h]).bind char?).bind fun char =>
        withChar char (basicString rest)
  | '\\' :: char :: rest =>
      (escaped? char).bind fun plain => withChar plain (basicString rest)
  | char :: rest =>
      if char = '"' then some ([], rest)
      else if char ≠ '\\' ∧ isPlain char then withChar char (basicString rest)
      else none

def literalString : Reader (List Char)
  | [] => none
  | char :: rest =>
      if char = '\'' then some ([], rest)
      else if isPlain char then withChar char (literalString rest)
      else none

/-- What a backslash at the end of a line leaves: the text from the next character that is not
blank. -/
def skipLineEnd? (text : List Char) : Option (List Char) :=
  (newline? (skipSpace text)).map fun rest =>
    rest.dropWhile fun char => isSpace char ∨ char = '\n' ∨ char = '\r'

/-- The text after a closing mark of three quotes, with the quotes that still belong to the content: of
up to five quotes the last three close. -/
def closing? (quote : Char) : List Char → Option (List Char × List Char)
  | a :: b :: c :: d :: e :: rest =>
      if a = quote ∧ b = quote ∧ c = quote then
        if d = quote then
          if e = quote then some ([quote, quote], rest) else some ([quote], e :: rest)
        else
          some ([], d :: e :: rest)
      else
        none
  | [a, b, c, d] =>
      if a = quote ∧ b = quote ∧ c = quote then
        if d = quote then some ([quote], []) else some ([], [d])
      else
        none
  | [a, b, c] => if a = quote ∧ b = quote ∧ c = quote then some ([], []) else none
  | _ => none

def linesEndWell : List Char → Bool
  | [] => true
  | '\r' :: '\n' :: rest => linesEndWell rest
  | char :: rest => char ≠ '\r' && linesEndWell rest

/-- A string in three double quotes, after the opening mark; every step takes at least a character, and
`fuel` bounds the steps. -/
def longBasicString : Nat → Reader (List Char)
  | 0, _ => none
  | fuel + 1, text =>
      match closing? '"' text with
      | some found => some found
      | none =>
          match text with
          | [] => none
          | '\\' :: 'u' :: a :: b :: c :: d :: rest =>
              ((Text.hexFrom 0 [a, b, c, d]).bind char?).bind fun char =>
                withChar char (longBasicString fuel rest)
          | '\\' :: 'U' :: a :: b :: c :: d :: e :: f :: g :: h :: rest =>
              ((Text.hexFrom 0 [a, b, c, d, e, f, g, h]).bind char?).bind fun char =>
                withChar char (longBasicString fuel rest)
          | '\\' :: rest =>
              match skipLineEnd? rest with
              | some rest' =>
                  if linesEndWell (rest.take (rest.length - rest'.length)) then
                    longBasicString fuel rest'
                  else
                    none
              | none =>
                  match rest with
                  | [] => none
                  | char :: rest =>
                      (escaped? char).bind fun plain => withChar plain (longBasicString fuel rest)
          | char :: rest =>
              match newline? text with
              | some rest => withChar '\n' (longBasicString fuel rest)
              | none => if isPlain char then withChar char (longBasicString fuel rest) else none

def longLiteralString : Nat → Reader (List Char)
  | 0, _ => none
  | fuel + 1, text =>
      match closing? '\'' text with
      | some found => some found
      | none =>
          match text with
          | [] => none
          | char :: rest =>
              match newline? text with
              | some rest => withChar '\n' (longLiteralString fuel rest)
              | none =>
                  if isPlain char then withChar char (longLiteralString fuel rest) else none

def afterOpening (text : List Char) : List Char :=
  (newline? text).getD text

def string? : Reader String := fun text =>
  let found := match text with
    | '"' :: '"' :: '"' :: rest => longBasicString (rest.length + 1) (afterOpening rest)
    | '\'' :: '\'' :: '\'' :: rest => longLiteralString (rest.length + 1) (afterOpening rest)
    | '"' :: rest => basicString rest
    | '\'' :: rest => literalString rest
    | _ => none
  found.map fun (content, rest) => (String.ofList content, rest)

/-! ## Numbers -/

/-- The digits that go on a number, each of which may have an underscore before it. The underscores are
left out. -/
def moreDigits (isDigit : Char → Bool) : Reader (List Char)
  | [] => some ([], [])
  | '_' :: char :: rest => if isDigit char then withChar char (moreDigits isDigit rest) else none
  | char :: rest =>
      if isDigit char then withChar char (moreDigits isDigit rest)
      else if char = '_' then none
      else some ([], char :: rest)

def digits (isDigit : Char → Bool) : Reader (List Char)
  | [] => none
  | char :: rest => if isDigit char then withChar char (moreDigits isDigit rest) else none

def sign : List Char → Bool × List Char
  | '+' :: rest => (false, rest)
  | '-' :: rest => (true, rest)
  | text => (false, text)

def wholePart : Reader (List Char)
  | '0' :: rest => some (['0'], rest)
  | text => digits Char.isDigit text

def isHexDigit (char : Char) : Bool :=
  (Text.hexValue? char).isSome

def isOctalDigit (char : Char) : Bool :=
  '0' ≤ char && char ≤ '7'

def isBinaryDigit (char : Char) : Bool :=
  char = '0' ∨ char = '1'

def inBase (base : Nat) (digits : List Char) : Nat :=
  digits.foldl (fun value char => base * value + (Text.hexValue? char).getD 0) 0

def integerOf? (value : Int) : Option Toml :=
  if Int64.minValue.toInt ≤ value ∧ value ≤ Int64.maxValue.toInt then some (.integer value)
  else none

def unsignedIn (base : Nat) (isDigit : Char → Bool) : Reader Toml := fun text =>
  (digits isDigit text).bind fun (found, rest) =>
    (integerOf? (inBase base found)).map (·, rest)

def integer? : Reader Toml
  | '0' :: 'x' :: rest => unsignedIn 16 isHexDigit rest
  | '0' :: 'o' :: rest => unsignedIn 8 isOctalDigit rest
  | '0' :: 'b' :: rest => unsignedIn 2 isBinaryDigit rest
  | text =>
      let (negative, unsigned) := sign text
      (wholePart unsigned).bind fun (found, rest) =>
        let size : Int := inBase 10 found
        (integerOf? (if negative then -size else size)).map (·, rest)

/-- A number from this size on is not below infinity in 64-bit floating point. -/
def overflowBound : Nat :=
  Nat.pow 2 1024 - Nat.pow 2 970

def overflows (mantissa : List Char) (exponent : Int) : Bool :=
  let significant := mantissa.dropWhile (· = '0')
  let magnitude : Int := significant.length + exponent
  if significant = [] ∨ magnitude ≤ 308 then false
  else if 310 ≤ magnitude then true
  else
    let value := inBase 10 significant
    if 0 ≤ exponent then overflowBound ≤ value * Nat.pow 10 exponent.toNat
    else overflowBound * Nat.pow 10 (-exponent).toNat ≤ value

def exponent? : Reader (Option Int) := fun text =>
  match text with
  | 'e' :: rest | 'E' :: rest =>
      let (negative, unsigned) := sign rest
      (digits Char.isDigit unsigned).map fun (found, after) =>
        let size : Int := inBase 10 found
        (some (if negative then -size else size), after)
  | _ => some (none, text)

def fraction? : Reader (Option (List Char))
  | '.' :: rest => (digits Char.isDigit rest).map fun (found, after) => (some found, after)
  | text => some (none, text)

def float? : Reader Toml := fun text =>
  let (negative, unsigned) := sign text
  match Text.dropStart? "inf".toList unsigned, Text.dropStart? "nan".toList unsigned with
  | some rest, _ => some (.float, rest)
  | _, some rest => some (.float, rest)
  | none, none => do
      let (whole, rest) ← wholePart unsigned
      let (fraction, rest) ← fraction? rest
      let (exponent, rest) ← exponent? rest
      guard (fraction.isSome || exponent.isSome)
      let places := fraction.getD []
      guard (negative || !overflows (whole ++ places) (exponent.getD 0 - places.length))
      some (.float, rest)

/-! ## Dates -/

def fixed (count low high : Nat) : Reader Nat := fun text =>
  let found := text.take count
  if found.length = count ∧ found.all Char.isDigit then
    let value := inBase 10 found
    if low ≤ value ∧ value ≤ high then some (value, text.drop count) else none
  else
    none

def skip (char : Char) : List Char → Option (List Char)
  | [] => none
  | head :: rest => if head = char then some rest else none

def daysIn (year month : Nat) : Nat :=
  if month = 2 then
    if year % 4 = 0 ∧ (year % 100 ≠ 0 ∨ year % 400 = 0) then 29 else 28
  else if month ∈ [4, 6, 9, 11] then 30
  else 31

def day? (text : List Char) : Option (List Char) := do
  let (year, rest) ← fixed 4 0 9999 text
  let rest ← skip '-' rest
  let (month, rest) ← fixed 2 1 12 rest
  let rest ← skip '-' rest
  let (day, rest) ← fixed 2 1 31 rest
  guard (day ≤ daysIn year month)
  some rest

def time? (text : List Char) : Option (List Char) := do
  let (_, rest) ← fixed 2 0 23 text
  let rest ← skip ':' rest
  let (_, rest) ← fixed 2 0 59 rest
  let rest ← skip ':' rest
  let (_, rest) ← fixed 2 0 60 rest
  match rest with
  | '.' :: fraction =>
      if fraction.head?.any Char.isDigit then some (fraction.dropWhile Char.isDigit) else some rest
  | _ => some rest

def offset? (text : List Char) : Option (List Char) :=
  match text with
  | 'Z' :: rest | 'z' :: rest => some rest
  | '+' :: rest | '-' :: rest => do
      let (_, rest) ← fixed 2 0 23 rest
      let rest ← skip ':' rest
      let (_, rest) ← fixed 2 0 59 rest
      some rest
  | _ => some text

/-- A date, a time of day, or both; an offset needs both. -/
def date? : Reader Toml := fun text =>
  match day? text with
  | some rest =>
      let timed := match rest with
        | 'T' :: later | 't' :: later | ' ' :: later => time? later
        | _ => none
      match timed with
      | some after => (offset? after).map (.date, ·)
      | none => some (.date, rest)
  | none => (time? text).map (.date, ·)

end UnityLint.Toml
