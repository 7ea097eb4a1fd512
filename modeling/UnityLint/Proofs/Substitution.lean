import Mathlib.Algebra.Group.Nat.Defs
import Mathlib.Data.List.Forall2
import UnityLint.Diagnostic.Basic
import UnityLint.Proofs.JsonScalars
import UnityLint.Proofs.Templates
import UnityLint.Proofs.TextParts

/-! # Messages as one substitution

The places of a template do not overlap, so that all of them can be replaced at once: each position of the
template gives an argument, nothing or its own character to the message, whatever the others give. Reading
the template from left to right comes to the same message. -/

namespace UnityLint

/-! ## Numerals -/

namespace Text

/-- The text writes the number by one or more decimal digits, after at most one `+`, and the number fits
into 64 bits. -/
def Numeral (text : List Char) (number : Nat) : Prop :=
  ∃ digits, (text = digits ∨ text = '+' :: digits) ∧ digits ≠ [] ∧ (∀ char ∈ digits, char.isDigit) ∧
    Nat.ofDigitChars 10 digits 0 = number ∧ number < 2 ^ 64

theorem isDigit_of_decimalFrom {digits : List Char} {value number : Nat}
    (read : decimalFrom value digits = some number) : ∀ char ∈ digits, char.isDigit := by
  induction digits generalizing value with
  | nil => simp
  | cons head tail induction =>
      rw [decimalFrom] at read
      obtain ⟨digit, own, later⟩ := Option.bind_eq_some_iff.mp read
      rw [digitValue?, Option.ite_none_right_eq_some] at own
      rw [List.forall_mem_cons]
      exact ⟨own.1, induction later⟩

theorem filter_decimalFrom_eq_some_iff {digits : List Char} {number : Nat} :
    (if digits.isEmpty then none else (decimalFrom 0 digits).filter (· < UInt64.size)) = some number ↔
      digits ≠ [] ∧ (∀ char ∈ digits, char.isDigit) ∧ Nat.ofDigitChars 10 digits 0 = number ∧
        number < 2 ^ 64 := by
  rw [Option.ite_none_left_eq_some, List.isEmpty_iff, Option.filter_eq_some_iff, decide_eq_true_iff]
  apply and_congr_right
  intro
  constructor
  · rintro ⟨read, small⟩
    have all := isDigit_of_decimalFrom read
    rw [decimalFrom_eq_ofDigitChars all] at read
    exact ⟨all, Option.some.inj read, small⟩
  · rintro ⟨all, rfl, small⟩
    exact ⟨decimalFrom_eq_ofDigitChars all 0, small⟩

theorem word?_eq_some_iff {text : List Char} {number : Nat} :
    word? text = some number ↔ Numeral text number := by
  by_cases signed : ∃ rest, text = '+' :: rest
  · obtain ⟨rest, rfl⟩ := signed
    refine filter_decimalFrom_eq_some_iff.trans ⟨fun written => ⟨rest, .inr rfl, written⟩, ?_⟩
    rintro ⟨digits, rfl | same, written⟩
    · exact absurd (written.2.1 '+' List.mem_cons_self) (by decide)
    · exact (List.cons.inj same).2 ▸ written
  · have unsigned : word? text =
        if text.isEmpty then none else (decimalFrom 0 text).filter (· < UInt64.size) := by
      rw [word?]
      exact fun rest same => signed ⟨rest, same⟩
    rw [unsigned]
    refine filter_decimalFrom_eq_some_iff.trans ⟨fun written => ⟨text, .inl rfl, written⟩, ?_⟩
    rintro ⟨digits, rfl | same, written⟩
    · exact written
    · exact absurd ⟨digits, same⟩ signed

variable {text : List Char} {number other : Nat}

theorem Numeral.unique (left : Numeral text number) (right : Numeral text other) : number = other :=
  Option.some.inj ((word?_eq_some_iff.mpr left).symm.trans (word?_eq_some_iff.mpr right))

theorem Numeral.not_mem (numeral : Numeral text number) {char : Char} (noDigit : char.isDigit = false)
    (noSign : char ≠ '+') : char ∉ text := by
  obtain ⟨digits, form, -, all, -⟩ := numeral
  have missing : char ∉ digits := by
    intro member
    rw [all char member] at noDigit
    cases noDigit
  rcases form with rfl | rfl
  · exact missing
  · exact fun member => (List.mem_cons.mp member).elim noSign missing

end Text

namespace Template

/-! ## Places -/

/-- From `start` on, the template has a place: a text in braces that numbers an argument. -/
structure PlaceAt (arguments : List String) (template : List Char) (start : Nat) (inner : List Char)
    (argument : String) : Prop where
  stands : '\x7b' :: (inner ++ ['\x7d']) <+: template.drop start
  noOpening : '\x7b' ∉ inner
  noClosing : '\x7d' ∉ inner
  numbered : ∃ index, Text.Numeral inner index ∧ arguments[index]? = some argument

inductive Shows (arguments : List String) (template : List Char) : Nat → List Char → Prop
  | argument {start : Nat} {inner : List Char} {argument : String}
      (place : PlaceAt arguments template start inner argument) :
      Shows arguments template start argument.toList
  | inside {position start : Nat} {inner : List Char} {argument : String}
      (place : PlaceAt arguments template start inner argument) (after : start < position)
      (before : position < start + inner.length + 2) : Shows arguments template position []
  | kept {position : Nat} {char : Char} (found : template[position]? = some char)
      (outside : ∀ start inner argument, PlaceAt arguments template start inner argument →
        position < start ∨ start + inner.length + 2 ≤ position) :
      Shows arguments template position [char]

def Gives (arguments : List String) (template : List Char) (positions : List Nat) (text : List Char) :
    Prop :=
  ∃ parts, List.Forall₂ (Shows arguments template) positions parts ∧ parts.flatten = text

def Substitution (arguments : List String) (template message : String) : Prop :=
  Gives arguments template.toList (List.range template.toList.length) message.toList

variable {arguments : List String} {template : List Char} {start other : Nat}
  {inner otherInner : List Char} {argument otherArgument : String}

theorem argument?_eq_some_iff {text : List Char} :
    argument? (arguments.map String.toList) inner = some text ↔
      ∃ argument, text = argument.toList ∧
        ∃ index, Text.Numeral inner index ∧ arguments[index]? = some argument := by
  rw [argument?, Option.bind_eq_some_iff]
  simp only [Text.word?_eq_some_iff, List.getElem?_map, Option.map_eq_some_iff]
  constructor
  · rintro ⟨index, numeral, argument, found, rfl⟩
    exact ⟨argument, rfl, index, numeral, found⟩
  · rintro ⟨argument, rfl, index, numeral, found⟩
    exact ⟨index, numeral, argument, found, rfl⟩

theorem PlaceAt.getElem?_eq (place : PlaceAt arguments template start inner argument) {index : Nat}
    (inside : index < inner.length + 2) :
    template[start + index]? = ('\x7b' :: (inner ++ ['\x7d']))[index]? := by
  obtain ⟨rest, equal⟩ := place.stands
  have size : ('\x7b' :: (inner ++ ['\x7d'])).length = inner.length + 2 := by
    rw [List.length_cons, List.length_append, List.length_singleton]
  rw [← List.getElem?_drop, ← equal, List.getElem?_append_left (by omega)]

theorem PlaceAt.eq_of_le (place : PlaceAt arguments template start inner argument)
    (otherPlace : PlaceAt arguments template other otherInner otherArgument) (least : start ≤ other)
    (inside : other < start + inner.length + 2) :
    start = other ∧ inner = otherInner ∧ argument = otherArgument := by
  obtain ⟨offset, rfl⟩ := Nat.exists_eq_add_of_le least
  cases offset with
  | zero =>
      obtain ⟨rest, equal⟩ := place.stands
      obtain ⟨otherRest, otherEqual⟩ := otherPlace.stands
      have texts : inner ++ '\x7d' :: rest = otherInner ++ '\x7d' :: otherRest := by
        simpa using equal.trans otherEqual.symm
      have cut := Text.cutFirst_append place.noClosing rest
      rw [texts, Text.cutFirst_append otherPlace.noClosing] at cut
      cases cut
      obtain ⟨index, numeral, found⟩ := place.numbered
      obtain ⟨otherIndex, otherNumeral, otherFound⟩ := otherPlace.numbered
      rw [numeral.unique otherNumeral, otherFound] at found
      exact ⟨rfl, rfl, (Option.some.inj found).symm⟩
  | succ offset =>
      -- The other place would start with a brace among the digits or at the closing brace.
      have opening := otherPlace.getElem?_eq (Nat.zero_lt_succ _)
      rw [Nat.add_zero, place.getElem?_eq (by omega), List.getElem?_cons_succ,
        List.getElem?_cons_zero] at opening
      rcases List.mem_append.mp (List.mem_of_getElem? opening) with member | last
      · exact absurd member place.noOpening
      · exact absurd (List.mem_singleton.mp last) (by decide)

theorem Shows.unique {position : Nat} {left right : List Char}
    (leftShown : Shows arguments template position left)
    (rightShown : Shows arguments template position right) : left = right := by
  cases leftShown with
  | argument place =>
      cases rightShown with
      | argument otherPlace =>
          obtain ⟨-, -, same⟩ := place.eq_of_le otherPlace le_rfl (by omega)
          rw [same]
      | inside otherPlace after before =>
          have := (otherPlace.eq_of_le place after.le before).1
          omega
      | kept found outside =>
          have := outside _ _ _ place
          omega
  | inside place after before =>
      cases rightShown with
      | argument otherPlace =>
          have := (place.eq_of_le otherPlace after.le before).1
          omega
      | inside => rfl
      | kept found outside =>
          have := outside _ _ _ place
          omega
  | kept found outside =>
      cases rightShown with
      | argument otherPlace =>
          have := outside _ _ _ otherPlace
          omega
      | inside otherPlace after before =>
          have := outside _ _ _ otherPlace
          omega
      | kept otherFound =>
          rw [Option.some.inj (found.symm.trans otherFound)]

/-! ## Positions one after the other -/

section Gives

variable {position : Nat} {positions : List Nat} {part text otherText : List Char}

theorem Gives.cons (shown : Shows arguments template position part)
    (follow : Gives arguments template positions text) :
    Gives arguments template (position :: positions) (part ++ text) := by
  obtain ⟨parts, each, rfl⟩ := follow
  exact ⟨part :: parts, .cons shown each, rfl⟩

theorem gives_nil_append (silent : ∀ position ∈ positions, Shows arguments template position [])
    {others : List Nat} (follow : Gives arguments template others text) :
    Gives arguments template (positions ++ others) text := by
  induction positions with
  | nil => exact follow
  | cons position positions induction =>
      rw [List.forall_mem_cons] at silent
      exact .cons silent.1 (induction silent.2)

theorem Gives.unique (left : Gives arguments template positions text)
    (right : Gives arguments template positions otherText) : text = otherText := by
  obtain ⟨parts, each, rfl⟩ := left
  obtain ⟨otherParts, otherEach, rfl⟩ := right
  have unique : Relator.RightUnique (Shows arguments template) := fun _ _ _ => Shows.unique
  rw [unique.forall₂ each otherEach]

end Gives

/-! ## Filling -/

/-- No place that starts before the position goes on past it. -/
def Settled (arguments : List String) (template : List Char) (position : Nat) : Prop :=
  ∀ start inner argument, PlaceAt arguments template start inner argument → start < position →
    start + inner.length + 2 ≤ position

variable {position : Nat} {char : Char} {rest : List Char}

theorem Settled.kept (settled : Settled arguments template position)
    (cut : template.drop position = char :: rest)
    (noPlace : ∀ inner argument, ¬PlaceAt arguments template position inner argument) :
    Shows arguments template position [char] ∧ Settled arguments template (position + 1) := by
  have found : template[position]? = some char := by
    have first := congrArg (·[0]?) cut
    simpa using first
  have elsewhere (start : Nat) (inner : List Char) (argument : String)
      (place : PlaceAt arguments template start inner argument) : start ≠ position := by
    rintro rfl
    exact noPlace inner argument place
  constructor
  · apply Shows.kept found
    intro start inner argument place
    have := settled start inner argument place
    have := elsewhere start inner argument place
    omega
  · intro start inner argument place before
    have := settled start inner argument place
    have := elsewhere start inner argument place
    omega

theorem Settled.place (settled : Settled arguments template position)
    (place : PlaceAt arguments template position inner argument) :
    Settled arguments template (position + inner.length + 2) := by
  intro start otherInner otherArgument otherPlace before
  by_cases earlier : start < position
  · have := settled start otherInner otherArgument otherPlace earlier
    omega
  · obtain ⟨rfl, rfl, -⟩ := place.eq_of_le otherPlace (by omega) before
    rfl

theorem PlaceAt.cutFirst_eq (place : PlaceAt arguments template position inner argument)
    (cut : template.drop position = char :: rest) :
    char = '\x7b' ∧ (∃ after, Text.cutFirst '\x7d' rest = some (inner, after)) ∧
      argument? (arguments.map String.toList) inner = some argument.toList := by
  obtain ⟨after, equal⟩ := place.stands
  rw [cut, List.cons_append, List.append_assoc, List.cons.injEq] at equal
  refine ⟨equal.1.symm, ⟨after, ?_⟩, argument?_eq_some_iff.mpr ⟨argument, rfl, place.numbered⟩⟩
  rw [← equal.2]
  exact Text.cutFirst_append place.noClosing after

theorem exists_placeAt {text after : List Char} (cut : template.drop position = '\x7b' :: rest)
    (found : Text.cutFirst '\x7d' rest = some (inner, after))
    (named : argument? (arguments.map String.toList) inner = some text) :
    ∃ argument, text = argument.toList ∧ PlaceAt arguments template position inner argument := by
  obtain ⟨argument, rfl, index, numeral, numbered⟩ := argument?_eq_some_iff.mp named
  refine ⟨argument, rfl, ?_, numeral.not_mem (by decide) (by decide),
    numeral.not_mem (by decide) (by decide), index, numeral, numbered⟩
  rw [cut, Text.eq_append_of_cutFirst found]
  exact ⟨after, by simp⟩

theorem drop_succ_eq (cut : template.drop position = char :: rest) :
    template.drop (position + 1) = rest := by
  rw [← List.drop_drop, cut, List.drop_one, List.tail_cons]

theorem Settled.gives_cons (settled : Settled arguments template position)
    (cut : template.drop position = char :: rest)
    (noPlace : ∀ inner argument, ¬PlaceAt arguments template position inner argument)
    {text : List Char}
    (later : template.drop (position + 1) = rest → Settled arguments template (position + 1) →
      Gives arguments template (List.range' (position + 1) rest.length) text) :
    Gives arguments template (List.range' position (char :: rest).length) (char :: text) := by
  obtain ⟨shown, next⟩ := settled.kept cut noPlace
  exact .cons shown (later (drop_succ_eq cut) next)

theorem Settled.gives_fill (settled : Settled arguments template position)
    (cut : template.drop position = rest) :
    Gives arguments template (List.range' position rest.length)
      (fill (arguments.map String.toList) rest) := by
  fun_induction fill (arguments.map String.toList) rest generalizing position with
  | case1 => exact ⟨[], .nil, rfl⟩
  | case2 rest inner after found text named induction =>
      obtain ⟨argument, rfl, place⟩ := exists_placeAt cut found named
      have rest_eq := Text.eq_append_of_cutFirst found
      have follows : template.drop (position + inner.length + 2) = after := by
        rw [Nat.add_assoc, ← List.drop_drop, cut, rest_eq]
        simp
      have positions : List.range' position ('\x7b' :: rest).length =
          position :: (List.range' (position + 1) (inner.length + 1) ++
            List.range' (position + inner.length + 2) after.length) := by
        have size : ('\x7b' :: rest).length = inner.length + 1 + after.length + 1 := by
          rw [rest_eq, List.length_cons, List.length_append, List.length_cons]
          omega
        have next : position + 1 + (inner.length + 1) = position + inner.length + 2 := by omega
        rw [size, List.range'_succ, ← List.range'_append_1, next]
      rw [positions]
      apply Gives.cons (.argument place)
      apply gives_nil_append
      · intro later member
        rw [List.mem_range'_1] at member
        exact .inside place (by omega) (by omega)
      · exact induction (settled.place place) follows
  | case3 rest inner after found missing induction =>
      apply settled.gives_cons cut _ fun further next => induction next further
      intro otherInner argument place
      obtain ⟨-, ⟨otherAfter, otherFound⟩, named⟩ := place.cutFirst_eq cut
      cases found.symm.trans otherFound
      rw [missing] at named
      cases named
  | case4 rest missing induction =>
      apply settled.gives_cons cut _ fun further next => induction next further
      intro inner argument place
      obtain ⟨-, ⟨after, found⟩, -⟩ := place.cutFirst_eq cut
      rw [missing] at found
      cases found
  | case5 char rest plain induction =>
      apply settled.gives_cons cut _ fun further next => induction next further
      intro inner argument place
      exact plain (place.cutFirst_eq cut).1

theorem gives_fill (arguments : List String) (template : List Char) :
    Gives arguments template (List.range template.length)
      (fill (arguments.map String.toList) template) := by
  have settled : Settled arguments template 0 := fun _ _ _ _ before => absurd before (by omega)
  rw [List.range_eq_range']
  exact settled.gives_fill List.drop_zero

end Template

/-- The message of a descriptor is its template with all places replaced at once, and no other text is the
result of that. Without arguments it is the template. -/
theorem message_eq_iff_substitution (descriptor : Descriptor) (arguments : List String) :
    (∀ message, descriptor.message arguments = message ↔
      Template.Substitution arguments descriptor.template message) ∧
    descriptor.message [] = descriptor.template := by
  have filled := Template.gives_fill arguments descriptor.template.toList
  refine ⟨fun message => ⟨?_, ?_⟩, Template.format_nil descriptor.template⟩
  · rintro rfl
    rw [Template.Substitution, Descriptor.message, Template.format, String.toList_ofList]
    exact filled
  · intro substituted
    rw [Descriptor.message, Template.format, filled.unique substituted, String.ofList_toList]

/-- Braces around a place stay, a numeral may have a sign, a number without an argument stays, and an
argument that looks like a place is not filled. -/
example : Template.format "\x7b\x7b0\x7d\x7d \x7b+1\x7d \x7b2\x7d" ["\x7b1\x7d", "b"] =
    "\x7b\x7b1\x7d\x7d b \x7b2\x7d" := by cbv

end UnityLint
