import Mathlib.Data.List.Infix
import Mathlib.Data.List.TakeWhile
import UnityLint.GeneratedCode
import UnityLint.Proofs.JoinedPaths
import UnityLint.Proofs.TextParts

/-! # Comments that open a source

A C# source may open with blanks and comments before its first character of code. The search for a marker
of generated code goes line by line, and knows of comments only whether a block comment is open at the
end of a line. It is compared here with the comments themselves, character by character. -/

namespace UnityLint

/-! ## Texts with blanks around them -/

namespace Text

variable {needle text blanks : List Char}

theorem infix_dropWhile_isBlank (solid : ∀ char ∈ needle, isBlank char = false)
    (inside : needle <:+: text) : needle <:+: text.dropWhile isBlank := by
  induction text with
  | nil => exact inside
  | cons head rest induction =>
      cases blank : isBlank head with
      | false => rwa [List.dropWhile_cons_of_neg (by simp [blank])]
      | true =>
          rw [List.dropWhile_cons_of_pos blank]
          rcases List.infix_cons_iff.mp inside with starts | later
          · cases needle with
            | nil => exact List.nil_infix
            | cons first others =>
                have same := (List.cons_prefix_cons.mp starts).1
                have dark := solid first List.mem_cons_self
                rw [same, blank] at dark
                cases dark
          · exact induction later

theorem infix_trim_iff (solid : ∀ char ∈ needle, isBlank char = false) :
    needle <:+: trim text ↔ needle <:+: text := by
  refine ⟨fun inside => inside.trans (isInfix_trim text), fun inside => ?_⟩
  have kept := infix_dropWhile_isBlank solid inside
  rw [← List.reverse_infix] at kept
  have solidReversed : ∀ char ∈ needle.reverse, isBlank char = false :=
    fun char member => solid char (List.mem_reverse.mp member)
  have trimmed := infix_dropWhile_isBlank solidReversed kept
  rw [← List.reverse_infix, List.reverse_reverse] at trimmed
  exact trimmed

theorem exists_trimStart_eq (text : List Char) :
    ∃ blanks, trimStart text = trim text ++ blanks ∧ ∀ char ∈ blanks, isBlank char := by
  refine ⟨((trimStart text).reverse.takeWhile isBlank).reverse, ?_, ?_⟩
  · rw [trim, trimEnd, dropEndWhile, ← List.reverse_append, List.takeWhile_append_dropWhile,
      List.reverse_reverse]
  · intro char member
    exact List.mem_takeWhile_imp (List.mem_reverse.mp member)

theorem isBlank_head_trim (text : List Char) :
    ∀ char ∈ (trim text).head?, isBlank char = false := by
  intro char member
  obtain ⟨blanks, start, _⟩ := exists_trimStart_eq text
  have first : (trimStart text).head? = some char := by
    rw [start, List.head?_append, Option.mem_def.mp member]
    rfl
  have dark := List.head?_dropWhile_not isBlank text
  rw [trimStart] at first
  rw [first] at dark
  exact dark

theorem infix_append_blanks_iff (solid : ∀ char ∈ needle, isBlank char = false)
    (blank : ∀ char ∈ blanks, isBlank char) : needle <:+: text ++ blanks ↔ needle <:+: text := by
  refine ⟨fun inside => ?_, fun inside => inside.trans (List.prefix_append _ _).isInfix⟩
  induction blanks generalizing text with
  | nil => rwa [List.append_nil] at inside
  | cons head rest induction =>
      have dark : head ∉ needle := by
        intro member
        have lit := blank head List.mem_cons_self
        rw [solid head member] at lit
        cases lit
      rcases infix_or_infix_of_divided dark inside with before | after
      · exact before
      · have empty : needle <:+: [] :=
          induction (fun char member => blank char (List.mem_cons_of_mem _ member)) after
        exact empty.trans List.nil_infix

@[elab_as_elim]
theorem line_induction {motive : List Char → Prop}
    (last : ∀ line, '\n' ∉ line → motive line)
    (more : ∀ line rest, '\n' ∉ line → motive rest → motive (line ++ '\n' :: rest))
    (text : List Char) : motive text := by
  induction length : text.length using Nat.strong_induction_on generalizing text with
  | _ count induction =>
      by_cases divided : '\n' ∈ text
      · obtain ⟨line, rest, rfl, undivided⟩ := List.eq_append_cons_of_mem divided
        apply more line rest undivided
        apply induction rest.length _ rest rfl
        rw [← length, List.length_append, List.length_cons]
        omega
      · exact last text divided

end Text

namespace GeneratedCode

/-! ## Markers -/

def IsMarker (written : List Char) : Prop :=
  ∃ marker ∈ markers, Text.toLower written = marker.toList

def Carries (text : List Char) : Prop :=
  ∃ written, IsMarker written ∧ written <:+: text

theorem isMarked_iff (text : List Char) : isMarked text ↔ Carries text := by
  rw [isMarked, List.any_eq_true]
  constructor
  · rintro ⟨marker, listed, found⟩
    obtain ⟨before, after, equal⟩ := Text.occurs_iff.mp found
    obtain ⟨first, right, rfl, first_eq, _⟩ := List.map_eq_append_iff.mp equal.symm
    obtain ⟨left, written, rfl, _, written_eq⟩ := List.map_eq_append_iff.mp first_eq
    exact ⟨written, ⟨marker, listed, written_eq⟩, left, right, rfl⟩
  · rintro ⟨written, ⟨marker, listed, equal⟩, inside⟩
    refine ⟨marker, listed, Text.occurs_iff.mpr ?_⟩
    rw [← equal]
    exact inside.map Char.toLower

theorem toLower_of_isBlank {char : Char} (blank : Text.isBlank char) : char.toLower = char := by
  apply dif_neg
  rintro ⟨atLeast, atMost⟩
  have low : 65 ≤ char.toNat := atLeast
  have high : char.toNat ≤ 90 := atMost
  simp only [Text.isBlank, Bool.or_eq_true, Bool.and_eq_true, decide_eq_true_eq, beq_iff_eq]
    at blank
  omega

theorem IsMarker.solid {written : List Char} (marker : IsMarker written) :
    ∀ char ∈ written, Text.isBlank char = false ∧ char ≠ '*' ∧ char ≠ '/' := by
  obtain ⟨text, listed, lowered⟩ := marker
  have checked : markers.all fun text => text.toList.all fun char =>
      !Text.isBlank char && char != '*' && char != '/' := by
    decide
  intro char member
  -- A character that has no lower case would stand in the marker as it is.
  have kept (same : char.toLower = char) :
      Text.isBlank char = false ∧ char ≠ '*' ∧ char ≠ '/' := by
    have inside : char ∈ text.toList := by
      rw [← lowered, ← same]
      exact List.mem_map_of_mem member
    simpa [and_assoc] using List.all_eq_true.mp (List.all_eq_true.mp checked text listed) char inside
  refine ⟨?_, ?_, ?_⟩
  · cases blank : Text.isBlank char with
    | false => rfl
    | true => exact blank.symm.trans (kept (toLower_of_isBlank blank)).1
  · rintro rfl
    exact (kept rfl).2.1 rfl
  · rintro rfl
    exact (kept rfl).2.2 rfl

theorem not_carries_nil : ¬Carries [] := by
  rw [← isMarked_iff]
  decide

theorem Carries.of_infix {part text : List Char} (carries : Carries part) (inside : part <:+: text) :
    Carries text := by
  obtain ⟨written, marker, within⟩ := carries
  exact ⟨written, marker, within.trans inside⟩

def Divides (divider : Char) : Prop :=
  Text.isBlank divider ∨ divider = '*' ∨ divider = '/'

theorem carries_divided_iff {divider : Char} (divides : Divides divider) (left right : List Char) :
    Carries (left ++ divider :: right) ↔ Carries left ∨ Carries right := by
  constructor
  · rintro ⟨written, marker, inside⟩
    have undivided : divider ∉ written := by
      intro member
      obtain ⟨dark, notStar, notSlash⟩ := marker.solid divider member
      rcases divides with blank | star | slash
      · rw [dark] at blank
        cases blank
      · exact notStar star
      · exact notSlash slash
    rcases Text.infix_or_infix_of_divided undivided inside with before | after
    · exact .inl ⟨written, marker, before⟩
    · exact .inr ⟨written, marker, after⟩
  · rintro (before | after)
    · exact before.of_infix (List.prefix_append _ _).isInfix
    · exact after.of_infix ⟨left ++ [divider], [], by simp⟩

theorem carries_cons_iff {divider : Char} (divides : Divides divider) (text : List Char) :
    Carries (divider :: text) ↔ Carries text :=
  (carries_divided_iff divides [] text).trans (or_iff_right not_carries_nil)

theorem carries_trim_iff {text : List Char} : Carries (Text.trim text) ↔ Carries text := by
  apply exists_congr
  intro written
  apply and_congr_right
  intro marker
  exact Text.infix_trim_iff fun char member => (marker.solid char member).1

theorem carries_append_blanks_iff {text blanks : List Char}
    (blank : ∀ char ∈ blanks, Text.isBlank char) : Carries (text ++ blanks) ↔ Carries text := by
  apply exists_congr
  intro written
  apply and_congr_right
  intro marker
  exact Text.infix_append_blanks_iff (fun char member => (marker.solid char member).1) blank

/-! ## Blanks and comments -/

/-- What can stand before code. A comment is given with its text. -/
inductive Trivia where
  | blank
  | line (text : List Char)
  | block (text : List Char)
  | cutOff (text : List Char)

namespace Trivia

def text : Trivia → List Char
  | .blank => []
  | .line text => text
  | .block text => text
  | .cutOff text => text

end Trivia

def blockEnd : List Char := ['*', '/']

/-- If `*/` follows the text, it is the first one. -/
def IsOpen (text : List Char) : Prop :=
  ¬blockEnd <:+: text ++ ['*']

/-- Line feed, carriage return, next line, line separator and paragraph separator. -/
def lineTerminators : List Char :=
  ['\n', '\r', '\u0085', '\u2028', '\u2029']

/-- The characters that end a line comment. The search itself divides the source at line feeds only. -/
structure LineEnds where
  chars : List Char
  newline : '\n' ∈ chars
  known : ∀ char ∈ chars, char ∈ lineTerminators

def LineEnds.all : LineEnds where
  chars := lineTerminators
  newline := List.mem_cons_self
  known := fun _ member => member

theorem LineEnds.isBlank (lineEnds : LineEnds) {char : Char} (member : char ∈ lineEnds.chars) :
    Text.isBlank char := by
  have blank : lineTerminators.all Text.isBlank := by decide
  exact List.all_eq_true.mp blank char (lineEnds.known char member)

def IsLineEnd (lineEnds : LineEnds) (rest : List Char) : Prop :=
  ∀ char ∈ rest.head?, char ∈ lineEnds.chars

/-- The source starts with a blank or a comment, and `rest` comes after it. A line comment goes up to the
end of its line, and a block comment up to the next `*/`. -/
inductive Starts (lineEnds : LineEnds) : List Char → Trivia → List Char → Prop
  | blank {char rest} (blank : Text.isBlank char) : Starts lineEnds (char :: rest) .blank rest
  | line {text rest} (single : ∀ char ∈ text, char ∉ lineEnds.chars)
      (ends : IsLineEnd lineEnds rest) :
      Starts lineEnds ('/' :: '/' :: (text ++ rest)) (.line text) rest
  | block {text rest} (isOpen : IsOpen text) :
      Starts lineEnds ('/' :: '*' :: (text ++ '*' :: '/' :: rest)) (.block text) rest
  | cutOff {text} (endless : ¬blockEnd <:+: text) :
      Starts lineEnds ('/' :: '*' :: text) (.cutOff text) []

variable {lineEnds : LineEnds}

theorem Starts.shape {source rest : List Char} {trivia : Trivia}
    (starts : Starts lineEnds source trivia rest) :
    (∃ char more, source = char :: more ∧ Text.isBlank char) ∨
      (∃ more, source = '/' :: '/' :: more) ∨ ∃ more, source = '/' :: '*' :: more := by
  cases starts with
  | blank blank => exact .inl ⟨_, _, rfl, blank⟩
  | line => exact .inr (.inl ⟨_, rfl⟩)
  | block => exact .inr (.inr ⟨_, rfl⟩)
  | cutOff => exact .inr (.inr ⟨_, rfl⟩)

theorem not_starts_code {code after : List Char}
    (solid : ∀ char ∈ code.head?, Text.isBlank char = false) (inhabited : code ≠ [])
    (noLine : ∀ comment, code ≠ '/' :: '/' :: comment)
    (noBlock : ∀ comment, code ≠ '/' :: '*' :: comment)
    (blank : ∀ char ∈ after.head?, Text.isBlank char) (trivia : Trivia) (rest : List Char) :
    ¬Starts lineEnds (code ++ after) trivia rest := by
  have reaches {second : Char} {more : List Char} (same : code ++ after = '/' :: second :: more)
      (dark : Text.isBlank second = false) : ∃ comment, code = '/' :: second :: comment := by
    match code with
    | [] => exact absurd rfl inhabited
    | [only] =>
        have start : after = second :: more := (List.cons.inj same).2
        have lit := blank second (by rw [start]; rfl)
        rw [dark] at lit
        cases lit
    | first :: next :: others =>
        simp only [List.cons_append, List.cons.injEq] at same
        exact ⟨others, by rw [same.1, same.2.1]⟩
  intro starts
  rcases starts.shape with ⟨char, more, same, lit⟩ | ⟨more, same⟩ | ⟨more, same⟩
  · obtain ⟨head, others, rfl⟩ := List.exists_cons_of_ne_nil inhabited
    have dark := solid head rfl
    rw [(List.cons.inj same).1, lit] at dark
    cases dark
  · obtain ⟨comment, equal⟩ := reaches same (by decide)
    exact noLine comment equal
  · obtain ⟨comment, equal⟩ := reaches same (by decide)
    exact noBlock comment equal

theorem takeWhile_append_of_ends {line rest : List Char} {inLine : Char → Bool}
    (whole : ∀ char ∈ line, inLine char) (ends : ∀ char ∈ rest.head?, inLine char = false) :
    (line ++ rest).takeWhile inLine = line := by
  rw [List.takeWhile_append_of_pos whole]
  cases rest with
  | nil => simp
  | cons next later => simp [ends next rfl]

theorem eq_of_single {text other rest later : List Char}
    (single : ∀ char ∈ text, char ∉ lineEnds.chars)
    (otherSingle : ∀ char ∈ other, char ∉ lineEnds.chars) (ends : IsLineEnd lineEnds rest)
    (otherEnds : IsLineEnd lineEnds later) (same : text ++ rest = other ++ later) :
    text = other ∧ rest = later := by
  have line {text rest : List Char} (single : ∀ char ∈ text, char ∉ lineEnds.chars)
      (ends : IsLineEnd lineEnds rest) :
      (text ++ rest).takeWhile (· ∉ lineEnds.chars) = text := by
    apply takeWhile_append_of_ends
    · exact fun char member => decide_eq_true (single char member)
    · exact fun char member => decide_eq_false (not_not_intro (ends char member))
  have texts : text = other := by rw [← line single ends, same, line otherSingle otherEnds]
  subst texts
  exact ⟨rfl, List.append_cancel_left same⟩

theorem eq_of_isOpen {text other rest later : List Char} (isOpen : IsOpen text)
    (otherOpen : IsOpen other) (same : text ++ '*' :: '/' :: rest = other ++ '*' :: '/' :: later) :
    text = other ∧ rest = later := by
  have shorter {text other rest later gap : List Char} (otherOpen : IsOpen other)
      (longer : other = text ++ gap) (same : '*' :: '/' :: rest = gap ++ '*' :: '/' :: later) :
      gap = [] := by
    match gap with
    | [] => rfl
    | [only] =>
        simp only [List.cons_append, List.nil_append, List.cons.injEq] at same
        exact absurd same.2.1 (by decide)
    | first :: second :: others =>
        simp only [List.cons_append, List.cons.injEq] at same
        obtain ⟨rfl, rfl, _⟩ := same
        subst longer
        exact absurd ⟨text, others ++ ['*'], by simp [blockEnd]⟩ otherOpen
  rcases List.append_eq_append_iff.mp same with ⟨gap, longer, tail⟩ | ⟨gap, longer, tail⟩
  · have none := shorter otherOpen longer tail
    subst none
    simp_all
  · have none := shorter isOpen longer tail
    subst none
    simp_all

theorem Starts.of_line {more rest : List Char} {trivia : Trivia}
    (starts : Starts lineEnds ('/' :: '/' :: more) trivia rest) :
    ∃ text, trivia = .line text ∧ (∀ char ∈ text, char ∉ lineEnds.chars) ∧
      IsLineEnd lineEnds rest ∧ more = text ++ rest := by
  generalize same : '/' :: '/' :: more = source at starts
  cases starts with
  | blank blank =>
      obtain ⟨rfl, _⟩ := List.cons.inj same
      exact absurd blank (by decide)
  | line single ends => exact ⟨_, rfl, single, ends, (List.cons.inj (List.cons.inj same).2).2⟩
  | _ => exact absurd (List.cons.inj (List.cons.inj same).2).1 (by decide)

theorem Starts.of_block {more rest : List Char} {trivia : Trivia}
    (starts : Starts lineEnds ('/' :: '*' :: more) trivia rest) :
    (∃ text, trivia = .block text ∧ IsOpen text ∧ more = text ++ '*' :: '/' :: rest) ∨
      trivia = .cutOff more ∧ rest = [] ∧ ¬blockEnd <:+: more := by
  generalize same : '/' :: '*' :: more = source at starts
  cases starts with
  | blank blank =>
      obtain ⟨rfl, _⟩ := List.cons.inj same
      exact absurd blank (by decide)
  | line => exact absurd (List.cons.inj (List.cons.inj same).2).1 (by decide)
  | block isOpen => exact .inl ⟨_, rfl, isOpen, (List.cons.inj (List.cons.inj same).2).2⟩
  | cutOff endless =>
      cases same
      exact .inr ⟨rfl, rfl, endless⟩

theorem Starts.unique {source rest later : List Char} {trivia other : Trivia}
    (starts : Starts lineEnds source trivia rest) (again : Starts lineEnds source other later) :
    trivia = other ∧ rest = later := by
  have closed (text rest : List Char) : blockEnd <:+: text ++ '*' :: '/' :: rest :=
    ⟨text, rest, by simp [blockEnd]⟩
  cases starts with
  | blank blank =>
      cases again with
      | blank => exact ⟨rfl, rfl⟩
      | _ => exact absurd blank (by decide)
  | line single ends =>
      obtain ⟨text, rfl, otherSingle, otherEnds, same⟩ := again.of_line
      obtain ⟨rfl, rfl⟩ := eq_of_single single otherSingle ends otherEnds same
      exact ⟨rfl, rfl⟩
  | block isOpen =>
      rcases again.of_block with ⟨text, rfl, otherOpen, same⟩ | ⟨_, _, endless⟩
      · obtain ⟨rfl, rfl⟩ := eq_of_isOpen isOpen otherOpen same
        exact ⟨rfl, rfl⟩
      · exact absurd (closed _ _) endless
  | cutOff endless =>
      rcases again.of_block with ⟨text, _, _, rfl⟩ | ⟨rfl, rfl, _⟩
      · exact absurd (closed _ _) endless
      · exact ⟨rfl, rfl⟩

/-- Only blanks and comments stand before the given one, after which `rest` comes. -/
inductive Opening (lineEnds : LineEnds) : List Char → Trivia → List Char → Prop
  | here {source trivia rest} (starts : Starts lineEnds source trivia rest) :
      Opening lineEnds source trivia rest
  | later {source first after trivia rest} (starts : Starts lineEnds source first after)
      (opening : Opening lineEnds after trivia rest) : Opening lineEnds source trivia rest

def Marked (lineEnds : LineEnds) (source : List Char) : Prop :=
  ∃ comment rest, Opening lineEnds source comment rest ∧ Carries comment.text

theorem opening_iff {source after rest : List Char} {first trivia : Trivia}
    (starts : Starts lineEnds source first after) :
    Opening lineEnds source trivia rest ↔
      trivia = first ∧ rest = after ∨ Opening lineEnds after trivia rest := by
  constructor
  · rintro (⟨again⟩ | ⟨again, opening⟩)
    · obtain ⟨rfl, rfl⟩ := starts.unique again
      exact .inl ⟨rfl, rfl⟩
    · obtain ⟨rfl, rfl⟩ := starts.unique again
      exact .inr opening
  · rintro (⟨rfl, rfl⟩ | opening)
    · exact .here starts
    · exact .later starts opening

theorem marked_iff {source rest : List Char} {trivia : Trivia}
    (starts : Starts lineEnds source trivia rest) :
    Marked lineEnds source ↔ Carries trivia.text ∨ Marked lineEnds rest := by
  constructor
  · rintro ⟨comment, after, opening, carries⟩
    rcases (opening_iff starts).mp opening with ⟨rfl, rfl⟩ | later
    · exact .inl carries
    · exact .inr ⟨comment, after, later, carries⟩
  · rintro (carries | ⟨comment, after, opening, carries⟩)
    · exact ⟨trivia, rest, .here starts, carries⟩
    · exact ⟨comment, after, .later starts opening, carries⟩

theorem not_marked {source : List Char}
    (code : ∀ trivia rest, ¬Starts lineEnds source trivia rest) : ¬Marked lineEnds source := by
  rintro ⟨comment, rest, opening, _⟩
  cases opening with
  | here starts => exact code _ _ starts
  | later starts => exact code _ _ starts

theorem not_marked_nil : ¬Marked lineEnds [] :=
  not_marked fun _ _ starts => nomatch starts

theorem marked_blank_iff {char : Char} {rest : List Char} (blank : Text.isBlank char) :
    Marked lineEnds (char :: rest) ↔ Marked lineEnds rest := by
  rw [marked_iff (.blank blank)]
  exact or_iff_right not_carries_nil

theorem marked_trimStart_iff (line rest : List Char) :
    Marked lineEnds (Text.trimStart line ++ rest) ↔ Marked lineEnds (line ++ rest) := by
  induction line with
  | nil => rfl
  | cons head tail induction =>
      rw [Text.trimStart]
      cases blank : Text.isBlank head with
      | false => rw [List.dropWhile_cons_of_neg (by simp [blank])]
      | true =>
          rw [List.dropWhile_cons_of_pos blank, List.cons_append, marked_blank_iff blank]
          exact induction

/-! ## Inside a block comment -/

theorem exists_isOpen_of_infix {text : List Char} (closed : blockEnd <:+: text) :
    ∃ body rest, IsOpen body ∧ text = body ++ '*' :: '/' :: rest := by
  induction text with
  | nil => cases List.infix_nil.mp closed
  | cons head tail induction =>
      by_cases starts : blockEnd <+: head :: tail
      · obtain ⟨rest, equal⟩ := starts
        exact ⟨[], rest, by rw [IsOpen]; decide, equal.symm⟩
      · obtain ⟨body, rest, isOpen, rfl⟩ :=
          induction ((List.infix_cons_iff.mp closed).resolve_left starts)
        refine ⟨head :: body, rest, ?_, rfl⟩
        intro inside
        rcases List.infix_cons_iff.mp inside with atStart | later
        · apply starts
          have longer : head :: (body ++ ['*']) <+: head :: (body ++ '*' :: '/' :: rest) := by
            simp
          exact atStart.trans longer
        · exact isOpen later

/-- In a source that starts inside a block comment, this comment or one of those that come after it
carries a marker. -/
def MarkedWithin (lineEnds : LineEnds) (source : List Char) : Prop :=
  Marked lineEnds ('/' :: '*' :: source)

theorem markedWithin_iff {body : List Char} (isOpen : IsOpen body) (rest : List Char) :
    MarkedWithin lineEnds (body ++ '*' :: '/' :: rest) ↔ Carries body ∨ Marked lineEnds rest :=
  marked_iff (.block isOpen)

theorem markedWithin_cutOff_iff {source : List Char} (endless : ¬blockEnd <:+: source) :
    MarkedWithin lineEnds source ↔ Carries source :=
  (marked_iff (.cutOff endless)).trans (or_iff_left not_marked_nil)

theorem isOpen_line {line body : List Char} (endless : ¬blockEnd <:+: line) (isOpen : IsOpen body) :
    IsOpen (line ++ '\n' :: body) := by
  intro inside
  rw [List.append_assoc, List.cons_append] at inside
  rcases Text.infix_or_infix_of_divided (by decide) inside with before | after
  · exact endless before
  · exact isOpen after

theorem endless_line {line rest : List Char} (endless : ¬blockEnd <:+: line)
    (later : ¬blockEnd <:+: rest) : ¬blockEnd <:+: line ++ '\n' :: rest := by
  intro inside
  rcases Text.infix_or_infix_of_divided (by decide) inside with before | after
  · exact endless before
  · exact later after

theorem markedWithin_line_iff {line rest : List Char} (endless : ¬blockEnd <:+: line) :
    MarkedWithin lineEnds (line ++ '\n' :: rest) ↔
      Carries line ∨ MarkedWithin lineEnds rest := by
  have divided (body : List Char) : Carries (line ++ '\n' :: body) ↔ Carries line ∨ Carries body :=
    carries_divided_iff (.inl (by decide)) line body
  by_cases closed : blockEnd <:+: rest
  · obtain ⟨body, after, isOpen, rfl⟩ := exists_isOpen_of_infix closed
    have whole : MarkedWithin lineEnds _ ↔ _ := markedWithin_iff (isOpen_line endless isOpen) after
    rw [List.append_assoc, List.cons_append] at whole
    rw [whole, divided, markedWithin_iff isOpen, or_assoc]
  · rw [markedWithin_cutOff_iff (endless_line endless closed), markedWithin_cutOff_iff closed, divided]

/-! ## The rest of a line behind a comment -/

namespace Trivia

def IsCutOff : Trivia → Prop
  | .cutOff _ => True
  | _ => False

/-- A comment behind which its line, as the search sees it, may go on. -/
def IsClosed : Trivia → Prop
  | .line _ => True
  | .block _ => True
  | _ => False

end Trivia

/-- Only blanks and comments stand in the rest of a line, and all of them end with it. -/
inductive Clear (lineEnds : LineEnds) : List Char → Prop
  | nil : Clear lineEnds []
  | cons {text trivia rest} (starts : Starts lineEnds text trivia rest) (ends : ¬trivia.IsCutOff)
      (clear : Clear lineEnds rest) : Clear lineEnds text

/-- Behind every comment that opens the source, the rest is clear up to the next line feed. Behind a line
comment that a line feed ends there is no such rest. -/
def Steady (lineEnds : LineEnds) (source : List Char) : Prop :=
  ∀ comment rest, comment.IsClosed → Opening lineEnds source comment rest →
    Clear lineEnds (rest.takeWhile (· ≠ '\n'))

theorem Steady.of_starts {source rest : List Char} {trivia : Trivia}
    (steady : Steady lineEnds source) (starts : Starts lineEnds source trivia rest) :
    Steady lineEnds rest :=
  fun comment after closed opening => steady comment after closed (.later starts opening)

theorem Steady.of_trimStart {line rest : List Char} (steady : Steady lineEnds (line ++ rest)) :
    Steady lineEnds (Text.trimStart line ++ rest) := by
  induction line with
  | nil => exact steady
  | cons head tail induction =>
      rw [Text.trimStart]
      cases blank : Text.isBlank head with
      | false => rwa [List.dropWhile_cons_of_neg (by simp [blank])]
      | true =>
          rw [List.dropWhile_cons_of_pos blank]
          exact induction (steady.of_starts (.blank blank))

def IsNewline (rest : List Char) : Prop :=
  ∀ char ∈ rest.head?, char = '\n'

theorem IsNewline.isLineEnd {rest : List Char} (newline : IsNewline rest) :
    IsLineEnd lineEnds rest := by
  intro char member
  rw [newline char member]
  exact lineEnds.newline

theorem takeWhile_line {line rest : List Char} (single : '\n' ∉ line) (ends : IsNewline rest) :
    (line ++ rest).takeWhile (· ≠ '\n') = line := by
  apply takeWhile_append_of_ends
  · exact fun char member => decide_eq_true fun same => single (same ▸ member)
  · exact fun char member => decide_eq_false (not_not_intro (ends char member))

theorem Starts.append {source rest tail : List Char} {trivia : Trivia}
    (starts : Starts lineEnds source trivia rest) (ends : ¬trivia.IsCutOff)
    (newline : IsNewline tail) : Starts lineEnds (source ++ tail) trivia (rest ++ tail) := by
  cases starts with
  | blank blank => exact .blank blank
  | @line text rest single lineEnd =>
      have whole : Starts lineEnds ('/' :: '/' :: (text ++ (rest ++ tail))) (.line text)
          (rest ++ tail) := by
        apply Starts.line single
        cases rest with
        | nil => exact newline.isLineEnd
        | cons next later => exact lineEnd
      simpa using whole
  | @block text rest isOpen =>
      have whole : Starts lineEnds ('/' :: '*' :: (text ++ '*' :: '/' :: (rest ++ tail)))
          (.block text) (rest ++ tail) := .block isOpen
      simpa using whole
  | cutOff => exact absurd trivial ends

theorem carries_line_iff {text rest : List Char} (ends : IsLineEnd lineEnds rest) :
    Carries (text ++ rest) ↔ Carries text ∨ Carries rest := by
  cases rest with
  | nil =>
      rw [List.append_nil]
      exact (or_iff_left not_carries_nil).symm
  | cons next later =>
      have divides : Divides next := .inl (lineEnds.isBlank (ends next rfl))
      rw [carries_divided_iff divides, carries_cons_iff divides]

theorem Starts.carries_iff {source rest : List Char} {trivia : Trivia}
    (starts : Starts lineEnds source trivia rest) :
    Carries source ↔ Carries trivia.text ∨ Carries rest := by
  have slash : Divides '/' := .inr (.inr rfl)
  have star : Divides '*' := .inr (.inl rfl)
  cases starts with
  | blank blank =>
      rw [carries_cons_iff (.inl blank)]
      exact (or_iff_right not_carries_nil).symm
  | line single ends =>
      rw [carries_cons_iff slash, carries_cons_iff slash]
      exact carries_line_iff ends
  | block isOpen =>
      rw [carries_cons_iff slash, carries_cons_iff star, carries_divided_iff star,
        carries_cons_iff slash]
      rfl
  | cutOff endless =>
      rw [carries_cons_iff slash, carries_cons_iff star]
      exact (or_iff_left not_carries_nil).symm

section Clear

variable {line tail : List Char} (clear : Clear lineEnds line) (newline : IsNewline tail)

include clear newline

theorem Clear.marked_iff :
    Marked lineEnds (line ++ tail) ↔ Carries line ∨ Marked lineEnds tail := by
  induction clear with
  | nil => exact (or_iff_right not_carries_nil).symm
  | cons starts ends _ induction =>
      rw [GeneratedCode.marked_iff (starts.append ends newline), induction, starts.carries_iff,
        or_assoc]

theorem Clear.steady (steady : Steady lineEnds (line ++ tail)) : Steady lineEnds tail := by
  induction clear with
  | nil => exact steady
  | cons starts ends _ induction => exact induction (steady.of_starts (starts.append ends newline))

end Clear

/-! ## One line of the search -/

/-- The search through the lines finds a marker if the comments of the source carry one, from outside
and from inside a block comment. -/
structure Agrees (lineEnds : LineEnds) (source : List Char) (lines : List (List Char)) : Prop where
  outside : Steady lineEnds source → (headerMarked false lines ↔ Marked lineEnds source)
  within : Steady lineEnds ('/' :: '*' :: source) →
    (headerMarked true lines ↔ MarkedWithin lineEnds source)

theorem Steady.within_line {line rest : List Char} (endless : ¬blockEnd <:+: line)
    (steady : Steady lineEnds ('/' :: '*' :: (line ++ '\n' :: rest))) :
    Steady lineEnds ('/' :: '*' :: rest) := by
  intro comment after isClosed opening
  by_cases closed : blockEnd <:+: rest
  · obtain ⟨body, more, isOpen, rfl⟩ := exists_isOpen_of_infix closed
    have whole : Starts lineEnds ('/' :: '*' :: (line ++ '\n' :: (body ++ '*' :: '/' :: more)))
        (.block (line ++ '\n' :: body)) more := by
      have joined : line ++ '\n' :: (body ++ '*' :: '/' :: more) =
          (line ++ '\n' :: body) ++ '*' :: '/' :: more := by
        simp
      rw [joined]
      exact .block (isOpen_line endless isOpen)
    rcases (opening_iff (.block isOpen)).mp opening with ⟨_, rfl⟩ | later
    · exact steady (.block _) _ trivial (.here whole)
    · exact steady _ _ isClosed (.later whole later)
  · rcases (opening_iff (.cutOff closed)).mp opening with ⟨rfl, _⟩ | later
    · cases isClosed
    · cases later with
      | here starts => cases starts
      | later starts => cases starts

inductive Follows (lineEnds : LineEnds) : List Char → List (List Char) → Prop
  | last : Follows lineEnds [] []
  | more {rest lines} (agrees : Agrees lineEnds rest lines) : Follows lineEnds ('\n' :: rest) lines

theorem closesBlock_iff (text : List Char) : closesBlock text ↔ blockEnd <:+: text :=
  Text.occurs_iff

theorem solid_blockEnd : ∀ char ∈ blockEnd, Text.isBlank char = false := by
  have solid : blockEnd.all fun char => Text.isBlank char = false := by decide
  intro char member
  exact of_decide_eq_true (List.all_eq_true.mp solid char member)

theorem exists_line (lineEnds : LineEnds) (line : List Char) :
    ∃ text after, line = text ++ after ∧ (∀ char ∈ text, char ∉ lineEnds.chars) ∧
      IsLineEnd lineEnds after := by
  refine ⟨line.takeWhile (· ∉ lineEnds.chars), line.dropWhile (· ∉ lineEnds.chars),
    List.takeWhile_append_dropWhile.symm, ?_, ?_⟩
  · intro char member
    have inLine := List.mem_takeWhile_imp member
    exact of_decide_eq_true inLine
  · intro char member
    by_contra inLine
    have dropped := List.head?_dropWhile_not (fun char => decide (char ∉ lineEnds.chars)) line
    rw [Option.mem_def.mp member] at dropped
    simp [inLine] at dropped

section Line

variable {line tail : List Char} {later : List (List Char)} (follows : Follows lineEnds tail later)

include follows

theorem Follows.isNewline : IsNewline tail := by
  cases follows with
  | last => exact nofun
  | more => exact fun char member => (Option.some.inj member).symm

theorem Follows.outside (steady : Steady lineEnds tail) :
    headerMarked false later ↔ Marked lineEnds tail := by
  cases follows with
  | last =>
      rw [headerMarked]
      exact iff_of_false Bool.false_ne_true not_marked_nil
  | more agrees =>
      have blank : Text.isBlank '\n' := by decide
      rw [marked_blank_iff blank]
      exact agrees.outside (steady.of_starts (.blank blank))

theorem Follows.within (endless : ¬blockEnd <:+: line)
    (steady : Steady lineEnds ('/' :: '*' :: (line ++ tail))) :
    Carries line ∨ headerMarked true later ↔ MarkedWithin lineEnds (line ++ tail) := by
  cases follows with
  | last =>
      rw [List.append_nil, markedWithin_cutOff_iff endless, headerMarked]
      exact or_iff_left Bool.false_ne_true
  | more agrees => rw [markedWithin_line_iff endless, agrees.within (steady.within_line endless)]

theorem Follows.block_iff (single : '\n' ∉ line)
    (steady : Steady lineEnds ('/' :: '*' :: (line ++ tail))) :
    Carries line ∨ headerMarked (!closesBlock line) later ↔
      MarkedWithin lineEnds (line ++ tail) := by
  by_cases closed : blockEnd <:+: line
  · rw [(closesBlock_iff line).mpr closed]
    obtain ⟨body, after, isOpen, rfl⟩ := exists_isOpen_of_infix closed
    have joined : (body ++ '*' :: '/' :: after) ++ tail = body ++ '*' :: '/' :: (after ++ tail) := by
      simp
    have starts : Starts lineEnds ('/' :: '*' :: (body ++ '*' :: '/' :: (after ++ tail)))
        (.block body) (after ++ tail) := .block isOpen
    rw [joined] at steady
    have clear : Clear lineEnds after := by
      have afterSingle : '\n' ∉ after := fun member => single (by simp [member])
      rw [← takeWhile_line afterSingle follows.isNewline]
      exact steady (.block body) _ trivial (.here starts)
    have star : Divides '*' := .inr (.inl rfl)
    have slash : Divides '/' := .inr (.inr rfl)
    have further := follows.outside (clear.steady follows.isNewline (steady.of_starts starts))
    rw [joined, markedWithin_iff isOpen, clear.marked_iff follows.isNewline,
      carries_divided_iff star, carries_cons_iff slash, or_assoc, Bool.not_true, further]
  · have stays : closesBlock line = false := by
      rw [← Bool.not_eq_true, closesBlock_iff]
      exact closed
    rw [stays]
    exact follows.within closed steady

theorem Follows.within_line (single : '\n' ∉ line)
    (steady : Steady lineEnds ('/' :: '*' :: (line ++ tail))) :
    headerMarked true (line :: later) ↔ MarkedWithin lineEnds (line ++ tail) := by
  have closes : closesBlock (Text.trim line) = closesBlock line := by
    rw [Bool.eq_iff_iff, closesBlock_iff, closesBlock_iff]
    exact Text.infix_trim_iff solid_blockEnd
  rw [headerMarked, Bool.or_eq_true, isMarked_iff, carries_trim_iff, closes]
  exact follows.block_iff single steady

theorem Follows.line_iff (single : '\n' ∉ line)
    (steady : Steady lineEnds ('/' :: '/' :: (line ++ tail))) :
    Carries line ∨ headerMarked false later ↔ Marked lineEnds ('/' :: '/' :: (line ++ tail)) := by
  -- The comment may end before the line does; what comes after it is clear.
  obtain ⟨text, after, rfl, textSingle, ends⟩ := exists_line lineEnds line
  rw [List.append_assoc] at steady ⊢
  have starts : Starts lineEnds ('/' :: '/' :: (text ++ (after ++ tail))) (.line text)
      (after ++ tail) := by
    apply Starts.line textSingle
    cases after with
    | nil => exact follows.isNewline.isLineEnd
    | cons next more => exact ends
  have clear : Clear lineEnds after := by
    have afterSingle : '\n' ∉ after := fun member => single (by simp [member])
    rw [← takeWhile_line afterSingle follows.isNewline]
    exact steady (.line text) _ trivial (.here starts)
  have further := follows.outside (clear.steady follows.isNewline (steady.of_starts starts))
  rw [marked_iff starts, clear.marked_iff follows.isNewline, carries_line_iff ends, or_assoc,
    further]
  rfl

theorem Follows.isBlank_head {blanks : List Char} (blank : ∀ char ∈ blanks, Text.isBlank char) :
    ∀ char ∈ (blanks ++ tail).head?, Text.isBlank char := by
  cases blanks with
  | nil =>
      cases follows with
      | last => simp
      | more =>
          intro char member
          cases Option.some.inj member
          decide
  | cons head others => simpa using blank head List.mem_cons_self

theorem Follows.outside_line (single : '\n' ∉ line) (steady : Steady lineEnds (line ++ tail)) :
    headerMarked false (line :: later) ↔ Marked lineEnds (line ++ tail) := by
  obtain ⟨blanks, start, blank⟩ := Text.exists_trimStart_eq line
  have startSingle : '\n' ∉ Text.trim line ++ blanks := by
    rw [← start]
    exact fun member => single ((Text.isSuffix_trimStart line).subset member)
  replace steady := steady.of_trimStart
  rw [start] at steady
  rw [← marked_trimStart_iff, start, headerMarked]
  split
  · rename_i comment trimmed
    rw [trimmed] at steady startSingle ⊢
    rw [Bool.or_eq_true, isMarked_iff, ← carries_append_blanks_iff blank]
    exact follows.line_iff (by simpa using startSingle) steady
  · rename_i comment trimmed
    rw [trimmed] at steady startSingle ⊢
    have closes : closesBlock comment = closesBlock (comment ++ blanks) := by
      rw [Bool.eq_iff_iff, closesBlock_iff, closesBlock_iff]
      exact (Text.infix_append_blanks_iff solid_blockEnd blank).symm
    rw [Bool.or_eq_true, isMarked_iff, ← carries_append_blanks_iff blank, closes]
    exact follows.block_iff (by simpa using startSingle) steady
  · rename_i trimmed
    rw [trimmed, List.nil_append] at steady ⊢
    have gone : Text.trimStart blanks = [] := List.dropWhile_eq_nil_iff.mpr blank
    replace steady := steady.of_trimStart
    rw [gone] at steady
    rw [← marked_trimStart_iff, gone]
    exact follows.outside steady
  · rename_i noLine noBlock inhabited
    rw [List.append_assoc]
    apply iff_of_false Bool.false_ne_true
    exact not_marked (not_starts_code (Text.isBlank_head_trim line) inhabited noLine noBlock
      (follows.isBlank_head blank))

end Line

theorem undivided_of_single {line : List Char} (single : '\n' ∉ line) :
    ∀ char ∈ line, decide (char = '\n') = false :=
  fun _ member => decide_eq_false fun same => single (same ▸ member)

theorem agrees_pieces (lineEnds : LineEnds) (source : List Char) :
    Agrees lineEnds source (Text.pieces (· = '\n') source) := by
  induction source using Text.line_induction with
  | last line single =>
      rw [Text.pieces_of_undivided (undivided_of_single single)]
      constructor
      · intro steady
        have last := Follows.last.outside_line single (by rwa [List.append_nil])
        rwa [List.append_nil] at last
      · intro steady
        have last := Follows.last.within_line single (by rwa [List.append_nil])
        rwa [List.append_nil] at last
  | more line rest single agrees =>
      rw [Text.pieces_append_cons rest (undivided_of_single single) (by decide)]
      exact ⟨(Follows.more agrees).outside_line single, (Follows.more agrees).within_line single⟩

/-! ## The whole source -/

def contents (source : String) : List Char :=
  source.toList.dropWhile isByteOrderMark

theorem exists_trim_block (text : List Char) :
    ∃ comment blanks, Text.trim ('/' :: '*' :: text) = '/' :: '*' :: comment ∧
      text = comment ++ blanks ∧ ∀ char ∈ blanks, Text.isBlank char := by
  obtain ⟨blanks, start, blank⟩ := Text.exists_trimStart_eq ('/' :: '*' :: text)
  rw [Text.trimStart, List.dropWhile_cons_of_neg (by decide)] at start
  match trimmed : Text.trim ('/' :: '*' :: text) with
  | [] =>
      rw [trimmed, List.nil_append] at start
      exact absurd (blank '/' (start ▸ List.mem_cons_self)) (by decide)
  | [only] =>
      rw [trimmed] at start
      have later : '*' :: text = blanks := (List.cons.inj start).2
      exact absurd (blank '*' (later ▸ List.mem_cons_self)) (by decide)
  | first :: second :: comment =>
      rw [trimmed] at start
      simp only [List.cons_append, List.cons.injEq] at start
      obtain ⟨rfl, rfl, rfl⟩ := start
      exact ⟨comment, blanks, rfl, rfl, blank⟩

/-- The search does not notice where a block comment ends on its line. -/
theorem opensWithMarker_of_carries {text : List Char} (single : '\n' ∉ text) (carries : Carries text) :
    opensWithMarker (String.ofList ('/' :: '*' :: text)) := by
  have whole : '\n' ∉ '/' :: '*' :: text := by simp [single]
  have unmarked : (String.ofList ('/' :: '*' :: text)).toList.dropWhile isByteOrderMark =
      '/' :: '*' :: text := by
    rw [String.toList_ofList, List.dropWhile_cons_of_neg (by decide)]
  obtain ⟨comment, blanks, trimmed, rfl, blank⟩ := exists_trim_block text
  have found : isMarked comment :=
    (isMarked_iff comment).mpr ((carries_append_blanks_iff blank).mp carries)
  rw [opensWithMarker, unmarked, Text.pieces_of_undivided (undivided_of_single whole), headerMarked,
    trimmed]
  simp only [found, Bool.true_or]

/-- Let only blanks and comments stand between a comment that opens the source and the next line feed,
all of which end there. Then the source counts as opening with a marker if and only if a marker stands
in one of the comments before its code. This holds with line comments that line feeds end, as with those
that any line terminator ends. Without the condition a marker in code behind a block comment counts as
well. -/
theorem opensWithMarker_iff (source : String) (lineEnds : LineEnds)
    (steady : Steady lineEnds (contents source)) :
    (opensWithMarker source ↔ ∃ comment rest, Opening lineEnds (contents source) comment rest ∧
        ∃ written, IsMarker written ∧ written <:+: comment.text) ∧
      ∀ text code, '\n' ∉ text → '\n' ∉ code → Carries code →
        opensWithMarker (String.ofList ('/' :: '*' :: (text ++ '*' :: '/' :: code))) := by
  refine ⟨(agrees_pieces lineEnds (contents source)).outside steady, ?_⟩
  intro text code single codeSingle carries
  apply opensWithMarker_of_carries
  · simp [single, codeSingle]
  · exact carries.of_infix ⟨text ++ ['*', '/'], [], by simp⟩

theorem opensWithMarker_iff_twoLines :
    let source := "/* Tool\n <AutoGenerated/> */ // by hand\r\nclass A"
    Steady .all (contents source) ∧ opensWithMarker source ∧ Marked .all (contents source) := by
  intro source
  have first : Starts .all (contents source) (.block " Tool\n <AutoGenerated/> ".toList)
      " // by hand\r\nclass A".toList := by
    have shape : contents source = '/' :: '*' ::
        (" Tool\n <AutoGenerated/> ".toList ++ '*' :: '/' :: " // by hand\r\nclass A".toList) := by
      decide
    rw [shape]
    exact .block (by rw [IsOpen]; decide)
  have second {rest : List Char} :
      Starts .all ("// by hand".toList ++ '\r' :: rest) (.line " by hand".toList) ('\r' :: rest) := by
    have single : " by hand".toList.all (· ∉ LineEnds.all.chars) := by decide
    apply Starts.line fun char member => of_decide_eq_true (List.all_eq_true.mp single char member)
    intro char member
    rw [← Option.some.inj member]
    decide
  have blank {char : Char} {rest : List Char} (blank : Text.isBlank char) :
      Starts .all (char :: rest) .blank rest := .blank blank
  have code (trivia : Trivia) (rest : List Char) : ¬Opening .all "class A".toList trivia rest := by
    rintro (⟨⟨⟩⟩ | ⟨⟨⟩, _⟩) <;> contradiction
  have steady : Steady .all (contents source) := by
    intro comment rest closed opening
    have clear : Clear .all "\r".toList := .cons (blank (by decide)) id .nil
    rcases (opening_iff first).mp opening with ⟨_, rfl⟩ | behind
    · exact .cons (blank (by decide)) id (.cons second id clear)
    rcases (opening_iff (blank (by decide))).mp behind with ⟨rfl, _⟩ | behind
    · cases closed
    rcases (opening_iff second).mp behind with ⟨_, rfl⟩ | behind
    · exact clear
    rcases (opening_iff (blank (by decide))).mp behind with ⟨rfl, _⟩ | behind
    · cases closed
    rcases (opening_iff (blank (by decide))).mp behind with ⟨rfl, _⟩ | behind
    · cases closed
    exact absurd behind (code _ _)
  have found : opensWithMarker source := by decide
  exact ⟨steady, found, (opensWithMarker_iff source .all steady).1.mp found⟩

/-- A marker in code is taken for one in a comment if a block comment ends on the line of the code, and so
is one in a comment that comes after such code. -/
theorem codeBehindComment_counts :
    let inCode := "/* a */ string s = \"<auto-generated>\";"
    let afterCode := "/* a */ using B;\n// <auto-generated>"
    ∀ lineEnds, (opensWithMarker inCode ∧ ¬Marked lineEnds (contents inCode)) ∧
      opensWithMarker afterCode ∧ ¬Marked lineEnds (contents afterCode) := by
  intro inCode afterCode lineEnds
  have unmarked {source : String} {first : Char} {more : List Char}
      (shape : contents source = '/' :: '*' :: (" a ".toList ++ '*' :: '/' :: ' ' :: first :: more))
      (dark : Text.isBlank first = false) (notSlash : first ≠ '/') :
      ¬Marked lineEnds (contents source) := by
    rw [shape, marked_iff (.block (by rw [IsOpen]; decide)), marked_blank_iff (by decide)]
    rintro (carries | behind)
    · rw [Trivia.text, ← isMarked_iff] at carries
      revert carries
      decide
    · refine not_marked ?_ behind
      rintro trivia rest starts
      rcases starts.shape with ⟨char, rest, same, lit⟩ | ⟨rest, same⟩ | ⟨rest, same⟩
      · obtain ⟨rfl, _⟩ := List.cons.inj same
        cases dark.symm.trans lit
      · exact notSlash (List.cons.inj same).1
      · exact notSlash (List.cons.inj same).1
  have inCode_shape : contents inCode = '/' :: '*' ::
      (" a ".toList ++ '*' :: '/' :: ' ' :: 's' :: "tring s = \"<auto-generated>\";".toList) := by
    decide
  have afterCode_shape : contents afterCode = '/' :: '*' ::
      (" a ".toList ++ '*' :: '/' :: ' ' :: 'u' :: "sing B;\n// <auto-generated>".toList) := by
    decide
  exact ⟨⟨by decide, unmarked inCode_shape (by decide) (by decide)⟩, by decide,
    unmarked afterCode_shape (by decide) (by decide)⟩

end GeneratedCode

end UnityLint
