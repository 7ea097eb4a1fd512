import UnityLint.Glob.Basic

/-! # Globs for directories

A text without wildcards describes itself, and `**` stands for any number of directories. A pattern that
ends in `/**` describes what is below the directory that it names, and one that also starts with `**/` what
is below a directory of that name anywhere. -/

namespace UnityLint

/-! ## Ends after any characters -/

theorem Ends.afterMany_true_iff {α : Type} {accepts : List α → Bool} {list : List α} :
    afterMany (fun _ => true) accepts list ↔ ∃ front rest, list = front ++ rest ∧ accepts rest := by
  induction list with
  | nil =>
      rw [afterMany]
      constructor
      · intro accepted
        exact ⟨[], [], rfl, accepted⟩
      · rintro ⟨front, rest, equal, accepted⟩
        rw [(List.append_eq_nil_iff.mp equal.symm).2] at accepted
        exact accepted
  | cons head tail induction =>
      rw [afterMany, Bool.true_and, Bool.or_eq_true, induction]
      constructor
      · rintro (accepted | ⟨front, rest, rfl, accepted⟩)
        · exact ⟨[], head :: tail, rfl, accepted⟩
        · exact ⟨head :: front, rest, rfl, accepted⟩
      · rintro ⟨front, rest, equal, accepted⟩
        cases front with
        | nil => exact .inl (equal ▸ accepted)
        | cons first others =>
            rw [List.cons_append, List.cons.injEq] at equal
            exact .inr ⟨others, rest, equal.2, accepted⟩

namespace Glob

/-! ## Reading -/

/-- The text has no wildcards, so that each of its characters stands for itself. -/
def IsLiteral (text : List Char) : Prop :=
  '?' ∉ text ∧ '*' ∉ text ∧ '[' ∉ text

instance (text : List Char) : Decidable (IsLiteral text) :=
  inferInstanceAs (Decidable (_ ∧ _))

variable {text : List Char}

theorem scan_cons {char : Char} (literal : IsLiteral [char]) (position : Nat) (before : Option Char)
    (rest : List Char) :
    scan none position before (char :: rest) =
      (.char char :: ·) <$> scan none (position + 1) (some char) rest := by
  simp only [IsLiteral, List.mem_singleton] at literal
  rw [scan] <;> grind

theorem scan_contents (literal : IsLiteral text) (position : Nat) (before : Option Char) :
    scan none position before (text ++ ['/', '*', '*']) =
      .ok (text.map Token.char ++ [.char '/', .anyDirectories]) := by
  induction text generalizing position before with
  | nil => rfl
  | cons head tail induction =>
      have headLiteral : IsLiteral [head] := by simp_all [IsLiteral]
      have tailLiteral : IsLiteral tail := by simp_all [IsLiteral]
      rw [List.cons_append, scan_cons headLiteral, induction tailLiteral]
      rfl

def contents (name : List Char) : Glob :=
  ⟨name.map .char ++ [.char '/', .anyDirectories]⟩

def contentsAnywhere (name : List Char) : Glob :=
  ⟨.anyDirectories :: (contents name).tokens⟩

theorem parse_contents (literal : IsLiteral text) :
    parse (text ++ ['/', '*', '*']) = .ok (contents text) := by
  rw [parse, scan_contents literal]
  rfl

theorem parse_contentsAnywhere (literal : IsLiteral text) :
    parse ('*' :: '*' :: '/' :: (text ++ ['/', '*', '*'])) = .ok (contentsAnywhere text) := by
  have start : scan none 0 none ('*' :: '*' :: '/' :: (text ++ ['/', '*', '*'])) =
      (.anyDirectories :: ·) <$> scan none 3 (some '/') (text ++ ['/', '*', '*']) := rfl
  rw [parse, start, scan_contents literal]
  rfl

/-! ## Matching -/

variable {tokens : List Token}

theorem covers_map_char_append (whole : List Char) :
    covers (text.map Token.char ++ tokens) whole ↔ ∃ rest, whole = text ++ rest ∧ covers tokens rest := by
  induction text generalizing whole with
  | nil => simp
  | cons head tail induction =>
      rw [List.map_cons, List.cons_append, covers, List.foldr_cons, ← covers]
      cases whole with
      | nil => simp [Token.before, Ends.afterOne]
      | cons first others =>
          rw [Token.before, Ends.afterOne, Bool.and_eq_true, decide_eq_true_iff, induction]
          simp [and_assoc]

theorem covers_anyDirectories (whole : List Char) : covers [.anyDirectories] whole := by
  simp [covers, Token.before, Ends.either, Ends.atEnd]

theorem covers_anyDirectories_cons (whole : List Char) :
    covers (.anyDirectories :: tokens) whole ↔
      covers tokens whole ∨ (∃ front rest, whole = front ++ '/' :: rest ∧ covers tokens rest) ∨
        covers tokens [] := by
  have afterSlash (rest : List Char) : Ends.afterOne (· = '/') (covers tokens) rest ↔
      ∃ later, rest = '/' :: later ∧ covers tokens later := by
    cases rest with
    | nil => simp [Ends.afterOne]
    | cons head tail => simp [Ends.afterOne, and_assoc]
  rw [covers, List.foldr_cons, ← covers, Token.before, Ends.either, Ends.either, Ends.atEnd,
    Bool.or_eq_true, Bool.or_eq_true, Ends.afterMany_true_iff]
  apply or_congr_right
  apply or_congr_left
  constructor
  · rintro ⟨front, rest, equal, accepted⟩
    obtain ⟨later, rfl, covered⟩ := (afterSlash rest).mp accepted
    exact ⟨front, later, equal, covered⟩
  · rintro ⟨front, rest, equal, covered⟩
    exact ⟨front, '/' :: rest, equal, (afterSlash _).mpr ⟨rest, rfl, covered⟩⟩

theorem covers_contents_iff (whole : List Char) :
    covers (contents text).tokens whole ↔ text ++ ['/'] <+: whole := by
  have tokens_eq : (contents text).tokens = (text ++ ['/']).map Token.char ++ [.anyDirectories] := by
    simp [contents]
  rw [tokens_eq, covers_map_char_append]
  constructor
  · rintro ⟨rest, rfl, -⟩
    exact List.prefix_append ..
  · rintro ⟨rest, rfl⟩
    exact ⟨rest, rfl, covers_anyDirectories rest⟩

theorem matches?_contents_iff (whole : List Char) :
    (contents text).matches? whole ↔ text ++ ['/'] <+: whole := by
  rw [matches?_eq_covers, covers_contents_iff]

theorem matches?_contentsAnywhere_iff (whole : List Char) :
    (contentsAnywhere text).matches? whole ↔
      text ++ ['/'] <+: whole ∨ '/' :: (text ++ ['/']) <:+: whole := by
  rw [matches?_eq_covers, contentsAnywhere, covers_anyDirectories_cons]
  simp only [covers_contents_iff]
  apply or_congr_right
  constructor
  · rintro (⟨front, rest, rfl, starts⟩ | starts)
    · exact ((List.prefix_cons_inj '/').mpr starts).isInfix.trans (List.suffix_append ..).isInfix
    · exact absurd (List.prefix_nil.mp starts) (by simp)
  · rintro ⟨front, rest, rfl⟩
    exact .inl ⟨front, text ++ ['/'] ++ rest, by simp, List.prefix_append ..⟩

end Glob

end UnityLint
