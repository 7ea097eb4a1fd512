import Mathlib.Data.List.Basic
import UnityLint.Proofs.Paths

/-! # Joined paths

The path from a base down along names is the base, a slash, and the names with slashes between them. Its
components are those of the base and the names, so that what is left of it from the base on are the names
again. -/

namespace UnityLint

/-! ## Pieces on both sides of a divider -/

namespace Text

variable {α : Type} {divides : α → Bool}

theorem pieces_append_divider {divider : α} (divided : divides divider) (left right : List α) :
    pieces divides (left ++ divider :: right) = pieces divides left ++ pieces divides right := by
  induction left with
  | nil => simp [pieces, divided]
  | cons head tail induction =>
      rw [List.cons_append, pieces, pieces, induction]
      split
      · rfl
      · obtain ⟨first, others, cut⟩ := List.exists_cons_of_ne_nil (pieces_ne_nil divides tail)
        rw [cut, List.cons_append, List.cons_append]

end Text

namespace Path

/-! ## Names -/

def IsName (name : String) : Prop :=
  name ≠ "" ∧ name ≠ "." ∧ name ≠ ".." ∧ '/' ∉ name.toList

instance (name : String) : Decidable (IsName name) :=
  inferInstanceAs (Decidable (_ ∧ _))

variable {name : String} {names : List String}

theorem IsName.toList_ne_nil (named : IsName name) : name.toList ≠ [] :=
  fun empty => named.1 (String.toList_eq_nil_iff.mp empty)

theorem IsName.undivided (named : IsName name) : ∀ char ∈ name.toList, isSeparator char = false := by
  intro char member
  apply decide_eq_false
  rintro rfl
  exact named.2.2.2 member

theorem IsName.component?_eq (named : IsName name) : component? name.toList = some (.name name) := by
  have apart {other : String} (different : name ≠ other) : name.toList ≠ other.toList :=
    fun same => different (String.toList_inj.mp same)
  have known : ¬(name.toList = [] ∨ name.toList = ['.']) :=
    not_or.mpr ⟨named.toList_ne_nil, apart named.2.1⟩
  have notUp : name.toList ≠ ['.', '.'] := apart named.2.2.1
  rw [component?, if_neg known, if_neg notUp, String.ofList_toList]

theorem pieces_names (named : ∀ name ∈ names, IsName name) (inhabited : names ≠ []) :
    Text.pieces isSeparator (String.intercalate "/" names).toList = names.map String.toList := by
  rw [String.toList_intercalate]
  apply Text.pieces_intercalate (by decide)
  · simpa using inhabited
  · intro piece member
    rcases List.mem_map.mp member with ⟨name, inside, rfl⟩
    exact (named name inside).undivided

theorem filterMap_names (named : ∀ name ∈ names, IsName name) :
    (names.map String.toList).filterMap component? = names.map Component.name := by
  rw [List.filterMap_map, ← List.filterMap_eq_map]
  exact List.filterMap_congr fun name member => (named name member).component?_eq

theorem isSome_names (named : ∀ name ∈ names, IsName name) :
    ∀ piece ∈ names.map String.toList, (component? piece).isSome := by
  intro piece member
  rcases List.mem_map.mp member with ⟨name, inside, rfl⟩
  exact Option.isSome_of_eq_some (named name inside).component?_eq

theorem filterMap_pieces_names (named : ∀ name ∈ names, IsName name) :
    (Text.pieces isSeparator (String.intercalate "/" names).toList).filterMap component? =
      names.map Component.name := by
  by_cases empty : names = []
  · rw [empty]
    rfl
  · rw [pieces_names named empty, filterMap_names named]

/-! ## Joining -/

theorem not_isAbsolute_names (named : ∀ name ∈ names, IsName name) :
    isAbsolute (String.intercalate "/" names) = false := by
  cases names with
  | nil => decide
  | cons first rest =>
      have firstNamed := named first List.mem_cons_self
      obtain ⟨head, tail, start⟩ := List.exists_cons_of_ne_nil firstNamed.toList_ne_nil
      have headKept : head ≠ '/' := by
        rintro rfl
        exact firstNamed.2.2.2 (start ▸ List.mem_cons_self)
      have starts : (String.intercalate "/" (first :: rest)).toList.head? = some head := by
        rw [String.toList_intercalate, List.map_cons, start]
        cases rest with
        | nil => rw [List.map_nil, List.intercalate_singleton, List.head?_cons]
        | cons second others =>
            rw [List.map_cons, List.intercalate_cons_cons, List.cons_append, List.cons_append,
              List.head?_cons]
      rw [isAbsolute, starts]
      exact decide_eq_false fun same => headKept (Option.some.inj same)

theorem isAbsolute_append {base : String} (absolute : isAbsolute base) (rest : String) :
    isAbsolute (base ++ rest) := by
  obtain ⟨tail, start⟩ := List.head?_eq_some_iff.mp (of_decide_eq_true absolute)
  rw [isAbsolute, String.toList_append, start]
  rfl

def below (base : String) (names : List String) : String :=
  join base (String.intercalate "/" names)

example : below "/Game/" ["Assets", "A.cs"] = "/Game/Assets/A.cs" := by decide

theorem join_eq_below (base name : String) : join base name = below base [name] :=
  congrArg (join base) String.intercalate_singleton.symm

theorem isAbsolute_below {base : String} (absolute : isAbsolute base) (names : List String) :
    isAbsolute (below base names) := by
  rw [below, join]
  split
  · assumption
  · split
    · exact isAbsolute_append absolute _
    · rw [String.append_assoc]
      exact isAbsolute_append absolute _

theorem join_eq {rest : String} (relative : isAbsolute rest = false) (base : String) :
    join base rest =
      (if base.toList.getLast?.all (· = '/') then base else base ++ "/") ++ rest := by
  rw [join, if_neg (by rw [relative]; decide)]
  split <;> rfl

theorem below_eq (named : ∀ name ∈ names, IsName name) (base : String) :
    below base names =
      (if base.toList.getLast?.all (· = '/') then base else base ++ "/") ++
        String.intercalate "/" names :=
  join_eq (not_isAbsolute_names named) base

theorem join_empty {rest : String} (relative : isAbsolute rest = false) : join "" rest = rest := by
  rw [join_eq relative, if_pos (by decide), String.empty_append]

theorem exists_join_eq {base rest : String} (relative : isAbsolute rest = false)
    (inhabited : base ≠ "") :
    ∃ front, join base rest = front ++ "/" ++ rest ∧ (base = front ∨ base = front ++ "/") := by
  rw [join_eq relative]
  split
  · rename_i ends
    cases last : base.toList.getLast? with
    | none => exact absurd (String.toList_eq_nil_iff.mp (List.getLast?_eq_none_iff.mp last)) inhabited
    | some char =>
        have slash : char = '/' := by simpa [last] using ends
        obtain ⟨front, cut⟩ := List.getLast?_eq_some_iff.mp last
        have base_eq : base = String.ofList front ++ "/" := by
          apply String.toList_inj.mp
          rw [String.toList_append, String.toList_ofList, cut, slash]
          rfl
        exact ⟨String.ofList front, by rw [← base_eq], .inr base_eq⟩
  · exact ⟨base, rfl, .inl rfl⟩

theorem components_append_slash {base : String} (inhabited : base ≠ "") :
    components (base ++ "/") = components base := by
  obtain ⟨first, rest, cut⟩ := List.exists_cons_of_ne_nil
    (Text.pieces_ne_nil isSeparator base.toList)
  have longer : Text.pieces isSeparator (base ++ "/").toList = first :: (rest ++ [[]]) := by
    rw [String.toList_append]
    exact (Text.pieces_append_divider (by decide) base.toList []).trans (by rw [cut]; rfl)
  have divided : first = [] → rest ≠ [] := divided_of_ne_empty inhabited cut
  have blank : component? [] = none := rfl
  rw [components_eq longer, components_eq cut, List.filterMap_append, List.filterMap_cons, blank,
    List.filterMap_nil, List.append_nil]
  by_cases empty : first = []
  · simp [empty, divided empty]
  · rw [if_neg empty, if_neg empty]

theorem exists_pieces_append_slash (base : String) :
    ∃ first rest, Text.pieces isSeparator base.toList = first :: rest ∧
      ∀ text : String, Text.pieces isSeparator (base ++ "/" ++ text).toList =
        first :: (rest ++ Text.pieces isSeparator text.toList) := by
  obtain ⟨first, rest, cut⟩ := List.exists_cons_of_ne_nil
    (Text.pieces_ne_nil isSeparator base.toList)
  refine ⟨first, rest, cut, fun text => ?_⟩
  rw [String.toList_append, String.toList_append, List.append_assoc]
  exact (Text.pieces_append_divider (by decide) base.toList text.toList).trans (by rw [cut]; rfl)

theorem components_append_slash_names (named : ∀ name ∈ names, IsName name) (base : String) :
    components (base ++ "/" ++ String.intercalate "/" names) =
      components (base ++ "/") ++ names.map Component.name := by
  obtain ⟨first, rest, _, continued⟩ := exists_pieces_append_slash base
  have ended := continued ""
  rw [String.append_empty] at ended
  have inhabited (text : String) : rest ++ Text.pieces isSeparator text.toList ≠ [] :=
    List.append_ne_nil_of_right_ne_nil _ (Text.pieces_ne_nil _ _)
  rw [components_eq (continued _), components_eq ended, if_neg (inhabited _), if_neg (inhabited _),
    List.filterMap_append, List.filterMap_append, filterMap_pieces_names named]
  simp [Text.pieces, component?]

theorem intercalate_names (names : List String) :
    String.intercalate "/" names =
      String.ofList (List.intercalate ['/'] (names.map String.toList)) := by
  apply String.toList_inj.mp
  rw [String.toList_intercalate]
  exact String.toList_ofList.symm

theorem components_names (named : ∀ name ∈ names, IsName name) :
    components (String.intercalate "/" names) = names.map Component.name := by
  rw [intercalate_names, components_ofPieces, filterMap_names named]
  · intro piece member
    rcases List.mem_map.mp member with ⟨name, inside, rfl⟩
    exact (named name inside).undivided
  · exact fun piece member => isSome_names named piece (List.mem_of_head? member)

theorem exists_below_eq (named : ∀ name ∈ names, IsName name) {base : String} (inhabited : base ≠ "") :
    ∃ front, below base names = front ++ "/" ++ String.intercalate "/" names ∧
      (base = front ∨ base = front ++ "/") :=
  exists_join_eq (not_isAbsolute_names named) inhabited

theorem components_below (named : ∀ name ∈ names, IsName name) (base : String) :
    components (below base names) = components base ++ names.map Component.name := by
  by_cases empty : base = ""
  · rw [empty, below, join_empty (not_isAbsolute_names named)]
    exact components_names named
  · obtain ⟨front, joined, rfl | rfl⟩ := exists_below_eq named empty
    · rw [joined, components_append_slash_names named, components_append_slash empty]
    · rw [joined, components_append_slash_names named]

theorem piecesAfter_append (pieces others : List (List Char)) :
    piecesAfter (pieces.filterMap component?).length (pieces ++ others) = piecesAfter 0 others := by
  induction pieces with
  | nil => rfl
  | cons piece rest induction =>
      cases read : component? piece with
      | some component =>
          rw [← induction, List.filterMap_cons, read, List.length_cons, List.cons_append]
          conv_lhs => rw [piecesAfter, read]
          rfl
      | none =>
          rw [List.filterMap_cons, read, List.cons_append, ← induction]
          dsimp only
          cases (rest.filterMap component?).length with
          | zero => rw [piecesAfter, piecesAfter, List.dropWhile_cons_of_pos (by simp [read])]
          | succ count => rw [piecesAfter, read]; rfl

theorem after_eq {path : String} {first : List Char} {front others : List (List Char)}
    (cut : Text.pieces isSeparator path.toList = first :: (front ++ others)) :
    after ((front.filterMap component?).length + 1) path =
      String.ofList (List.intercalate ['/'] (dropBlankEnd (piecesAfter 0 others))) := by
  rw [after, cut]
  dsimp only
  rw [piecesAfter_append]

theorem dropWhile_isNone {pieces : List (List Char)}
    (known : ∀ piece ∈ pieces, (component? piece).isSome) :
    pieces.dropWhile (fun piece => (component? piece).isNone) = pieces := by
  rw [List.dropWhile_eq_self_iff]
  intro inhabited
  rw [Option.isNone_eq_false_iff.mpr (known _ (List.getElem_mem inhabited))]
  exact Bool.false_ne_true

theorem dropBlankEnd_eq_self {pieces : List (List Char)}
    (known : ∀ piece ∈ pieces, (component? piece).isSome) : dropBlankEnd pieces = pieces := by
  rw [dropBlankEnd, dropWhile_isNone, List.reverse_reverse]
  exact fun piece member => known piece (List.mem_reverse.mp member)

theorem dropBlankEnd_piecesAfter_names (named : ∀ name ∈ names, IsName name) :
    dropBlankEnd (piecesAfter 0 (Text.pieces isSeparator (String.intercalate "/" names).toList)) =
      names.map String.toList := by
  by_cases empty : names = []
  · rw [empty]
    rfl
  · rw [pieces_names named empty, piecesAfter, dropWhile_isNone (isSome_names named),
      dropBlankEnd_eq_self (isSome_names named)]

theorem after_zero_names (named : ∀ name ∈ names, IsName name) :
    after 0 (String.intercalate "/" names) = String.intercalate "/" names := by
  cases names with
  | nil => decide
  | cons name rest =>
      have known := isSome_names named
      rw [List.map_cons, List.forall_mem_cons] at known
      have inhabited : name.toList ≠ [] := (named name List.mem_cons_self).toList_ne_nil
      rw [after, pieces_names named (List.cons_ne_nil name rest), List.map_cons]
      dsimp only
      rw [if_neg (fun blank => inhabited blank.1), dropBlankEnd_eq_self known.2, intercalate_names]
      rfl

theorem length_components {path : String} {first : List Char} {rest : List (List Char)}
    (inhabited : path ≠ "") (cut : Text.pieces isSeparator path.toList = first :: rest) :
    (components path).length = (rest.filterMap component?).length + 1 := by
  obtain ⟨front, whole⟩ := exists_components_eq_cons inhabited cut
  rw [whole, List.length_cons]

theorem relativeTo?_below (named : ∀ name ∈ names, IsName name) (base : String) :
    relativeTo? base (below base names) = some (String.intercalate "/" names) := by
  have within : (components base).isPrefixOf (components base ++ names.map Component.name) :=
    List.isPrefixOf_iff_prefix.mpr (List.prefix_append ..)
  rw [relativeTo?, components_below named, if_pos within]
  congr 1
  by_cases empty : base = ""
  · rw [empty, below, join_empty (not_isAbsolute_names named)]
    exact after_zero_names named
  · obtain ⟨front, joined, base_eq⟩ := exists_below_eq named empty
    obtain ⟨first, rest, cut, continued⟩ := exists_pieces_append_slash front
    have counted : (components base).length = (rest.filterMap component?).length + 1 := by
      rcases base_eq with rfl | rfl
      · exact length_components empty cut
      · have ended := continued ""
        rw [String.append_empty] at ended
        have blank : (Text.pieces isSeparator "".toList).filterMap component? = [] := rfl
        rw [length_components empty ended, List.filterMap_append, blank, List.append_nil]
    rw [joined, counted, after_eq (continued _), dropBlankEnd_piecesAfter_names named,
      intercalate_names]

theorem relativeTo?_self (path : String) : relativeTo? path path = some "" := by
  have within : (components path).isPrefixOf (components path) :=
    List.isPrefixOf_iff_prefix.mpr (List.prefix_refl _)
  rw [relativeTo?, if_pos within]
  by_cases empty : path = ""
  · rw [empty]
    decide
  · rcases List.exists_cons_of_ne_nil (Text.pieces_ne_nil isSeparator path.toList) with
      ⟨first, rest, cut⟩
    rw [length_components empty cut, after_eq (cut.trans (by rw [List.append_nil rest]))]
    rfl

theorem getLast?_names (named : ∀ name ∈ names, IsName name) (inhabited : names ≠ []) :
    ∃ char, char ≠ '/' ∧ (String.intercalate "/" names).toList.getLast? = some char := by
  obtain ⟨front, last, rfl⟩ := (List.eq_nil_or_concat' names).resolve_left inhabited
  have lastNamed := named last (by simp)
  obtain ⟨start, char, text⟩ :=
    (List.eq_nil_or_concat' last.toList).resolve_left lastNamed.toList_ne_nil
  refine ⟨char, ?_, ?_⟩
  · rintro rfl
    exact lastNamed.2.2.2 (text ▸ by simp)
  · cases front with
    | nil => simp [text]
    | cons first others =>
        rw [String.intercalate_append_of_ne_nil (by simp) (by simp), String.toList_append,
          String.intercalate_singleton, text, ← List.append_assoc, List.getLast?_concat]

theorem join_below (named : ∀ name ∈ names, IsName name) (inhabited : names ≠ [])
    (nameNamed : IsName name) (base : String) :
    join (below base names) name = below base (names ++ [name]) := by
  have allNamed : ∀ entry ∈ names ++ [name], IsName entry := by
    simpa [or_imp, forall_and, nameNamed] using named
  have singleNamed : ∀ entry ∈ [name], IsName entry := by simpa using nameNamed
  have single : String.intercalate "/" [name] = name := String.intercalate_singleton
  obtain ⟨char, apart, last⟩ := getLast?_names named inhabited
  have ends : ¬(below base names).toList.getLast?.all (· = '/') := by
    rw [below_eq named, String.toList_append, List.getLast?_append, last]
    simpa using apart
  calc join (below base names) name
      _ = below base names ++ "/" ++ name := by
        have joined := below_eq singleNamed (below base names)
        rwa [below, single, if_neg ends] at joined
      _ = below base (names ++ [name]) := by
        rw [below_eq named, below_eq allNamed,
          String.intercalate_append_of_ne_nil inhabited (by simp), single]
        simp only [String.append_assoc]

theorem name_mem_components_iff (named : IsName name) (path : String) :
    .name name ∈ components path ↔ name.toList ∈ Text.pieces isSeparator path.toList := by
  have found (piece : List Char) : component? piece = some (.name name) ↔ piece = name.toList := by
    constructor
    · intro read
      rw [component?] at read
      split at read
      · cases read
      · split at read
        · cases read
        · cases read
          rw [String.toList_ofList]
    · rintro rfl
      exact named.component?_eq
  obtain ⟨first, rest, cut⟩ := List.exists_cons_of_ne_nil
    (Text.pieces_ne_nil isSeparator path.toList)
  rw [components_eq cut, cut, List.mem_append, List.mem_filterMap, List.mem_cons]
  simp only [found, exists_eq_right]
  apply or_congr_left
  split
  · rename_i empty
    rw [empty, eq_false named.toList_ne_nil]
    split <;> simp
  · split
    · rename_i dot
      have apart : name.toList ≠ ['.'] := fun same => named.2.1 (String.toList_inj.mp same)
      rw [dot, eq_false apart]
      simp
    · rw [Option.mem_toList, found, eq_comm]

end Path

end UnityLint
