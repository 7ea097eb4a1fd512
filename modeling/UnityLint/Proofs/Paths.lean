import Mathlib.Data.List.Induction
import Mathlib.Data.List.TakeWhile
import UnityLint.Path

/-! # Paths and their components

What is left of a path behind its first components has the components that are left, so that a path below
another one is the other path followed by the relative path between them. Paths are ordered by their
components, and only paths with the same components have the same place in that order. -/

namespace UnityLint

/-! ## Pieces of a text -/

namespace Text

variable {α : Type} {divides : α → Bool}

theorem pieces_ne_nil (divides : α → Bool) (text : List α) : pieces divides text ≠ [] := by
  cases text with
  | nil => simp [pieces]
  | cons head tail =>
      rw [pieces]
      split
      · simp
      · split <;> simp

theorem pieces_of_undivided {piece : List α} (undivided : ∀ value ∈ piece, divides value = false) :
    pieces divides piece = [piece] := by
  induction piece with
  | nil => rfl
  | cons head tail induction =>
      have rest := induction fun value member => undivided value (List.mem_cons_of_mem _ member)
      simp [pieces, undivided head List.mem_cons_self, rest]

theorem pieces_append_cons {piece : List α} {divider : α} (rest : List α)
    (undivided : ∀ value ∈ piece, divides value = false) (divided : divides divider) :
    pieces divides (piece ++ divider :: rest) = piece :: pieces divides rest := by
  induction piece with
  | nil => simp [pieces, divided]
  | cons head tail induction =>
      have later := induction fun value member => undivided value (List.mem_cons_of_mem _ member)
      simp [pieces, undivided head List.mem_cons_self, later]

theorem pieces_intercalate {divider : α} (divided : divides divider) {parts : List (List α)}
    (inhabited : parts ≠ []) (undivided : ∀ piece ∈ parts, ∀ value ∈ piece, divides value = false) :
    pieces divides (List.intercalate [divider] parts) = parts := by
  induction parts with
  | nil => exact absurd rfl inhabited
  | cons first rest induction =>
      have firstUndivided := undivided first List.mem_cons_self
      cases rest with
      | nil =>
          rw [List.intercalate_singleton]
          exact pieces_of_undivided firstUndivided
      | cons second rest =>
          have later := induction (by simp) fun piece member =>
            undivided piece (List.mem_cons_of_mem _ member)
          rw [List.intercalate_cons_cons, List.append_assoc, List.singleton_append,
            pieces_append_cons _ firstUndivided divided, later]

theorem undivided_of_mem_pieces {text : List α} :
    ∀ piece ∈ pieces divides text, ∀ value ∈ piece, divides value = false := by
  induction text with
  | nil => simp [pieces]
  | cons head tail induction =>
      rw [pieces]
      split
      · intro piece member
        rcases List.mem_cons.mp member with rfl | later
        · simp
        · exact induction piece later
      · rename_i whole
        have kept : divides head = false := by simpa using whole
        split
        · simp [kept]
        · rename_i first others equal
          rw [equal] at induction
          intro piece member
          rcases List.mem_cons.mp member with rfl | later
          · intro value inside
            rcases List.mem_cons.mp inside with rfl | old
            · exact kept
            · exact induction first List.mem_cons_self value old
          · exact induction piece (List.mem_cons_of_mem _ later)

end Text

namespace Path

/-! ## Components from pieces -/

theorem components_eq {path : String} {first : List Char} {rest : List (List Char)}
    (cut : Text.pieces isSeparator path.toList = first :: rest) :
    components path =
      (if first = [] then (if rest = [] then [] else [.root])
        else if first = ['.'] then [.here] else (component? first).toList) ++
        rest.filterMap component? := by
  rw [components, cut]

theorem divided_of_ne_empty {path : String} {first : List Char} {rest : List (List Char)}
    (inhabited : path ≠ "") (cut : Text.pieces isSeparator path.toList = first :: rest) :
    first = [] → rest ≠ [] := by
  rintro rfl rfl
  apply inhabited
  cases text : path.toList with
  | nil => exact String.toList_eq_nil_iff.mp text
  | cons head tail =>
      rw [text, Text.pieces] at cut
      split at cut
      · exact absurd (List.cons.inj cut).2 (Text.pieces_ne_nil isSeparator tail)
      · split at cut <;> cases cut

/-- The front of a path that is not empty is one component, whatever its first piece is. -/
theorem exists_components_eq_cons {path : String} {first : List Char} {rest : List (List Char)}
    (inhabited : path ≠ "") (cut : Text.pieces isSeparator path.toList = first :: rest) :
    ∃ front, components path = front :: rest.filterMap component? := by
  rw [components_eq cut]
  cases first with
  | nil =>
      rw [if_pos rfl, if_neg (divided_of_ne_empty inhabited cut rfl)]
      exact ⟨.root, rfl⟩
  | cons head tail =>
      rw [if_neg (List.cons_ne_nil head tail)]
      split
      · exact ⟨.here, rfl⟩
      · rename_i undotted
        rw [component?, if_neg (not_or.mpr ⟨List.cons_ne_nil head tail, undotted⟩)]
        split <;> exact ⟨_, rfl⟩

theorem pieces_ofPieces {pieces : List (List Char)} (inhabited : pieces ≠ [])
    (undivided : ∀ piece ∈ pieces, ∀ char ∈ piece, isSeparator char = false) :
    Text.pieces isSeparator (String.ofList (List.intercalate ['/'] pieces)).toList = pieces := by
  rw [String.toList_ofList]
  exact Text.pieces_intercalate (by decide) inhabited undivided

theorem components_ofPieces {pieces : List (List Char)}
    (undivided : ∀ piece ∈ pieces, ∀ char ∈ piece, isSeparator char = false)
    (starts : ∀ piece ∈ pieces.head?, (component? piece).isSome) :
    components (String.ofList (List.intercalate ['/'] pieces)) = pieces.filterMap component? := by
  cases pieces with
  | nil => decide
  | cons first rest =>
      have cut := pieces_ofPieces (List.cons_ne_nil first rest) undivided
      obtain ⟨component, read⟩ := Option.isSome_iff_exists.mp (starts first rfl)
      have known : ¬(first = [] ∨ first = ['.']) := by
        intro blank
        rw [component?, if_pos blank] at read
        cases read
      rw [components_eq cut, if_neg fun empty => known (.inl empty),
        if_neg fun dot => known (.inr dot), read, List.filterMap_cons, read]
      rfl

/-! ## Pieces that stand for nothing -/

theorem exists_dropBlankEnd (pieces : List (List Char)) :
    ∃ blanks, pieces = dropBlankEnd pieces ++ blanks ∧ blanks.filterMap component? = [] := by
  refine ⟨(pieces.reverse.takeWhile fun piece => (component? piece).isNone).reverse, ?_, ?_⟩
  · rw [dropBlankEnd, ← List.reverse_append, List.takeWhile_append_dropWhile, List.reverse_reverse]
  · rw [List.filterMap_eq_nil_iff]
    intro piece member
    have blank := List.mem_takeWhile_imp (List.mem_reverse.mp member)
    exact Option.isNone_iff_eq_none.mp blank

theorem isPrefix_dropBlankEnd (pieces : List (List Char)) : dropBlankEnd pieces <+: pieces := by
  obtain ⟨blanks, split, _⟩ := exists_dropBlankEnd pieces
  exact ⟨blanks, split.symm⟩

theorem filterMap_dropBlankEnd (pieces : List (List Char)) :
    (dropBlankEnd pieces).filterMap component? = pieces.filterMap component? := by
  obtain ⟨blanks, split, blank⟩ := exists_dropBlankEnd pieces
  conv_rhs => rw [split, List.filterMap_append, blank, List.append_nil]

theorem isSuffix_piecesAfter (count : Nat) (pieces : List (List Char)) :
    piecesAfter count pieces <:+ pieces := by
  fun_induction piecesAfter count pieces with
  | case1 pieces => exact List.dropWhile_suffix _
  | case2 => exact List.suffix_rfl
  | case3 count piece rest induction => exact induction.trans (List.suffix_cons _ _)

theorem filterMap_piecesAfter (count : Nat) (pieces : List (List Char)) :
    (piecesAfter count pieces).filterMap component? = (pieces.filterMap component?).drop count := by
  fun_induction piecesAfter count pieces with
  | case1 pieces =>
      induction pieces with
      | nil => rfl
      | cons piece rest induction =>
          cases read : component? piece with
          | none => simp [read, induction]
          | some component => simp [read]
  | case2 => rfl
  | case3 count piece rest induction =>
      cases read : component? piece with
      | none => simpa [read] using induction
      | some component => simpa [read] using induction

theorem isSome_head_piecesAfter (count : Nat) (pieces : List (List Char)) :
    ∀ piece ∈ (piecesAfter count pieces).head?, (component? piece).isSome := by
  fun_induction piecesAfter count pieces with
  | case1 pieces =>
      intro piece member
      have kept := List.head?_dropWhile_not (fun piece => (component? piece).isNone) pieces
      rw [Option.mem_def.mp member] at kept
      simpa [Option.isSome_iff_ne_none] using kept
  | case2 => exact nofun
  | case3 count piece rest induction => exact induction

section After

variable {path : String} {first : List Char} {rest : List (List Char)}
  (cut : Text.pieces isSeparator path.toList = first :: rest)
  (undivided : ∀ piece ∈ first :: rest, ∀ char ∈ piece, isSeparator char = false)

include cut undivided

theorem components_after_zero : components (after 0 path) = components path := by
  have kept : ∀ piece ∈ first :: dropBlankEnd rest, ∀ char ∈ piece, isSeparator char = false :=
    fun piece member => undivided piece
      (List.cons_subset_cons _ (isPrefix_dropBlankEnd rest).subset member)
  rw [after, cut, components_eq cut, ← filterMap_dropBlankEnd rest]
  dsimp only
  split
  · rename_i bare
    rw [bare.1, if_pos rfl, if_neg bare.2.1, bare.2.2]
    decide
  · rename_i written
    rw [components_eq (pieces_ofPieces (List.cons_ne_nil _ _) kept)]
    by_cases empty : first = []
    · have same : dropBlankEnd rest = [] ↔ rest = [] := by
        refine ⟨fun blank => ?_, fun none => by rw [none]; rfl⟩
        by_contra inhabited
        exact written ⟨empty, inhabited, blank⟩
      simp only [empty, if_true, same]
    · rw [if_neg empty, if_neg empty]

theorem components_after_succ (count : Nat) :
    components (after (count + 1) path) = (rest.filterMap component?).drop count := by
  have within : dropBlankEnd (piecesAfter count rest) ⊆ rest :=
    List.Subset.trans (isPrefix_dropBlankEnd _).subset (isSuffix_piecesAfter count rest).subset
  rw [after, cut]
  dsimp only
  rw [components_ofPieces, filterMap_dropBlankEnd, filterMap_piecesAfter]
  · exact fun piece member => undivided piece (List.mem_cons_of_mem _ (within member))
  · intro piece member
    apply isSome_head_piecesAfter count rest
    obtain ⟨tail, start⟩ := List.head?_eq_some_iff.mp member
    obtain ⟨blanks, split⟩ := isPrefix_dropBlankEnd (piecesAfter count rest)
    rw [← split, start]
    rfl

end After

theorem components_after (count : Nat) (path : String) :
    components (after count path) = (components path).drop count := by
  obtain ⟨first, rest, cut⟩ := List.exists_cons_of_ne_nil
    (Text.pieces_ne_nil isSeparator path.toList)
  have undivided : ∀ piece ∈ first :: rest, ∀ char ∈ piece, isSeparator char = false :=
    cut ▸ Text.undivided_of_mem_pieces
  cases count with
  | zero => rw [List.drop_zero, components_after_zero cut undivided]
  | succ count =>
      rw [components_after_succ cut undivided]
      by_cases empty : path = ""
      · subst empty
        cases cut
        simp [components, Text.pieces]
      · obtain ⟨front, whole⟩ := exists_components_eq_cons empty cut
        rw [whole, List.drop_succ_cons]

theorem components_of_relativeTo? {base path file : String}
    (found : relativeTo? base path = some file) :
    components path = components base ++ components file := by
  rw [relativeTo?, Option.ite_none_right_eq_some, List.isPrefixOf_iff_prefix] at found
  rcases found with ⟨below, same⟩
  rw [← Option.some.inj same, components_after]
  exact (List.prefix_iff_eq_append.mp below).symm

end Path

/-! ## The order of paths -/

namespace Order

variable {α β : Type} {cmp : α → α → Ordering}

theorem compareLists_eq_compareLex : compareLists cmp = List.compareLex cmp := by
  funext left right
  induction left generalizing right with
  | nil => cases right <;> rfl
  | cons head tail induction =>
      cases right with
      | nil => rfl
      | cons other others => rw [compareLists, induction, List.compareLex_cons_cons]

instance [Std.TransCmp cmp] : Std.TransCmp (compareLists cmp) := by
  rw [compareLists_eq_compareLex]
  infer_instance

theorem transCmp_comap [Std.TransCmp cmp] (key : β → α) :
    Std.TransCmp fun left right => cmp (key left) (key right) where
  eq_swap := Std.OrientedCmp.eq_swap
  isLE_trans := Std.TransCmp.isLE_trans

instance : Std.TransCmp compareText :=
  have : Std.TransCmp fun first second : Char => compare first.toNat second.toNat :=
    transCmp_comap Char.toNat
  transCmp_comap String.toList

theorem compareText_eq_lt_iff {left right : String} :
    compareText left right = .lt ↔ left < right := by
  have general (lefts rights : List Char) :
      compareLists (fun first second => compare first.toNat second.toNat) lefts rights = .lt ↔
        lefts < rights := by
    induction lefts generalizing rights with
    | nil => cases rights <;> simp [compareLists]
    | cons head tail induction =>
        cases rights with
        | nil => simp [compareLists]
        | cons other others =>
            rw [compareLists, Ordering.then_eq_lt, induction, List.cons_lt_cons_iff,
              Nat.compare_eq_lt, Nat.compare_eq_eq, Char.toNat_inj]
            rfl
  exact general left.toList right.toList

theorem isLE_compareText_iff {left right : String} :
    (compareText left right).isLE ↔ left ≤ right := by
  rw [← String.not_lt, ← compareText_eq_lt_iff, ← Std.OrientedCmp.gt_iff_lt]
  cases compareText left right <;> decide

end Order

namespace Path

theorem Component.order_eq (left right : Component) :
    left.order right =
      (compare left.rank right.rank).then
        (Order.compareText (left.name?.getD "") (right.name?.getD "")) := by
  cases left <;> cases right <;> rfl

theorem Component.order_eq_eq_iff (left right : Component) :
    left.order right = .eq ↔ left = right := by
  cases left <;> cases right <;> simp [order, rank, Order.compareText_eq_iff]

instance : Std.TransCmp Component.order := by
  have byRank : Std.TransCmp fun left right : Component => compare left.rank right.rank :=
    Order.transCmp_comap Component.rank
  have byName : Std.TransCmp fun left right : Component =>
      Order.compareText (left.name?.getD "") (right.name?.getD "") :=
    Order.transCmp_comap fun component : Component => component.name?.getD ""
  have equal : Component.order = compareLex _ _ := funext₂ Component.order_eq
  rw [equal]
  infer_instance

instance : Std.TransCmp order :=
  Order.transCmp_comap components

theorem order_eq_eq_iff {left right : String} :
    order left right = .eq ↔ components left = components right :=
  Order.compareLists_eq_iff _ Component.order_eq_eq_iff _ _

end Path

end UnityLint
