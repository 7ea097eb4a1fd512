/-! # Orders

A stable sort, removal of repeated neighbours, and the dictionary order. -/

namespace UnityLint.Order

variable {α β : Type}

def insert (precedes : α → α → Bool) (value : α) : List α → List α
  | [] => [value]
  | head :: tail =>
      if precedes value head then value :: head :: tail else head :: insert precedes value tail

/-- Sorts by `precedes`; members that may precede each other keep their order. A list that is sorted
already takes one pass. -/
def sort (precedes : α → α → Bool) : List α → List α
  | [] => []
  | head :: tail => insert precedes head (sort precedes tail)

example : sort (fun left right => left.1 ≤ right.1) [(2, 'a'), (1, 'b'), (2, 'c'), (1, 'd')] =
    [(1, 'b'), (1, 'd'), (2, 'a'), (2, 'c')] := by decide

theorem insert_perm (precedes : α → α → Bool) (value : α) (values : List α) :
    (insert precedes value values).Perm (value :: values) := by
  induction values with
  | nil => exact .refl _
  | cons head tail induction =>
      rw [insert]
      split
      · exact .refl _
      · exact (induction.cons head).trans (.swap value head tail)

theorem sort_perm (precedes : α → α → Bool) (values : List α) :
    (sort precedes values).Perm values := by
  induction values with
  | nil => exact .refl _
  | cons head tail induction =>
      exact (insert_perm precedes head _).trans (induction.cons head)

section Sorted

variable {precedes : α → α → Bool}
  (total : ∀ left right, precedes left right ∨ precedes right left)
  (trans : ∀ first second third, precedes first second → precedes second third →
    precedes first third)

include total trans

theorem pairwise_insert (value : α) {values : List α}
    (sorted : values.Pairwise fun left right => precedes left right) :
    (insert precedes value values).Pairwise fun left right => precedes left right := by
  induction values with
  | nil => exact List.pairwise_singleton ..
  | cons head tail induction =>
      obtain ⟨first, rest⟩ := List.pairwise_cons.mp sorted
      rw [insert]
      split
      · rename_i before
        refine List.pairwise_cons.mpr ⟨?_, sorted⟩
        intro other member
        rcases List.mem_cons.mp member with rfl | later
        · exact before
        · exact trans _ _ _ before (first other later)
      · rename_i after
        refine List.pairwise_cons.mpr ⟨?_, induction rest⟩
        intro other member
        rcases List.mem_cons.mp ((insert_perm precedes value tail).mem_iff.mp member) with rfl | old
        · exact (total other head).resolve_left after
        · exact first other old

theorem pairwise_sort (values : List α) :
    (sort precedes values).Pairwise fun left right => precedes left right := by
  induction values with
  | nil => exact .nil
  | cons head tail induction => exact pairwise_insert total trans head induction

end Sorted

def dropRepeatsAfter [DecidableEq β] (key : α → β) : Option β → List α → List α
  | _, [] => []
  | last, head :: tail =>
      if last = some (key head) then
        dropRepeatsAfter key last tail
      else
        head :: dropRepeatsAfter key (some (key head)) tail

def dropRepeatsBy [DecidableEq β] (key : α → β) (values : List α) : List α :=
  dropRepeatsAfter key none values

example : dropRepeatsBy (fun value : Nat => value) [1, 1, 2, 1] = [1, 2, 1] := by decide

theorem dropRepeatsAfter_sublist [DecidableEq β] (key : α → β) (last : Option β)
    (values : List α) : (dropRepeatsAfter key last values).Sublist values := by
  induction values generalizing last with
  | nil => exact .slnil
  | cons head tail induction =>
      rw [dropRepeatsAfter]
      split
      · exact (induction last).cons head
      · exact (induction (some (key head))).cons_cons head

def compareLists (compare : α → α → Ordering) : List α → List α → Ordering
  | [], [] => .eq
  | [], _ :: _ => .lt
  | _ :: _, [] => .gt
  | left :: lefts, right :: rights =>
      (compare left right).then (compareLists compare lefts rights)

/-- The order of texts by code point, which is also the order of their UTF-8 bytes. -/
def compareText (left right : String) : Ordering :=
  compareLists (fun first second => compare first.toNat second.toNat) left.toList right.toList

theorem compareLists_eq_iff (compare : α → α → Ordering)
    (compare_eq_iff : ∀ left right, compare left right = .eq ↔ left = right)
    (left right : List α) : compareLists compare left right = .eq ↔ left = right := by
  induction left generalizing right with
  | nil => cases right <;> simp [compareLists]
  | cons head tail induction =>
      cases right with
      | nil => simp [compareLists]
      | cons other others =>
          simp [compareLists, Ordering.then_eq_eq, compare_eq_iff, induction]

theorem compareText_eq_iff (left right : String) : compareText left right = .eq ↔ left = right := by
  rw [compareText, compareLists_eq_iff, String.toList_inj]
  intro first second
  simp [Char.toNat_inj]

end UnityLint.Order
