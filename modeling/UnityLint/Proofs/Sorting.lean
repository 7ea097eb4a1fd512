import UnityLint.Order

/-! # Sorting and repeated neighbours

Sorting keeps the order of members that may precede each other. Removing repeated neighbours keeps the
first member with each key, and in a list that is sorted by the key no other one. -/

namespace UnityLint.Order

variable {α β : Type}

section Stability

variable {precedes : α → α → Bool} {test : α → Bool}
  (alike : ∀ left right, test left → test right → precedes left right)

include alike

theorem filter_insert (value : α) (values : List α) :
    (insert precedes value values).filter test = (value :: values).filter test := by
  induction values with
  | nil => rfl
  | cons head tail induction =>
      rw [insert]
      split
      · rfl
      · rename_i after
        rw [List.filter_cons, induction]
        by_cases passes : test value
        · -- A head that passes too would not have been passed over.
          have fails : ¬test head := fun also => after (alike value head passes also)
          simp [passes, fails]
        · simp [passes, List.filter_cons]

theorem filter_sort (values : List α) :
    (sort precedes values).filter test = values.filter test := by
  induction values with
  | nil => rfl
  | cons head tail induction =>
      rw [sort, filter_insert alike, List.filter_cons, induction, List.filter_cons]

end Stability

section Repeats

variable [DecidableEq β] (key : α → β)

theorem find?_dropRepeatsAfter {last : Option β} {sought : β} (different : last ≠ some sought)
    (values : List α) :
    (dropRepeatsAfter key last values).find? (key · = sought) =
      values.find? (key · = sought) := by
  induction values generalizing last with
  | nil => rfl
  | cons head tail induction =>
      rw [dropRepeatsAfter]
      by_cases found : key head = sought
      · rw [found, if_neg different]
        simp [found]
      · have other : some (key head) ≠ some sought := by simpa using found
        split
        · rw [induction different]
          simp [found]
        · rw [List.find?_cons, List.find?_cons, induction other]

theorem find?_dropRepeatsBy (values : List α) (sought : β) :
    (dropRepeatsBy key values).find? (key · = sought) = values.find? (key · = sought) :=
  find?_dropRepeatsAfter key (Option.some_ne_none sought).symm values

theorem mem_map_dropRepeatsBy {values : List α} {sought : β} :
    sought ∈ (dropRepeatsBy key values).map key ↔ sought ∈ values.map key := by
  have listed (members : List α) :
      sought ∈ members.map key ↔ (members.find? (key · = sought)).isSome := by
    simp [List.find?_isSome]
  rw [listed, find?_dropRepeatsBy, ← listed]

variable {key} {precedes : β → β → Prop}
  (antisymm : ∀ left right, precedes left right → precedes right left → left = right)

include antisymm

theorem ne_of_mem_dropRepeatsAfter {last : β} {values : List α}
    (sorted : values.Pairwise fun left right => precedes (key left) (key right))
    (later : ∀ value ∈ values, precedes last (key value)) :
    ∀ value ∈ dropRepeatsAfter key (some last) values, last ≠ key value := by
  induction values with
  | nil => exact nofun
  | cons head tail induction =>
      rcases List.pairwise_cons.mp sorted with ⟨first, rest⟩
      rw [dropRepeatsAfter]
      split
      · exact induction rest fun value member => later value (List.mem_cons_of_mem head member)
      · rename_i different
        intro value kept equal
        apply different
        rcases List.mem_cons.mp kept with rfl | below
        · exact congrArg some equal
        · -- The key of the head lies between two equal ones.
          have after := first value ((dropRepeatsAfter_sublist ..).subset below)
          rw [← equal] at after
          exact congrArg some (antisymm _ _ (later head List.mem_cons_self) after)

theorem pairwise_ne_dropRepeatsAfter (last : Option β) {values : List α}
    (sorted : values.Pairwise fun left right => precedes (key left) (key right)) :
    (dropRepeatsAfter key last values).Pairwise fun left right => key left ≠ key right := by
  induction values generalizing last with
  | nil => exact .nil
  | cons head tail induction =>
      rcases List.pairwise_cons.mp sorted with ⟨first, rest⟩
      rw [dropRepeatsAfter]
      split
      · exact induction last rest
      · refine List.pairwise_cons.mpr ⟨?_, induction _ rest⟩
        exact ne_of_mem_dropRepeatsAfter antisymm rest first

end Repeats

end UnityLint.Order
