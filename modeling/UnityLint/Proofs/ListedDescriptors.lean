import UnityLint.Proofs.Dispatch
import UnityLint.Proofs.Paths
import UnityLint.Proofs.Sorting

/-! # Listed descriptors

Rules may list the same descriptor several times, and different descriptors with one id. An engine lists
each id once, in increasing order, with the descriptor that was registered first. -/

namespace UnityLint

/-! ## The first descriptor with an id -/

/-- A rule lists the descriptor, and no other one with its id is listed before: none of the earlier rules
lists one, and neither does the rule itself further up. -/
def Rule.FirstListed (rules : List Rule) (descriptor : Descriptor) : Prop :=
  ∃ earlier rule later before after,
    rules = earlier ++ rule :: later ∧ rule.descriptors = before ++ descriptor :: after ∧
      (∀ other ∈ earlier, ∀ listed ∈ other.descriptors, listed.id ≠ descriptor.id) ∧
      ∀ listed ∈ before, listed.id ≠ descriptor.id

theorem Rule.firstListed_iff_find? {rules : List Rule} {descriptor : Descriptor} :
    FirstListed rules descriptor ↔
      (rules.flatMap Rule.descriptors).find? (·.id = descriptor.id) = some descriptor := by
  rw [List.find?_flatMap, List.findSome?_eq_some_iff]
  simp only [List.find?_eq_some_iff_append, List.find?_eq_none, decide_eq_true_eq, true_and,
    Bool.not_eq_true', decide_eq_false_iff_not]
  constructor
  · rintro ⟨earlier, rule, later, before, after, split, own, none, first⟩
    exact ⟨earlier, rule, later, split, ⟨before, after, own, first⟩, none⟩
  · rintro ⟨earlier, rule, later, split, ⟨before, after, own, first⟩, none⟩
    exact ⟨earlier, rule, later, before, after, split, own, none, first⟩

/-! ## The descriptors of an engine -/

theorem Descriptor.pairwise_sort (descriptors : List Descriptor) :
    (Order.sort (fun left right => (Order.compareText left.id right.id).isLE)
      descriptors).Pairwise fun left right => left.id ≤ right.id := by
  let precedes (left right : Descriptor) : Bool := (Order.compareText left.id right.id).isLE
  have total : ∀ left right, precedes left right ∨ precedes right left :=
    fun left right => by simpa [precedes, Order.isLE_compareText_iff] using String.le_total _ _
  have trans : ∀ first second third,
      precedes first second → precedes second third → precedes first third :=
    fun first second third => by
      simpa [precedes, Order.isLE_compareText_iff] using String.le_trans
  apply (Order.pairwise_sort total trans descriptors).imp
  intro left right before
  exact Order.isLE_compareText_iff.mp before

namespace Engine

variable (engine : Engine)

theorem pairwise_descriptors :
    engine.descriptors.Pairwise fun left right => left.id < right.id := by
  have sorted := Descriptor.pairwise_sort (engine.rules.toList.flatMap Rule.descriptors)
  have ordered := sorted.sublist (Order.dropRepeatsAfter_sublist Descriptor.id none _)
  have distinct := Order.pairwise_ne_dropRepeatsAfter (fun _ _ => String.le_antisymm) none sorted
  apply (ordered.and distinct).imp
  rintro left right ⟨before, different⟩
  exact String.not_le.mp fun reverse => different (String.le_antisymm before reverse)

theorem find?_descriptors (id : String) :
    engine.descriptors.find? (·.id = id) =
      (engine.rules.toList.flatMap Rule.descriptors).find? (·.id = id) := by
  rw [descriptors, Order.find?_dropRepeatsBy, ← List.head?_filter, Order.filter_sort,
    List.head?_filter]
  intro left right inLeft inRight
  rw [of_decide_eq_true inLeft, of_decide_eq_true inRight]
  exact Order.isLE_compareText_iff.mpr (String.le_refl id)

theorem mem_descriptors {descriptor : Descriptor} :
    descriptor ∈ engine.descriptors ↔ Rule.FirstListed engine.rules.toList descriptor := by
  rw [Rule.firstListed_iff_find?, ← find?_descriptors]
  constructor
  · intro listed
    rcases List.append_of_mem listed with ⟨before, after, split⟩
    have increasing := engine.pairwise_descriptors
    rw [split, List.pairwise_append] at increasing
    refine List.find?_eq_some_iff_append.mpr ⟨decide_eq_true rfl, before, after, split, ?_⟩
    intro other earlier
    have less := increasing.2.2 other earlier descriptor List.mem_cons_self
    simpa using String.ne_of_lt less
  · exact List.mem_of_find?_eq_some

theorem mem_map_id_descriptors {id : String} :
    id ∈ engine.descriptors.map Descriptor.id ↔
      ∃ rule ∈ engine.rules.toList, id ∈ rule.descriptors.map Descriptor.id := by
  rw [descriptors, Order.mem_map_dropRepeatsBy, ((Order.sort_perm _ _).map Descriptor.id).mem_iff,
    List.map_flatMap, List.mem_flatMap]

theorem toList_rules_foldl_registerAll (scope : ScopeFilter) (batches : List (List Rule)) :
    (batches.foldl registerAll { scope }).rules.toList = batches.flatten := by
  have joined : batches.foldl registerAll { scope } = ofRules scope batches.flatten :=
    List.foldl_flatten.symm
  rw [joined]
  exact ((indexes_empty scope).registerAll batches.flatten).kept

/-- However rules are registered, the descriptors of an engine increase strictly in their ids. They have
exactly the ids of the descriptors that some rule lists, and for each id the one that is listed first,
by the order of the rules and then by their own lists. -/
theorem descriptors_foldl_registerAll (scope : ScopeFilter) (batches : List (List Rule)) :
    let engine : Engine := batches.foldl registerAll { scope }
    let rules := batches.flatten
    engine.descriptors.Pairwise (fun left right => left.id < right.id) ∧
      (∀ id, id ∈ engine.descriptors.map Descriptor.id ↔
        ∃ rule ∈ rules, id ∈ rule.descriptors.map Descriptor.id) ∧
      ∀ descriptor, descriptor ∈ engine.descriptors ↔ Rule.FirstListed rules descriptor := by
  have kept := toList_rules_foldl_registerAll scope batches
  refine ⟨pairwise_descriptors _, fun id => ?_, fun descriptor => ?_⟩
  · rw [mem_map_id_descriptors, kept]
  · rw [mem_descriptors, kept]

end Engine

end UnityLint
