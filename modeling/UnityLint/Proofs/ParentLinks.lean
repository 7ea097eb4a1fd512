import Mathlib.Data.List.Chain
import Mathlib.Data.List.Induction
import Mathlib.Order.Bounds.Basic
import UnityLint.Proofs.Ancestors
import UnityLint.Proofs.Numbering

/-! # Parent links

A new node may refer to any numbers: to nodes that have a parent already, to itself, to nodes that come
later or never. Whatever the history of additions, the parent of a node is the last of the later nodes
that list it, and the walk towards the root climbs until it ends. -/

namespace UnityLint.Forest

variable {forest : Forest} {node : Node} {nodeSpan : Span} {others : List NodeId}
  {child parent : NodeId}

def adopters (forest : Forest) (child : NodeId) : Set NodeId :=
  {parent | child < parent ∧ child ∈ forest.children parent}

theorem lt_size_of_mem_children (listed : child ∈ forest.children parent) :
    parent < forest.size := by
  by_contra outside
  have absent : forest.entries[parent]? = none :=
    Array.getElem?_eq_none (Nat.not_lt.mp outside)
  rw [children, absent] at listed
  cases listed

theorem parent?_eq_none_of_size_le (outside : forest.size ≤ child + 1) :
    forest.parent? child = none := by
  by_contra linked
  rcases Option.ne_none_iff_exists'.mp linked with ⟨parent, link⟩
  have bounds := forest.parent?_bounds link
  omega

/-! ## What a new node changes -/

theorem parent?_push_eq : (forest.push node nodeSpan others).parent? child =
    if child < forest.size ∧ child ∈ node.references ++ others then some forest.size
    else forest.parent? child := by
  rcases Nat.lt_or_ge child forest.size with old | new
  · rw [parent?_push _ _ _ _ old]
    simp only [old, true_and]
  · have beyond : (forest.push node nodeSpan others).size ≤ child + 1 := by
      rw [size_push]
      exact Nat.succ_le_succ new
    rw [if_neg fun both => Nat.not_lt.mpr new both.1, parent?_eq_none_of_size_le beyond,
      parent?_eq_none_of_size_le (Nat.le_succ_of_le new)]

theorem mem_adopters_push : parent ∈ (forest.push node nodeSpan others).adopters child ↔
    parent ∈ forest.adopters child ∨
      parent = forest.size ∧ child < forest.size ∧ child ∈ node.references ++ others := by
  simp only [adopters, Set.mem_ofPred_eq]
  rw [children_push]
  by_cases new : parent = forest.size
  · subst new
    have unlisted : child ∉ forest.children forest.size :=
      fun listed => Nat.lt_irrefl _ (lt_size_of_mem_children listed)
    simp [unlisted, mem_arrange]
  · simp [new]

/-- The parent of a node is the last of its adopters; without any it has none. -/
structure LastAdopted (forest : Forest) : Prop where
  greatest : ∀ {child parent}, forest.parent? child = some parent →
    IsGreatest (forest.adopters child) parent
  orphan : ∀ {child}, forest.parent? child = none → forest.adopters child = ∅

theorem lastAdopted_empty : empty.LastAdopted where
  greatest := by simp [parent?, empty]
  orphan := by simp [adopters, children, empty]

theorem LastAdopted.push (last : forest.LastAdopted) :
    (forest.push node nodeSpan others).LastAdopted := by
  have kept {child : NodeId}
      (other : ¬(child < forest.size ∧ child ∈ node.references ++ others)) :
      (forest.push node nodeSpan others).adopters child = forest.adopters child := by
    ext parent
    rw [mem_adopters_push]
    simp only [other, and_false, or_false]
  constructor
  case greatest =>
    intro child parent link
    rw [parent?_push_eq] at link
    split at link
    · rename_i adopted
      cases link
      refine ⟨mem_adopters_push.mpr (.inr ⟨rfl, adopted⟩), fun earlier member => ?_⟩
      rcases mem_adopters_push.mp member with old | ⟨rfl, _⟩
      · exact Nat.le_of_lt (lt_size_of_mem_children old.2)
      · exact Nat.le_refl _
    · rename_i other
      rw [kept other]
      exact last.greatest link
  case orphan =>
    intro child topmost
    rw [parent?_push_eq] at topmost
    split at topmost
    · cases topmost
    · rename_i other
      rw [kept other]
      exact last.orphan topmost

theorem LastAdopted.parent?_eq_some_iff (last : forest.LastAdopted) :
    forest.parent? child = some parent ↔ IsGreatest (forest.adopters child) parent := by
  refine ⟨last.greatest, fun greatest => ?_⟩
  cases link : forest.parent? child with
  | none =>
      have member := greatest.1
      rw [last.orphan link] at member
      cases member
  | some other => rw [(last.greatest link).unique greatest]

theorem LastAdopted.parent?_eq_none_iff (last : forest.LastAdopted) :
    forest.parent? child = none ↔ forest.adopters child = ∅ := by
  refine ⟨last.orphan, fun none => ?_⟩
  by_contra linked
  rcases Option.ne_none_iff_exists'.mp linked with ⟨parent, link⟩
  have member := (last.greatest link).1
  rw [none] at member
  cases member

/-! ## Histories -/

theorem ofSteps_concat (steps : List Step) (step : Step) :
    ofSteps (steps ++ [step]) = (ofSteps steps).extend step :=
  List.foldl_concat ..

theorem size_ofSteps (steps : List Step) : (ofSteps steps).size = steps.length := by
  induction steps using List.reverseRecOn with
  | nil => rfl
  | append_singleton steps step induction =>
      rw [ofSteps_concat, extend, size_push, induction, List.length_append, List.length_singleton]

theorem getElem?_concat_of_ne {steps : List Step} {step : Step} {id : NodeId}
    (other : id ≠ steps.length) : (steps ++ [step])[id]? = steps[id]? := by
  rcases Nat.lt_or_gt_of_ne other with old | outside
  · exact List.getElem?_append_left old
  · have beyond : (steps ++ [step]).length ≤ id := by
      rw [List.length_append, List.length_singleton]
      exact outside
    rw [List.getElem?_eq_none beyond, List.getElem?_eq_none (Nat.le_of_lt outside)]

theorem node?_ofSteps (steps : List Step) (id : NodeId) :
    (ofSteps steps).node? id = steps[id]?.map Step.node := by
  induction steps using List.reverseRecOn with
  | nil => simp [ofSteps, node?, empty]
  | append_singleton steps step induction =>
      rw [ofSteps_concat, extend]
      by_cases new : id = steps.length
      · rw [new, List.getElem?_concat_length, ← size_ofSteps steps, node?_push_size,
          Option.map_some]
      · have other : id ≠ (ofSteps steps).size := by rwa [size_ofSteps]
        rw [node?_push_of_ne _ _ _ _ other, induction, getElem?_concat_of_ne new]

theorem mem_children_ofSteps {steps : List Step} : child ∈ (ofSteps steps).children parent ↔
    ∃ step, steps[parent]? = some step ∧ child ∈ step.node.references ++ step.others := by
  induction steps using List.reverseRecOn with
  | nil => simp [ofSteps, children, empty]
  | append_singleton steps step induction =>
      rw [ofSteps_concat, extend, children_push, size_ofSteps]
      split
      · rename_i new
        subst new
        simp [mem_arrange]
      · rename_i other
        rw [induction, getElem?_concat_of_ne other]

theorem lastAdopted_ofSteps (steps : List Step) : (ofSteps steps).LastAdopted := by
  induction steps using List.reverseRecOn with
  | nil => exact lastAdopted_empty
  | append_singleton steps step induction =>
      rw [ofSteps_concat]
      exact induction.push

/-! ## The walk towards the root -/

theorem isChain_ancestors (forest : Forest) (id : NodeId) :
    (id :: forest.ancestors id).IsChain fun child parent => forest.parent? child = some parent := by
  induction id using ancestors.induct forest with
  | case1 id topmost =>
      rw [ancestors_of_parent?_eq_none topmost]
      exact .singleton id
  | case2 id parent link induction =>
      rw [ancestors_of_parent?_eq_some link]
      exact .cons_cons link induction

theorem parent?_getLast_ancestors (forest : Forest) (id : NodeId) :
    (id :: forest.ancestors id).getLast?.bind forest.parent? = none := by
  induction id using ancestors.induct forest with
  | case1 id topmost =>
      rw [ancestors_of_parent?_eq_none topmost]
      exact topmost
  | case2 id parent link induction =>
      rw [ancestors_of_parent?_eq_some link, List.getLast?_cons_cons]
      exact induction

theorem pairwise_ancestors (forest : Forest) (id : NodeId) :
    (id :: forest.ancestors id).Pairwise (· < ·) := by
  apply List.IsChain.pairwise
  apply (forest.isChain_ancestors id).imp
  intro child parent link
  exact (forest.parent?_bounds link).1

def FirstOfKind (forest : Forest) (kind : NodeKind) (ids : List NodeId) (found : NodeId) : Prop :=
  ∃ before after, ids = before ++ found :: after ∧ forest.kind? found = some kind ∧
    ∀ other ∈ before, forest.kind? other ≠ some kind

theorem enclosing?_eq_some_iff_firstOfKind {kind : NodeKind} {id found : NodeId} :
    forest.enclosing? kind id = some found ↔
      forest.FirstOfKind kind (forest.ancestors id) found := by
  rw [enclosing?, List.find?_eq_some_iff_append]
  simp only [FirstOfKind, decide_eq_true_eq, Bool.not_eq_true', decide_eq_false_iff_not]
  constructor
  · rintro ⟨matching, before, after, split, first⟩
    exact ⟨before, after, split, matching, first⟩
  · rintro ⟨before, after, split, matching, first⟩
    exact ⟨matching, before, after, split, first⟩

/-! ## The links of a history -/

structure FollowsSteps (forest : Forest) (steps : List Step) : Prop where
  size : forest.size = steps.length
  nodes : ∀ id, forest.node? id = steps[id]?.map Step.node
  children : ∀ child parent, child ∈ forest.children parent ↔
    ∃ step, steps[parent]? = some step ∧ child ∈ step.node.references ++ step.others
  climbs : ∀ child parent, forest.parent? child = some parent →
    child < parent ∧ parent < forest.size
  greatest : ∀ child parent, forest.parent? child = some parent ↔
    IsGreatest (forest.adopters child) parent
  orphan : ∀ child, forest.parent? child = none ↔ forest.adopters child = ∅
  walk : ∀ id, (id :: forest.ancestors id).IsChain fun child parent =>
    forest.parent? child = some parent
  finished : ∀ id, (id :: forest.ancestors id).getLast?.bind forest.parent? = none
  increasing : ∀ id, (id :: forest.ancestors id).Pairwise (· < ·)
  method : ∀ id found, forest.enclosingMethod? id = some found ↔
    forest.FirstOfKind .methodDeclaration (forest.ancestors id) found
  type : ∀ id found, forest.enclosingType? id = some found ↔
    forest.FirstOfKind .typeDeclaration (forest.ancestors id) found

/-- Whatever numbers the steps of a history name, parents come after their children: the parent of a
node is the last of the later nodes that list it. The walk towards the root climbs and ends, and it
meets the enclosing method and the enclosing type first among those of their kind. -/
theorem followsSteps_finish (steps : List Step) (path : String) (root : NodeId) :
    ((ofSteps steps).finish path root).toForest.FollowsSteps steps where
  size := size_ofSteps steps
  nodes := node?_ofSteps steps
  children _ _ := mem_children_ofSteps
  climbs _ _ := parent?_bounds _
  greatest _ _ := (lastAdopted_ofSteps steps).parent?_eq_some_iff
  orphan _ := (lastAdopted_ofSteps steps).parent?_eq_none_iff
  walk := isChain_ancestors _
  finished := parent?_getLast_ancestors _
  increasing := pairwise_ancestors _
  method _ _ := enclosing?_eq_some_iff_firstOfKind
  type _ _ := enclosing?_eq_some_iff_firstOfKind

/-- The second node lists itself, the third one a node that has a parent, and twice the same node. -/
example : (List.range 4).map (ofSteps [⟨.identifier "x", {}, []⟩, ⟨.invocation 1, {}, [0, 3]⟩,
    ⟨.methodDeclaration "M", {}, [1, 0, 1]⟩, ⟨.other "block", {}, [0, 9]⟩]).parent? =
      [some 3, some 2, none, none] := by decide

end UnityLint.Forest
