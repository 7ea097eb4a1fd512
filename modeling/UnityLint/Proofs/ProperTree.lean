import UnityLint.Proofs.Enclosing

/-! # Proper trees

Whatever parse tree a file has, its nodes form one tree: every node but the last has a parent that comes
after it and lists it once, and nothing else lists it. If the rows of the parse tree cover the rows below
them, the nodes cover the nodes below them. -/

namespace UnityLint

/-! ## Linked forests -/

namespace Forest

/-- Parents and lists of children say the same. Every list of children has the nodes that the parent
refers to, each of them once, and no node twice, by the start of their spans. -/
structure Linked (forest : Forest) : Prop where
  mem_children : ∀ {child parent},
    child ∈ forest.children parent ↔ forest.parent? child = some parent
  nodup : ∀ id, (forest.children id).Nodup
  ordered : ∀ id, (forest.children id).Pairwise fun left right =>
    (forest.span left).start ≤ (forest.span right).start
  refers : ∀ {id node}, forest.node? id = some node →
    ∀ part ∈ node.references, part ∈ forest.children id
  distinct : ∀ {id node}, forest.node? id = some node → node.references.Nodup

theorem linked_empty : empty.Linked where
  mem_children := by simp [children, parent?, empty]
  nodup := by simp [children, empty]
  ordered := by simp [children, empty]
  refers := by simp [node?, empty]
  distinct := by simp [node?, empty]

theorem Linked.lt_of_mem_children {forest : Forest} (linked : forest.Linked) {child parent : Nat}
    (member : child ∈ forest.children parent) : child < parent ∧ parent < forest.size :=
  forest.parent?_bounds (linked.mem_children.mp member)

theorem Linked.count_children {forest : Forest} (linked : forest.Linked) {child parent : NodeId}
    (link : forest.parent? child = some parent) : (forest.children parent).count child = 1 :=
  List.count_eq_one_of_mem (linked.nodup parent) (linked.mem_children.mpr link)

theorem Linked.eq_of_mem_children {forest : Forest} (linked : forest.Linked)
    {child parent other : NodeId} (link : forest.parent? child = some parent)
    (member : child ∈ forest.children other) : other = parent :=
  Option.some.inj ((linked.mem_children.mp member).symm.trans link)

section Push

variable {forest : Forest} {node : Node} {others : List NodeId}

theorem nodup_arrange (distinct : (node.references ++ others).Nodup) :
    (forest.arrange node others).Nodup := by
  have sorted := (Order.sort_perm
    (fun left right => (forest.span left).start ≤ (forest.span right).start)
    (node.references ++ others)).nodup_iff.mpr distinct
  exact sorted.sublist (Order.dropRepeatsAfter_sublist ..)

theorem ordered_arrange : (forest.arrange node others).Pairwise fun left right =>
    (forest.span left).start ≤ (forest.span right).start := by
  let precedes (left right : NodeId) : Bool := (forest.span left).start ≤ (forest.span right).start
  have total : ∀ left right, precedes left right ∨ precedes right left :=
    fun left right => by simpa [precedes] using Nat.le_total _ _
  have trans : ∀ first second third,
      precedes first second → precedes second third → precedes first third :=
    fun first second third => by simpa [precedes] using Nat.le_trans
  have sorted := Order.pairwise_sort total trans (node.references ++ others)
  refine (sorted.sublist (Order.dropRepeatsAfter_sublist ..)).imp ?_
  intro left right before
  simpa [precedes] using before

theorem node?_push_cases {nodeSpan : Span} {id : NodeId} {found : Node}
    (here : (forest.push node nodeSpan others).node? id = some found) :
    id = forest.size ∧ found = node ∨ id < forest.size ∧ forest.node? id = some found := by
  have bound := lt_size_of_node? here
  rw [size_push] at bound
  rcases Nat.lt_succ_iff_lt_or_eq.mp bound with old | rfl
  · rw [node?_push _ _ _ _ old] at here
    exact .inr ⟨old, here⟩
  · rw [node?_push_size] at here
    exact .inl ⟨rfl, (Option.some.inj here).symm⟩

theorem Linked.push (linked : forest.Linked) (nodeSpan : Span)
    (roots : ∀ id ∈ node.references ++ others, id < forest.size ∧ forest.parent? id = none)
    (distinct : (node.references ++ others).Nodup) :
    (forest.push node nodeSpan others).Linked where
  mem_children := by
    intro child parent
    rw [children_push]
    rcases Nat.lt_or_ge child forest.size with old | new
    · rw [parent?_push _ _ _ _ old]
      by_cases adopted : child ∈ node.references ++ others
      · have orphan : child ∉ forest.children parent := by
          rw [linked.mem_children, (roots child adopted).2]
          exact nofun
        rw [if_pos adopted, Option.some.injEq]
        split
        · exact iff_of_true (mem_arrange.mpr adopted) (Eq.symm ‹_›)
        · exact iff_of_false orphan (Ne.symm ‹_›)
      · rw [if_neg adopted, ← linked.mem_children]
        split
        · rename_i last
          refine iff_of_false (mem_arrange.not.mpr adopted) fun member => ?_
          exact Nat.ne_of_lt (linked.lt_of_mem_children member).2 last
        · rfl
    · refine iff_of_false ?_ fun link => ?_
      · split
        · intro member
          exact Nat.not_lt.mpr new (roots child (mem_arrange.mp member)).1
        · intro member
          have bounds := linked.lt_of_mem_children member
          omega
      · have bounds := (forest.push node nodeSpan others).parent?_bounds link
        rw [size_push] at bounds
        omega
  nodup id := by
    rw [children_push]
    split
    · exact nodup_arrange distinct
    · exact linked.nodup id
  ordered id := by
    rw [children_push]
    split
    · refine ordered_arrange.imp_of_mem ?_
      intro left right leftListed rightListed before
      rw [span_push _ _ _ _ (roots left (mem_arrange.mp leftListed)).1,
        span_push _ _ _ _ (roots right (mem_arrange.mp rightListed)).1]
      exact before
    · refine (linked.ordered id).imp_of_mem ?_
      intro left right leftListed rightListed before
      have leftBounds := linked.lt_of_mem_children leftListed
      have rightBounds := linked.lt_of_mem_children rightListed
      rw [span_push _ _ _ _ (leftBounds.1.trans leftBounds.2),
        span_push _ _ _ _ (rightBounds.1.trans rightBounds.2)]
      exact before
  refers := by
    intro id built found part member
    rw [children_push]
    rcases node?_push_cases found with ⟨rfl, rfl⟩ | ⟨old, before⟩
    · rw [if_pos rfl]
      exact mem_arrange.mpr (List.mem_append_left _ member)
    · rw [if_neg (Nat.ne_of_lt old)]
      exact linked.refers before part member
  distinct := by
    intro id built found
    rcases node?_push_cases found with ⟨rfl, rfl⟩ | ⟨_, before⟩
    · exact distinct.sublist (List.sublist_append_left _ _)
    · exact linked.distinct before

end Push

end Forest

/-! ## Numbering links -/

namespace Trace

theorem lt_of_mem_numbersFrom {first number : Nat} {traces : List Trace}
    (member : number ∈ numbersFrom first traces) :
    number < first + (nodesOfAll traces).length := by
  induction traces generalizing first with
  | nil => cases member
  | cons part rest induction =>
      rw [nodesOfAll, List.length_append, length_nodes]
      rcases List.mem_cons.mp member with rfl | later
      · simp only [size]
        omega
      · have bound := induction later
        omega

theorem nodup_numbersFrom (first : Nat) (traces : List Trace) :
    (numbersFrom first traces).Nodup := by
  induction traces generalizing first with
  | nil => exact .nil
  | cons part rest induction =>
      rw [numbersFrom_cons]
      refine List.nodup_cons.mpr ⟨fun later => ?_, induction _⟩
      have bound := le_of_mem_numbersFrom later
      simp only [size] at bound
      omega

theorem AllHeldFrom.parent?_eq {forest : Forest} {first number : Nat} {parent : Option Nat}
    {traces : List Trace} (held : AllHeldFrom forest first parent traces)
    (member : number ∈ numbersFrom first traces) : forest.parent? number = parent := by
  rcases List.mem_map.mp member with ⟨start, inside, rfl⟩
  have own := allHeldFrom_iff.mp held start inside
  cases part : start.2 with
  | node form span origin parts =>
      rw [part] at own
      exact own.2.2.1

theorem linked_numberAll {parts : List Trace}
    (number : ∀ part ∈ parts, ∀ lowered : Lowered, lowered.forest.Linked →
      (part.outline.number lowered).2.forest.Linked)
    (lowered : Lowered) (linked : lowered.forest.Linked) :
    (Outline.numberAll (outlines parts) lowered).2.forest.Linked := by
  induction parts generalizing lowered with
  | nil => exact linked
  | cons part rest induction =>
      apply induction fun other member => number other (List.mem_cons_of_mem _ member)
      exact number part List.mem_cons_self lowered linked

/-- Numbering a trace keeps a forest linked: its nodes adopt the nodes of their parts, which have been
numbered just before and have no parents yet. -/
theorem linked_number (trace : Trace) (lowered : Lowered) (linked : lowered.forest.Linked) :
    (trace.outline.number lowered).2.forest.Linked := by
  induction trace generalizing lowered with
  | node form span origin parts induction =>
      rw [← forest_enter lowered form] at linked
      rcases numberAll_outlines (fun part _ => part.number_outline) (lowered.enter form) with
        ⟨tops, grown, held⟩
      have inner := linked_numberAll induction (lowered.enter form) linked
      apply inner.push
      · intro id member
        rw [Form.references_build, tops] at member
        refine ⟨?_, held.parent?_eq member⟩
        rw [grown.size]
        exact lt_of_mem_numbersFrom member
      · rw [Form.references_build, tops]
        exact nodup_numbersFrom ..

theorem linked_forest (trace : Trace) : trace.forest.Linked :=
  linked_number trace .empty Forest.linked_empty

theorem Sits.getLast?_ancestors {whole node : Trace} {first : Nat} {around : List (Nat × Trace)}
    (sits : Sits whole first node around) :
    ((first + node.countBelow) :: whole.forest.ancestors (first + node.countBelow)).getLast? =
      some whole.countBelow := by
  rw [sits.ancestors_eq]
  induction sits with
  | root => simp
  | part _ _ induction => rw [List.map_cons, List.getLast?_cons_cons, induction]

end Trace

/-! ## Nested spans -/

def Span.Within (inner outer : Span) : Prop :=
  outer.start ≤ inner.start ∧ inner.stop ≤ outer.stop
deriving Decidable

theorem Span.Within.trans {inner middle outer : Span} (first : inner.Within middle)
    (second : middle.Within outer) : inner.Within outer :=
  ⟨second.1.trans first.1, first.2.trans second.2⟩

def ParseTree.Nested (root : ParseTree) : Prop :=
  ∀ found ∈ root.rowsFrom [], ∀ child ∈ found.2.children, child.span.Within found.2.span
deriving Decidable

theorem ParseTree.Nested.within {root outer inner : ParseTree} {position rest : Position}
    (nested : root.Nested) (here : root.at? position = some outer)
    (below : outer.at? rest = some inner) : inner.span.Within outer.span := by
  induction rest generalizing position outer with
  | nil =>
      cases below
      exact ⟨Nat.le_refl _, Nat.le_refl _⟩
  | cons place rest induction =>
      rcases Option.bind_eq_some_iff.mp below with ⟨child, inside, further⟩
      have there : root.at? (position ++ [place]) = some child := by
        rw [at?_snoc, here]
        exact inside
      refine (induction there further).trans ?_
      exact nested (position, outer) (mem_rowsFrom_nil.mpr here) child
        (List.mem_of_getElem? inside)

/-- If the rows of a file are nested, so are its nodes: a chain turned inside out takes the spans of its
rows along. -/
theorem Trace.span_within_parent {source : List Char} {root : ParseTree} (nested : root.Nested)
    {id parent : Nat} (link : (ofParseTree source root).forest.parent? id = some parent) :
    ((ofParseTree source root).forest.span id).Within
      ((ofParseTree source root).forest.span parent) := by
  have bounds := Forest.parent?_bounds _ link
  rw [size_forest] at bounds
  rcases exists_sits (bounds.1.trans bounds.2) with ⟨first, node, around, sits, rfl⟩
  rw [sits.parent?_eq] at link
  cases sits with
  | root => cases link
  | @part start whole others own sits member =>
      cases link
      rcases sits.madeFrom with ⟨outer, madeOuter⟩
      rcases (sits.part member).madeFrom with ⟨inner, madeInner⟩
      rcases madeOuter.prefix_of_mem_parts (mem_of_mem_startsFrom member) with ⟨rest, equal⟩
      have below := madeInner.1
      rw [← equal, ParseTree.at?_append, madeOuter.1] at below
      rw [sits.span_eq, (sits.part member).span_eq, madeOuter.span_eq, madeInner.span_eq]
      exact nested.within madeOuter.1 below

/-! ## The tree of a file -/

/-- One tree: every node but the root, the last one, hangs below one later node. -/
structure Tree.Proper (tree : Tree) : Prop where
  root : ∃ last, tree.root = some last ∧ tree.size = last + 1
  parent : ∀ id < tree.size, tree.root ≠ some id → ∃ parent, tree.parent? id = some parent ∧
    id < parent ∧ (tree.children parent).count id = 1 ∧
      ∀ other, other ≠ parent → id ∉ tree.children other
  smaller : ∀ id node, tree.node? id = some node →
    ∀ part ∈ node.references ++ tree.children id, part < id
  ordered : ∀ id, (tree.children id).Pairwise fun left right =>
    (tree.span left).start ≤ (tree.span right).start
  walk : ∀ id < tree.size, (id :: tree.ancestors id).getLast? = tree.root

theorem root_ofParseTree (path source : String) (root : ParseTree) :
    (SourceUnit.ofParseTree path source root).tree.root =
      some (Trace.ofParseTree source.toList root).countBelow := by
  rcases Trace.number_outline (Trace.ofParseTree source.toList root) .empty with ⟨top, _⟩
  have empty : Lowered.empty.forest.size = 0 := rfl
  rw [empty, Nat.zero_add] at top
  have inside : (Trace.ofParseTree source.toList root).countBelow <
      (Trace.ofParseTree source.toList root).forest.size := by
    rw [Trace.size_forest]
    exact Nat.lt_succ_self _
  rw [SourceUnit.ofParseTree, ← Trace.outline_ofParseTree, top]
  exact if_pos inside

theorem proper_ofParseTree (path source : String) (root : ParseTree) :
    (SourceUnit.ofParseTree path source root).tree.Proper := by
  have forest := toForest_ofParseTree path source root
  have linked := Trace.linked_forest (Trace.ofParseTree source.toList root)
  rw [← forest] at linked
  have size : (SourceUnit.ofParseTree path source root).tree.size =
      (Trace.ofParseTree source.toList root).countBelow + 1 := by
    rw [forest, Trace.size_forest]
    rfl
  constructor
  case root => exact ⟨_, root_ofParseTree path source root, size⟩
  case parent =>
    intro id inside different
    rw [root_ofParseTree] at different
    rw [size] at inside
    rcases Trace.exists_sits inside with ⟨first, node, around, sits, rfl⟩
    cases sits with
    | root => exact absurd (by rw [Nat.zero_add]) different
    | @part start whole others own sits member =>
        have link := (sits.part member).parent?_eq
        rw [← forest] at link
        refine ⟨_, link, (Forest.parent?_bounds _ link).1, linked.count_children link, ?_⟩
        intro other different listed
        exact different (linked.eq_of_mem_children link listed)
  case smaller =>
    intro id node found part member
    rcases List.mem_append.mp member with refers | listed
    · exact (linked.lt_of_mem_children (linked.refers found part refers)).1
    · exact (linked.lt_of_mem_children listed).1
  case ordered => exact linked.ordered
  case walk =>
    intro id inside
    rw [size] at inside
    rcases Trace.exists_sits inside with ⟨first, node, around, sits, rfl⟩
    rw [forest, root_ofParseTree]
    exact sits.getLast?_ancestors

/-- The nodes of any file form a proper tree, and nested rows make nested nodes. -/
theorem proper_and_within_ofParseTree (path source : String) (root : ParseTree) :
    let tree := (SourceUnit.ofParseTree path source root).tree
    tree.Proper ∧ (root.Nested → ∀ id parent, tree.parent? id = some parent →
      (tree.span id).Within (tree.span parent)) := by
  refine ⟨proper_ofParseTree path source root, fun nested id parent link => ?_⟩
  rw [toForest_ofParseTree] at link ⊢
  exact Trace.span_within_parent nested link

/-- The parse tree of `a?.b( // c`, in which no row fills a field. -/
def ParseTree.brokenCall : ParseTree :=
  .row "compilation_unit" true none ⟨0, 10, 0, 0⟩ [
    .row "ERROR" true none ⟨0, 5, 0, 0⟩ [
      .row "invocation_expression" true none ⟨0, 5, 0, 0⟩ [
        .row "conditional_access_expression" true none ⟨0, 4, 0, 0⟩ [
          .row "identifier" true none ⟨0, 1, 0, 0⟩ [],
          .row "member_binding_expression" true none ⟨2, 4, 0, 2⟩ [
            .row "identifier" true none ⟨3, 4, 0, 3⟩ []]],
        .row "argument_list" true none ⟨4, 5, 0, 4⟩ []]],
    .row "comment" true none ⟨6, 10, 0, 6⟩ []]

theorem proper_and_within_ofParseTree_brokenCall :
    let tree := (SourceUnit.ofParseTree "Assets/A.cs" "a?.b( // c" .brokenCall).tree
    tree.Proper ∧ ParseTree.brokenCall.Nested ∧ ∀ id parent, tree.parent? id = some parent →
      (tree.span id).Within (tree.span parent) := by
  have nested : ParseTree.brokenCall.Nested := by decide
  rcases proper_and_within_ofParseTree "Assets/A.cs" "a?.b( // c" .brokenCall with ⟨proper, within⟩
  exact ⟨proper, nested, within nested⟩

end UnityLint
