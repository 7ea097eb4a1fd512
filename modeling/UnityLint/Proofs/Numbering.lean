import UnityLint.Proofs.Sorting
import UnityLint.Proofs.Trace
import UnityLint.Syntax.Query

/-! # Numbered traces

What the numbered tree of a trace looks like from each of its nodes: the node with the numbers of its
parts, its span and the numbers of the nodes around it. -/

namespace UnityLint

/-! ## Kinds of forms -/

def Form.kind : Form → NodeKind
  | .compilationUnit => .compilationUnit
  | .typeDeclaration _ => .typeDeclaration
  | .methodDeclaration _ _ => .methodDeclaration
  | .ifStatement => .ifStatement
  | .conditionalAccess => .conditionalAccess
  | .invocation => .invocation
  | .identifier _ => .identifier
  | .genericName _ => .genericName
  | .memberAccess => .memberAccess
  | .memberBinding => .memberBinding
  | .isPattern _ => .isPattern
  | .comparison _ => .comparison
  | .literal _ => .literal
  | .other _ _ => .other

theorem Form.kind_build (form : Form) (ids : List NodeId) :
    (form.build ids).1.kind = form.kind ∨ (form.build ids).1.kind = .other := by
  unfold Form.build
  split
  all_goals first | exact .inl rfl | skip
  · split <;> exact .inl rfl
  · exact .inr rfl

/-! ## What a new node changes -/

namespace Forest

theorem mem_arrange {forest : Forest} {node : Node} {others : List NodeId} {id : NodeId} :
    id ∈ forest.arrange node others ↔ id ∈ node.references ++ others := by
  rw [← List.map_id' (forest.arrange node others), arrange, Order.mem_map_dropRepeatsBy,
    List.map_id']
  exact (Order.sort_perm _ _).mem_iff

variable (forest : Forest) (node : Node) (nodeSpan : Span) (others : List NodeId)

@[simp] theorem size_push : (forest.push node nodeSpan others).size = forest.size + 1 := by
  simp [push, size, size_adopt]

theorem getElem?_push (id : NodeId) :
    (forest.push node nodeSpan others).entries[id]? =
      if id = forest.size then
        some ⟨node, nodeSpan, none, forest.arrange node others⟩
      else if id ∈ node.references ++ others then
        forest.entries[id]?.map fun entry => { entry with parent := some forest.size }
      else
        forest.entries[id]? := by
  simp only [push, Array.getElem?_push, size_adopt, getElem?_adopt, mem_arrange]
  rfl

@[simp] theorem node?_push_size :
    (forest.push node nodeSpan others).node? forest.size = some node := by
  simp [node?, getElem?_push]

@[simp] theorem span_push_size :
    (forest.push node nodeSpan others).span forest.size = nodeSpan := by
  simp [span, getElem?_push]

theorem children_push (id : NodeId) :
    (forest.push node nodeSpan others).children id =
      if id = forest.size then forest.arrange node others else forest.children id := by
  rw [children, getElem?_push]
  split
  · rfl
  · split
    · rw [Option.map_map]
      rfl
    · rfl

@[simp] theorem parent?_push_size :
    (forest.push node nodeSpan others).parent? forest.size = none := by
  simp [parent?, getElem?_push]

theorem node?_push_of_ne {id : NodeId} (other : id ≠ forest.size) :
    (forest.push node nodeSpan others).node? id = forest.node? id := by
  rw [node?, getElem?_push, if_neg other]
  split
  · rw [Option.map_map]
    rfl
  · rfl

variable {id : NodeId} (old : id < forest.size)

include old

theorem node?_push : (forest.push node nodeSpan others).node? id = forest.node? id :=
  node?_push_of_ne forest node nodeSpan others (Nat.ne_of_lt old)

theorem span_push : (forest.push node nodeSpan others).span id = forest.span id := by
  rw [span, getElem?_push, if_neg (Nat.ne_of_lt old)]
  split
  · rw [Option.map_map]
    rfl
  · rfl

theorem parent?_push :
    (forest.push node nodeSpan others).parent? id =
      if id ∈ node.references ++ others then some forest.size else forest.parent? id := by
  have inside : id < forest.entries.size := old
  rw [parent?, getElem?_push, if_neg (Nat.ne_of_lt old)]
  split
  · simp [Array.getElem?_eq_getElem inside]
  · rfl

end Forest

/-! ## Forests that hold a trace -/

namespace Trace

mutual

/-- From the number `first` on the forest holds the nodes of a trace, each below its parent, and the
topmost below `parent`. -/
def HeldFrom (forest : Forest) (first : Nat) (parent : Option Nat) : Trace → Prop
  | .node form span _ parts =>
      let id := first + (nodesOfAll parts).length
      forest.node? id = some (form.build (numbersFrom first parts)).1 ∧
        forest.span id = span ∧ forest.parent? id = parent ∧
        AllHeldFrom forest first (some id) parts

def AllHeldFrom (forest : Forest) (first : Nat) (parent : Option Nat) : List Trace → Prop
  | [] => True
  | part :: rest =>
      part.HeldFrom forest first parent ∧ AllHeldFrom forest (first + part.size) parent rest

end

theorem allHeldFrom_iff {forest : Forest} {first : Nat} {parent : Option Nat}
    {traces : List Trace} :
    AllHeldFrom forest first parent traces ↔
      ∀ start ∈ startsFrom first traces, start.2.HeldFrom forest start.1 parent := by
  induction traces generalizing first with
  | nil => simp [AllHeldFrom, startsFrom]
  | cons part rest induction => simp [AllHeldFrom, startsFrom, induction]

def SameBetween (left right : Forest) (low high : Nat) : Prop :=
  ∀ id, low ≤ id → id < high →
    left.node? id = right.node? id ∧ left.span id = right.span id ∧
      left.parent? id = right.parent? id

theorem SameBetween.mono {left right : Forest} {low high low' high' : Nat}
    (same : SameBetween left right low high) (lower : low ≤ low') (upper : high' ≤ high) :
    SameBetween left right low' high' :=
  fun id atLeast inside => same id (Nat.le_trans lower atLeast) (Nat.lt_of_lt_of_le inside upper)

theorem AllHeldFrom.of_forall_congr {left right : Forest} {parent : Option Nat}
    {traces : List Trace}
    (congruence : ∀ part ∈ traces, ∀ {first : Nat} {parent : Option Nat},
      SameBetween left right first (first + part.size) →
        part.HeldFrom left first parent → part.HeldFrom right first parent)
    {first : Nat} (same : SameBetween left right first (first + (nodesOfAll traces).length))
    (held : AllHeldFrom left first parent traces) : AllHeldFrom right first parent traces := by
  induction traces generalizing first with
  | nil => trivial
  | cons part rest induction =>
      have split : (nodesOfAll (part :: rest)).length = part.size + (nodesOfAll rest).length := by
        rw [nodesOfAll, List.length_append, length_nodes]
      refine ⟨congruence part List.mem_cons_self (same.mono (Nat.le_refl _) (by omega)) held.1, ?_⟩
      exact induction (fun other member => congruence other (List.mem_cons_of_mem _ member))
        (same.mono (Nat.le_add_right _ _) (by omega)) held.2

theorem HeldFrom.congr {trace : Trace} {left right : Forest} {first : Nat}
    {parent : Option Nat} (same : SameBetween left right first (first + trace.size))
    (held : trace.HeldFrom left first parent) : trace.HeldFrom right first parent := by
  induction trace generalizing first parent with
  | node form span origin parts induction =>
      simp only [size, countBelow, Trace.parts] at same
      rcases same (first + (nodesOfAll parts).length) (by omega) (by omega) with
        ⟨sameNode, sameSpan, sameParent⟩
      rcases held with ⟨node, spanHeld, parentHeld, partsHeld⟩
      refine ⟨sameNode ▸ node, sameSpan ▸ spanHeld, sameParent ▸ parentHeld, ?_⟩
      exact AllHeldFrom.of_forall_congr (fun part member => induction part member)
        (same.mono (Nat.le_refl _) (by omega)) partsHeld

theorem HeldFrom.below {trace : Trace} {forest : Forest} {first : Nat} {parent : Option Nat}
    (held : trace.HeldFrom forest first parent) :
    AllHeldFrom forest first (some (first + trace.countBelow)) trace.parts := by
  cases trace
  exact held.2.2.2

theorem HeldFrom.adopt {trace : Trace} {left right : Forest} {first : Nat}
    {parent other : Option Nat}
    (same : SameBetween left right first (first + trace.countBelow))
    (node : left.node? (first + trace.countBelow) = right.node? (first + trace.countBelow))
    (span : left.span (first + trace.countBelow) = right.span (first + trace.countBelow))
    (adopted : right.parent? (first + trace.countBelow) = other)
    (held : trace.HeldFrom left first parent) : trace.HeldFrom right first other := by
  cases trace
  refine ⟨node ▸ held.1, span ▸ held.2.1, adopted, ?_⟩
  exact AllHeldFrom.of_forall_congr (fun _ _ => HeldFrom.congr) same held.2.2.2

/-! ## Numbering -/

structure Grown (before after : Forest) (count : Nat) : Prop where
  size : after.size = before.size + count
  kept : ∀ id < before.size, after.entries[id]? = before.entries[id]?

theorem Grown.sameBetween {before after : Forest} {count low high : Nat}
    (grown : Grown before after count) (bound : high ≤ before.size) :
    SameBetween before after low high := by
  intro id _ inside
  have kept := grown.kept id (Nat.lt_of_lt_of_le inside bound)
  simp [Forest.node?, Forest.span, Forest.parent?, kept]

theorem Grown.trans {first second third : Forest} {left right : Nat}
    (earlier : Grown first second left) (later : Grown second third right) :
    Grown first third (left + right) where
  size := by rw [later.size, earlier.size, Nat.add_assoc]
  kept id inside := by
    rw [later.kept id (by rw [earlier.size]; omega), earlier.kept id inside]

theorem forest_enter (lowered : Lowered) (form : Form) :
    (lowered.enter form).forest = lowered.forest := by
  unfold Lowered.enter
  split <;> rfl

theorem AllHeldFrom.push {forest : Forest} {first : Nat} {traces : List Trace}
    {node : Node} {span : Span} {others : List NodeId}
    (held : AllHeldFrom forest first none traces)
    (bound : first + (nodesOfAll traces).length ≤ forest.size)
    (adopted : ∀ id, first ≤ id → (id ∈ node.references ++ others ↔ id ∈ numbersFrom first traces)) :
    AllHeldFrom (forest.push node span others) first (some forest.size) traces := by
  induction traces generalizing first with
  | nil => trivial
  | cons part rest induction =>
      have split : (nodesOfAll (part :: rest)).length = part.size + (nodesOfAll rest).length := by
        rw [nodesOfAll, List.length_append, length_nodes]
      have partSize : part.size = part.countBelow + 1 := rfl
      refine ⟨?_, induction held.2 (by omega) ?_⟩
      · have old : first + part.countBelow < forest.size := by omega
        refine held.1.adopt ?_ (forest.node?_push node span others old).symm
          (forest.span_push node span others old).symm ?_
        · intro id atLeast inside
          have older : id < forest.size := by omega
          refine ⟨(forest.node?_push node span others older).symm,
            (forest.span_push node span others older).symm, ?_⟩
          rw [forest.parent?_push node span others older, if_neg]
          rw [adopted id atLeast, numbersFrom_cons, List.mem_cons]
          rintro (equal | later)
          · omega
          · have := le_of_mem_numbersFrom later
            omega
        · rw [forest.parent?_push node span others old, if_pos]
          rw [adopted _ (Nat.le_add_right _ _), numbersFrom_cons]
          exact List.mem_cons_self
      · intro id atLeast
        rw [adopted id (by omega), numbersFrom_cons, List.mem_cons, or_iff_right]
        omega

theorem numberAll_outlines {parts : List Trace}
    (number : ∀ part ∈ parts, ∀ lowered : Lowered,
      (part.outline.number lowered).1 = lowered.forest.size + part.countBelow ∧
        Grown lowered.forest (part.outline.number lowered).2.forest part.size ∧
        part.HeldFrom (part.outline.number lowered).2.forest lowered.forest.size none)
    (lowered : Lowered) :
    (Outline.numberAll (outlines parts) lowered).1 = numbersFrom lowered.forest.size parts ∧
      Grown lowered.forest (Outline.numberAll (outlines parts) lowered).2.forest
        (nodesOfAll parts).length ∧
      AllHeldFrom (Outline.numberAll (outlines parts) lowered).2.forest lowered.forest.size none
        parts := by
  induction parts generalizing lowered with
  | nil => exact ⟨rfl, ⟨rfl, fun _ _ => rfl⟩, trivial⟩
  | cons part rest induction =>
      rcases number part List.mem_cons_self lowered with ⟨top, grown, held⟩
      rcases induction (fun other member => number other (List.mem_cons_of_mem _ member))
        (part.outline.number lowered).2 with ⟨tops, grownRest, heldRest⟩
      rw [grown.size] at tops heldRest
      rw [outlines, Outline.numberAll]
      refine ⟨by rw [top, tops, numbersFrom_cons], ?_, ?_, heldRest⟩
      · rw [nodesOfAll, List.length_append, length_nodes]
        exact grown.trans grownRest
      · exact held.congr (grownRest.sameBetween (Nat.le_of_eq grown.size.symm))

theorem number_outline (trace : Trace) (lowered : Lowered) :
    (trace.outline.number lowered).1 = lowered.forest.size + trace.countBelow ∧
      Grown lowered.forest (trace.outline.number lowered).2.forest trace.size ∧
      trace.HeldFrom (trace.outline.number lowered).2.forest lowered.forest.size none := by
  induction trace generalizing lowered with
  | node form span origin parts induction =>
      rcases numberAll_outlines induction (lowered.enter form) with ⟨tops, grown, held⟩
      rw [forest_enter] at tops grown held
      rw [outline, Outline.number]
      generalize Outline.numberAll (outlines parts) (lowered.enter form) = numbered at *
      have bound : lowered.forest.size + (nodesOfAll parts).length = numbered.2.forest.size :=
        grown.size.symm
      refine ⟨grown.size, ⟨?_, ?_⟩, ?_⟩
      · simp only [Lowered.leave, Forest.size_push, grown.size]
        rfl
      · intro id inside
        have older : id ≠ numbered.2.forest.size := by omega
        simp only [Lowered.leave]
        rw [Forest.getElem?_push, if_neg older, if_neg, grown.kept id inside]
        rw [Form.references_build, tops]
        intro member
        have := le_of_mem_numbersFrom member
        omega
      · simp only [HeldFrom, Lowered.leave, bound, tops]
        refine ⟨Forest.node?_push_size .., Forest.span_push_size .., Forest.parent?_push_size .., ?_⟩
        apply AllHeldFrom.push held (Nat.le_of_eq bound)
        intro id _
        rw [Form.references_build]

end Trace

/-! ## The numbered tree of a trace -/

namespace Trace

def forest (trace : Trace) : Forest :=
  (trace.outline.number .empty).2.forest

theorem size_forest (trace : Trace) : trace.forest.size = trace.size := by
  rw [forest, (number_outline trace .empty).2.1.size]
  exact Nat.zero_add _

theorem exists_sits_of_node? {whole : Trace} {number : NodeId} {built : Node}
    (found : whole.forest.node? number = some built) :
    ∃ first node around, Sits whole first node around ∧ number = first + node.countBelow := by
  apply exists_sits
  rw [← size_forest]
  exact Forest.lt_size_of_node? found

theorem heldFrom_forest (trace : Trace) : trace.HeldFrom trace.forest 0 none :=
  (number_outline trace .empty).2.2

section Sits

variable {whole node : Trace} {first : Nat} {around : List (Nat × Trace)}

theorem Sits.heldFrom (sits : Sits whole first node around) :
    node.HeldFrom whole.forest first (around.head?.map Prod.fst) := by
  induction sits with
  | root => exact heldFrom_forest whole
  | part _ member induction => exact allHeldFrom_iff.mp induction.below _ member

theorem Sits.node?_eq (sits : Sits whole first node around) :
    whole.forest.node? (first + node.countBelow) =
      some (node.form.build (numbersFrom first node.parts)).1 := by
  cases node
  exact sits.heldFrom.1

theorem Sits.kind?_eq (sits : Sits whole first node around) :
    whole.forest.kind? (first + node.countBelow) =
      some (node.form.build (numbersFrom first node.parts)).1.kind := by
  rw [Forest.kind?, sits.node?_eq, Option.map_some]

theorem Sits.span_eq (sits : Sits whole first node around) :
    whole.forest.span (first + node.countBelow) = node.span := by
  cases node
  exact sits.heldFrom.2.1

theorem Sits.parent?_eq (sits : Sits whole first node around) :
    whole.forest.parent? (first + node.countBelow) = around.head?.map Prod.fst := by
  cases node
  exact sits.heldFrom.2.2.1

theorem Sits.ancestors_eq (sits : Sits whole first node around) :
    whole.forest.ancestors (first + node.countBelow) = around.map Prod.fst := by
  induction sits with
  | root => exact Forest.ancestors_of_parent?_eq_none Sits.root.parent?_eq
  | part sits member induction =>
      rw [Forest.ancestors_of_parent?_eq_some (sits.part member).parent?_eq, List.map_cons,
        induction]

end Sits

end Trace

end UnityLint
