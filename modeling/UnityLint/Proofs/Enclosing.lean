import Mathlib.Data.List.Find
import UnityLint.Proofs.Numbering
import UnityLint.Proofs.Origin

/-! # Declarations around a node

A node can end up far from its row: the tail of a chain is turned inside out. Declarations are never
moved across, so that the nodes of the declarations around a node are those around its row. -/

namespace UnityLint

namespace ParseTree

def isTypeDeclaration (row : ParseTree) : Bool :=
  row.kind ∈ ["class_declaration", "struct_declaration", "record_declaration",
    "record_struct_declaration"]

def isMethodDeclaration (row : ParseTree) : Bool :=
  row.kind = "method_declaration"

def isDeclaration (row : ParseTree) : Bool :=
  row.isTypeDeclaration || row.isMethodDeclaration

theorem isTypeDeclaration_iff {row : ParseTree} :
    row.isTypeDeclaration ↔ Construct.ofKind row.kind = .typeDeclaration := by
  rw [Construct.ofKind_eq_iff _ (by decide)]
  simp [isTypeDeclaration, Construct.kinds]

theorem isMethodDeclaration_iff {row : ParseTree} :
    row.isMethodDeclaration ↔ Construct.ofKind row.kind = .methodDeclaration := by
  rw [Construct.ofKind_eq_iff _ (by decide)]
  simp [isMethodDeclaration, Construct.kinds]

theorem isDeclaration_of_isTypeDeclaration (row : ParseTree) (declares : row.isTypeDeclaration) :
    row.isDeclaration := by
  simp [isDeclaration, declares]

theorem isDeclaration_of_isMethodDeclaration (row : ParseTree)
    (declares : row.isMethodDeclaration) : row.isDeclaration := by
  simp [isDeclaration, declares]

theorem isDeclaration_eq_false_of_wrapsPattern {row : ParseTree} (wraps : row.wrapsPattern) :
    row.isDeclaration = false := by
  simp only [wrapsPattern, decide_eq_true_eq] at wraps
  rcases wraps with kind | kind | kind <;>
    simp [isDeclaration, isTypeDeclaration, isMethodDeclaration, kind]

theorem isDeclaration_eq_false_of_chainOf {row : ParseTree} {position : Position}
    {parts : List Traced} {receiver : Trace} {tail : Option Trace}
    (chain : Traced.chainOf row position parts = .optional receiver tail) :
    row.isDeclaration = false := by
  have undeclared : ∀ kind ∈ ["conditional_access_expression", "invocation_expression",
      "member_access_expression", "element_access_expression"],
      kind ∉ Construct.kinds .typeDeclaration ∧ kind ≠ "method_declaration" := by decide
  rcases undeclared row.kind (Traced.kind_mem_of_chainOf chain) with ⟨notType, notMethod⟩
  simp only [Construct.kinds] at notType
  simp [isDeclaration, isTypeDeclaration, isMethodDeclaration, notType, notMethod]

def declarationsAround (root : ParseTree) (position : Position) : List Position :=
  position.above.filter fun above => (root.at? above).any isDeclaration

theorem enclosing?_eq_find? {root : ParseTree} {test : ParseTree → Bool} {position : Position}
    (narrow : ∀ row, test row → row.isDeclaration) :
    root.enclosing? test position =
      (root.declarationsAround position).find? fun above => (root.at? above).any test := by
  rw [declarationsAround, List.find?_filter, enclosing?]
  congr 1
  funext above
  cases root.at? above with
  | none => rfl
  | some row =>
      rw [Bool.eq_iff_iff]
      simpa using narrow row

theorem enclosing?_congr {root : ParseTree} {test : ParseTree → Bool} {left right : Position}
    (narrow : ∀ row, test row → row.isDeclaration)
    (same : root.declarationsAround left = root.declarationsAround right) :
    root.enclosing? test left = root.enclosing? test right := by
  rw [enclosing?_eq_find? narrow, same, enclosing?_eq_find? narrow]

section Around

variable {source : List Char} {root row : ParseTree} {position : Position}

theorem declarationsAround_snoc (here : root.at? position = some row) (place : Nat) :
    root.declarationsAround (position ++ [place]) =
      if row.isDeclaration then position :: root.declarationsAround position
      else root.declarationsAround position := by
  rw [declarationsAround, Position.above_snoc, List.filter_cons, here]
  rfl

theorem declarationsAround_of_mem_partsAt (here : root.at? position = some row) {part : Traced}
    (member : part ∈ root.partsAt source position row) :
    root.declarationsAround part.position =
      if row.isDeclaration then position :: root.declarationsAround position
      else root.declarationsAround position := by
  rcases (mem_partsAt ..).mp member with ⟨found, placed, rfl⟩
  rcases mem_placed.mp placed with ⟨place, equal, _⟩
  rw [position_tracedAt, equal, declarationsAround_snoc here]

theorem declarationsAround_of_mem_offers (here : root.at? position = some row) :
    ∀ trace ∈ (root.tracedAt source position row).offers,
      root.declarationsAround trace.origin = root.declarationsAround position := by
  refine placed_induction ?_ here
  intro position row here induction trace offered
  have ofChild {trace : Trace} (other : row.isDeclaration = false)
      (fromChild : Traced.Offered (root.partsAt source position row) trace) :
      root.declarationsAround trace.origin = root.declarationsAround position := by
    rcases fromChild with ⟨part, member, below⟩
    have around := declarationsAround_of_mem_partsAt here member
    rw [other, if_neg Bool.false_ne_true] at around
    rcases (mem_partsAt ..).mp member with ⟨found, placed, rfl⟩
    rw [induction found placed trace below, ← around, position_tracedAt]
  rw [tracedAt_eq source here] at offered
  rcases Traced.mem_offers.mp offered with rfl | inPattern | ⟨receiver, tail, chain, rfl | rfl⟩
  · rfl
  · rcases Traced.offered_of_mem_patternOf inPattern with rfl | ⟨wraps, part, member, below⟩
    · rfl
    · exact ofChild (isDeclaration_eq_false_of_wrapsPattern wraps)
        ⟨part, member, Traced.mem_offers.mpr (.inr (.inl below))⟩
  · exact ofChild (isDeclaration_eq_false_of_chainOf chain) (Traced.offered_receiver chain)
  · rcases Traced.offered_tail chain with fromChild | extended
    · exact ofChild (isDeclaration_eq_false_of_chainOf chain) fromChild
    · rw [extended.origin]

theorem declarationsAround_of_mem_parts {node : Trace} (made : node.MadeFrom source root row) :
    ∀ part ∈ node.parts, root.declarationsAround part.origin =
      if row.isDeclaration then node.origin :: root.declarationsAround node.origin
      else root.declarationsAround node.origin := by
  rcases made with ⟨here, kind⟩
  have ofChild {trace : Trace}
      (fromChild : Traced.Offered (root.partsAt source node.origin row) trace) :
      root.declarationsAround trace.origin =
        if row.isDeclaration then node.origin :: root.declarationsAround node.origin
        else root.declarationsAround node.origin := by
    rcases fromChild with ⟨part, member, below⟩
    rw [← declarationsAround_of_mem_partsAt here member]
    rcases (mem_partsAt ..).mp member with ⟨found, placed, rfl⟩
    rw [declarationsAround_of_mem_offers (at?_of_mem_placed here placed) trace below,
      position_tracedAt]
  intro part member
  rcases kind with whole | extended
  · rw [whole, tracedAt_eq source here] at member
    rcases Traced.offered_of_mem_wholeParts member with
      fromChild | ⟨_, receiver, tail, chain, which⟩
    · exact ofChild fromChild
    · have offered : part ∈ (root.tracedAt source node.origin row).offers := by
        rw [tracedAt_eq source here]
        exact Traced.mem_offers.mpr (.inr (.inr ⟨receiver, tail, chain, which⟩))
      rw [isDeclaration_eq_false_of_chainOf chain, if_neg Bool.false_ne_true]
      exact declarationsAround_of_mem_offers here part offered
  · exact ofChild (extended.parts part member)

end Around

end ParseTree

/-! ## Enclosing declarations of a node -/

def NodeKind.isDeclaration (kind : NodeKind) : Bool :=
  kind = .typeDeclaration || kind = .methodDeclaration

theorem Form.kind_build_eq_iff (form : Form) (ids : List NodeId) {kind : NodeKind}
    (declares : kind.isDeclaration) : (form.build ids).1.kind = kind ↔ form.kind = kind := by
  constructor
  · intro equal
    rcases form.kind_build ids with same | other
    · rw [← same, equal]
    · rw [← equal, other] at declares
      cases declares
  · intro equal
    subst equal
    cases form <;> first | rfl | cases declares

namespace Trace

variable {source : List Char} {root row : ParseTree} {node : Trace}

theorem MadeFrom.ofKind_mem_constructs (made : node.MadeFrom source root row) :
    Construct.ofKind row.kind ∈ node.form.constructs := by
  rcases made with ⟨here, whole | extended⟩
  · rw [whole, ParseTree.form_whole_tracedAt]
    exact row.ofKind_mem_constructs ..
  · rcases extended.form with kept | ⟨field, link⟩
    · rcases extended.chain with ⟨receiver, chain⟩
      rw [kept]
      rcases Traced.chainOf_eq_optional chain with ⟨kind, _⟩ | ⟨field, form, _, _, link, _⟩
      · rw [kind]
        decide
      · rcases ParseTree.link?_eq_some link with ⟨kind, _⟩ | ⟨kind, _⟩ | ⟨kind, _⟩ <;>
          · rw [kind]
            decide
    · exact ParseTree.ofKind_mem_constructs_of_link? link

theorem MadeFrom.eq_whole (made : node.MadeFrom source root row) (declares : row.isDeclaration) :
    node = (root.tracedAt source node.origin row).whole := by
  rcases made with ⟨_, whole | extended⟩
  · exact whole
  · rcases extended.chain with ⟨receiver, chain⟩
    rw [ParseTree.isDeclaration_eq_false_of_chainOf chain] at declares
    cases declares

theorem MadeFrom.kind_eq_typeDeclaration (made : node.MadeFrom source root row) :
    node.form.kind = .typeDeclaration ↔ row.isTypeDeclaration := by
  constructor
  · intro kind
    have known := made.ofKind_mem_constructs
    cases form : node.form with
    | typeDeclaration info =>
        rw [form] at known
        exact ParseTree.isTypeDeclaration_iff.mpr (List.mem_singleton.mp known)
    | _ =>
        rw [form] at kind
        cases kind
  · intro declares
    rw [made.eq_whole (row.isDeclaration_of_isTypeDeclaration declares),
      ParseTree.form_whole_tracedAt, ParseTree.formOf,
      ParseTree.isTypeDeclaration_iff.mp declares]
    rfl

theorem MadeFrom.kind_eq_methodDeclaration (made : node.MadeFrom source root row) :
    node.form.kind = .methodDeclaration ↔ row.isMethodDeclaration := by
  constructor
  · intro kind
    have known := made.ofKind_mem_constructs
    cases form : node.form with
    | methodDeclaration name info =>
        rw [form] at known
        exact ParseTree.isMethodDeclaration_iff.mpr (List.mem_singleton.mp known)
    | _ =>
        rw [form] at kind
        cases kind
  · intro declares
    rw [made.eq_whole (row.isDeclaration_of_isMethodDeclaration declares),
      ParseTree.form_whole_tracedAt, ParseTree.formOf,
      ParseTree.isMethodDeclaration_iff.mp declares]
    rfl

theorem MadeFrom.kind_isDeclaration (made : node.MadeFrom source root row) :
    node.form.kind.isDeclaration = row.isDeclaration := by
  rw [Bool.eq_iff_iff]
  simp [NodeKind.isDeclaration, ParseTree.isDeclaration, made.kind_eq_typeDeclaration,
    made.kind_eq_methodDeclaration]

section Sits

variable {first : Nat} {around : List (Nat × Trace)}

theorem Sits.madeFrom (sits : Sits (ofParseTree source root) first node around) :
    ∃ row, node.MadeFrom source root row :=
  ParseTree.madeFrom_of_mem_nodes (List.mem_of_getElem? sits.getElem?_nodes)

theorem Sits.declarationsAround (sits : Sits (ofParseTree source root) first node around) :
    (around.filter (·.2.form.kind.isDeclaration)).map (·.2.origin) =
      root.declarationsAround node.origin := by
  induction sits with
  | root => rw [ofParseTree, ParseTree.origin_whole_trace]; rfl
  | @part first node around start sits member induction =>
      rcases sits.madeFrom with ⟨row, made⟩
      rw [ParseTree.declarationsAround_of_mem_parts made start.2 (mem_of_mem_startsFrom member),
        List.filter_cons, made.kind_isDeclaration, ← induction]
      split <;> rfl

theorem Sits.map_originOf_enclosing? (sits : Sits (ofParseTree source root) first node around)
    {kind : NodeKind} {test : ParseTree → Bool} (declares : kind.isDeclaration)
    (narrow : ∀ row : ParseTree, test row → row.isDeclaration)
    (same : ∀ {node : Trace} {row : ParseTree}, node.MadeFrom source root row →
      (node.form.kind = kind ↔ test row)) :
    ((ofParseTree source root).forest.enclosing? kind (first + node.countBelow)).map
        (ofParseTree source root).originOf =
      root.enclosing? test node.origin := by
  have kinds : ∀ outer ∈ around,
      decide ((ofParseTree source root).forest.kind? outer.1 = some kind) =
        decide (outer.2.form.kind = kind) := by
    intro outer member
    rcases sits_of_getElem?_nodes (sits.outer outer member) with ⟨start, others, outerSits, equal⟩
    rw [equal, outerSits.kind?_eq]
    simp [Form.kind_build_eq_iff _ _ declares]
  have origins : ∀ outer ∈ around,
      (ofParseTree source root).originOf outer.1 = outer.2.origin :=
    fun outer member => originOf_eq (sits.outer outer member)
  -- A declaration of the kind in question is the nearest one among all declarations around.
  have rows : ∀ outer ∈ around,
      decide (outer.2.form.kind.isDeclaration ∧ (root.at? outer.2.origin).any test) =
        decide (outer.2.form.kind = kind) := by
    intro outer member
    rcases ParseTree.madeFrom_of_mem_nodes (List.mem_of_getElem? (sits.outer outer member)) with
      ⟨row, made⟩
    rw [made.1, made.kind_isDeclaration, Option.any_some, decide_eq_decide, same made]
    exact ⟨And.right, fun tested => ⟨narrow row tested, tested⟩⟩
  rw [ParseTree.enclosing?_eq_find? narrow, ← sits.declarationsAround, List.find?_map, List.find?_filter, Forest.enclosing?,
    sits.ancestors_eq, List.find?_map, Option.map_map]
  simp only [Function.comp_def]
  rw [List.find?_congr kinds, List.find?_congr rows]
  cases found : around.find? fun outer => outer.2.form.kind = kind with
  | none => rfl
  | some outer => exact congrArg some (origins outer (List.mem_of_find?_eq_some found))

theorem Sits.map_originOf_enclosingMethod?
    (sits : Sits (ofParseTree source root) first node around) :
    ((ofParseTree source root).forest.enclosingMethod? (first + node.countBelow)).map
        (ofParseTree source root).originOf =
      root.enclosing? ParseTree.isMethodDeclaration node.origin := by
  apply sits.map_originOf_enclosing? rfl
  · exact ParseTree.isDeclaration_of_isMethodDeclaration
  · exact MadeFrom.kind_eq_methodDeclaration

theorem Sits.map_originOf_enclosingType?
    (sits : Sits (ofParseTree source root) first node around) :
    ((ofParseTree source root).forest.enclosingType? (first + node.countBelow)).map
        (ofParseTree source root).originOf =
      root.enclosing? ParseTree.isTypeDeclaration node.origin := by
  apply sits.map_originOf_enclosing? rfl
  · exact ParseTree.isDeclaration_of_isTypeDeclaration
  · exact MadeFrom.kind_eq_typeDeclaration

end Sits

end Trace

theorem toForest_ofParseTree (path source : String) (root : ParseTree) :
    (SourceUnit.ofParseTree path source root).tree.toForest =
      (Trace.ofParseTree source.toList root).forest := by
  rw [Trace.forest, Trace.outline_ofParseTree]
  rfl

/-- The nodes of a forest were read from rows of a parse tree and cover them, and those of declarations
were read from declarations. -/
structure Forest.ReadFrom (forest : Forest) (root : ParseTree) (origin : NodeId → Position) :
    Prop where
  row : ∀ id < forest.size, ∃ row, root.at? (origin id) = some row ∧ forest.span id = row.span ∧
    (forest.kind? id = some .typeDeclaration ↔ row.isTypeDeclaration) ∧
    (forest.kind? id = some .methodDeclaration ↔ row.isMethodDeclaration)

theorem Trace.readFrom_originOf (source : List Char) (root : ParseTree) :
    (ofParseTree source root).forest.ReadFrom root (ofParseTree source root).originOf where
  row id inside := by
    rw [size_forest] at inside
    rcases exists_sits inside with ⟨first, node, around, sits, rfl⟩
    rcases sits.madeFrom with ⟨row, made⟩
    rw [originOf_eq sits.getElem?_nodes]
    refine ⟨row, made.1, by rw [sits.span_eq, made.span_eq], ?_, ?_⟩
    · rw [← made.kind_eq_typeDeclaration, sits.kind?_eq, Option.some.injEq]
      exact Form.kind_build_eq_iff _ _ rfl
    · rw [← made.kind_eq_methodDeclaration, sits.kind?_eq, Option.some.injEq]
      exact Form.kind_build_eq_iff _ _ rfl

end UnityLint
