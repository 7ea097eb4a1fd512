import Mathlib.Data.List.Induction
import UnityLint.Proofs.Bindings

/-! # The table of declarations

The types and methods of a file are noted under the numbers of their nodes, each node once and no
other number. A type is noted in the namespace that the blocks around its row make up, however they
nest, or else in the namespace of the file. -/

namespace UnityLint

/-! ## Numbers of declarations -/

namespace Trace

theorem keys_entries {α : Type} {pick : Form → Option α} {declares : Nat → Bool} {first : Nat}
    {nodes : List Trace}
    (agrees : ∀ index node, nodes[index]? = some node →
      declares (first + index) = (pick node.form).isSome) :
    (entries pick first nodes).map Prod.fst =
      (List.range' first nodes.length).filter declares := by
  induction nodes generalizing first with
  | nil => rfl
  | cons node rest induction =>
      have here : declares first = (pick node.form).isSome := agrees 0 node rfl
      have later : ∀ index other, rest[index]? = some other →
          declares (first + 1 + index) = (pick other.form).isSome := by
        intro index other found
        rw [Nat.add_assoc, Nat.add_comm 1]
        exact agrees (index + 1) other found
      rw [entries, List.map_append, induction later, List.length_cons, List.range'_succ,
        List.filter_cons, here]
      cases pick node.form <;> rfl

theorem Sits.kind?_eq_iff {whole node : Trace} {first : Nat} {around : List (Nat × Trace)}
    (sits : Sits whole first node around) {kind : NodeKind} (declares : kind.isDeclaration) :
    whole.forest.kind? (first + node.countBelow) = some kind ↔ node.form.kind = kind := by
  rw [sits.kind?_eq, Option.some.injEq]
  exact Form.kind_build_eq_iff _ _ declares

theorem keys_entries_nodes {α : Type} {pick : Form → Option α} {kind : NodeKind} (whole : Trace)
    (declares : kind.isDeclaration) (picks : ∀ form, (pick form).isSome ↔ form.kind = kind) :
    (entries pick 0 whole.nodes).map Prod.fst =
      (List.range whole.forest.size).filter fun id => whole.forest.kind? id = some kind := by
  rw [List.range_eq_range', size_forest, ← length_nodes]
  apply keys_entries
  intro index node found
  rcases sits_of_getElem?_nodes found with ⟨start, around, sits, rfl⟩
  rw [Bool.eq_iff_iff, decide_eq_true_eq, Nat.zero_add, sits.kind?_eq_iff declares, picks]

theorem keys_types (trace : Trace) :
    trace.declarations.types.map Prod.fst =
      (List.range trace.forest.size).filter fun id =>
        trace.forest.kind? id = some .typeDeclaration := by
  rw [trace.noted_declarations.types]
  apply trace.keys_entries_nodes rfl
  intro form
  cases form <;> simp [Form.typeInfo?, Form.kind]

theorem keys_methods (trace : Trace) :
    trace.declarations.methods.map Prod.fst =
      (List.range trace.forest.size).filter fun id =>
        trace.forest.kind? id = some .methodDeclaration := by
  rw [trace.noted_declarations.methods]
  apply trace.keys_entries_nodes rfl
  intro form
  cases form <;> simp [Form.methodInfo?, Form.kind]

end Trace

/-! ## Namespaces around a row -/

namespace ParseTree

def blockName? (source : List Char) (row : ParseTree) : Option String :=
  if row.kind = "namespace_declaration" then (row.child? .name).map (dottedText source) else none

/-- The names of the namespace blocks around a position, outermost first; a block without a name is
left out. -/
def blockNames (source : List Char) (root : ParseTree) (position : Position) : List String :=
  (position.above.reverse.filterMap root.at?).filterMap (blockName? source)

/-- The namespace around a position: the names of the blocks joined by dots, or that of the first
file-scoped declaration if there is no block. -/
def namespaceAround? (source : List Char) (root : ParseTree) (position : Position) :
    Option String :=
  match root.blockNames source position with
  | [] =>
      (root.namedChildren.find? (·.kind = "file_scoped_namespace_declaration")).bind
        fun declaration => (declaration.child? .name).map (dottedText source)
  | names => some (".".intercalate names)

variable {source : List Char} {root row : ParseTree} {position : Position}

theorem innerSpaces_eq_append (spaces : List String) :
    row.innerSpaces source spaces = spaces ++ (row.blockName? source).toList := by
  rw [innerSpaces, blockName?]
  split <;> simp

theorem spacesFrom_eq_blockNames (here : root.at? position = some row) :
    root.spacesFrom source [] position = root.blockNames source position := by
  induction position using List.reverseRecOn generalizing row with
  | nil => rfl
  | append_singleton outer place induction =>
      rw [at?_snoc] at here
      rcases Option.bind_eq_some_iff.mp here with ⟨block, there, _⟩
      rw [spacesFrom_snoc there, innerSpaces_eq_append, induction there, blockNames, blockNames,
        Position.above_snoc, List.reverse_cons, List.filterMap_append, List.filterMap_append]
      congr 1
      simp only [List.filterMap_cons, there, List.filterMap_nil]
      cases block.blockName? source <;> rfl

theorem DeclaresType.namespaceName_eq {info : TypeInfo}
    (type : root.DeclaresType source position row info) :
    info.namespaceName = root.namespaceAround? source position := by
  rw [type.info, namespaceAround?, ← spacesFrom_eq_blockNames type.here]
  cases root.spacesFrom source [] position <;> rfl

end ParseTree

/-- The table of declarations has exactly the numbers of the declaring nodes of a file, and the symbol
of a type has the name of its node and the namespace around its row. -/
theorem symbols_of_declarations (path source : String) (root : ParseTree) :
    let unit := SourceUnit.ofParseTree path source root
    let origin := (Trace.ofParseTree source.toList root).originOf
    unit.tree.ReadFrom root origin ∧
      (unit.declarations.types.map Prod.fst =
        unit.tree.ids.filter fun id => unit.tree.kind? id = some .typeDeclaration) ∧
      (unit.declarations.methods.map Prod.fst =
        unit.tree.ids.filter fun id => unit.tree.kind? id = some .methodDeclaration) ∧
      ∀ id name, unit.tree.node? id = some (.typeDeclaration name) →
        ∃ row symbol, root.at? (origin id) = some row ∧ row.isTypeDeclaration ∧
          unit.declarations.resolver.resolve unit.tree id = some symbol ∧
          symbol.kind = .type ∧ symbol.name = name ∧ name = row.declaredName source.toList ∧
          symbol.namespaceName = root.namespaceAround? source.toList (origin id) := by
  have forest := toForest_ofParseTree path source root
  dsimp only
  rw [declarations_ofParseTree, Tree.ids]
  refine ⟨forest ▸ Trace.readFrom_originOf .., ?_, ?_, ?_⟩
  · rw [forest]
    exact Trace.keys_types _
  · rw [forest]
    exact Trace.keys_methods _
  · intro id name found
    have here := found
    rw [forest] at here
    rcases Trace.exists_sits_of_node? here with ⟨first, node, around, sits, rfl⟩
    rcases sits.madeFrom with ⟨row, made⟩
    have kind : node.form.kind = .typeDeclaration := by
      rw [← sits.kind?_eq_iff rfl, Forest.kind?, here]
      rfl
    rw [Trace.originOf_eq sits.getElem?_nodes]
    cases form : node.form with
    | typeDeclaration info =>
        have type := made.declaresType (by rw [form]; rfl)
        have named : name = info.name := by
          rw [sits.node?_eq, form] at here
          exact (Node.typeDeclaration.inj (Option.some.inj here)).symm
        refine ⟨row, (Trace.ofParseTree source.toList root).declarations.typeSymbol info, made.1,
          type.declares, ?_, rfl, named.symm, ?_, type.namespaceName_eq⟩
        · simp only [Declarations.resolver, Declarations.resolve, found]
          rw [Trace.find?_types, sits.getElem?_nodes, Option.bind_some, form]
          rfl
        · rw [named, type.info]
          rfl
    | _ =>
        rw [form] at kind
        cases kind

def nestedText : String :=
  "namespace X . Y; class G \x7b \x7d namespace A . B \x7b class C \x7b \x7d " ++
    "namespace E \x7b class F \x7b void M() \x7b \x7d \x7d \x7d \x7d"

def ParseTree.nestedSpaces : ParseTree :=
  .row "compilation_unit" true none ⟨0, 101, 0, 0⟩ [
    .row "file_scoped_namespace_declaration" true none ⟨0, 16, 0, 0⟩ [
      .row "qualified_name" true (some .name) ⟨10, 15, 0, 10⟩ [
        .row "identifier" true none ⟨10, 11, 0, 10⟩ [],
        .row "identifier" true (some .name) ⟨14, 15, 0, 14⟩ []]],
    .row "class_declaration" true none ⟨17, 28, 0, 17⟩ [
      .row "identifier" true (some .name) ⟨23, 24, 0, 23⟩ [],
      .row "declaration_list" true (some .body) ⟨25, 28, 0, 25⟩ []],
    .row "namespace_declaration" true none ⟨29, 101, 0, 29⟩ [
      .row "qualified_name" true (some .name) ⟨39, 44, 0, 39⟩ [
        .row "identifier" true none ⟨39, 40, 0, 39⟩ [],
        .row "identifier" true (some .name) ⟨43, 44, 0, 43⟩ []],
      .row "declaration_list" true (some .body) ⟨45, 101, 0, 45⟩ [
        .row "class_declaration" true none ⟨47, 58, 0, 47⟩ [
          .row "identifier" true (some .name) ⟨53, 54, 0, 53⟩ [],
          .row "declaration_list" true (some .body) ⟨55, 58, 0, 55⟩ []],
        .row "namespace_declaration" true none ⟨59, 99, 0, 59⟩ [
          .row "identifier" true (some .name) ⟨69, 70, 0, 69⟩ [],
          .row "declaration_list" true (some .body) ⟨71, 99, 0, 71⟩ [
            .row "class_declaration" true none ⟨73, 97, 0, 73⟩ [
              .row "identifier" true (some .name) ⟨79, 80, 0, 79⟩ [],
              .row "declaration_list" true (some .body) ⟨81, 97, 0, 81⟩ [
                .row "method_declaration" true none ⟨83, 95, 0, 83⟩ [
                  .row "predefined_type" true none ⟨83, 87, 0, 83⟩ [],
                  .row "identifier" true (some .name) ⟨88, 89, 0, 88⟩ [],
                  .row "parameter_list" true none ⟨89, 91, 0, 89⟩ [],
                  .row "block" true (some .body) ⟨92, 95, 0, 92⟩ []]]]]]]]]

theorem symbols_of_declarations_nestedSpaces :
    let unit := SourceUnit.ofParseTree "Assets/A.cs" nestedText .nestedSpaces
    unit.declarations.types.map Prod.fst = [2, 4, 10] ∧
      unit.declarations.methods.map Prod.fst = [8] ∧
      ∀ entry ∈ [(2, "G", "X.Y"), (4, "C", "A.B"), (10, "F", "A.B.E")],
        unit.tree.node? entry.1 = some (.typeDeclaration entry.2.1) ∧
          ∃ symbol, unit.declarations.resolver.resolve unit.tree entry.1 = some symbol ∧
            symbol.kind = .type ∧ symbol.name = entry.2.1 ∧
            symbol.namespaceName = some entry.2.2 := by
  rcases symbols_of_declarations "Assets/A.cs" nestedText .nestedSpaces with
    ⟨_, types, methods, symbols⟩
  refine ⟨types.trans ?_, methods.trans ?_, ?_⟩
  · decide +kernel
  · decide +kernel
  · intro entry listed
    have facts : ∀ entry ∈ [(2, "G", "X.Y"), (4, "C", "A.B"), (10, "F", "A.B.E")],
        (SourceUnit.ofParseTree "Assets/A.cs" nestedText .nestedSpaces).tree.node? entry.1 =
            some (.typeDeclaration entry.2.1) ∧
          ParseTree.nestedSpaces.namespaceAround? nestedText.toList
            ((Trace.ofParseTree nestedText.toList .nestedSpaces).originOf entry.1) =
              some entry.2.2 := by
      decide +kernel
    rcases facts entry listed with ⟨found, around⟩
    rcases symbols entry.1 entry.2.1 found with ⟨_, symbol, _, _, resolved, kind, named, _, within⟩
    exact ⟨found, symbol, resolved, kind, named, within.trans around⟩

end UnityLint
