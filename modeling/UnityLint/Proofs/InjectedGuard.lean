import Mathlib.Logic.Relation
import UnityLint.Proofs.Bindings
import UnityLint.Proofs.Dispatch
import UnityLint.Proofs.NullGuard

/-! # Guarded members

A guard on a name is reported only if the name is that of a field or property that a marker promises a
value for, declared in the type around the guard or in one that it derives from, and if no variable of
the method around the guard hides it. A variable that a tuple is taken apart into hides nothing: it is
not noted. -/

namespace UnityLint

/-! ## From a guard to what it guards -/

namespace Trace

section Sits

variable {whole node : Trace} {first : Nat} {around : List (Nat × Trace)}

theorem Sits.tested (sits : Sits whole first node around) {child : NodeId}
    (tests : whole.forest.Tests (first + node.countBelow) child) :
    node.form.kind.tests ∧ ∃ start part,
      Sits whole start part ((first + node.countBelow, node) :: around) ∧
        part ∈ node.parts ∧ child = start + part.countBelow := by
  rcases tests with ⟨built, here, kind, refers⟩
  rw [sits.node?_eq, Option.some.injEq] at here
  subst here
  constructor
  · rcases node.form.kind_build (numbersFrom first node.parts) with same | other
    · rw [← same]
      exact kind
    · rw [other] at kind
      cases kind
  · have listed : child ∈ numbersFrom first node.parts := by
      rw [← Form.references_build node.form (numbersFrom first node.parts)]
      exact List.mem_append_left _ refers
    rcases List.mem_map.mp listed with ⟨start, member, rfl⟩
    exact ⟨start.1, start.2, sits.part member, mem_of_mem_startsFrom member, rfl⟩

end Sits

variable {source : List Char} {root : ParseTree} {node : Trace} {first : Nat}
  {around : List (Nat × Trace)}

theorem Sits.form_of_identifier {whole : Trace} (sits : Sits whole first node around) {name : String}
    (named : whole.forest.node? (first + node.countBelow) = some (.identifier name)) :
    node.form = .identifier name := by
  have kind : node.form.kind = .identifier := by
    apply sits.kind_form _ (by decide)
    rw [Forest.kind?, named]
    rfl
  rw [sits.node?_eq] at named
  cases form : node.form with
  | identifier other =>
      rw [form] at named
      cases named
      rfl
  | _ =>
      rw [form] at kind
      cases kind

theorem declarationsAround_of_tests {part : Trace}
    (sits : Sits (ofParseTree source root) first node around) (tests : node.form.kind.tests)
    (member : part ∈ node.parts) :
    root.declarationsAround part.origin = root.declarationsAround node.origin := by
  rcases sits.madeFrom with ⟨row, made⟩
  have other : row.isDeclaration = false := by
    rw [← made.kind_isDeclaration]
    cases kind : node.form.kind <;> rw [kind] at tests <;> first | rfl | cases tests
  rw [ParseTree.declarationsAround_of_mem_parts made part member, other,
    if_neg Bool.false_ne_true]

theorem exists_guarded {tree : Tree} (forest : tree.toForest = (ofParseTree source root).forest)
    {id : NodeId} {found : NullGuard} (guard : NullGuard.at? tree id = some found) :
    ∃ start part middle around, Sits (ofParseTree source root) start part (middle :: around) ∧
      found.guarded = start + part.countBelow ∧ middle.2.form.kind.tests ∧
      root.declarationsAround part.origin =
        root.declarationsAround ((ofParseTree source root).originOf id) := by
  rcases NullGuard.tests_of_at? guard with ⟨middle, reached, tests⟩
  rw [forest] at reached tests
  -- The test directly above what is guarded, in its place.
  have place : ∃ first node around, Sits (ofParseTree source root) first node around ∧
      middle = first + node.countBelow ∧ root.declarationsAround node.origin =
        root.declarationsAround ((ofParseTree source root).originOf id) := by
    rcases reached with rfl | outer
    · rcases tests with ⟨_, here, _⟩
      rcases exists_sits_of_node? here with ⟨first, node, around, sits, rfl⟩
      refine ⟨first, node, around, sits, rfl, ?_⟩
      rw [originOf_eq sits.getElem?_nodes]
    · have outerTests := outer
      rcases outer with ⟨_, here, _⟩
      rcases exists_sits_of_node? here with ⟨first, node, around, sits, rfl⟩
      rcases sits.tested outerTests with ⟨kind, start, part, inner, member, rfl⟩
      refine ⟨start, part, _, inner, rfl, ?_⟩
      rw [originOf_eq sits.getElem?_nodes]
      exact declarationsAround_of_tests sits kind member
  rcases place with ⟨first, node, around, sits, rfl, same⟩
  rcases sits.tested tests with ⟨kind, start, part, inner, member, equal⟩
  refine ⟨start, part, _, around, inner, equal, kind, ?_⟩
  rw [declarationsAround_of_tests sits kind member, same]

end Trace

/-! ## Members and their declarations -/

namespace ParseTree

def DeclaresMember (source : List Char) (name : String) (declaration : ParseTree) : Prop :=
  declaration.kind = "field_declaration" ∧ name ∈ declaration.declaredVariables source ∨
    declaration.kind = "property_declaration" ∧ declaration.textOf? source .name = some name

def PromisesValue (source : List Char) (declaration : ParseTree) : Prop :=
  ∃ written ∈ declaration.attributes source,
    written ∈ ["Inject", "InjectAttribute", "SerializeField", "SerializeFieldAttribute"]

theorem declaresMember_of_mem_membersOf {source : List Char} {declaration : ParseTree}
    {member : Member} (listed : member ∈ declaration.membersOf source) :
    declaration.DeclaresMember source member.name ∧
      member.attributes = declaration.attributes source := by
  rw [membersOf] at listed
  split at listed
  · rcases List.mem_map.mp listed with ⟨name, declared, rfl⟩
    exact ⟨.inl ⟨‹_›, declared⟩, rfl⟩
  · split at listed
    · rcases List.mem_map.mp listed with ⟨name, declared, rfl⟩
      exact ⟨.inr ⟨‹_›, Option.mem_toList.mp declared⟩, rfl⟩
    · cases listed

def LocalBase (source : List Char) (root : ParseTree) (declarations : Declarations)
    (position base : Position) : Prop :=
  ∃ row written baseRow info, root.at? position = some row ∧ row.base? source = some written ∧
    declarations.lookup written = some (.declared info) ∧
      root.DeclaresType source base baseRow info

end ParseTree

namespace Trace

variable {source : List Char} {root : ParseTree}

/-- A member of a type is declared in the body of its row, or in that of a type reached from it along
local bases. -/
theorem declared_of_memberWithin (depth : Nat) {info : TypeInfo} {name : String} {symbol : Symbol}
    {position : Position} {row : ParseTree} (type : root.DeclaresType source position row info)
    (found : (ofParseTree source root).declarations.memberWithin name depth info = some symbol) :
    ∃ owner ownerRow ownerInfo declaration,
      Relation.ReflTransGen (root.LocalBase source (ofParseTree source root).declarations) position
        owner ∧
      root.DeclaresType source owner ownerRow ownerInfo ∧ declaration ∈ ownerRow.bodyRows ∧
      declaration.DeclaresMember source name ∧
      symbol.attributes = declaration.attributes source := by
  induction depth generalizing info position row with
  | zero => cases found
  | succ depth induction =>
      rw [Declarations.memberWithin] at found
      split at found
      · rename_i member search
        cases found
        have listed := List.mem_of_find?_eq_some search
        have named := List.find?_some search
        rw [decide_eq_true_eq] at named
        rw [type.info] at listed
        rcases List.mem_flatMap.mp listed with ⟨declaration, inBody, declared⟩
        rcases ParseTree.declaresMember_of_mem_membersOf declared with ⟨declares, attributes⟩
        rw [named] at declares
        exact ⟨position, row, info, declaration, .refl, type, inBody, declares, attributes⟩
      · split at found
        · rename_i base search
          rcases Option.bind_eq_some_iff.mp search with ⟨written, stated, looked⟩
          rcases declaresType_of_mem_values (Declarations.mem_values_of_lookup looked) with
            ⟨next, nextRow, nextType⟩
          rcases induction nextType found with ⟨owner, ownerRow, ownerInfo, declaration, path, rest⟩
          rw [type.info] at stated
          have step : root.LocalBase source (ofParseTree source root).declarations position next :=
            ⟨row, written, nextRow, base, type.here, stated, looked, nextType⟩
          exact ⟨owner, ownerRow, ownerInfo, declaration, path.head step, rest⟩
        · cases found

end Trace

/-! ## Reports -/

theorem NullGuard.marker_of_isInjected {site : Site} {id : NodeId} {declarations : Declarations}
    (resolver : site.resolver = declarations.resolver) (injected : isInjected site id) :
    ∃ symbol, declarations.resolve site.tree id = some symbol ∧ symbol.isMember ∧
      ∃ written ∈ symbol.attributes,
        written ∈ ["Inject", "InjectAttribute", "SerializeField", "SerializeFieldAttribute"] := by
  rw [isInjected, Site.resolve, resolver] at injected
  dsimp only [Declarations.resolver] at injected
  cases resolved : declarations.resolve site.tree id with
  | none =>
      rw [resolved] at injected
      cases injected
  | some symbol =>
      rw [resolved, Option.any_some, Bool.and_eq_true, List.any_eq_true] at injected
      rcases injected with ⟨member, written, carried, injecting⟩
      refine ⟨symbol, rfl, member, written, carried, ?_⟩
      have inject : "Inject" ++ attributeEnding = "InjectAttribute" := by decide
      have serialize : "SerializeField" ++ attributeEnding = "SerializeFieldAttribute" := by decide
      simpa [injectingAttributes, attributeMatches, inject, serialize, or_assoc] using injecting

namespace Trace

section Guarded

variable {whole : Trace} {tree : Tree} (forest : tree.toForest = whole.forest) {start : Nat}
  {part : Trace} {middle : Nat × Trace} {around : List (Nat × Trace)}
  (sits : Sits whole start part (middle :: around))

include forest sits

theorem resolve_of_tested (tests : middle.2.form.kind.tests) {name : String}
    (named : tree.node? (start + part.countBelow) = some (.identifier name))
    (declarations : Declarations) :
    declarations.resolve tree (start + part.countBelow) =
      declarations.bareSymbol? tree (start + part.countBelow) name := by
  rcases sits_of_getElem?_nodes (sits.outer middle List.mem_cons_self) with
    ⟨first, others, outer, equal⟩
  have parent : (tree.parent? (start + part.countBelow)).bind tree.node? =
      some (middle.2.form.build (numbersFrom first middle.2.parts)).1 := by
    rw [forest, sits.parent?_eq, ← outer.node?_eq, ← equal]
    rfl
  have kind : (middle.2.form.build (numbersFrom first middle.2.parts)).1.kind ≠ .memberAccess ∧
      (middle.2.form.build (numbersFrom first middle.2.parts)).1.kind ≠ .memberBinding := by
    rcases middle.2.form.kind_build (numbersFrom first middle.2.parts) with same | other
    · rw [same]
      constructor <;> intro kind <;> rw [kind] at tests <;> cases tests
    · rw [other]
      exact ⟨NodeKind.noConfusion, NodeKind.noConfusion⟩
  simp only [Declarations.resolve, named]
  apply Declarations.identifierSymbol?_eq_bareSymbol? parent _ kind.2
  intro receiver same
  exact kind.1 (by rw [same]; rfl)

end Guarded

end Trace

/-- Every report of a guarded member traces back to a declaration. What is guarded is an identifier,
and a field or property of that name is declared with a marker that promises its value, in the body of
the type around the guard or of one reached from it along local bases. A variable of that name in the
method around the guard is a part of a tuple, or an implicit parameter that is not a named row. -/
theorem injectedGuards_declared (path source : String) (root : ParseTree) (scope : ScopeFilter)
    (tokens : ∀ position row, root.at? position = some row → row.named = false →
      row.children = []) :
    let unit := SourceUnit.ofParseTree path source root
    let origin := (Trace.ofParseTree source.toList root).originOf
    unit.tree.ReadFrom root origin ∧
      ∀ id, ∀ diagnostic ∈ (Engine.ofRules scope [NullGuard.rule]).dispatch unit.tree
        unit.declarations.resolver id, diagnostic.code = "SR0004" →
      ∃ guard row name, NullGuard.at? unit.tree id = some guard ∧
        unit.tree.node? guard.guarded = some (.identifier name) ∧
        root.at? (origin guard.guarded) = some row ∧ row.kind = "identifier" ∧
        name = String.ofList (row.text source.toList) ∧
        (∃ nearest owner type declaration,
          root.enclosing? ParseTree.isTypeDeclaration (origin id) = some nearest ∧
          Relation.ReflTransGen (root.LocalBase source.toList unit.declarations) nearest owner ∧
          root.at? owner = some type ∧ type.isTypeDeclaration ∧ declaration ∈ type.bodyRows ∧
          declaration.DeclaresMember source.toList name ∧
          declaration.PromisesValue source.toList) ∧
        ∀ method, root.enclosing? ParseTree.isMethodDeclaration (origin id) = some method →
          ∀ rest row, root.at? (method ++ rest) = some row →
            row.DeclaresVariable source.toList name →
            row.Deconstructs source.toList name ∨
              row.kind = "implicit_parameter" ∧ row.named = false := by
  have forest := toForest_ofParseTree path source root
  dsimp only
  rw [declarations_ofParseTree]
  refine ⟨forest ▸ Trace.readFrom_originOf .., ?_⟩
  intro id diagnostic reported code
  rcases Engine.exists_rule_of_mem_dispatch reported with ⟨rule, member, checked⟩
  rw [List.mem_singleton.mp member] at checked
  rcases NullGuard.injected_of_report checked code with ⟨guard, name, found, named, injected⟩
  rcases Trace.exists_guarded forest found with
    ⟨start, part, middle, around, sits, equal, tests, same⟩
  have here := Trace.originOf_eq sits.getElem?_nodes
  rcases sits.madeFrom with ⟨row, made⟩
  rcases NullGuard.marker_of_isInjected rfl injected with
    ⟨symbol, resolved, member, written, carried, marker⟩
  dsimp only at found named resolved
  rw [equal] at named resolved
  rcases made.identifier_eq (sits.form_of_identifier (forest ▸ named)) with ⟨isName, text⟩
  rw [Trace.resolve_of_tested forest sits tests named] at resolved
  rcases Declarations.memberAround?_of_bareSymbol? resolved member with ⟨declared, unhidden⟩
  refine ⟨guard, row, name, found, by rw [equal, named], by rw [equal, here, made.1], isName,
    text, ?_, ?_⟩
  · rcases Option.bind_eq_some_iff.mp declared with ⟨info, typeAround, within⟩
    rcases Trace.declaresType_of_typeAround? forest sits typeAround with
      ⟨nearest, nearestRow, enclosing, type⟩
    rcases Trace.declared_of_memberWithin _ type within with
      ⟨owner, ownerRow, ownerInfo, declaration, path, ownerType, inBody, declares, attributes⟩
    rw [ParseTree.enclosing?_congr ParseTree.isDeclaration_of_isTypeDeclaration same] at enclosing
    exact ⟨nearest, owner, ownerRow, declaration, enclosing, path, ownerType.here,
      ownerType.declares, inBody, declares, written, attributes ▸ carried, marker⟩
  · intro method enclosing rest row there declares
    rw [← ParseTree.enclosing?_congr ParseTree.isDeclaration_of_isMethodDeclaration same]
      at enclosing
    rcases Trace.methodAround?_eq forest sits enclosing with ⟨methodRow, top, methodAround⟩
    rcases unhidden _ methodAround with ⟨parameters, locals⟩
    rw [ParseTree.at?_append, top, Option.bind_some] at there
    refine declares.unnoted ?_ parameters locals there
    intro position row below
    apply tokens (method ++ position)
    rw [ParseTree.at?_append, top]
    exact below

/-- The parse tree of `class A { [Inject] B b; void M() { b?.C(); } }`, without the type that the
method returns. -/
def ParseTree.injectedGuard : ParseTree :=
  .row "compilation_unit" true none ⟨0, 46, 0, 0⟩ [
    .row "class_declaration" true none ⟨0, 46, 0, 0⟩ [
      .row "identifier" true (some .name) ⟨6, 7, 0, 6⟩ [],
      .row "declaration_list" true (some .body) ⟨8, 46, 0, 8⟩ [
        .row "field_declaration" true none ⟨10, 23, 0, 10⟩ [
          .row "attribute_list" true none ⟨10, 18, 0, 10⟩ [
            .row "attribute" true none ⟨11, 17, 0, 11⟩ [
              .row "identifier" true (some .name) ⟨11, 17, 0, 11⟩ []]],
          .row "variable_declaration" true none ⟨19, 22, 0, 19⟩ [
            .row "identifier" true none ⟨19, 20, 0, 19⟩ [],
            .row "variable_declarator" true none ⟨21, 22, 0, 21⟩ [
              .row "identifier" true (some .name) ⟨21, 22, 0, 21⟩ []]]],
        .row "method_declaration" true none ⟨24, 44, 0, 24⟩ [
          .row "identifier" true (some .name) ⟨29, 30, 0, 29⟩ [],
          .row "block" true (some .body) ⟨33, 44, 0, 33⟩ [
            .row "invocation_expression" true none ⟨35, 41, 0, 35⟩ [
              .row "conditional_access_expression" true (some .function) ⟨35, 39, 0, 35⟩ [
                .row "identifier" true (some .condition) ⟨35, 36, 0, 35⟩ [],
                .row "member_binding_expression" true none ⟨37, 39, 0, 37⟩ [
                  .row "identifier" true (some .name) ⟨38, 39, 0, 38⟩ []]],
              .row "argument_list" true none ⟨39, 41, 0, 39⟩ []]]]]]]

theorem injectedGuards_declared_injectedGuard :
    let source := "class A { [Inject] B b; void M() { b?.C(); } }"
    ∃ owner type declaration, ParseTree.injectedGuard.at? owner = some type ∧
      declaration ∈ type.bodyRows ∧ declaration.DeclaresMember source.toList "b" ∧
      declaration.PromisesValue source.toList := by
  have tokens : ∀ found ∈ ParseTree.injectedGuard.rowsFrom [],
      found.2.named = false → found.2.children = [] := by
    decide
  rcases injectedGuards_declared "Assets/A.cs" "class A { [Inject] B b; void M() { b?.C(); } }"
    .injectedGuard .standard
    (fun position row here => tokens (position, row) (ParseTree.mem_rowsFrom_nil.mpr here)) with
    ⟨_, facts⟩
  have reported : ∃ diagnostic ∈ (Engine.ofRules .standard [NullGuard.rule]).dispatch
      (SourceUnit.ofParseTree "Assets/A.cs" "class A { [Inject] B b; void M() { b?.C(); } }"
        .injectedGuard).tree
      (SourceUnit.ofParseTree "Assets/A.cs" "class A { [Inject] B b; void M() { b?.C(); } }"
        .injectedGuard).declarations.resolver 13, diagnostic.code = "SR0004" := by
    decide +kernel
  rcases reported with ⟨diagnostic, member, code⟩
  rcases facts 13 diagnostic member code with
    ⟨guard, row, name, found, named, _, _, _, ⟨_, owner, type, declaration, _, _, there, _, inBody,
      declares, promises⟩, _⟩
  cases found
  cases named
  exact ⟨owner, type, declaration, there, inBody, declares, promises⟩

def deconstructedText : String :=
  "class A \x7b [Inject] B b; void M() \x7b foreach (var (b, c) in xs) b?.C(); \x7d \x7d"

def ParseTree.deconstructedLoop : ParseTree :=
  .row "compilation_unit" true none ⟨0, 73, 0, 0⟩ [
    .row "class_declaration" true none ⟨0, 73, 0, 0⟩ [
      .row "identifier" true (some .name) ⟨6, 7, 0, 6⟩ [],
      .row "declaration_list" true (some .body) ⟨8, 73, 0, 8⟩ [
        .row "field_declaration" true none ⟨10, 23, 0, 10⟩ [
          .row "attribute_list" true none ⟨10, 18, 0, 10⟩ [
            .row "attribute" true none ⟨11, 17, 0, 11⟩ [
              .row "identifier" true (some .name) ⟨11, 17, 0, 11⟩ []]],
          .row "variable_declaration" true none ⟨19, 22, 0, 19⟩ [
            .row "identifier" true none ⟨19, 20, 0, 19⟩ [],
            .row "variable_declarator" true none ⟨21, 22, 0, 21⟩ [
              .row "identifier" true (some .name) ⟨21, 22, 0, 21⟩ []]]],
        .row "method_declaration" true none ⟨24, 71, 0, 24⟩ [
          .row "predefined_type" true none ⟨24, 28, 0, 24⟩ [],
          .row "identifier" true (some .name) ⟨29, 30, 0, 29⟩ [],
          .row "parameter_list" true none ⟨30, 32, 0, 30⟩ [],
          .row "block" true (some .body) ⟨33, 71, 0, 33⟩ [
            .row "foreach_statement" true none ⟨35, 69, 0, 35⟩ [
              .row "implicit_type" true none ⟨44, 47, 0, 44⟩ [],
              .row "tuple_pattern" true (some .left) ⟨48, 54, 0, 48⟩ [
                .row "identifier" true (some .name) ⟨49, 50, 0, 49⟩ [],
                .row "identifier" true none ⟨52, 53, 0, 52⟩ []],
              .row "identifier" true (some .right) ⟨58, 60, 0, 58⟩ [],
              .row "expression_statement" true (some .body) ⟨62, 69, 0, 62⟩ [
                .row "invocation_expression" true none ⟨62, 68, 0, 62⟩ [
                  .row "conditional_access_expression" true (some .function) ⟨62, 66, 0, 62⟩ [
                    .row "identifier" true (some .condition) ⟨62, 63, 0, 62⟩ [],
                    .row "member_binding_expression" true none ⟨64, 66, 0, 64⟩ [
                      .row "identifier" true (some .name) ⟨65, 66, 0, 65⟩ []]],
                  .row "argument_list" true none ⟨66, 68, 0, 66⟩ []]]]]]]]]

/-- The variable of the loop hides the field, but the guard on it is reported as one on the field. -/
theorem deconstructedLoop_reported :
    let root := ParseTree.deconstructedLoop
    let unit := SourceUnit.ofParseTree "Assets/A.cs" deconstructedText root
    let origin := (Trace.ofParseTree deconstructedText.toList root).originOf
    (∀ position row, root.at? position = some row → row.named = false → row.children = []) ∧
      ((Engine.ofRules .standard [NullGuard.rule]).dispatch unit.tree unit.declarations.resolver
        20).map (·.code) = ["SR0004"] ∧
      (NullGuard.at? unit.tree 20).bind (unit.tree.node? ·.guarded) = some (.identifier "b") ∧
      root.enclosing? ParseTree.isMethodDeclaration (origin 20) = some [0, 1, 1] ∧
      ∃ row, root.at? ([0, 1, 1] ++ [3, 0]) = some row ∧ row.kind = "foreach_statement" ∧
        row.DeclaresVariable deconstructedText.toList "b" := by
  dsimp only
  refine ⟨?_, by decide +kernel, by decide +kernel, by decide +kernel, _, rfl, rfl, ?_⟩
  · have tokens : ∀ found ∈ ParseTree.deconstructedLoop.rowsFrom [],
        found.2.named = false → found.2.children = [] := by
      decide
    exact fun position row here => tokens (position, row) (ParseTree.mem_rowsFrom_nil.mpr here)
  · exact .pattern (.loop rfl rfl) (.tuple rfl List.mem_cons_self (.single rfl (by decide +kernel)))

end UnityLint
