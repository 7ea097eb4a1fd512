import UnityLint.Proofs.Calls
import UnityLint.Proofs.VerdictAgreement

/-! # Parameters before members

The parameters of a method, and those of the functions inside it, hide the members of the type. Other
declarations with parameters hide nothing: what is noted about names is noted for methods only. -/

namespace UnityLint

/-! ## Names after a dot -/

namespace ParseTree

def IsMemberName (root : ParseTree) (position : Position) : Prop :=
  ∃ above place access row, position = above ++ [place] ∧ root.at? above = some access ∧
    access.kind = "member_access_expression" ∧ root.at? position = some row ∧ row.fills .name

theorem formOf_eq_memberAccess {source : List Char} {fileSpace : Option String}
    {spaces : List String} {row : ParseTree} {chain : ChainTrace}
    (form : row.formOf source fileSpace spaces chain = .memberAccess) :
    row.kind = "member_access_expression" ∧ chain = .plain ∧ (row.child? .expression).isSome ∧
      (row.child? .name).isSome := by
  have known := row.ofKind_mem_constructs source fileSpace spaces chain
  rw [form] at known
  have construct := List.mem_singleton.mp known
  refine ⟨(Construct.ofKind_eq_iff_eq _ rfl).mp construct, ?_⟩
  rw [formOf, construct] at form
  cases chain with
  | plain =>
      dsimp only [ChainTrace.form] at form
      split at form
      · rename_i present
        exact ⟨rfl, present⟩
      · cases form
  | headless => cases form
  | optional receiver tail => cases form

end ParseTree

namespace Trace

open Traced

variable {source : List Char} {root row : ParseTree} {node : Trace}

theorem MadeFrom.member (made : node.MadeFrom source root row) (access : node.form = .memberAccess) :
    row.kind = "member_access_expression" ∧ ∃ receiver name,
      part? .name (root.partsAt source node.origin row) = some name ∧
        node.parts = [receiver, name.whole] := by
  rcases made with ⟨here, whole | extended⟩
  · have formed := access
    rw [whole, ParseTree.form_whole_tracedAt] at formed
    rcases ParseTree.formOf_eq_memberAccess formed with ⟨kind, plain, expression, named⟩
    refine ⟨kind, ?_⟩
    have construct := (Construct.ofKind_eq_iff_eq .memberAccess rfl).mpr kind
    rcases Option.isSome_iff_exists.mp expression with ⟨before, foundBefore⟩
    rcases Option.isSome_iff_exists.mp named with ⟨after, foundAfter⟩
    rcases ParseTree.part?_partsAt source root node.origin foundBefore with ⟨left, leftPart, _⟩
    rcases ParseTree.part?_partsAt source root node.origin foundAfter with ⟨right, rightPart, _⟩
    refine ⟨left.whole, right, rightPart, ?_⟩
    have parts := ParseTree.parts_whole_of_plain source here plain
    rw [← whole, ParseTree.choice, construct] at parts
    rw [parts, chosen_only_two leftPart rightPart]
    rfl
  · rcases extended.form with kept | ⟨_, ownLink⟩
    · rw [access] at kept
      cases kept
    · rw [access] at ownLink
      have kind : row.kind = "member_access_expression" := by
        rcases ParseTree.link?_eq_some ownLink with ⟨_, _, other⟩ | ⟨kind, _⟩ | ⟨_, _, other⟩
        · cases other
        · exact kind
        · cases other
      refine ⟨kind, ?_⟩
      rcases extended.chain with ⟨_, chain⟩
      rcases chainOf_eq_optional chain with
        ⟨other, _⟩ | ⟨field, form, inner, innerTail, link, found, innerChain, equal⟩
      · rw [kind] at other
        exact absurd other (by decide)
      · rcases Option.bind_eq_some_iff.mp equal.symm with ⟨before, _, linked⟩
        rcases Option.map_eq_some_iff.mp linked with ⟨others, othersEqual, same⟩
        rw [linkOthers, if_pos kind] at othersEqual
        rcases Option.map_eq_some_iff.mp othersEqual with ⟨name, foundName, rfl⟩
        exact ⟨before, name, foundName, (congrArg Trace.parts same).symm⟩

theorem MadeFrom.isMemberName (made : node.MadeFrom source root row)
    (access : node.form = .memberAccess) {receiver member : Trace} {rest : List Trace}
    (parts : node.parts = receiver :: member :: rest) : root.IsMemberName member.origin := by
  rcases made.member access with ⟨kind, _, name, found, equal⟩
  rw [parts] at equal
  cases equal
  rcases (ParseTree.mem_partsAt ..).mp (mem_of_part? found) with ⟨place, placed, rfl⟩
  rcases ParseTree.mem_placed.mp placed with ⟨index, position, _⟩
  have filled := List.find?_some found
  rw [ParseTree.row_tracedAt] at filled
  rw [ParseTree.origin_whole_tracedAt]
  exact ⟨node.origin, index, row, place.2, position, made.1, kind,
    ParseTree.at?_of_mem_placed made.1 placed, filled⟩

section Names

variable {tree : Tree} (forest : tree.toForest = (ofParseTree source root).forest) {start : Nat}
  {part : Trace} {around : List (Nat × Trace)}
  (sits : Sits (ofParseTree source root) start part around)

include forest sits

theorem identifierSymbol?_cases (free : ¬root.IsMemberName part.origin) (name : String)
    (declarations : Declarations) :
    declarations.identifierSymbol? tree (start + part.countBelow) name = none ∨
      declarations.identifierSymbol? tree (start + part.countBelow) name =
        declarations.bareSymbol? tree (start + part.countBelow) name := by
  rw [Declarations.identifierSymbol?]
  split
  · rename_i receiver member parent
    right
    apply if_neg
    rintro rfl
    rcases Option.bind_eq_some_iff.mp parent with ⟨above, parent, here⟩
    rw [forest, sits.parent?_eq] at parent
    rcases Option.map_eq_some_iff.mp parent with ⟨middle, head, rfl⟩
    rcases sits_of_getElem?_nodes (sits.outer middle (List.mem_of_head? head)) with
      ⟨first, others, outer, equal⟩
    rw [forest, equal] at here
    rcases outer.madeFrom with ⟨row, made⟩
    rcases outer.access?_cases with ⟨_, other⟩ | ⟨left, right, rest, access, parts⟩
    · rw [Forest.kind?, here] at other
      exact other rfl
    · rw [outer.node?_access access parts] at here
      have same : first + left.size + right.countBelow = start + part.countBelow := by
        have := Option.some.inj here
        injection this
      have node := (outer.second_part parts).getElem?_nodes
      rw [same, sits.getElem?_nodes] at node
      cases node
      exact free (made.isMemberName access parts)
  · exact .inl rfl
  · exact .inr rfl

end Names

end Trace

/-! ## Parameters inside a method -/

namespace ParseTree

def HasParameter (source : List Char) (name : String) (declaration : ParseTree) : Prop :=
  ∃ list ∈ declaration.childrenOfKind "parameter_list", ∃ parameter ∈ list.namedRows,
    parameter.kind = "parameter" ∧ parameter.textOf? source .name = some name

instance (source : List Char) (name : String) (declaration : ParseTree) :
    Decidable (declaration.HasParameter source name) :=
  inferInstanceAs (Decidable (∃ list ∈ _, ∃ parameter ∈ _, _))

theorem mem_namedRows_of_mem_namedChildren {tree child row : ParseTree}
    (member : child ∈ tree.namedChildren) (below : row ∈ child.namedRows) :
    row ∈ tree.namedRows := by
  rw [namedRows_eq]
  exact List.mem_cons_of_mem _ (List.mem_flatMap.mpr ⟨child, member, below⟩)

theorem mem_namedRows_trans {tree middle row : ParseTree} (member : middle ∈ tree.namedRows)
    (below : row ∈ middle.namedRows) : row ∈ tree.namedRows := by
  induction tree with
  | row kind named field extent children induction =>
      rw [namedRows_eq] at member
      rcases List.mem_cons.mp member with rfl | further
      · exact below
      · rcases List.mem_flatMap.mp further with ⟨child, listed, inside⟩
        apply mem_namedRows_of_mem_namedChildren listed
        exact induction child (List.mem_of_mem_filter listed) inside

theorem mem_parameters {source : List Char} {name : String} {method declaration : ParseTree}
    (inside : declaration ∈ method.namedRows) (has : declaration.HasParameter source name) :
    name ∈ (method.methodInfo source).parameters := by
  rcases has with ⟨list, member, parameter, below, kind, text⟩
  apply List.mem_filterMap.mpr
  refine ⟨parameter, mem_namedRows_trans inside ?_, ?_⟩
  · exact mem_namedRows_of_mem_namedChildren (List.mem_of_mem_filter member) below
  · rw [parameter?, if_pos kind, text]

end ParseTree

namespace Declarations

theorem bareSymbol?_of_parameter {declarations : Declarations} {tree : Tree} {id : NodeId}
    {name : String} {method : MethodInfo}
    (around : declarations.methodAround? tree id = some method) (bound : name ∈ method.parameters) :
    declarations.bareSymbol? tree id name = some { name, kind := .parameter } := by
  rw [bareSymbol?, around]
  exact if_pos bound

end Declarations

/-! ## Reports -/

theorem NullGuard.mem_check_of_code {site : Site} {rule : Rule} {diagnostic : Diagnostic}
    (member : rule ∈ Preset.all.rules) (checked : diagnostic ∈ rule.check site)
    (code : diagnostic.code = "SR0004") : diagnostic ∈ NullGuard.rule.check site := by
  simp only [Preset.rules, List.mem_cons, List.not_mem_nil, or_false] at member
  rcases member with rfl | rfl | rfl
  · dsimp only [Acquisition.rule] at checked
    split at checked
    · cases List.mem_singleton.mp checked
      have other : "SR0001" = "SR0004" := code
      exact absurd other (by decide)
    · cases checked
  · dsimp only [SceneLookup.rule] at checked
    split at checked
    · cases List.mem_singleton.mp checked
      have other : "SR0002" = "SR0004" := code
      exact absurd other (by decide)
    · cases checked
  · exact checked

theorem NullGuard.code_ne_of_not_isMember {scope : ScopeFilter} {declarations : Declarations}
    {tree : Tree} {guard : NodeId} {found : NullGuard} (tested : at? tree guard = some found)
    (free : ∀ symbol ∈ declarations.resolve tree found.guarded, symbol.isMember = false) :
    ∀ diagnostic ∈ (Engine.ofRules scope Preset.all.rules).dispatch tree declarations.resolver guard,
      diagnostic.code ≠ "SR0004" := by
  intro diagnostic reported code
  rcases Engine.exists_rule_of_mem_dispatch reported with ⟨rule, member, checked⟩
  rcases injected_of_report (mem_check_of_code member checked code) code with
    ⟨other, _, same, _, injected⟩
  cases tested.symm.trans same
  rcases marker_of_isInjected rfl injected with ⟨symbol, resolved, isMember, _⟩
  rw [free symbol resolved] at isMember
  cases isMember

/-- In a method, a parameter hides the members of its name, be it a parameter of the method or of a
function inside it: the name stands for no member, and no guard on it is reported. -/
theorem parameters_hide_members (path source : String) (root : ParseTree) (scope : ScopeFilter) :
    let unit := SourceUnit.ofParseTree path source root
    let origin := (Trace.ofParseTree source.toList root).originOf
    let engine := Engine.ofRules scope Preset.all.rules
    unit.tree.ReadFrom root origin ∧
      ∀ id name, unit.tree.node? id = some (.identifier name) →
        ∃ row, root.at? (origin id) = some row ∧ row.kind = "identifier" ∧
          name = String.ofList (row.text source.toList) ∧
          ∀ nearest method declaration, ¬root.IsMemberName (origin id) →
            root.enclosing? ParseTree.isMethodDeclaration (origin id) = some nearest →
            root.at? nearest = some method → declaration ∈ method.namedRows →
            declaration.HasParameter source.toList name →
            (∀ symbol ∈ unit.declarations.resolve unit.tree id, symbol.kind = .parameter) ∧
              ∀ guard found, NullGuard.at? unit.tree guard = some found → found.guarded = id →
                ∀ diagnostic ∈ engine.dispatch unit.tree unit.declarations.resolver guard,
                  diagnostic.code ≠ "SR0004" := by
  have forest := toForest_ofParseTree path source root
  dsimp only
  rw [declarations_ofParseTree]
  refine ⟨forest ▸ Trace.readFrom_originOf .., ?_⟩
  intro id name named
  rcases Trace.exists_sits_of_node? (forest ▸ named) with ⟨start, part, around, sits, rfl⟩
  rcases sits.madeFrom with ⟨row, made⟩
  rcases made.identifier_eq (sits.form_of_identifier (forest ▸ named)) with ⟨isName, text⟩
  rw [Trace.originOf_eq sits.getElem?_nodes]
  refine ⟨row, made.1, isName, text, ?_⟩
  intro nearest method declaration free enclosing here inside has
  rcases Trace.methodAround?_eq forest sits enclosing with ⟨other, there, methodAround⟩
  cases here.symm.trans there
  have bare := Declarations.bareSymbol?_of_parameter methodAround
    (ParseTree.mem_parameters inside has)
  have parameter : ∀ symbol ∈ (Trace.ofParseTree source.toList root).declarations.resolve
      (SourceUnit.ofParseTree path source root).tree (start + part.countBelow),
      symbol.kind = .parameter := by
    intro symbol found
    simp only [Declarations.resolve, named, Option.mem_def] at found
    rcases Trace.identifierSymbol?_cases forest sits free name
      (Trace.ofParseTree source.toList root).declarations with none | same
    · rw [none] at found
      cases found
    · rw [same, bare] at found
      cases found
      rfl
  refine ⟨parameter, ?_⟩
  intro guard found tested guarded
  apply NullGuard.code_ne_of_not_isMember tested
  intro symbol resolved
  rw [guarded] at resolved
  rw [Symbol.isMember, parameter symbol resolved]
  rfl

def lambdaText : String :=
  "class A \x7b [Inject] B b; " ++
    "void M() \x7b N((B b) => \x7b if (b == null) \x7b \x7d \x7d); \x7d \x7d"

def ParseTree.lambdaGuard : ParseTree :=
  .row "compilation_unit" true none ⟨0, 74, 0, 0⟩ [
    .row "class_declaration" true none ⟨0, 74, 0, 0⟩ [
      .row "identifier" true (some .name) ⟨6, 7, 0, 6⟩ [],
      .row "declaration_list" true (some .body) ⟨8, 74, 0, 8⟩ [
        .row "field_declaration" true none ⟨10, 23, 0, 10⟩ [
          .row "attribute_list" true none ⟨10, 18, 0, 10⟩ [
            .row "attribute" true none ⟨11, 17, 0, 11⟩ [
              .row "identifier" true (some .name) ⟨11, 17, 0, 11⟩ []]],
          .row "variable_declaration" true none ⟨19, 22, 0, 19⟩ [
            .row "identifier" true none ⟨19, 20, 0, 19⟩ [],
            .row "variable_declarator" true none ⟨21, 22, 0, 21⟩ [
              .row "identifier" true (some .name) ⟨21, 22, 0, 21⟩ []]]],
        .row "method_declaration" true none ⟨24, 72, 0, 24⟩ [
          .row "predefined_type" true none ⟨24, 28, 0, 24⟩ [],
          .row "identifier" true (some .name) ⟨29, 30, 0, 29⟩ [],
          .row "parameter_list" true none ⟨30, 32, 0, 30⟩ [],
          .row "block" true (some .body) ⟨33, 72, 0, 33⟩ [
            .row "expression_statement" true none ⟨35, 70, 0, 35⟩ [
              .row "invocation_expression" true none ⟨35, 69, 0, 35⟩ [
                .row "identifier" true (some .function) ⟨35, 36, 0, 35⟩ [],
                .row "argument_list" true none ⟨36, 69, 0, 36⟩ [
                  .row "argument" true none ⟨37, 68, 0, 37⟩ [
                    .row "lambda_expression" true none ⟨37, 68, 0, 37⟩ [
                      .row "parameter_list" true none ⟨37, 42, 0, 37⟩ [
                        .row "parameter" true none ⟨38, 41, 0, 38⟩ [
                          .row "identifier" true none ⟨38, 39, 0, 38⟩ [],
                          .row "identifier" true (some .name) ⟨40, 41, 0, 40⟩ []]],
                      .row "block" true (some .body) ⟨46, 68, 0, 46⟩ [
                        .row "if_statement" true none ⟨48, 66, 0, 48⟩ [
                          .row "binary_expression" true (some .condition) ⟨52, 61, 0, 52⟩ [
                            .row "identifier" true (some .left) ⟨52, 53, 0, 52⟩ [],
                            .row "==" false (some .operator) ⟨54, 56, 0, 54⟩ [],
                            .row "null_literal" true (some .right) ⟨57, 61, 0, 57⟩ []],
                          .row "block" true none ⟨63, 66, 0, 63⟩ []]]]]]]]]]]]]

theorem parameters_hide_members_lambdaGuard :
    let unit := SourceUnit.ofParseTree "Assets/A.cs" lambdaText .lambdaGuard
    let engine := Engine.ofRules .standard Preset.all.rules
    unit.tree.node? 15 = some (.identifier "b") ∧
      NullGuard.at? unit.tree 19 = some (.comparison 15 .equal) ∧
      (∀ symbol ∈ unit.declarations.resolve unit.tree 15, symbol.kind = .parameter) ∧
      ∀ diagnostic ∈ engine.dispatch unit.tree unit.declarations.resolver 19,
        diagnostic.code ≠ "SR0004" := by
  have facts :
      let unit := SourceUnit.ofParseTree "Assets/A.cs" lambdaText .lambdaGuard
      unit.tree.node? 15 = some (.identifier "b") ∧
        NullGuard.at? unit.tree 19 = some (.comparison 15 .equal) ∧
        (Trace.ofParseTree lambdaText.toList .lambdaGuard).originOf 15 =
          [0, 1, 1, 3, 0, 0, 1, 0, 0, 1, 0, 0, 0] := by
    decide +kernel
  rcases facts with ⟨named, tested, origin⟩
  rcases (parameters_hide_members "Assets/A.cs" lambdaText .lambdaGuard .standard).2 15 "b"
    named with ⟨_, _, _, _, hides⟩
  have free : ¬ParseTree.lambdaGuard.IsMemberName [0, 1, 1, 3, 0, 0, 1, 0, 0, 1, 0, 0, 0] := by
    rintro ⟨_, _, _, row, _, _, _, here, filled⟩
    cases here
    exact absurd filled (by decide)
  have parameter : ∃ method, ParseTree.lambdaGuard.at? [0, 1, 1] = some method ∧
      ∃ declaration ∈ method.namedRows, declaration.kind = "lambda_expression" ∧
        declaration.HasParameter lambdaText.toList "b" := by
    exact ⟨_, rfl, by decide +kernel⟩
  rcases parameter with ⟨method, here, declaration, inside, _, has⟩
  rw [origin] at hides
  rcases hides [0, 1, 1] method declaration free (by decide) here inside has with ⟨kinds, silent⟩
  exact ⟨named, tested, kinds, silent 19 _ tested rfl⟩

def constructorText : String :=
  "class A \x7b [Inject] B b; A(B b) \x7b if (b == null) \x7b \x7d \x7d \x7d"

def ParseTree.constructorGuard : ParseTree :=
  .row "compilation_unit" true none ⟨0, 55, 0, 0⟩ [
    .row "class_declaration" true none ⟨0, 55, 0, 0⟩ [
      .row "identifier" true (some .name) ⟨6, 7, 0, 6⟩ [],
      .row "declaration_list" true (some .body) ⟨8, 55, 0, 8⟩ [
        .row "field_declaration" true none ⟨10, 23, 0, 10⟩ [
          .row "attribute_list" true none ⟨10, 18, 0, 10⟩ [
            .row "attribute" true none ⟨11, 17, 0, 11⟩ [
              .row "identifier" true (some .name) ⟨11, 17, 0, 11⟩ []]],
          .row "variable_declaration" true none ⟨19, 22, 0, 19⟩ [
            .row "identifier" true none ⟨19, 20, 0, 19⟩ [],
            .row "variable_declarator" true none ⟨21, 22, 0, 21⟩ [
              .row "identifier" true (some .name) ⟨21, 22, 0, 21⟩ []]]],
        .row "constructor_declaration" true none ⟨24, 53, 0, 24⟩ [
          .row "identifier" true (some .name) ⟨24, 25, 0, 24⟩ [],
          .row "parameter_list" true none ⟨25, 30, 0, 25⟩ [
            .row "parameter" true none ⟨26, 29, 0, 26⟩ [
              .row "identifier" true none ⟨26, 27, 0, 26⟩ [],
              .row "identifier" true (some .name) ⟨28, 29, 0, 28⟩ []]],
          .row "block" true (some .body) ⟨31, 53, 0, 31⟩ [
            .row "if_statement" true none ⟨33, 51, 0, 33⟩ [
              .row "binary_expression" true (some .condition) ⟨37, 46, 0, 37⟩ [
                .row "identifier" true (some .left) ⟨37, 38, 0, 37⟩ [],
                .row "==" false (some .operator) ⟨39, 41, 0, 39⟩ [],
                .row "null_literal" true (some .right) ⟨42, 46, 0, 42⟩ []],
              .row "block" true none ⟨48, 51, 0, 48⟩ []]]]]]]

/-- The parameter of a constructor hides nothing: the guard on it is taken for a guard on the field. -/
theorem constructorParameter_reported :
    let unit := SourceUnit.ofParseTree "Assets/A.cs" constructorText .constructorGuard
    let engine := Engine.ofRules .standard Preset.all.rules
    (∃ declaration, ParseTree.constructorGuard.at? [0, 1, 1] = some declaration ∧
        declaration.HasParameter constructorText.toList "b") ∧
      (Trace.ofParseTree constructorText.toList .constructorGuard).originOf 13 =
        [0, 1, 1, 2, 0, 0, 0] ∧
      (unit.declarations.resolve unit.tree 13).map (·.kind) = some .field ∧
      (engine.analyze unit.tree unit.declarations.resolver).map (·.code) = ["SR0004"] := by
  refine ⟨⟨_, rfl, ?_⟩, ?_⟩
  · decide +kernel
  · decide +kernel

end UnityLint
