import UnityLint.Proofs.Calls
import UnityLint.Proofs.KeptRows
import UnityLint.Proofs.LikeOutlines
import UnityLint.Proofs.VerdictAgreement

/-! # Tests by null patterns

An `if` that tests an expression by a null pattern is a guard if the pattern is negated at most once,
however many other patterns are around the null. Parentheses count for nothing, neither in the guard nor
in what is reported about it.

The rows of such a test lead to its node (`Trace.Sits.at?_of_testsBy`), and files that are alike but for
parentheses have similar trees (`SourceUnit.ofParseTree_similar`). -/

namespace UnityLint

/-! ## Guards in similar files -/

section Links

variable {forest copy : Forest} (nodes : copy.node? = forest.node?)

include nodes in
theorem Forest.isNullLiteral_congr (id : NodeId) :
    copy.isNullLiteral id = forest.isNullLiteral id := by
  rw [isNullLiteral, isNullLiteral, decide_eq_decide, nodes]

variable (parents : copy.parent? = forest.parent?)

include parents

theorem Forest.ancestors_congr (id : NodeId) : copy.ancestors id = forest.ancestors id := by
  fun_induction forest.ancestors id with
  | case1 id topmost => exact ancestors_of_parent?_eq_none (parents ▸ topmost)
  | case2 id parent link induction =>
      rw [ancestors_of_parent?_eq_some (parents ▸ link), induction]

include nodes

theorem Forest.enclosing?_congr (kind : NodeKind) (id : NodeId) :
    copy.enclosing? kind id = forest.enclosing? kind id := by
  rw [enclosing?, enclosing?, ancestors_congr parents]
  apply List.find?_congr
  intro ancestor _
  rw [decide_eq_decide, kind?, kind?, nodes]

end Links

theorem NullGuard.map_code_check (site : Site) :
    (rule.check site).map (·.code) =
      if site.inScope then
        (((at? site.tree site.node).bind fun found => offence? site found.guarded).map
          (·.id)).toList
      else
        [] := by
  dsimp only [rule]
  split
  · cases (at? site.tree site.node).bind fun found => offence? site found.guarded <;> rfl
  · rfl

theorem NullGuard.map_code_check_of_pattern {site : Site} {guarded : NodeId} {negated : Bool}
    {guards : Prop} [Decidable guards]
    (found : at? site.tree site.node = if guards then some (.pattern guarded negated) else none) :
    (rule.check site).map (·.code) =
      if site.inScope ∧ guards then ((offence? site guarded).map (·.id)).toList else [] := by
  rw [map_code_check, found]
  by_cases guard : guards
  · simp only [guard, if_true, and_true, Option.bind_some, NullGuard.guarded]
  · simp [guard]

theorem NullGuard.at?_congr {tree copy : Tree} (nodes : copy.node? = tree.node?) (id : NodeId) :
    at? copy id = at? tree id := by
  simp only [at?, ofCondition?, Forest.isNullLiteral_congr nodes, nodes]

theorem Declarations.identifierSymbol?_congr {tree copy : Tree} (nodes : copy.node? = tree.node?)
    (parents : copy.parent? = tree.parent?) (declarations : Declarations) (id : NodeId)
    (name : String) :
    declarations.identifierSymbol? copy id name = declarations.identifierSymbol? tree id name := by
  have this (receiver : NodeId) : isThis copy receiver = isThis tree receiver := by
    rw [isThis, isThis, decide_eq_decide, nodes]
  simp only [identifierSymbol?, bareSymbol?, memberAround?, typeAround?, methodAround?, this,
    Forest.enclosingType?, Forest.enclosingMethod?, Forest.enclosing?_congr nodes parents, nodes,
    parents]

namespace SourceUnit

variable {unit copy : SourceUnit} (similar : unit.Similar copy) (scope : ScopeFilter)

def site (unit : SourceUnit) (scope : ScopeFilter) (id : NodeId) : Site where
  tree := unit.tree
  node := id
  resolver := unit.declarations.resolver
  scope := scope

include similar

theorem Similar.offence?_eq (id guarded : NodeId) :
    NullGuard.offence? (copy.site scope id) guarded =
      NullGuard.offence? (unit.site scope id) guarded := by
  have nodes := similar.node?
  simp only [NullGuard.offence?, site, Forest.methodName?, Forest.simpleName?, nodes]
  split
  · rfl
  · rename_i name named
    simp only [NullGuard.isInjected, Site.resolve, Declarations.resolver, Declarations.resolve, nodes,
      named, similar.declarations,
      Declarations.identifierSymbol?_congr nodes similar.parent?]
  · rfl

theorem Similar.map_code_check_eq (id : NodeId) :
    (NullGuard.rule.check (copy.site scope id)).map (·.code) =
      (NullGuard.rule.check (unit.site scope id)).map (·.code) := by
  have inScope : (copy.site scope id).inScope = (unit.site scope id).inScope := by
    simp only [Site.inScope, site, similar.path]
  have guards : NullGuard.at? (copy.site scope id).tree (copy.site scope id).node =
      NullGuard.at? (unit.site scope id).tree (unit.site scope id).node :=
    NullGuard.at?_congr similar.node? id
  rw [NullGuard.map_code_check, NullGuard.map_code_check, inScope, guards]
  simp only [similar.offence?_eq]

end SourceUnit

/-! ## From rows to guards -/

namespace ParseTree

structure TestsBy (row condition subject pattern : ParseTree) : Prop where
  kind_eq : row.kind = "if_statement"
  condition_eq : row.child? .condition = some condition
  test_eq : condition.kind = "is_pattern_expression"
  subject_eq : condition.child? .expression = some subject
  pattern_eq : condition.child? .pattern = some pattern

section Places

variable (source : List Char) {root row : ParseTree} {position : Position}
  (here : root.at? position = some row)

include here

theorem exists_part?_partsAt {field : Field} {child : ParseTree}
    (found : row.child? field = some child) :
    ∃ place, root.at? (position ++ [place]) = some child ∧
      Traced.part? field (root.partsAt source position row) =
        some (root.tracedAt source (position ++ [place]) child) := by
  rcases part?_partsAt source root position found with ⟨part, there, same, _⟩
  rcases (mem_partsAt ..).mp (Traced.mem_of_part? there) with ⟨placed, member, rfl⟩
  rcases mem_placed.mp member with ⟨place, equal, inside⟩
  rw [row_tracedAt] at same
  rw [equal, same] at there
  refine ⟨place, ?_, there⟩
  rw [at?_snoc, here, Option.bind_some, inside, same]

theorem whole_ifStatement {condition : ParseTree} (kind : row.kind = "if_statement")
    (found : row.child? .condition = some condition) :
    ∃ place rest, root.at? (position ++ [place]) = some condition ∧
      (root.tracedAt source position row).whole.form = .ifStatement ∧
      (root.tracedAt source position row).whole.parts =
        (root.tracedAt source (position ++ [place]) condition).whole :: rest := by
  rcases exists_part?_partsAt source here found with ⟨place, there, part⟩
  have construct := (Construct.ofKind_eq_iff_eq .ifStatement rfl).mpr kind
  have plain := chain_eq_plain source here (by rw [kind]; decide)
  refine ⟨place, Traced.beside .condition (root.partsAt source position row), there, ?_, ?_⟩
  · rw [form_whole_tracedAt, formOf, construct]
    simp [found]
  · rw [parts_whole_of_plain source here plain, choice, construct]
    simp only [Traced.chosen, part]

theorem whole_isPattern {subject pattern core : ParseTree} {layers : List PatternLayer}
    (kind : row.kind = "is_pattern_expression") (foundSubject : row.child? .expression = some subject)
    (foundPattern : row.child? .pattern = some pattern) (layered : Layered core layers pattern)
    (null : core.kind = "null_literal") :
    ∃ place value, root.at? (position ++ [place]) = some subject ∧
      value.form = .literal .null ∧
      (root.tracedAt source position row).whole.form =
        .isPattern (.negations (layers.count .negated)) ∧
      (root.tracedAt source position row).whole.parts =
        [(root.tracedAt source (position ++ [place]) subject).whole, value] := by
  rcases exists_part?_partsAt source here foundSubject with ⟨place, there, subjectPart⟩
  rcases exists_part?_partsAt source here foundPattern with ⟨patternPlace, _, patternPart⟩
  have construct := (Construct.ofKind_eq_iff_eq .isPattern rfl).mpr kind
  have plain := chain_eq_plain source here (by rw [kind]; decide)
  -- Of the rows of the pattern only the null has a node.
  have outlines : (root.tracedAt source (position ++ [patternPlace]) pattern).pattern.map
      Trace.outline = [.node (.literal .null) core.span []] :=
    (agrees_trace ..).pattern.trans (layered.read_eq null ..).2
  rcases List.map_eq_singleton_iff.mp outlines with ⟨value, only, outline⟩
  refine ⟨place, value, there, ?_, ?_, ?_⟩
  · rw [← Trace.form_outline, outline]
    rfl
  · rw [form_whole_tracedAt, formOf, construct]
    simp [foundPattern, foundSubject, (layered.read_eq null ..).1]
  · rw [parts_whole_of_plain source here plain, choice, construct,
      Traced.chosen_only_two subjectPart patternPart]
    simp [Traced.contribution, only]

end Places

end ParseTree

/-! ## Guards -/

theorem NullGuard.ofCondition?_negations {tree : Tree} {condition subject value : NodeId} {count : Nat}
    (node : tree.node? condition =
      some (.isPattern subject ((Pattern.negations count).map fun _ => value)))
    (null : tree.isNullLiteral value) :
    ofCondition? tree condition =
      if count ≤ 1 then some (.pattern subject (count = 1)) else none := by
  rw [ofCondition?, node]
  rcases count with _ | _ | count
  · simp [Pattern.negations, Pattern.map, null]
  · simp [Pattern.negations, Pattern.map, null]
  · simp [Pattern.negations, Pattern.map]

theorem Pattern.constant?_negations (count : Nat) : (negations count).constant? = some () := by
  induction count with
  | zero => rfl
  | succ count induction => exact induction

theorem Form.build_isPattern_negations (count : Nat) (subject value : NodeId) (rest : List NodeId) :
    (Form.isPattern (.negations count)).build (subject :: value :: rest) =
      (.isPattern subject ((Pattern.negations count).map fun _ => value), rest) := by
  simp only [build, Pattern.constant?_negations]

namespace Trace

variable {source : List Char} {root row : ParseTree} {node : Trace} {first : Nat}
  {around : List (Nat × Trace)}

theorem MadeFrom.eq_whole_of_kind (made : node.MadeFrom source root row)
    (elsewhere : row.kind ∉ ParseTree.chainKinds) :
    node = (root.tracedAt source node.origin row).whole := by
  rcases made with ⟨_, whole | extended⟩
  · exact whole
  · rcases extended.chain with ⟨receiver, chain⟩
    exact absurd (Traced.kind_mem_of_chainOf chain) elsewhere

theorem Sits.at?_of_testsBy {condition subject pattern core : ParseTree}
    {layers : List PatternLayer} (sits : Sits (ofParseTree source root) first node around)
    (here : root.at? node.origin = some row) (tests : row.TestsBy condition subject pattern)
    (layered : ParseTree.Layered core layers pattern) (null : core.kind = "null_literal") {tree : Tree}
    (forest : tree.toForest = (ofParseTree source root).forest) :
    ∃ guarded place inner, root.at? (node.origin ++ [place, inner]) = some subject ∧
      (ofParseTree source root).nodes[guarded]? =
        some (root.tracedAt source (node.origin ++ [place, inner]) subject).whole ∧
      NullGuard.at? tree (first + node.countBelow) =
        if layers.count .negated ≤ 1 then some (.pattern guarded (layers.count .negated = 1))
        else none := by
  -- The node is that of the `if`, since no chain goes through the row.
  rcases sits.madeFrom with ⟨origin, made⟩
  have same : origin = row := Option.some.inj (made.1.symm.trans here)
  have whole := made.eq_whole_of_kind (by rw [same, tests.kind_eq]; decide)
  rcases ParseTree.whole_ifStatement source here tests.kind_eq tests.condition_eq with
    ⟨place, rest, conditionThere, form, parts⟩
  rcases ParseTree.whole_isPattern source conditionThere tests.test_eq tests.subject_eq
    tests.pattern_eq layered null with ⟨inner, value, subjectThere, literal, test, both⟩
  rw [← same, ← whole] at form parts
  rw [List.append_assoc, List.singleton_append] at subjectThere both
  have conditionSits := sits.first_part parts
  have subjectSits := conditionSits.first_part both
  have valueSits := conditionSits.second_part both
  refine ⟨_, place, inner, subjectThere, subjectSits.getElem?_nodes, ?_⟩
  rw [NullGuard.at?, forest, sits.node?_eq, form, parts, numbersFrom_cons]
  apply NullGuard.ofCondition?_negations
  · rw [forest, conditionSits.node?_eq, test, both, numbersFrom_cons, numbersFrom_cons,
      Form.build_isPattern_negations]
  · rw [forest, valueSits.isNullLiteral_eq, Outline.isNull, form_outline, literal]
    rfl

end Trace

/-! ## Null patterns -/

/-- An `if` that tests an expression by a null pattern is a guard if and only if the pattern is negated
at most once, and then a guard of the node of the expression. In a file that differs in parentheses
around null patterns, the guards and their reports are the same. -/
theorem guards_nullPattern (path source : String) (scope : ScopeFilter)
    {root row condition subject pattern core : ParseTree} {position : Position}
    {layers : List PatternLayer} (here : root.at? position = some row)
    (tests : row.TestsBy condition subject pattern) (layered : ParseTree.Layered core layers pattern)
    (null : core.kind = "null_literal") :
    let unit := SourceUnit.ofParseTree path source root
    let trace := Trace.ofParseTree source.toList root
    let negations := layers.count .negated
    (root.Kept source.toList position row →
        ∃ id < unit.tree.size, trace.originOf id = position) ∧
      (∀ id < unit.tree.size, trace.originOf id = position → ∃ guarded place inner,
        root.at? (position ++ [place, inner]) = some subject ∧
          trace.nodes[guarded]? =
            some (root.tracedAt source.toList (position ++ [place, inner]) subject).whole ∧
          NullGuard.at? unit.tree id =
            (if negations ≤ 1 then some (.pattern guarded (negations = 1)) else none) ∧
          (NullGuard.rule.check (unit.site scope id)).map (·.code) =
            if (unit.site scope id).inScope ∧ negations ≤ 1 then
              ((NullGuard.offence? (unit.site scope id) guarded).map (·.id)).toList
            else
              []) ∧
      ∀ (other : String) (moved : ParseTree), root.Alike source.toList other.toList moved →
        let copy := SourceUnit.ofParseTree path other moved
        ∀ id, NullGuard.at? copy.tree id = NullGuard.at? unit.tree id ∧
          (NullGuard.rule.check (copy.site scope id)).map (·.code) =
            (NullGuard.rule.check (unit.site scope id)).map (·.code) := by
  intro unit trace negations
  have forest : unit.tree.toForest = trace.forest := toForest_ofParseTree path source root
  have size : unit.tree.size = trace.size := by rw [forest, Trace.size_forest]
  refine ⟨?_, ?_, ?_⟩
  · intro kept
    rcases kept.exists_node (by rw [tests.kind_eq]; decide) with ⟨id, found⟩
    refine ⟨id, ?_, (Trace.originOf_eq found).trans (ParseTree.origin_whole_tracedAt ..)⟩
    rw [size, ← Trace.length_nodes]
    exact (List.getElem?_eq_some_iff.mp found).1
  · intro id inside origin
    rw [size] at inside
    rcases Trace.exists_sits inside with ⟨first, node, around, sits, rfl⟩
    rw [Trace.originOf_eq sits.getElem?_nodes] at origin
    subst origin
    rcases sits.at?_of_testsBy here tests layered null forest with
      ⟨guarded, place, inner, there, lowered, guard⟩
    exact ⟨guarded, place, inner, there, lowered, guard,
      NullGuard.map_code_check_of_pattern guard⟩
  · intro other moved alike copy id
    have similar := SourceUnit.ofParseTree_similar path alike
    exact ⟨NullGuard.at?_congr similar.node? id, similar.map_code_check_eq scope id⟩

def injectionTest (pattern : String) : String :=
  "class A\x7b[Inject]B b;void M()\x7bif(b is " ++ pattern ++ ");\x7d\x7d"

def ParseTree.injectionIf (stop : Nat) (pattern : ParseTree) : ParseTree :=
  .row "if_statement" true none ⟨29, stop + 2, 0, 29⟩ [
    .row "is_pattern_expression" true (some .condition) ⟨32, stop, 0, 32⟩ [
      .row "identifier" true (some .expression) ⟨32, 33, 0, 32⟩ [],
      pattern],
    .row "empty_statement" true none ⟨stop + 1, stop + 2, 0, stop + 1⟩ []]

def ParseTree.injectionTest (stop : Nat) (pattern : ParseTree) : ParseTree :=
  .row "compilation_unit" true none ⟨0, stop + 4, 0, 0⟩ [
    .row "class_declaration" true none ⟨0, stop + 4, 0, 0⟩ [
      .row "identifier" true (some .name) ⟨6, 7, 0, 6⟩ [],
      .row "declaration_list" true (some .body) ⟨7, stop + 4, 0, 7⟩ [
        .row "field_declaration" true none ⟨8, 20, 0, 8⟩ [
          .row "attribute_list" true none ⟨8, 16, 0, 8⟩ [
            .row "attribute" true none ⟨9, 15, 0, 9⟩ [
              .row "identifier" true (some .name) ⟨9, 15, 0, 9⟩ []]],
          .row "variable_declaration" true none ⟨16, 19, 0, 16⟩ [
            .row "identifier" true none ⟨16, 17, 0, 16⟩ [],
            .row "variable_declarator" true none ⟨18, 19, 0, 18⟩ [
              .row "identifier" true (some .name) ⟨18, 19, 0, 18⟩ []]]],
        .row "method_declaration" true none ⟨20, stop + 3, 0, 20⟩ [
          .row "predefined_type" true none ⟨20, 24, 0, 20⟩ [],
          .row "identifier" true (some .name) ⟨25, 26, 0, 25⟩ [],
          .row "parameter_list" true none ⟨26, 28, 0, 26⟩ [],
          .row "block" true (some .body) ⟨28, stop + 3, 0, 28⟩ [
            injectionIf stop pattern]]]]]

def ParseTree.testedNull : ParseTree :=
  .row "null_literal" true none ⟨41, 45, 0, 41⟩ []

def ParseTree.parenthesizedNull : ParseTree :=
  .row "negated_pattern" true (some .pattern) ⟨37, 46, 0, 37⟩ [
    .row "parenthesized_pattern" true none ⟨40, 46, 0, 40⟩ [
      .row "constant_pattern" true none ⟨41, 45, 0, 41⟩ [testedNull]]]

def ParseTree.bareNull : ParseTree :=
  .row "negated_pattern" true (some .pattern) ⟨37, 45, 0, 37⟩ [
    .row "constant_pattern" true none ⟨41, 45, 0, 41⟩ [testedNull]]

theorem ParseTree.layered_parenthesizedNull :
    Layered testedNull [.negated, .parenthesized, .constant] parenthesizedNull :=
  .layer rfl rfl (.layer rfl rfl (.layer rfl rfl .core))

theorem ParseTree.layered_bareNull : Layered testedNull [.negated, .constant] bareNull :=
  .layer rfl rfl (.layer rfl rfl .core)

theorem ParseTree.kept_injectionIf (source : List Char) :
    (injectionTest 46 parenthesizedNull).Kept source [0, 1, 1, 3, 0]
      (injectionIf 46 parenthesizedNull) := by
  show Kept source _ ([] ++ [0] ++ [1] ++ [1] ++ [3] ++ [0]) _
  refine .inside (.inside (.inside (.inside (.inside .root rfl rfl ?_ ?_) rfl rfl ?_ ?_) rfl rfl
    ?_ ?_) rfl rfl ?_ ?_) rfl rfl ?_ ?_
  all_goals decide

theorem ParseTree.alike_injectionTest :
    Alike (UnityLint.injectionTest "not(null)").toList (UnityLint.injectionTest "not null").toList
      (injectionTest 46 parenthesizedNull) (injectionTest 45 bareNull) := by
  refine .intro rfl rfl rfl (by decide) (by decide) ?_
  repeat' first
    | exact .nil
    | exact .rewrapped rfl rfl rfl layered_parenthesizedNull layered_bareNull rfl
        (.intro rfl rfl rfl (by decide) (by decide) .nil) rfl .nil
    | refine .cons (.intro rfl rfl rfl (by decide +kernel) (by decide) ?_) ?_

theorem guards_nullPattern_parenthesized :
    let root := ParseTree.injectionTest 46 .parenthesizedNull
    let unit := SourceUnit.ofParseTree "Assets/A.cs" (injectionTest "not(null)") root
    let copy := SourceUnit.ofParseTree "Assets/A.cs" (injectionTest "not null")
      (.injectionTest 45 .bareNull)
    (∃ id < unit.tree.size, (Trace.ofParseTree (injectionTest "not(null)").toList root).originOf id =
        [0, 1, 1, 3, 0]) ∧
      (∃ guarded, NullGuard.at? unit.tree 14 = some (.pattern guarded true) ∧
        NullGuard.at? copy.tree 14 = some (.pattern guarded true)) ∧
      (NullGuard.rule.check (unit.site .standard 14)).map (·.code) = ["SR0004"] ∧
        (NullGuard.rule.check (copy.site .standard 14)).map (·.code) = ["SR0004"] := by
  have kept := ParseTree.kept_injectionIf (injectionTest "not(null)").toList
  rcases guards_nullPattern "Assets/A.cs" (injectionTest "not(null)") .standard kept.at?_eq
    ⟨rfl, rfl, rfl, rfl, rfl⟩ ParseTree.layered_parenthesizedNull rfl with ⟨covered, guards, same⟩
  rcases guards 14 (by decide +kernel) (by decide +kernel) with ⟨guarded, _, _, _, _, guard, _⟩
  rcases same _ _ ParseTree.alike_injectionTest 14 with ⟨sameGuard, sameCodes⟩
  have once : [PatternLayer.negated, .parenthesized, .constant].count .negated = 1 := rfl
  simp only [once, le_refl, if_true, decide_true] at guard
  refine ⟨covered kept, ⟨guarded, guard, sameGuard.trans guard⟩, ?_⟩
  rw [sameCodes, and_self]
  decide +kernel

end UnityLint
