import UnityLint.Proofs.Surroundings

/-! # The rules agree with the verdicts

Every rule says about a numbered node what is said about its outline, so that the analysis of a file
lists the verdicts on its outlines in their places. -/

namespace UnityLint

/-! ## Nodes that guard nothing -/

theorem NullGuard.ofCondition?_of_kind? {tree : Tree} {id : NodeId}
    (comparison : tree.kind? id ≠ some .comparison) (pattern : tree.kind? id ≠ some .isPattern) :
    ofCondition? tree id = none := by
  rw [ofCondition?]
  rw [Forest.kind?] at comparison pattern
  cases found : tree.node? id with
  | none => rfl
  | some node =>
      rw [found] at comparison pattern
      cases node with
      | comparison op left right => exact absurd rfl comparison
      | isPattern subject pattern => exact absurd rfl pattern
      | _ => rfl

theorem NullGuard.at?_of_kind? {tree : Tree} {id : NodeId}
    (ifStatement : tree.kind? id ≠ some .ifStatement)
    (access : tree.kind? id ≠ some .conditionalAccess) : at? tree id = none := by
  rw [at?]
  rw [Forest.kind?] at ifStatement access
  cases found : tree.node? id with
  | none => rfl
  | some node =>
      rw [found] at ifStatement access
      cases node with
      | ifStatement condition => exact absurd rfl ifStatement
      | conditionalAccess receiver tail => exact absurd rfl access
      | _ => rfl

theorem NullGuard.offence?_of_kind? {site : Site} {id : NodeId}
    (call : site.tree.kind? id ≠ some .invocation)
    (identifier : site.tree.kind? id ≠ some .identifier) : offence? site id = none := by
  rw [offence?]
  rw [Forest.kind?] at call identifier
  cases found : site.tree.node? id with
  | none => rfl
  | some node =>
      rw [found] at call identifier
      cases node with
      | invocation callee => exact absurd rfl call
      | identifier name => exact absurd rfl identifier
      | _ => rfl

namespace Trace

variable {whole node : Trace} {first : Nat} {around : List (Nat × Trace)}

/-! ## Guards -/

theorem Sits.isNullLiteral_eq (sits : Sits whole first node around) :
    whole.forest.isNullLiteral (first + node.countBelow) = node.outline.isNull := by
  rw [Forest.isNullLiteral, sits.node?_eq, Outline.isNull, form_outline, decide_eq_decide,
    Option.some.injEq, Form.build_eq_literal_iff]

/-- A guard found by number, if any, is on the value that is found in the outline. That stands directly
below a test, and around it is what is around the guard. -/
inductive Guards (whole : Trace) (around : Surroundings) : Option NullGuard → Option Outline → Prop
  | none : Guards whole around none none
  | some {start : Nat} {part : Trace} {outer : Nat × Trace} {others : List (Nat × Trace)}
      {found : NullGuard} (sits : Sits whole start part (outer :: others))
      (tests : outer.2.form.kind.tests) (same : surroundings (outer :: others) = around)
      (number : found.guarded = start + part.countBelow) :
      Guards whole around (some found) (some part.outline)

theorem surroundings_of_tests {outer : Nat × Trace} {others : List (Nat × Trace)}
    (tests : outer.2.form.kind.tests) :
    surroundings (outer :: others) = surroundings others := by
  apply Surroundings.inside_of_isDeclaration_eq_false
  cases kind : outer.2.form.kind <;> rw [kind] at tests <;> first | rfl | cases tests

section Guards

variable {tree : Tree} (forest : tree.toForest = whole.forest)
  (sits : Sits whole first node around)

include forest sits

theorem guards_tested?_of_comparison {op : ComparisonOp} (form : node.form = .comparison op) :
    Guards whole (surroundings around) (NullGuard.ofCondition? tree (first + node.countBelow))
      node.outline.tested? := by
  have tests : node.form.kind.tests := by rw [form]; rfl
  rw [NullGuard.ofCondition?, forest, sits.node?_eq, Outline.tested?, form_outline, form,
    parts_outline]
  rcases parts : node.parts with _ | ⟨left, _ | ⟨right, rest⟩⟩
  · exact .none
  · exact .none
  · have leftSits := sits.first_part parts
    have rightSits := sits.second_part parts
    rw [numbersFrom_cons, numbersFrom_cons]
    dsimp only [Form.build]
    rw [leftSits.isNullLiteral_eq, rightSits.isNullLiteral_eq]
    simp only [List.map_cons, List.getElem?_cons_zero, List.getElem?_cons_succ]
    cases left.outline.isNull <;> cases right.outline.isNull
    · exact .none
    · exact .some leftSits tests (surroundings_of_tests tests) rfl
    · exact .some rightSits tests (surroundings_of_tests tests) rfl
    · exact .none

theorem guards_tested?_of_isPattern {pattern : Pattern Unit} (form : node.form = .isPattern pattern) :
    Guards whole (surroundings around) (NullGuard.ofCondition? tree (first + node.countBelow))
      node.outline.tested? := by
  have tests : node.form.kind.tests := by rw [form]; rfl
  rw [NullGuard.ofCondition?, forest, sits.node?_eq, Outline.tested?, form_outline, form,
    parts_outline]
  rcases parts : node.parts with _ | ⟨subject, _ | ⟨value, rest⟩⟩
  case nil => rcases pattern with _ | (_ | _ | _) | _ <;> exact .none
  case cons.nil =>
    rcases pattern with _ | (_ | inner | _) | _
    case negated.negated =>
      dsimp only [numbersFrom_cons, Form.build, Pattern.constant?]
      cases inner.constant? <;> exact .none
    all_goals exact .none
  case cons.cons =>
    have subjectSits := sits.first_part parts
    have valueSits := sits.second_part parts
    have guards (found : NullGuard) (number : found.guarded = first + subject.countBelow) :
        Guards whole (surroundings around)
          (if whole.forest.isNullLiteral (first + subject.size + value.countBelow) then some found
            else none)
          (if value.outline.isNull then some subject.outline else none) := by
      rw [valueSits.isNullLiteral_eq]
      split
      · exact .some subjectSits tests (surroundings_of_tests tests) number
      · exact .none
    rcases pattern with _ | (_ | inner | _) | _
    case constant => exact guards (.pattern _ false) rfl
    case negated.constant => exact guards (.pattern _ true) rfl
    case negated.negated =>
      dsimp only [numbersFrom_cons, Form.build, Pattern.constant?]
      cases inner.constant? <;> exact .none
    all_goals exact .none

theorem guards_tested? :
    Guards whole (surroundings around) (NullGuard.ofCondition? tree (first + node.countBelow))
      node.outline.tested? := by
  by_cases comparison : node.form.kind = .comparison
  · cases form : node.form with
    | comparison op => exact guards_tested?_of_comparison forest sits form
    | _ =>
        rw [form] at comparison
        cases comparison
  by_cases pattern : node.form.kind = .isPattern
  · cases form : node.form with
    | isPattern pattern => exact guards_tested?_of_isPattern forest sits form
    | _ =>
        rw [form] at pattern
        cases pattern
  · have none : node.outline.tested? = none := by
      rw [Outline.tested?, form_outline]
      cases form : node.form <;> rw [form] at comparison pattern <;>
        first | rfl | exact absurd rfl comparison | exact absurd rfl pattern
    rw [none, NullGuard.ofCondition?_of_kind?]
    · exact .none
    · rw [forest]
      exact fun found => comparison (sits.kind_form found (by decide))
    · rw [forest]
      exact fun found => pattern (sits.kind_form found (by decide))

theorem guards_guardedBy {outer : Nat × Trace} (receives : outer.2.form = .conditionalAccess)
    {others : List (Nat × Trace)} (chained : around = outer :: others) :
    Guards whole (surroundings others)
      (match tree.node? (first + node.countBelow) with
        | some (.conditionalAccess _ (some tail)) => some (.conditionalAccess tail)
        | some _ => some (.conditionalAccess (first + node.countBelow))
        | none => none)
      (some node.outline.guardedBy) := by
  subst chained
  have outerTests : outer.2.form.kind.tests := by rw [receives]; rfl
  have own (other : node.outline.guardedBy = node.outline) : Guards whole (surroundings others)
      (some (.conditionalAccess (first + node.countBelow))) (some node.outline.guardedBy) := by
    rw [other]
    exact .some sits outerTests (surroundings_of_tests outerTests) rfl
  rw [forest, sits.node?_eq]
  by_cases access : node.form = .conditionalAccess
  · have tests : node.form.kind.tests := by rw [access]; rfl
    match parts : node.parts with
    | [] =>
        rw [access]
        exact own (by simp [Outline.guardedBy, parts])
    | [receiver] =>
        rw [access]
        exact own (by simp [Outline.guardedBy, parts])
    | receiver :: tail :: rest =>
        have same : node.outline.guardedBy = tail.outline := by
          simp [Outline.guardedBy, access, parts]
        rw [same, access, numbersFrom_cons, numbersFrom_cons]
        apply Guards.some (sits.second_part parts) tests _ rfl
        rw [surroundings_of_tests tests, surroundings_of_tests outerTests]
  · have kept : node.outline.guardedBy = node.outline := by
      rw [Outline.guardedBy, form_outline]
      split
      · exact absurd ‹_› access
      · rfl
    have other : (node.form.build (numbersFrom first node.parts)).1.kind ≠ .conditionalAccess := by
      intro kind
      exact access (sits.form_of_kind? rfl (by rw [sits.kind?_eq, kind]; rfl))
    generalize (node.form.build (numbersFrom first node.parts)).1 = built at other
    cases built with
    | conditionalAccess receiver tail => exact absurd rfl other
    | _ => exact own kept

theorem guards_guarded? :
    Guards whole (surroundings around) (NullGuard.at? tree (first + node.countBelow))
      node.outline.guarded? := by
  by_cases ifStatement : node.form = .ifStatement
  · have tests : node.form.kind.tests := by rw [ifStatement]; rfl
    rw [NullGuard.at?, forest, sits.node?_eq, Outline.guarded?, form_outline, ifStatement,
      parts_outline]
    cases parts : node.parts with
    | nil => exact .none
    | cons condition rest =>
        have inner := guards_tested? forest (sits.first_part parts)
        rw [surroundings_of_tests tests] at inner
        exact inner
  by_cases access : node.form = .conditionalAccess
  · rw [NullGuard.at?, forest, sits.node?_eq, Outline.guarded?, form_outline, access,
      parts_outline]
    cases parts : node.parts with
    | nil => exact .none
    | cons receiver rest =>
        have inner := guards_guardedBy forest (sits.first_part parts) access rfl
        rw [forest] at inner
        cases rest <;> exact inner
  · have none : node.outline.guarded? = none := by
      rw [Outline.guarded?, form_outline]
      split
      · exact absurd ‹_› ifStatement
      · exact absurd ‹_› access
      · rfl
    rw [none, NullGuard.at?_of_kind?]
    · exact .none
    · exact fun found => ifStatement (sits.form_of_kind? rfl (forest ▸ found))
    · exact fun found => access (sits.form_of_kind? rfl (forest ▸ found))

end Guards

end Trace

/-! ## The rules agree -/

namespace Trace

structure Presents (whole : Trace) (setting : Setting) (site : Site) : Prop where
  forest : site.tree.toForest = whole.forest
  path : site.tree.path = setting.path
  resolver : site.resolver = setting.declarations.resolver
  declarations : setting.declarations = whole.declarations
  scope : site.scope = setting.scope

variable {whole node : Trace} {first : Nat} {around : List (Nat × Trace)} {setting : Setting}
  {site : Site}

theorem Presents.inScope_eq (presents : Presents whole setting site) :
    site.inScope = setting.inScope := by
  rw [Site.inScope, Setting.inScope, presents.scope, presents.path]

section Rules

variable (presents : Presents whole setting site) (sits : Sits whole first node around)
  (here : site.node = first + node.countBelow)

include presents sits here

theorem report_eq (descriptor : Descriptor) (arguments : List String) :
    site.report descriptor arguments = setting.report node.outline descriptor arguments := by
  rw [Site.report, Setting.report, here, Tree.location, presents.forest, presents.path,
    sits.span_eq, span_outline]
  rfl

theorem misplaced?_eq :
    Acquisition.misplaced? site = setting.misplaced? (surroundings around) node.outline := by
  have type := resolve_enclosingType? presents.forest sits
  rw [Acquisition.misplaced?, Setting.misplaced?, presents.inScope_eq, here,
    enclosingMethodName?_eq_surroundings presents.forest sits, presents.forest,
    sits.methodName?_eq_outline]
  rw [presents.forest] at type
  refine bind_congr fun _ => bind_congr fun called => bind_congr fun _ => ?_
  cases (surroundings around).method with
  | none => rfl
  | some method =>
      simp only [Option.map_some, Option.bind_eq_bind, Option.bind_some]
      congr 1
      funext _
      cases enclosing : whole.forest.enclosingType? (first + node.countBelow) with
      | none =>
          rw [enclosing] at type
          rw [Option.map_eq_none_iff.mp type.symm]
          rfl
      | some id =>
          rw [enclosing, Option.bind_some] at type
          have behaves : Acquisition.declaresBehaviour site id =
              (surroundings around).type.any fun info =>
                (setting.declarations.typeSymbol info).derivesFrom Acquisition.behaviour
                  engineNamespace := by
            have resolved : site.resolve id =
                (surroundings around).type.map setting.declarations.typeSymbol := by
              rw [Site.resolve, presents.resolver, presents.declarations]
              exact type
            rw [Acquisition.declaresBehaviour, resolved]
            cases (surroundings around).type <;> simp [Declarations.typeSymbol]
          rw [Option.bind_some, behaves]
          cases (surroundings around).type <;> simp

theorem sceneLookup?_eq :
    SceneLookup.lookup? site = setting.sceneLookup? (surroundings around) node.outline := by
  rw [SceneLookup.lookup?, Setting.sceneLookup?, presents.inScope_eq, here,
    enclosingMethodName?_eq_surroundings presents.forest sits]
  refine bind_congr fun _ => ?_
  have named := sits.methodName?_eq_outline
  rw [← presents.forest] at named
  rcases callee?_cases node with none | ⟨callee, rest, call, parts, found⟩
  · rw [none] at named ⊢
    rw [named]
    rfl
  · have resolved : site.resolve (first + node.countBelow) =
        (surroundings around).calleeSymbol? setting.declarations callee.outline := by
      rw [Site.resolve, presents.resolver, presents.declarations,
        ← callSymbol?_eq_calleeSymbol? presents.forest sits call parts]
      simp [Declarations.resolver, Declarations.resolve, presents.forest, sits.node?_call call parts]
    rw [found] at named ⊢
    rw [named, owner?_eq_ownerName? presents.forest sits call parts, resolved]
    refine bind_congr fun called => bind_congr fun _ => bind_congr fun _ => ?_
    cases (surroundings around).method <;> rfl

omit sits here in
theorem offence?_eq {found : NullGuard} {part : Trace} {start : Nat} {outer : Nat × Trace}
    {others : List (Nat × Trace)} (inner : Sits whole start part (outer :: others))
    (tests : outer.2.form.kind.tests) (number : found.guarded = start + part.countBelow) :
    NullGuard.offence? site found.guarded =
      setting.offence? (surroundings (outer :: others)) part.outline := by
  rw [number, Setting.offence?, form_outline]
  cases form : part.form with
  | invocation =>
      rw [NullGuard.offence?, presents.forest, inner.node?_eq, inner.methodName?_eq_outline, form]
      cases parts : part.parts with
      | nil =>
          have nothing : part.outline.callee? = none := by simp [Outline.callee?, parts]
          rw [nothing]
          rfl
      | cons callee rest => rfl
  | identifier name =>
      have named : site.tree.node? (start + part.countBelow) = some (.identifier name) := by
        rw [presents.forest, inner.node?_eq, form]
        rfl
      have injected : NullGuard.isInjected site (start + part.countBelow) =
          ((surroundings (outer :: others)).nameSymbol? setting.declarations name).any
            Setting.promises := by
        rw [NullGuard.isInjected, Site.resolve, presents.resolver, presents.declarations,
          ← bareSymbol?_eq_surroundings presents.forest inner,
          ← resolve_of_tested presents.forest inner tests named]
        rfl
      simp only [NullGuard.offence?, named, injected]
  | _ =>
      apply NullGuard.offence?_of_kind?
      all_goals
        rw [presents.forest]
        intro found
        have kind := inner.kind_form found (by decide)
        rw [form] at kind
        cases kind

theorem check_acquisition_eq :
    Acquisition.rule.check site =
      (setting.misplaced? (surroundings around) node.outline).toList.map fun (called, method) =>
        setting.report node.outline Catalogue.acquisitionOutsideStart [called, method] := by
  dsimp only [Acquisition.rule]
  rw [misplaced?_eq presents sits here]
  simp only [report_eq presents sits here]
  cases setting.misplaced? (surroundings around) node.outline <;> rfl

theorem check_sceneLookup_eq :
    SceneLookup.rule.check site =
      (setting.sceneLookup? (surroundings around) node.outline).toList.map fun qualified =>
        setting.report node.outline Catalogue.sceneLookup [qualified] := by
  dsimp only [SceneLookup.rule]
  rw [sceneLookup?_eq presents sits here]
  simp only [report_eq presents sits here]
  cases setting.sceneLookup? (surroundings around) node.outline <;> rfl

theorem check_nullGuard_eq :
    NullGuard.rule.check site =
      if setting.inScope then
        (node.outline.guarded?.bind (setting.offence? (surroundings around))).toList.map
          fun descriptor => setting.report node.outline descriptor []
      else
        [] := by
  have offences : ((NullGuard.at? site.tree site.node).bind fun found =>
      NullGuard.offence? site found.guarded) =
        node.outline.guarded?.bind (setting.offence? (surroundings around)) := by
    have guards := guards_guarded? presents.forest sits
    rw [here]
    generalize NullGuard.at? site.tree (first + node.countBelow) = found at guards
    generalize node.outline.guarded? = value at guards
    cases guards with
    | none => rfl
    | some inner tests same number =>
        rw [Option.bind_some, Option.bind_some, ← same]
        exact offence?_eq presents inner tests number
  dsimp only [NullGuard.rule]
  rw [offences, presents.inScope_eq]
  simp only [report_eq presents sits here]
  cases node.outline.guarded?.bind (setting.offence? (surroundings around)) <;> rfl

end Rules

end Trace

/-! ## Silence off the interests of a rule -/

theorem Acquisition.check_of_kind? {site : Site}
    (other : site.tree.kind? site.node ≠ some .invocation) : rule.check site = [] := by
  have unnamed := Forest.methodName?_of_kind? other
  simp [rule, misplaced?, unnamed]

theorem SceneLookup.check_of_kind? {site : Site}
    (other : site.tree.kind? site.node ≠ some .invocation) : rule.check site = [] := by
  have unnamed := Forest.methodName?_of_kind? other
  simp [rule, lookup?, unnamed]

theorem NullGuard.check_of_kind? {site : Site}
    (ifStatement : site.tree.kind? site.node ≠ some .ifStatement)
    (access : site.tree.kind? site.node ≠ some .conditionalAccess) : rule.check site = [] := by
  simp [rule, at?_of_kind? ifStatement access]

namespace Engine

theorem dispatch_of_silent {scope : ScopeFilter} {rules : List Rule} {tree : Tree}
    {resolver : Resolver} {id : NodeId} {kind : NodeKind} (found : tree.kind? id = some kind)
    (silent : ∀ rule ∈ rules, kind ∉ rule.interests →
      rule.check { tree, node := id, resolver, scope } = []) :
    (ofRules scope rules).dispatch tree resolver id =
      rules.flatMap fun rule => rule.check { tree, node := id, resolver, scope } := by
  rw [dispatch_ofRules scope rules resolver found]
  induction rules with
  | nil => rfl
  | cons rule rest induction =>
      have others := induction fun other member => silent other (List.mem_cons_of_mem _ member)
      rw [List.filter_cons, List.flatMap_cons, ← others]
      split
      · rfl
      · rename_i other
        rw [silent rule List.mem_cons_self (by simpa using other), List.nil_append]

end Engine

namespace Trace

variable {whole node : Trace} {first : Nat} {around : List (Nat × Trace)} {setting : Setting}

theorem Sits.dispatch_eq_verdict (sits : Sits whole first node around) {tree : Tree}
    (presents : Presents whole setting
      { tree, node := first + node.countBelow, resolver := setting.declarations.resolver,
        scope := setting.scope }) :
    (Engine.ofRules setting.scope Preset.all.rules).dispatch tree setting.declarations.resolver
        (first + node.countBelow) =
      setting.verdict (surroundings around) node.outline := by
  have found : tree.kind? (first + node.countBelow) =
      some (node.form.build (numbersFrom first node.parts)).1.kind := by
    rw [presents.forest, sits.kind?_eq]
  rw [Engine.dispatch_of_silent found]
  · rw [Setting.verdict, ← check_acquisition_eq presents sits rfl,
      ← check_sceneLookup_eq presents sits rfl, ← check_nullGuard_eq presents sits rfl]
    simp [Preset.rules]
  · intro rule member other
    simp only [Preset.rules, List.mem_cons, List.not_mem_nil, or_false] at member
    rcases member with rfl | rfl | rfl
    · apply Acquisition.check_of_kind?
      simp_all [Acquisition.rule]
    · apply SceneLookup.check_of_kind?
      simp_all [SceneLookup.rule]
    · apply NullGuard.check_of_kind? <;> simp_all [NullGuard.rule]

end Trace

/-- The analysis of a file lists the verdicts on its outlines in their places. -/
theorem analyze_eq_flatMap_verdict (path source : String) (root : ParseTree) (scope : ScopeFilter) :
    let unit := SourceUnit.ofParseTree path source root
    (Engine.ofRules scope Preset.all.rules).analyze unit.tree unit.declarations.resolver =
      ((Outline.ofParseTree source.toList root).inPlace {}).flatMap fun place =>
        Setting.verdict { path, scope, declarations := unit.declarations } place.1 place.2 := by
  intro unit
  have forest := toForest_ofParseTree path source root
  have size : unit.tree.size = (Trace.ofParseTree source.toList root).size := by
    rw [← Trace.size_forest, ← forest]
  rw [Engine.analyze, Tree.ids, size, List.range_eq_range', ← Trace.outline_ofParseTree]
  refine Trace.Sits.flatMap_range' ?_ .root
  intro start inner others sits
  let setting : Setting := { path, scope, declarations := unit.declarations }
  have presents : Trace.Presents (.ofParseTree source.toList root) setting
      { tree := unit.tree, node := start + inner.countBelow,
        resolver := setting.declarations.resolver, scope := setting.scope } :=
    ⟨forest, rfl, rfl, declarations_ofParseTree path source root, rfl⟩
  exact sits.dispatch_eq_verdict presents

end UnityLint
