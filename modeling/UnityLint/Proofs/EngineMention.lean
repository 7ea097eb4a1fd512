import Mathlib.Data.Option.Basic
import UnityLint.Proofs.EngineLookup
import UnityLint.Proofs.TextParts
import UnityLint.Rule.Acquisition

/-! # Files that do not mention the engine

The types of the engine are reached only through its namespace. A file in whose text the namespace
does not stand reaches none of them, whatever it declares, imports and calls. -/

namespace UnityLint

/-- The namespace of the engine stands nowhere in a text, blanks aside. -/
def EngineFree (text : List Char) : Prop :=
  ¬Text.occurs engineNamespace.toList (Text.compact text)

namespace EngineFree

variable {text part left right : List Char}

theorem within (free : EngineFree text) (inside : part <:+: text) : EngineFree part := by
  intro found
  apply free
  rw [Text.occurs_iff] at found ⊢
  exact found.trans (Text.isInfix_compact inside)

theorem compact (free : EngineFree text) : EngineFree (Text.compact text) := by
  rw [EngineFree, Text.compact_compact]
  exact free

theorem ofList_ne (free : EngineFree text) : String.ofList text ≠ engineNamespace := by
  intro same
  apply free
  have equal : text = engineNamespace.toList := by rw [← same, String.toList_ofList]
  rw [equal]
  decide

theorem nil : EngineFree [] := by
  rw [EngineFree]
  decide

theorem dotted (left_free : EngineFree left) (right_free : EngineFree right) :
    EngineFree (left ++ '.' :: right) := by
  intro found
  have split : Text.compact (left ++ '.' :: right) =
      Text.compact left ++ '.' :: Text.compact right := by
    simp [Text.compact, show Text.isBlank '.' = false by decide]
  have undivided : '.' ∉ engineNamespace.toList := by decide
  rw [Text.occurs_iff, split] at found
  rcases Text.infix_or_infix_of_divided undivided found with inLeft | inRight
  · exact left_free (Text.occurs_iff.mpr inLeft)
  · exact right_free (Text.occurs_iff.mpr inRight)

end EngineFree

/-! ## Lookups -/

theorem isInfix_bareTypeName (written : String) :
    (bareTypeName written).toList <:+: written.toList := by
  have bare : (Text.dropStart? "global::".toList (Text.trim written.toList)).getD
      (Text.trim written.toList) <:+: Text.trim written.toList := by
    cases found : Text.dropStart? "global::".toList (Text.trim written.toList) with
    | none => exact List.infix_rfl
    | some rest => exact (Text.suffix_of_dropStart? found).isInfix
  rw [bareTypeName, String.toList_ofList]
  exact (Text.isInfix_trim _).trans
    ((Text.isPrefix_upTo _ _).isInfix.trans (bare.trans (Text.isInfix_trim _)))

namespace Declarations

structure WithoutEngine (declarations : Declarations) : Prop where
  usings : ∀ name ∈ declarations.usings, EngineFree name.toList
  aliases : ∀ entry ∈ declarations.aliases, EngineFree entry.2.toList
  spaces : ∀ info ∈ declarations.types.values, info.namespaceName ≠ some engineNamespace
  bases : ∀ info ∈ declarations.types.values, ∀ written ∈ info.base, EngineFree written.toList

variable {declarations : Declarations} {info : TypeInfo} {written name : String} {ref : TypeRef}
  (without : declarations.WithoutEngine)

include without

theorem WithoutEngine.declared_of_lookup (free : EngineFree written.toList)
    (found : declarations.lookup written = some ref) :
    ∃ info ∈ declarations.types.values, ref = .declared info := by
  rcases lookup_cases found with declared | ⟨_, imported | ⟨dotted, name, origin, cut⟩⟩
  · exact declared
  · have free := without.usings _ imported
    exact absurd String.ofList_toList free.ofList_ne
  · have clean : EngineFree dotted.toList := by
      rcases origin with rfl | ⟨entry, member, rfl⟩
      · exact free
      · exact without.aliases entry member
    have inside : engineNamespace.toList <:+: (bareTypeName dotted).toList := by
      rw [Text.eq_append_of_cutLast cut]
      exact (List.prefix_append _ _).isInfix
    have free := clean.within (inside.trans (isInfix_bareTypeName dotted))
    exact absurd String.ofList_toList free.ofList_ne

theorem WithoutEngine.ne_of_mem_basesWithin (depth : Nat) {base : Option String}
    (free : ∀ written ∈ base, EngineFree written.toList) :
    ∀ type ∈ declarations.basesWithin depth base, type.namespaceName ≠ some engineNamespace := by
  induction depth generalizing base with
  | zero =>
      intro type member
      cases member
  | succ depth induction =>
      intro type member
      cases base with
      | none => cases member
      | some written =>
          rw [basesWithin] at member
          cases found : declarations.lookup written with
          | none =>
              rw [found] at member
              rw [List.mem_singleton.mp member]
              intro same
              cases same
          | some ref =>
              rcases without.declared_of_lookup (free written rfl) found with ⟨info, listed, rfl⟩
              rw [found] at member
              rcases List.mem_cons.mp member with rfl | further
              · exact without.spaces info listed
              · exact induction (without.bases info listed) type further

theorem WithoutEngine.container_of_methodWithin (depth : Nat) {symbol : Symbol}
    (listed : info ∈ declarations.types.values)
    (found : declarations.methodWithin name depth info = some symbol) :
    ∀ container ∈ symbol.container, container.namespaceName ≠ some engineNamespace := by
  induction depth generalizing info with
  | zero => cases found
  | succ depth induction =>
      rw [methodWithin] at found
      split at found
      · cases found
        intro container same
        cases same
        exact without.spaces info listed
      · cases search : info.base.bind declarations.lookup with
        | none =>
            rw [search] at found
            cases found
        | some ref =>
            rcases Option.bind_eq_some_iff.mp search with ⟨written, base, looked⟩
            rcases without.declared_of_lookup (without.bases info listed written base) looked with
              ⟨other, known, rfl⟩
            rw [search] at found
            exact induction known found

end Declarations

/-! ## Calls and types -/

def Forest.NamesWithoutEngine (forest : Forest) : Prop :=
  ∀ id name, forest.simpleName? id = some name → EngineFree name.toList

theorem Forest.NamesWithoutEngine.dottedName {forest : Forest} (names : forest.NamesWithoutEngine)
    {depth : Nat} {id : NodeId} {text : String}
    (found : forest.dottedNameWithin depth id = some text) : EngineFree text.toList := by
  induction depth generalizing id text with
  | zero => cases found
  | succ depth induction =>
      rw [dottedNameWithin] at found
      have simple := names id
      rw [simpleName?] at simple
      split at found
      · rename_i name node
        cases found
        exact simple text (by rw [node]; rfl)
      · rename_i name node
        cases found
        exact simple text (by rw [node]; rfl)
      · rename_i receiver member node
        simp only [Option.bind_eq_bind, Option.bind_eq_some_iff, Option.some.injEq] at found
        rcases found with ⟨head, before, last, after, rfl⟩
        have joined := (induction before).dotted (names member last after)
        rw [String.toList_append, String.toList_append, List.append_assoc]
        exact joined
      · cases found

namespace Declarations

variable {declarations : Declarations} {tree : Tree}

variable (without : declarations.WithoutEngine)

include without

theorem WithoutEngine.container_of_bareCallSymbol? {call : NodeId} {name : String}
    {symbol : Symbol} (found : declarations.bareCallSymbol? tree call name = some symbol) :
    ∀ container ∈ symbol.container, container.namespaceName ≠ some engineNamespace := by
  rcases Option.bind_eq_some_iff.mp found with ⟨info, around, chosen⟩
  have listed := mem_values_of_typeAround? around
  split at chosen
  · cases chosen
    intro container same
    cases same
    exact without.spaces info listed
  · exact without.container_of_methodWithin _ listed chosen

theorem WithoutEngine.container_of_callSymbol? (names : tree.NamesWithoutEngine)
    {call callee : NodeId} {symbol : Symbol}
    (found : declarations.callSymbol? tree call callee = some symbol) :
    ∀ container ∈ symbol.container, container.namespaceName ≠ some engineNamespace := by
  rcases callSymbol?_cases found with
    ⟨name, _, bare⟩ | ⟨receiver, member, name, written, ref, _, _, _, dotted, looked, chosen⟩
  · exact without.container_of_bareCallSymbol? bare
  · rcases without.declared_of_lookup (names.dottedName dotted) looked with ⟨info, listed, rfl⟩
    exact without.container_of_methodWithin _ listed chosen

theorem WithoutEngine.derivesFrom_typeSymbol {info : TypeInfo}
    (listed : info ∈ declarations.types.values) (name : String) :
    (declarations.typeSymbol info).derivesFrom name engineNamespace = false := by
  have own := without.spaces info listed
  have inherited := without.ne_of_mem_basesWithin baseLimit (without.bases info listed)
  rw [Symbol.derivesFrom, Bool.or_eq_false_iff, List.any_eq_false]
  constructor
  · simp [Symbol.typeName, typeSymbol, TypeName.matches?, own]
  · intro type member
    simp [TypeName.matches?, inherited type member]

end Declarations

/-! ## Rules -/

section Rules

variable {declarations : Declarations} {site : Site}

theorem Acquisition.behaviour_of_misplaced? {names : String × String}
    (found : misplaced? site = some names) :
    ∃ type, site.tree.enclosingType? site.node = some type ∧ declaresBehaviour site type := by
  rcases misplaced?_eq_some_iff.mp found with ⟨_, _, _, _, _, enclosed⟩
  exact enclosed

theorem Acquisition.check_eq_nil (without : declarations.WithoutEngine)
    (resolver : site.resolver = declarations.resolver) : rule.check site = [] := by
  have nowhere : misplaced? site = none := by
    rw [Option.eq_none_iff_forall_ne_some]
    intro names found
    rcases behaviour_of_misplaced? found with ⟨type, enclosing, declares⟩
    have kind := List.find?_some enclosing
    rw [decide_eq_true_eq, Forest.kind?, Option.map_eq_some_iff] at kind
    rcases kind with ⟨node, here, kind⟩
    cases node with
    | typeDeclaration name =>
        rw [declaresBehaviour, Site.resolve, resolver, Declarations.resolver] at declares
        simp only [Declarations.resolve, here] at declares
        cases noted : declarations.types.find? type with
        | none =>
            rw [noted] at declares
            cases declares
        | some info =>
            have other := without.derivesFrom_typeSymbol (Table.mem_values_of_find? noted) behaviour
            rw [noted, Option.map_some, Option.any_some, other] at declares
            simp at declares
    | _ => cases kind
  dsimp only [rule]
  rw [nowhere]

theorem SceneLookup.check_eq_nil (without : declarations.WithoutEngine)
    (names : site.tree.NamesWithoutEngine) (resolver : site.resolver = declarations.resolver) :
    rule.check site = [] := by
  have nowhere : lookup? site = none := by
    rw [Option.eq_none_iff_forall_ne_some]
    intro qualified found
    rcases lookup?_eq_some_iff.mp found with
      ⟨_, called, named, _, _, _, _, _, target, container, resolved, owner, inEngine, _⟩
    rcases Forest.exists_callee_of_methodName? named with ⟨callee, here⟩
    rw [Site.resolve, resolver, Declarations.resolver] at resolved
    simp only [Declarations.resolve, here] at resolved
    exact without.container_of_callSymbol? names resolved container owner inEngine
  dsimp only [rule]
  rw [nowhere]

end Rules

/-! ## Declarations of a text -/

def UsingDirective.target : UsingDirective → String
  | .namespaceImport name => name
  | .nameAlias _ target => target

namespace ParseTree

variable {source : List Char}

theorem isInfix_text (source : List Char) (row : ParseTree) : row.text source <:+: source :=
  Text.isInfix_slice ..

theorem infix_of_usingDirective? {written : List Char} {directive : UsingDirective}
    (found : usingDirective? written = some directive) :
    ∃ content, content <:+: written ∧
      directive.target = String.ofList (Text.compact content) := by
  have statement : Text.trim (Text.dropEndWhile (· = ';') (Text.trim written)) <:+: written :=
    (Text.isInfix_trim _).trans
      ((Text.isPrefix_dropEndWhile _ _).isInfix.trans (Text.isInfix_trim written))
  rw [usingDirective?] at found
  generalize Text.trim (Text.dropEndWhile (· = ';') (Text.trim written)) = stated at *
  have body : ((Text.dropStart? "global".toList stated).map Text.trimStart).getD stated <:+:
      written := by
    cases dropped : Text.dropStart? "global".toList stated with
    | none => exact statement
    | some rest =>
        exact (Text.isSuffix_trimStart rest).isInfix.trans
          ((Text.suffix_of_dropStart? dropped).isInfix.trans statement)
  rcases Option.bind_eq_some_iff.mp found with ⟨rest, dropped, said⟩
  have content : Text.trim rest <:+: written :=
    (Text.isInfix_trim rest).trans ((Text.suffix_of_dropStart? dropped).isInfix.trans body)
  dsimp only at said
  split at said
  · cases said
  · split at said
    · rename_i newName target cut
      cases said
      refine ⟨target, ?_, rfl⟩
      have inside : target <:+: Text.trim rest := by
        rw [Text.eq_append_of_cutFirst cut]
        exact ⟨newName ++ ['='], [], by simp⟩
      exact inside.trans content
    · cases said
      exact ⟨Text.trim rest, content, rfl⟩

theorem engineFree_dottedText (free : EngineFree source) (row : ParseTree) :
    EngineFree (row.dottedText source).toList := by
  rw [dottedText, String.toList_ofList]
  exact (free.within (row.isInfix_text source)).compact

theorem engineFree_of_mem_innerSpaces (free : EngineFree source) {spaces : List String}
    (outer : ∀ space ∈ spaces, EngineFree space.toList) (row : ParseTree) :
    ∀ space ∈ row.innerSpaces source spaces, EngineFree space.toList := by
  intro space member
  rw [innerSpaces] at member
  split at member
  · rcases List.mem_append.mp member with old | new
    · exact outer space old
    · rcases Option.map_eq_some_iff.mp (Option.mem_toList.mp new) with ⟨name, _, rfl⟩
      exact engineFree_dottedText free name
  · exact outer space member

theorem engineFree_of_mem_spacesFrom (free : EngineFree source) {spaces : List String}
    (outer : ∀ space ∈ spaces, EngineFree space.toList) (tree : ParseTree) (position : Position) :
    ∀ space ∈ tree.spacesFrom source spaces position, EngineFree space.toList := by
  induction position generalizing tree spaces with
  | nil => exact outer
  | cons place rest induction =>
      have inner := engineFree_of_mem_innerSpaces free outer tree
      rw [spacesFrom]
      split
      · exact induction inner _
      · exact inner

theorem engineFree_intercalate {spaces : List String}
    (free : ∀ space ∈ spaces, EngineFree space.toList) :
    EngineFree (".".intercalate spaces).toList := by
  induction spaces with
  | nil => exact .nil
  | cons space rest induction =>
      have later := induction fun other member => free other (List.mem_cons_of_mem _ member)
      have own := free space List.mem_cons_self
      cases rest with
      | nil => exact own
      | cons next others =>
          rw [String.intercalate_cons_cons, String.toList_append, String.toList_append,
            List.append_assoc]
          exact own.dotted later

theorem namespaceName?_ne (free : EngineFree source) (root : ParseTree) (position : Position) :
    Reading.namespaceName? (root.fileNamespace? source) (root.spacesFrom source [] position) ≠
      some engineNamespace := by
  have named {name : String} (clean : EngineFree name.toList) : name ≠ engineNamespace := by
    rw [← String.ofList_toList (s := name)]
    exact clean.ofList_ne
  rw [Reading.namespaceName?]
  split
  · intro same
    rcases Option.bind_eq_some_iff.mp same with ⟨declaration, _, found⟩
    rcases Option.map_eq_some_iff.mp found with ⟨name, _, equal⟩
    exact named (engineFree_dottedText free name) equal
  · intro same
    have clean : ∀ space ∈ root.spacesFrom source [] position, EngineFree space.toList :=
      engineFree_of_mem_spacesFrom free (by simp) root position
    exact named (engineFree_intercalate clean) (Option.some.inj same)

theorem engineFree_of_base? (free : EngineFree source) {row : ParseTree} {written : String}
    (found : row.base? source = some written) : EngineFree written.toList := by
  rcases Option.bind_eq_some_iff.mp found with ⟨list, _, first⟩
  rcases Option.map_eq_some_iff.mp first with ⟨base, _, rfl⟩
  rw [String.toList_ofList]
  exact free.within ((Text.isInfix_trim _).trans
    ((Text.isPrefix_upTo _ _).isInfix.trans (base.isInfix_text source)))

end ParseTree

namespace Trace

variable {source : List Char} (root : ParseTree) (free : EngineFree source)

include free

theorem withoutEngine_declarations : (ofParseTree source root).declarations.WithoutEngine := by
  have noted := (ofParseTree source root).noted_declarations
  have target {directive : UsingDirective}
      (member : directive ∈ (ofParseTree source root).directives) :
      EngineFree directive.target.toList := by
    rcases mem_directives.mp member with ⟨node, inside, found⟩
    rcases ParseTree.madeFrom_of_mem_nodes inside with ⟨row, made⟩
    rcases ParseTree.infix_of_usingDirective? (made.directive_eq found) with
      ⟨content, within, equal⟩
    rw [equal, String.toList_ofList]
    exact ((free.within (row.isInfix_text source)).within within).compact
  constructor
  · intro name member
    rw [noted.usings, List.nil_append] at member
    rcases List.mem_filterMap.mp member with ⟨directive, inside, found⟩
    cases directive <;> cases found
    exact target inside
  · intro entry member
    rw [noted.aliases, List.append_nil, List.mem_reverse] at member
    rcases List.mem_filterMap.mp member with ⟨directive, inside, found⟩
    cases directive <;> cases found
    exact target inside
  · intro info member
    rcases declaresType_of_mem_values member with ⟨position, row, type⟩
    rw [type.info]
    exact ParseTree.namespaceName?_ne free root position
  · intro info member written base
    rcases declaresType_of_mem_values member with ⟨position, row, type⟩
    rw [type.info] at base
    exact ParseTree.engineFree_of_base? free base

theorem namesWithoutEngine_forest : (ofParseTree source root).forest.NamesWithoutEngine := by
  intro id name found
  rcases Option.bind_eq_some_iff.mp found with ⟨built, here, _⟩
  rcases exists_sits_of_node? here with ⟨first, node, around, sits, rfl⟩
  rcases sits.madeFrom with ⟨row, made⟩
  rw [sits.simpleName?_eq] at found
  cases form : node.form with
  | identifier other =>
      rw [form] at found
      cases found
      rw [(made.identifier_eq form).2, String.toList_ofList]
      exact free.within (row.isInfix_text source)
  | genericName other =>
      rw [form] at found
      cases found
      rw [made.genericName_eq form]
      cases row.childOfKind? "identifier" with
      | none => exact .nil
      | some child =>
          rw [Option.map_some, Option.getD_some, String.toList_ofList]
          exact free.within (child.isInfix_text source)
  | _ =>
      rw [form] at found
      cases found

end Trace

/-- A file that does not mention the namespace of the engine, blanks aside, breaks no rule about
fetching components and searching the scene. -/
theorem analyze_eq_nil_of_not_occurs (path source : String) (root : ParseTree) (scope : ScopeFilter)
    (unmentioned : ¬Text.occurs "UnityEngine".toList (Text.compact source.toList)) :
    let unit := SourceUnit.ofParseTree path source root
    (Engine.ofRules scope [Acquisition.rule, SceneLookup.rule]).analyze unit.tree
      unit.declarations.resolver = [] := by
  have without := Trace.withoutEngine_declarations root unmentioned
  have names := Trace.namesWithoutEngine_forest root unmentioned
  rw [← declarations_ofParseTree path] at without
  rw [← toForest_ofParseTree path] at names
  dsimp only
  rw [Engine.analyze, List.flatMap_eq_nil_iff]
  intro id _
  rw [List.eq_nil_iff_forall_not_mem]
  intro diagnostic reported
  rcases Engine.exists_rule_of_mem_dispatch reported with ⟨rule, member, checked⟩
  rcases List.mem_cons.mp member with rfl | other
  · rw [Acquisition.check_eq_nil without rfl] at checked
    cases checked
  · rw [List.mem_singleton.mp other, SceneLookup.check_eq_nil without names rfl] at checked
    cases checked

/-- The parse tree of `class A : MonoBehaviour { void Update() { Find(); } }`, without the type that
the method returns. -/
def ParseTree.unknownBehaviour : ParseTree :=
  .row "compilation_unit" true none ⟨0, 53, 0, 0⟩ [
    .row "class_declaration" true none ⟨0, 53, 0, 0⟩ [
      .row "identifier" true (some .name) ⟨6, 7, 0, 6⟩ [],
      .row "base_list" true none ⟨8, 23, 0, 8⟩ [
        .row "identifier" true none ⟨10, 23, 0, 10⟩ []],
      .row "declaration_list" true (some .body) ⟨24, 53, 0, 24⟩ [
        .row "method_declaration" true none ⟨26, 51, 0, 26⟩ [
          .row "identifier" true (some .name) ⟨31, 37, 0, 31⟩ [],
          .row "block" true (some .body) ⟨40, 51, 0, 40⟩ [
            .row "invocation_expression" true none ⟨42, 48, 0, 42⟩ [
              .row "identifier" true (some .function) ⟨42, 46, 0, 42⟩ [],
              .row "argument_list" true none ⟨46, 48, 0, 46⟩ []]]]]]]

theorem analyze_eq_nil_of_not_occurs_unknownBehaviour :
    let source := "class A : MonoBehaviour { void Update() { Find(); } }"
    let unit := SourceUnit.ofParseTree "Assets/A.cs" source .unknownBehaviour
    ¬Text.occurs "UnityEngine".toList (Text.compact source.toList) ∧
      (Engine.ofRules .standard [Acquisition.rule, SceneLookup.rule]).analyze unit.tree
        unit.declarations.resolver = [] := by
  have unmentioned : ¬Text.occurs "UnityEngine".toList
      (Text.compact "class A : MonoBehaviour { void Update() { Find(); } }".toList) := by
    decide
  exact ⟨unmentioned, analyze_eq_nil_of_not_occurs _ _ _ _ unmentioned⟩

end UnityLint
