import Mathlib.Data.List.Basic
import UnityLint.Proofs.Ancestors
import UnityLint.Proofs.Dispatch
import UnityLint.Proofs.Queries
import UnityLint.Proofs.Reports
import UnityLint.Proofs.Templates

/-! # Exact reports

What a rule reports about a tree, in words of the tree alone: which nodes it reports, and that each of
them is reported once, in the order of the nodes. The numbers in a tree need not belong to nodes. -/

namespace UnityLint

/-- The diagnostics are the reports on the verdicts that hold: one for each node that has a verdict, in
the order of the nodes. -/
def ReportsExactly {α : Type} (Holds : NodeId → α → Prop) (report : NodeId → α → Diagnostic)
    (diagnostics : List Diagnostic) : Prop :=
  ∃ verdicts : List (NodeId × α),
    (∀ id verdict, (id, verdict) ∈ verdicts ↔ Holds id verdict) ∧
      verdicts.Pairwise (fun earlier later => earlier.1 < later.1) ∧
      diagnostics = verdicts.map fun entry => report entry.1 entry.2

theorem Engine.reportsExactly_analyze {α : Type} (verdict? : NodeId → Option α) {engine : Engine}
    {tree : Tree} {resolver : Resolver} {Holds : NodeId → α → Prop}
    {report : NodeId → α → Diagnostic}
    (holds : ∀ id verdict, verdict? id = some verdict ↔ Holds id verdict)
    (known : ∀ id verdict, Holds id verdict → id < tree.size)
    (single : ∀ id, engine.dispatch tree resolver id = ((verdict? id).map (report id)).toList) :
    ReportsExactly Holds report (engine.analyze tree resolver) := by
  refine ⟨tree.ids.filterMap fun id => (verdict? id).map (id, ·), ?_, ?_, ?_⟩
  · intro id verdict
    rw [List.mem_filterMap, ← holds]
    constructor
    · rintro ⟨other, _, found⟩
      rcases Option.map_eq_some_iff.mp found with ⟨_, found, equal⟩
      cases equal
      exact found
    · intro found
      refine ⟨id, ?_, by rw [found, Option.map_some]⟩
      exact List.mem_range.mpr (known id verdict ((holds id verdict).mp found))
  · refine List.Pairwise.filterMap _ ?_ List.pairwise_lt_range
    intro earlier later before first foundFirst second foundSecond
    rcases Option.map_eq_some_iff.mp foundFirst with ⟨_, _, rfl⟩
    rcases Option.map_eq_some_iff.mp foundSecond with ⟨_, _, rfl⟩
    exact before
  · rw [analyze, List.map_filterMap, List.filterMap_eq_flatMap_toList]
    congr 1
    funext id
    rw [single, Option.map_map]
    rfl

theorem Engine.dispatch_ofRules_singleton {α : Type} {rule : Rule} {verdict? : Site → Option α}
    (report : Site → α → Diagnostic)
    (check : ∀ site, rule.check site = ((verdict? site).map (report site)).toList)
    (interested : ∀ site verdict, verdict? site = some verdict →
      ∃ kind ∈ rule.interests, site.tree.kind? site.node = some kind)
    (scope : ScopeFilter) (tree : Tree) (resolver : Resolver) (id : NodeId) :
    (ofRules scope [rule]).dispatch tree resolver id =
      ((verdict? { tree, node := id, resolver, scope }).map
        (report { tree, node := id, resolver, scope })).toList := by
  rw [dispatch_ofRules_eq, List.filter_cons, List.filter_nil]
  cases found : verdict? { tree, node := id, resolver, scope } with
  | none =>
      split
      · rw [List.flatMap_singleton, check, found]
      · rfl
  | some verdict =>
      rcases interested _ verdict found with ⟨kind, interesting, here⟩
      rw [here, Option.any_some, if_pos (decide_eq_true interesting), List.flatMap_singleton, check,
        found]

theorem isWatched_iff {name : String} {watched : List String} :
    isWatched name watched ↔ ∃ start ∈ watched, start.toList <+: name.toList := by
  simp [isWatched]

/-! ## Misplaced acquisitions -/

namespace Acquisition

def IsBehaviour (symbol : Symbol) : Prop :=
  symbol.kind = .type ∧
    (symbol.name = "MonoBehaviour" ∧ symbol.namespaceName = some "UnityEngine" ∨
      ⟨"MonoBehaviour", some "UnityEngine"⟩ ∈ symbol.bases)

/-- The call fetches a component by `called` in the method `around` of a behaviour, and that method is
none of its initialisers. -/
structure Misplaced (scope : ScopeFilter) (tree : Tree) (resolver : Resolver) (call : NodeId)
    (called around : String) : Prop where
  inScope : scope.includes tree.path
  invoked : tree.kind? call = some .invocation
  named : tree.methodName? call = some called
  acquires : ∃ start ∈ acquisitionMethods, start.toList <+: called.toList
  inside : ∃ method, tree.Nearest .methodDeclaration call method ∧
    tree.node? method = some (.methodDeclaration around)
  late : around ≠ "Awake" ∧ around ≠ "Start"
  behaves : ∃ type symbol, tree.Nearest .typeDeclaration call type ∧
    resolver.resolve tree type = some symbol ∧ IsBehaviour symbol

theorem isBehaviour_iff {symbol : Symbol} :
    IsBehaviour symbol ↔ symbol.kind = .type ∧ symbol.derivesFrom behaviour engineNamespace := by
  have named (type : TypeName) : type.matches? behaviour engineNamespace ↔
      type = ⟨"MonoBehaviour", some "UnityEngine"⟩ := by
    cases type
    rw [TypeName.matches?, decide_eq_true_iff, TypeName.mk.injEq]
    rfl
  rw [IsBehaviour, Symbol.derivesFrom, Bool.or_eq_true, named, List.any_eq_true]
  simp [named, Symbol.typeName]

theorem declaresBehaviour_iff {site : Site} {type : NodeId} :
    declaresBehaviour site type ↔
      ∃ symbol, site.resolver.resolve site.tree type = some symbol ∧ IsBehaviour symbol := by
  rw [declaresBehaviour, Option.any_eq_true]
  simp only [isBehaviour_iff, decide_eq_true_eq]
  rfl

variable {scope : ScopeFilter} {tree : Tree} {resolver : Resolver} {call : NodeId}

theorem misplaced?_iff_misplaced {called around : String} :
    misplaced? { tree, node := call, resolver, scope } = some (called, around) ↔
      Misplaced scope tree resolver call called around := by
  rw [misplaced?_eq_some_iff, isWatched_iff, Forest.enclosingMethodName?_eq_some_iff]
  simp only [declaresBehaviour_iff, Forest.enclosingType?, Forest.enclosing?_eq_some_iff]
  constructor
  · rintro ⟨inScope, named, acquires, inside, late, type, nearest, symbol, resolved, behaves⟩
    rcases Forest.exists_callee_of_methodName? named with ⟨callee, invoked⟩
    exact ⟨inScope, Forest.kind?_of_node? invoked, named, acquires, inside,
      by simpa [initializers] using late, type, symbol, nearest, resolved, behaves⟩
  · rintro ⟨inScope, _, named, acquires, inside, late, type, symbol, nearest, resolved, behaves⟩
    exact ⟨inScope, named, acquires, inside, by simpa [initializers] using late, type, nearest,
      symbol, resolved, behaves⟩

theorem message_eq (called around : String) :
    Catalogue.acquisitionOutsideStart.message [called, around] =
      "'" ++ called ++ "' is only allowed in Awake or Start. Found in '" ++ around ++
        "'. Use cached field or DI instead." := by
  have places : Catalogue.acquisitionOutsideStart.template.toList =
      "'".toList ++ ('\x7b' :: ("0".toList ++ '\x7d' ::
        ("' is only allowed in Awake or Start. Found in '".toList ++
          ('\x7b' :: ("1".toList ++ '\x7d' ::
            "'. Use cached field or DI instead.".toList))))) := by
    decide
  rw [Descriptor.message, Template.format, places, Template.fill_append (by decide),
    Template.fill_place (by decide) rfl, Template.fill_append (by decide),
    Template.fill_place (by decide) rfl, Template.fill_eq_self (by decide)]
  apply String.toList_injective
  simp

theorem dispatch_eq (scope : ScopeFilter) (tree : Tree) (resolver : Resolver) (id : NodeId) :
    (Engine.ofRules scope [rule]).dispatch tree resolver id =
      ((misplaced? { tree, node := id, resolver, scope }).map fun names =>
        ({ tree, node := id, resolver, scope } : Site).report Catalogue.acquisitionOutsideStart
          [names.1, names.2]).toList := by
  apply Engine.dispatch_ofRules_singleton fun site (names : String × String) =>
    site.report Catalogue.acquisitionOutsideStart [names.1, names.2]
  · intro site
    dsimp only [rule]
    cases misplaced? site <;> rfl
  · intro site names found
    exact ⟨.invocation, List.mem_cons_self, (misplaced?_iff_misplaced.mp found).invoked⟩

end Acquisition

/-- The rule on acquisitions reports each misplaced acquisition once, in the order of the nodes, and
nothing else. A report is located at the call and names the called method and the one around it. -/
theorem misplacedAcquisitions_reportedExactly (scope : ScopeFilter) (tree : Tree)
    (resolver : Resolver) :
    ReportsExactly
      (fun call (names : String × String) =>
        Acquisition.Misplaced scope tree resolver call names.1 names.2)
      (fun call names =>
        { code := "SR0001"
          rule := "get-component-outside-init"
          severity := .warning
          location := tree.location call
          message := "'" ++ names.1 ++ "' is only allowed in Awake or Start. Found in '" ++
            names.2 ++ "'. Use cached field or DI instead."
          arguments := [names.1, names.2]
          suggestion := some "cache the component in a field during Awake/Start, or inject it" })
      ((Engine.ofRules scope [Acquisition.rule]).analyze tree resolver) := by
  apply Engine.reportsExactly_analyze fun id =>
    Acquisition.misplaced? { tree, node := id, resolver, scope }
  · intro call names
    exact Acquisition.misplaced?_iff_misplaced
  · intro call names misplaced
    exact Forest.lt_size_of_kind? misplaced.invoked
  · intro call
    rw [Acquisition.dispatch_eq]
    simp only [← Acquisition.message_eq]
    rfl

/-! ## Scene lookups -/

namespace SceneLookup

/-- The call looks something up in the scene on every frame, by the method `called` that the type
`declaring` of the engine declares. A receiver counts only if it is a bare name. -/
structure Frequent (scope : ScopeFilter) (tree : Tree) (resolver : Resolver) (call : NodeId)
    (called : String) (declaring : TypeName) : Prop where
  inScope : scope.includes tree.path
  invoked : tree.kind? call = some .invocation
  named : tree.methodName? call = some called
  searches : ∃ start ∈ lookupMethods, start.toList <+: called.toList
  owned : ∀ callee receiver member owner, tree.node? call = some (.invocation callee) →
    tree.node? callee = some (.memberAccess receiver member) →
    tree.node? receiver = some (.identifier owner) → owner = "Object" ∨ owner = "GameObject"
  inside : ∃ method around, tree.Nearest .methodDeclaration call method ∧
    tree.node? method = some (.methodDeclaration around) ∧
    around ∈ ["Update", "FixedUpdate", "LateUpdate", "OnGUI"]
  resolved : ∃ symbol, resolver.resolve tree call = some symbol ∧
    symbol.container = some declaring ∧ declaring.namespaceName = some "UnityEngine"

theorem owner?_eq_some_iff {tree : Tree} {call : NodeId} {owner : String} :
    owner? tree call = some owner ↔ ∃ callee receiver member,
      tree.node? call = some (.invocation callee) ∧
      tree.node? callee = some (.memberAccess receiver member) ∧
      tree.node? receiver = some (.identifier owner) := by
  constructor
  · intro found
    rw [owner?] at found
    split at found
    · rename_i callee invoked
      split at found
      · rename_i receiver member accessed
        split at found
        · rename_i name named
          cases found
          exact ⟨callee, receiver, member, invoked, accessed, named⟩
        · cases found
      · cases found
    · cases found
  · rintro ⟨callee, receiver, member, invoked, accessed, named⟩
    exact owner?_eq_some invoked accessed named

variable {scope : ScopeFilter} {tree : Tree} {resolver : Resolver} {call : NodeId}

theorem all_owner?_iff :
    (owner? tree call).all (· ∈ owners) ↔ ∀ callee receiver member owner,
      tree.node? call = some (.invocation callee) →
      tree.node? callee = some (.memberAccess receiver member) →
      tree.node? receiver = some (.identifier owner) → owner = "Object" ∨ owner = "GameObject" := by
  simp only [Option.all_eq_true, owner?_eq_some_iff, owners, List.mem_cons, List.not_mem_nil, or_false,
    decide_eq_true_eq]
  constructor
  · intro owned callee receiver member owner invoked accessed named
    exact owned owner ⟨callee, receiver, member, invoked, accessed, named⟩
  · rintro owned owner ⟨callee, receiver, member, invoked, accessed, named⟩
    exact owned callee receiver member owner invoked accessed named

theorem lookup?_iff_frequent {qualified : String} :
    lookup? { tree, node := call, resolver, scope } = some qualified ↔
      ∃ called declaring, Frequent scope tree resolver call called declaring ∧
        qualified = declaring.name ++ "." ++ called := by
  rw [lookup?_eq_some_iff]
  simp only [isWatched_iff, all_owner?_iff, Forest.enclosingMethodName?_eq_some_iff]
  constructor
  · rintro ⟨inScope, called, named, searches, owned, around, ⟨method, nearest, declared⟩, frame,
      symbol, declaring, resolved, contained, engine, rfl⟩
    rcases Forest.exists_callee_of_methodName? named with ⟨callee, invoked⟩
    exact ⟨called, declaring, ⟨inScope, Forest.kind?_of_node? invoked, named, searches, owned,
      ⟨method, around, nearest, declared, frame⟩, ⟨symbol, resolved, contained, engine⟩⟩, rfl⟩
  · rintro ⟨called, declaring, ⟨inScope, _, named, searches, owned,
      ⟨method, around, nearest, declared, frame⟩, ⟨symbol, resolved, contained, engine⟩⟩, rfl⟩
    exact ⟨inScope, called, named, searches, owned, around, ⟨method, nearest, declared⟩, frame,
      symbol, declaring, resolved, contained, engine, rfl⟩

theorem message_eq (qualified : String) :
    Catalogue.sceneLookup.message [qualified] =
      "'" ++ qualified ++ "' is forbidden. Use DI (VContainer) or SerializeField instead." := by
  have places : Catalogue.sceneLookup.template.toList =
      "'".toList ++ ('\x7b' :: ("0".toList ++ '\x7d' ::
        "' is forbidden. Use DI (VContainer) or SerializeField instead.".toList)) := by
    decide
  rw [Descriptor.message, Template.format, places, Template.fill_append (by decide),
    Template.fill_place (by decide) rfl, Template.fill_eq_self (by decide)]
  apply String.toList_injective
  simp

theorem dispatch_eq (scope : ScopeFilter) (tree : Tree) (resolver : Resolver) (id : NodeId) :
    (Engine.ofRules scope [rule]).dispatch tree resolver id =
      ((lookup? { tree, node := id, resolver, scope }).map fun qualified =>
        ({ tree, node := id, resolver, scope } : Site).report Catalogue.sceneLookup
          [qualified]).toList := by
  apply Engine.dispatch_ofRules_singleton fun site qualified =>
    site.report Catalogue.sceneLookup [qualified]
  · intro site
    dsimp only [rule]
    cases lookup? site <;> rfl
  · intro site qualified found
    rcases lookup?_iff_frequent.mp found with ⟨_, _, frequent, _⟩
    exact ⟨.invocation, List.mem_cons_self, frequent.invoked⟩

end SceneLookup

/-- The rule on scene lookups reports each lookup on every frame once, in the order of the nodes, and
nothing else. A report is located at the call, and its only argument is the name of the declaring type, a
dot and the called method. -/
theorem sceneLookups_reportedExactly (scope : ScopeFilter) (tree : Tree) (resolver : Resolver) :
    ReportsExactly
      (fun call (qualified : String) =>
        ∃ called declaring, SceneLookup.Frequent scope tree resolver call called declaring ∧
          qualified = declaring.name ++ "." ++ called)
      (fun call qualified =>
        { code := "SR0002"
          rule := "forbidden-find-method"
          severity := .warning
          location := tree.location call
          message := "'" ++ qualified ++
            "' is forbidden. Use DI (VContainer) or SerializeField instead."
          arguments := [qualified]
          suggestion := some "resolve the reference once through DI or a [SerializeField] field" })
      ((Engine.ofRules scope [SceneLookup.rule]).analyze tree resolver) := by
  apply Engine.reportsExactly_analyze fun id =>
    SceneLookup.lookup? { tree, node := id, resolver, scope }
  · intro call qualified
    exact SceneLookup.lookup?_iff_frequent
  · rintro call qualified ⟨_, _, frequent, _⟩
    exact Forest.lt_size_of_kind? frequent.invoked
  · intro call
    rw [SceneLookup.dispatch_eq]
    simp only [← SceneLookup.message_eq]
    rfl

/-! ## Needless guards -/

namespace Forest

inductive TestsNull (forest : Forest) (condition : NodeId) : NodeId → Prop
  | left {op : ComparisonOp} {left right : NodeId} :
      forest.node? condition = some (.comparison op left right) →
      forest.node? left ≠ some (.literal .null) → forest.node? right = some (.literal .null) →
      TestsNull forest condition left
  | right {op : ComparisonOp} {left right : NodeId} :
      forest.node? condition = some (.comparison op left right) →
      forest.node? left = some (.literal .null) → forest.node? right ≠ some (.literal .null) →
      TestsNull forest condition right
  | constant {subject value : NodeId} :
      forest.node? condition = some (.isPattern subject (.constant value)) →
      forest.node? value = some (.literal .null) → TestsNull forest condition subject
  | negated {subject value : NodeId} :
      forest.node? condition = some (.isPattern subject (.negated (.constant value))) →
      forest.node? value = some (.literal .null) → TestsNull forest condition subject

/-- The node guards `guarded` against null: it is a condition that tests it, or an optional access to
it. The access to the result of another optional access guards the tail of that one. -/
inductive GuardsNull (forest : Forest) (id : NodeId) : NodeId → Prop
  | condition {condition guarded : NodeId} : forest.node? id = some (.ifStatement condition) →
      forest.TestsNull condition guarded → GuardsNull forest id guarded
  | tail {receiver inner innerTail : NodeId} {tail : Option NodeId} :
      forest.node? id = some (.conditionalAccess receiver tail) →
      forest.node? receiver = some (.conditionalAccess inner (some innerTail)) →
      GuardsNull forest id innerTail
  | receiver {receiver : NodeId} {tail : Option NodeId} :
      forest.node? id = some (.conditionalAccess receiver tail) →
      (∀ inner innerTail, forest.node? receiver ≠ some (.conditionalAccess inner (some innerTail))) →
      GuardsNull forest id receiver

theorem isNullLiteral_iff {forest : Forest} {id : NodeId} :
    forest.isNullLiteral id ↔ forest.node? id = some (.literal .null) :=
  decide_eq_true_iff

end Forest

theorem Diagnostic.ofDescriptor_eq {descriptor : Descriptor} (listed : descriptor ∈ Catalogue.all)
    (location : Location) (arguments : List String) :
    ofDescriptor descriptor location arguments =
      { code := descriptor.id
        rule := descriptor.name
        severity := .warning
        location
        message := descriptor.message arguments
        arguments
        suggestion := some descriptor.help } := by
  have warns : ∀ known ∈ Catalogue.all, known.severity = .warning ∧ known.help ≠ "" := by decide
  rcases warns descriptor listed with ⟨severity, help⟩
  rw [ofDescriptor, severity, if_neg help]

namespace NullGuard

inductive Qualifies (tree : Tree) (resolver : Resolver) (guarded : NodeId) : String → Prop
  | acquisition {callee : NodeId} {name start : String} :
      tree.node? guarded = some (.invocation callee) → tree.methodName? guarded = some name →
      start ∈ acquisitionMethods → start.toList <+: name.toList →
      Qualifies tree resolver guarded "SR0003"
  | injection {name written marker : String} {symbol : Symbol} :
      tree.node? guarded = some (.identifier name) →
      resolver.resolve tree guarded = some symbol →
      symbol.kind = .field ∨ symbol.kind = .property → written ∈ resolver.attributes symbol →
      marker ∈ ["Inject", "SerializeField"] → written = marker ∨ written = marker ++ "Attribute" →
      Qualifies tree resolver guarded "SR0004"

/-! ### Conditions -/

theorem testsNull_of_ofCondition? {tree : Tree} {condition : NodeId} {found : NullGuard}
    (guard : ofCondition? tree condition = some found) :
    tree.TestsNull condition found.guarded := by
  rw [ofCondition?] at guard
  split at guard
  · rename_i op left right node
    split at guard
    · rename_i null other
      cases guard
      exact .right node (Forest.isNullLiteral_iff.mp null) (of_decide_eq_false other)
    · rename_i other null
      cases guard
      exact .left node (of_decide_eq_false other) (Forest.isNullLiteral_iff.mp null)
    · cases guard
  · rename_i subject value node
    split at guard
    · rename_i null
      cases guard
      exact .constant node (Forest.isNullLiteral_iff.mp null)
    · cases guard
  · rename_i subject value node
    split at guard
    · rename_i null
      cases guard
      exact .negated node (Forest.isNullLiteral_iff.mp null)
    · cases guard
  · cases guard

theorem exists_ofCondition?_of_testsNull {tree : Tree} {condition guarded : NodeId}
    (tests : tree.TestsNull condition guarded) :
    ∃ found, ofCondition? tree condition = some found ∧ found.guarded = guarded := by
  cases tests with
  | @left op left right node other null =>
      have leftSide : tree.isNullLiteral guarded = false := decide_eq_false other
      have rightSide : tree.isNullLiteral right := Forest.isNullLiteral_iff.mpr null
      refine ⟨.comparison guarded op, ?_, rfl⟩
      simp only [ofCondition?, node, leftSide, rightSide]
  | @right op left right node null other =>
      have leftSide : tree.isNullLiteral left := Forest.isNullLiteral_iff.mpr null
      have rightSide : tree.isNullLiteral guarded = false := decide_eq_false other
      refine ⟨.comparison guarded op, ?_, rfl⟩
      simp only [ofCondition?, node, leftSide, rightSide]
  | @constant subject value node null =>
      refine ⟨.pattern guarded false, ?_, rfl⟩
      simp only [ofCondition?, node, Forest.isNullLiteral_iff.mpr null, if_true]
  | @negated subject value node null =>
      refine ⟨.pattern guarded true, ?_, rfl⟩
      simp only [ofCondition?, node, Forest.isNullLiteral_iff.mpr null, if_true]

/-! ### Guards -/

theorem guardsNull_of_at? {tree : Tree} {id : NodeId} {found : NullGuard}
    (guard : at? tree id = some found) : tree.GuardsNull id found.guarded := by
  rw [at?] at guard
  split at guard
  · rename_i condition node
    exact .condition node (testsNull_of_ofCondition? guard)
  · rename_i receiver tail node
    split at guard
    · rename_i inner
      cases guard
      exact .tail node inner
    · rename_i other here
      cases guard
      refine .receiver node fun inner innerTail same => ?_
      exact other inner innerTail (Option.some.inj (here.symm.trans same))
    · cases guard
  · cases guard

theorem exists_at?_of_guardsNull {tree : Tree} {id guarded : NodeId}
    (guards : tree.GuardsNull id guarded) {node : Node} (here : tree.node? guarded = some node) :
    ∃ found, at? tree id = some found ∧ found.guarded = guarded := by
  cases guards with
  | condition outer tests =>
      rcases exists_ofCondition?_of_testsNull tests with ⟨found, guard, same⟩
      refine ⟨found, ?_, same⟩
      simp only [at?, outer, guard]
  | tail outer link =>
      refine ⟨.conditionalAccess guarded, ?_, rfl⟩
      simp only [at?, outer, link]
  | receiver outer other =>
      refine ⟨.conditionalAccess guarded, ?_, rfl⟩
      simp only [at?, outer]
      split
      · rename_i inner innerTail link
        exact absurd link (other inner innerTail)
      · rfl
      · rename_i missing
        rw [here] at missing
        cases missing

/-! ### Offences -/

theorem isInjected_iff {site : Site} {guarded : NodeId} :
    isInjected site guarded ↔ ∃ symbol, site.resolver.resolve site.tree guarded = some symbol ∧
      (symbol.kind = .field ∨ symbol.kind = .property) ∧
        ∃ written ∈ site.resolver.attributes symbol, ∃ marker ∈ ["Inject", "SerializeField"],
          written = marker ∨ written = marker ++ "Attribute" := by
  rw [isInjected, Option.any_eq_true]
  simp only [Bool.and_eq_true, List.any_eq_true, Symbol.isMember, attributeMatches,
    decide_eq_true_eq]
  rfl

theorem offence?_iff_qualifies {site : Site} {guarded : NodeId} {descriptor : Descriptor} :
    offence? site guarded = some descriptor ↔
      ∃ code, Qualifies site.tree site.resolver guarded code ∧
        Catalogue.find? code = some descriptor := by
  rw [offence?_eq_some_iff]
  constructor
  · rintro (⟨rfl, _, watched⟩ | ⟨rfl, ⟨name, named⟩, injected⟩)
    · rw [Option.any_eq_true] at watched
      rcases watched with ⟨name, called, watched⟩
      rcases isWatched_iff.mp watched with ⟨start, listed, starts⟩
      rcases Forest.exists_callee_of_methodName? called with ⟨callee, invoked⟩
      exact ⟨_, .acquisition invoked called listed starts, rfl⟩
    · rcases isInjected_iff.mp injected with
        ⟨symbol, resolved, member, written, carried, marker, known, same⟩
      exact ⟨_, .injection named resolved member carried known same, rfl⟩
  · rintro ⟨code, qualifies, coded⟩
    cases qualifies with
    | acquisition invoked called listed starts =>
        refine .inl ⟨(Option.some.inj coded).symm, Forest.kind?_of_node? invoked, ?_⟩
        rw [called, Option.any_some, isWatched_iff]
        exact ⟨_, listed, starts⟩
    | injection named resolved member carried known same =>
        refine .inr ⟨(Option.some.inj coded).symm, ⟨_, named⟩, ?_⟩
        exact isInjected_iff.mpr ⟨_, resolved, member, _, carried, _, known, same⟩

/-! ### Verdicts -/

def needless? (site : Site) : Option Descriptor :=
  if site.inScope then
    (at? site.tree site.node).bind fun found => offence? site found.guarded
  else
    none

def Needless (scope : ScopeFilter) (tree : Tree) (resolver : Resolver) (id : NodeId)
    (descriptor : Descriptor) : Prop :=
  scope.includes tree.path ∧ ∃ guarded code, tree.GuardsNull id guarded ∧
    Qualifies tree resolver guarded code ∧ Catalogue.find? code = some descriptor

variable {scope : ScopeFilter} {tree : Tree} {resolver : Resolver} {id : NodeId}
  {descriptor : Descriptor}

theorem Qualifies.exists_node {guarded : NodeId} {code : String}
    (qualifies : Qualifies tree resolver guarded code) :
    ∃ node, tree.node? guarded = some node := by
  cases qualifies with
  | acquisition invoked => exact ⟨_, invoked⟩
  | injection named => exact ⟨_, named⟩

theorem needless?_iff_needless :
    needless? { tree, node := id, resolver, scope } = some descriptor ↔
      Needless scope tree resolver id descriptor := by
  have inScope : ({ tree, node := id, resolver, scope } : Site).inScope =
    scope.includes tree.path := rfl
  rw [needless?, Option.ite_none_right_eq_some, Option.bind_eq_some_iff, inScope, Needless]
  refine and_congr_right fun _ => ?_
  constructor
  · rintro ⟨found, guard, offence⟩
    rcases offence?_iff_qualifies.mp offence with ⟨code, qualifies, coded⟩
    exact ⟨found.guarded, code, guardsNull_of_at? guard, qualifies, coded⟩
  · rintro ⟨guarded, code, guards, qualifies, coded⟩
    rcases qualifies.exists_node with ⟨node, here⟩
    rcases exists_at?_of_guardsNull guards here with ⟨found, guard, rfl⟩
    exact ⟨found, guard, offence?_iff_qualifies.mpr ⟨code, qualifies, coded⟩⟩

theorem Needless.kind? (needless : Needless scope tree resolver id descriptor) :
    ∃ kind ∈ rule.interests, tree.kind? id = some kind := by
  rcases needless with ⟨_, guarded, code, guards, _⟩
  cases guards with
  | condition here => exact ⟨.ifStatement, by decide, Forest.kind?_of_node? here⟩
  | tail here => exact ⟨.conditionalAccess, by decide, Forest.kind?_of_node? here⟩
  | receiver here => exact ⟨.conditionalAccess, by decide, Forest.kind?_of_node? here⟩

theorem dispatch_eq (scope : ScopeFilter) (tree : Tree) (resolver : Resolver) (id : NodeId) :
    (Engine.ofRules scope [rule]).dispatch tree resolver id =
      ((needless? { tree, node := id, resolver, scope }).map fun descriptor =>
        ({ tree, node := id, resolver, scope } : Site).report descriptor []).toList := by
  apply Engine.dispatch_ofRules_singleton fun site descriptor => site.report descriptor []
  · intro site
    dsimp only [rule, needless?]
    split
    · split
      · rename_i descriptor found
        rw [found]
        rfl
      · rename_i found
        rw [found]
        rfl
    · rfl
  · intro site descriptor found
    exact (needless?_iff_needless.mp found).kind?

theorem Needless.mem_all (needless : Needless scope tree resolver id descriptor) :
    descriptor ∈ Catalogue.all := by
  rcases needless with ⟨_, _, _, _, _, coded⟩
  exact List.mem_of_find?_eq_some coded

end NullGuard

/-- The rule on null guards reports each needless guard once, in the order of the nodes, and nothing
else. A report is located at the guard and has no arguments. -/
theorem needlessGuards_reportedExactly (scope : ScopeFilter) (tree : Tree) (resolver : Resolver) :
    ReportsExactly (NullGuard.Needless scope tree resolver)
      (fun id descriptor =>
        { code := descriptor.id
          rule := descriptor.name
          severity := .warning
          location := tree.location id
          message := descriptor.template
          arguments := []
          suggestion := some descriptor.help })
      ((Engine.ofRules scope [NullGuard.rule]).analyze tree resolver) := by
  apply Engine.reportsExactly_analyze fun id =>
    NullGuard.needless? { tree, node := id, resolver, scope }
  · intro id descriptor
    exact NullGuard.needless?_iff_needless
  · intro id descriptor needless
    rcases needless.kind? with ⟨kind, _, here⟩
    exact Forest.lt_size_of_kind? here
  · intro id
    rw [NullGuard.dispatch_eq]
    congr 1
    apply Option.map_congr
    intro descriptor found
    have listed := (NullGuard.needless?_iff_needless.mp found).mem_all
    rw [Site.report, Diagnostic.ofDescriptor_eq listed, Descriptor.message, Template.format_nil]

end UnityLint
