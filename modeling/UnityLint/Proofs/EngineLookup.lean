import UnityLint.Proofs.BaseCycles
import UnityLint.Proofs.Bindings
import UnityLint.Proofs.Dispatch
import UnityLint.Proofs.ProperTree
import UnityLint.Proofs.Reports

/-! # Lookups of the engine

A lookup is reported only if it calls a method of the engine. A type, a method, a local function, a
variable or a member of the file that looks like one of the engine hides it. A method that another row
wraps, such as a conditional directive, is not noted and hides nothing. -/

namespace UnityLint

theorem Forest.Linked.enclosing?_part {forest : Forest} (linked : forest.Linked) {id part : NodeId}
    {node : Node} {kind : NodeKind} (here : forest.node? id = some node) (other : node.kind ≠ kind)
    (member : part ∈ node.references) : forest.enclosing? kind part = forest.enclosing? kind id := by
  have link := linked.mem_children.mp (linked.refers here part member)
  rw [enclosing?, ancestors_of_parent?_eq_some link, List.find?_cons_of_neg]
  · rfl
  · rw [decide_eq_true_eq, kind?, here, Option.map_some, Option.some.injEq]
    exact other

namespace Declarations

/-! ## Methods of the engine -/

def OutsideEngine (declarations : Declarations) : Prop :=
  ∀ info ∈ declarations.types.values, info.namespaceName ≠ some engineNamespace

/-- A type inherits the method `name` from the type `owner` of the engine: no declared type on the walk
along its bases has a method of that name, and `owner` is the first type of the engine that has. -/
def InheritsFrom (declarations : Declarations) (info : TypeInfo) (name : String)
    (owner : EngineType) : Prop :=
  ∃ passed type, declarations.BaseWalk info passed (.builtIn type) ∧
    (∀ declared ∈ info :: passed, name ∉ declared.methods) ∧
    (type :: type.ancestors).find? (name ∈ ·.methods) = some owner

def Provides (declarations : Declarations) (name : String) (owner : EngineType) : TypeRef → Prop
  | .declared info => declarations.InheritsFrom info name owner
  | .builtIn type => (type :: type.ancestors).find? (name ∈ ·.methods) = some owner

variable {declarations : Declarations} {tree : Tree} {info : TypeInfo} {name : String}
  {symbol : Symbol} {container : TypeName}

theorem InheritsFrom.mem_methods {owner : EngineType}
    (inherits : declarations.InheritsFrom info name owner) : name ∈ owner.methods := by
  rcases inherits with ⟨_, _, _, _, first⟩
  simpa using List.find?_some first

theorem Provides.mem_methods {ref : TypeRef} {owner : EngineType}
    (provides : declarations.Provides name owner ref) : name ∈ owner.methods := by
  cases ref with
  | declared info => exact InheritsFrom.mem_methods provides
  | builtIn type => simpa using List.find?_some provides

theorem BaseWalk.mem_values {passed : List TypeInfo} {ending : BaseEnd}
    (walk : declarations.BaseWalk info passed ending) :
    ∀ declared ∈ passed, declared ∈ declarations.types.values := by
  induction walk with
  | stop _ => exact List.forall_mem_nil _
  | step base _ induction => exact List.forall_mem_cons.mpr ⟨base.mem_values, induction⟩

theorem exists_owner_of_method? {type : EngineType} (found : type.method? name = some symbol)
    (contained : symbol.container = some container) :
    ∃ owner, (type :: type.ancestors).find? (name ∈ ·.methods) = some owner ∧
      container = owner.typeName := by
  rcases Option.map_eq_some_iff.mp found with ⟨owner, search, rfl⟩
  cases contained
  exact ⟨owner, search, rfl⟩

section Engine

variable (outside : declarations.OutsideEngine) (contained : symbol.container = some container)
  (inEngine : container.namespaceName = some engineNamespace)

include outside contained inEngine

theorem ne_symbol_of_inEngine (listed : info ∈ declarations.types.values) {kind : SymbolKind} :
    symbol ≠ info.symbol name kind := by
  rintro rfl
  cases contained
  exact outside info listed inEngine

theorem inheritsFrom_of_methodWithin (depth : Nat) (listed : info ∈ declarations.types.values)
    (found : declarations.methodWithin name depth info = some symbol) :
    ∃ owner, declarations.InheritsFrom info name owner ∧ container = owner.typeName := by
  induction depth generalizing info with
  | zero => cases found
  | succ depth induction =>
      rw [methodWithin] at found
      split at found
      · exact absurd (Option.some.inj found).symm
          (ne_symbol_of_inEngine outside contained inEngine listed)
      · rename_i free
        split at found
        · rename_i base search
          rcases Option.bind_eq_some_iff.mp search with ⟨written, _, looked⟩
          rcases induction (mem_values_of_lookup looked) found with
            ⟨owner, ⟨passed, type, walk, others, first⟩, same⟩
          refine ⟨owner, ⟨base :: passed, type, .step search walk, ?_, first⟩, same⟩
          exact List.forall_mem_cons.mpr ⟨free, others⟩
        · rename_i type search
          rcases exists_owner_of_method? found contained with ⟨owner, first, same⟩
          refine ⟨owner, ⟨[], type, .stop search, ?_, first⟩, same⟩
          exact List.forall_mem_cons.mpr ⟨free, List.forall_mem_nil _⟩
        · cases found

theorem provides_of_methodOf? {written : String} {ref : TypeRef}
    (looked : declarations.lookup written = some ref)
    (found : declarations.methodOf? ref name = some symbol) :
    ∃ owner, declarations.Provides name owner ref ∧ container = owner.typeName := by
  cases ref with
  | declared info =>
      exact inheritsFrom_of_methodWithin outside contained inEngine _
        (mem_values_of_lookup looked) found
  | builtIn type => exact exists_owner_of_method? found contained

theorem inheritsFrom_of_bareCallSymbol? {call : NodeId}
    (found : declarations.bareCallSymbol? tree call name = some symbol) :
    ∃ info owner, declarations.typeAround? tree call = some info ∧
      (∀ method, declarations.methodAround? tree call = some method →
        name ∉ method.localFunctions) ∧
      declarations.InheritsFrom info name owner ∧ container = owner.typeName := by
  rcases Option.bind_eq_some_iff.mp found with ⟨info, around, chosen⟩
  have listed := mem_values_of_typeAround? around
  split at chosen
  · exact absurd (Option.some.inj chosen).symm
      (ne_symbol_of_inEngine outside contained inEngine listed)
  · rename_i free
    rcases inheritsFrom_of_methodWithin outside contained inEngine _ listed chosen with
      ⟨owner, inherits, same⟩
    refine ⟨info, owner, around, ?_, inherits, same⟩
    intro method here declared
    apply free
    rw [here]
    simpa using declared

end Engine

/-! ## Receivers -/

theorem resolve_eq_none_of_isVariable {id : NodeId}
    (named : tree.node? id = some (.identifier name))
    (free : declarations.isVariable tree id = false) : declarations.resolve tree id = none := by
  rw [isVariable, named] at free
  rw [resolve, named]
  simpa using free

section Receiver

variable (linked : tree.Linked)

include linked

theorem around_part (declarations : Declarations) {id : NodeId} {node : Node}
    (here : tree.node? id = some node) (type : node.kind ≠ .typeDeclaration)
    (method : node.kind ≠ .methodDeclaration) {part : NodeId} (member : part ∈ node.references) :
    declarations.typeAround? tree part = declarations.typeAround? tree id ∧
      declarations.methodAround? tree part = declarations.methodAround? tree id := by
  constructor
  · rw [typeAround?, Forest.enclosingType?, linked.enclosing?_part here type member]
    rfl
  · rw [methodAround?, Forest.enclosingMethod?, linked.enclosing?_part here method member]
    rfl

theorem unbound_of_isVariable {call callee receiver member : NodeId}
    (invoked : tree.node? call = some (.invocation callee))
    (accessed : tree.node? callee = some (.memberAccess receiver member))
    (named : tree.node? receiver = some (.identifier name))
    (free : declarations.isVariable tree receiver = false) :
    declarations.memberAround? tree call name = none ∧
      ∀ method, declarations.methodAround? tree call = some method →
        name ∉ method.parameters ∧ name ∉ method.locals := by
  have isCallee : callee ∈ (Node.invocation callee).references := List.mem_singleton.mpr rfl
  have isReceiver : receiver ∈ (Node.memberAccess receiver member).references :=
    List.mem_cons_self
  have outer := around_part linked declarations invoked NodeKind.noConfusion
    NodeKind.noConfusion isCallee
  have inner := around_part linked declarations accessed NodeKind.noConfusion
    NodeKind.noConfusion isReceiver
  have link := linked.mem_children.mp (linked.refers accessed receiver isReceiver)
  have distinct := linked.distinct accessed
  have bare : declarations.bareSymbol? tree receiver name = none := by
    rw [isVariable, named] at free
    rw [← identifierSymbol?_eq_bareSymbol? (by rw [link]; exact accessed) _ NodeKind.noConfusion]
    · simpa using free
    · rintro other same
      cases same
      simp [Node.references] at distinct
  have members : ∀ symbol ∈ declarations.bareSymbol? tree receiver name, symbol.isMember := by
    intro symbol bound
    rw [bare] at bound
    cases bound
  rcases bareSymbol?_eq_memberAround? members with ⟨equal, unbound⟩
  rw [bare, memberAround?, inner.1, outer.1] at equal
  rw [inner.2, outer.2] at unbound
  exact ⟨equal.symm, unbound⟩

end Receiver

end Declarations

/-! ## Lookups that are found -/

namespace SceneLookup

theorem isPrefix_of_isWatched {called : String} (watched : isWatched called lookupMethods) :
    "Find".toList <+: called.toList := by
  have each : ∀ start ∈ lookupMethods, "Find".toList <+: start.toList := by decide
  rcases List.any_eq_true.mp watched with ⟨start, listed, starts⟩
  exact (each start listed).trans (List.isPrefixOf_iff_prefix.mp starts)

end SceneLookup

/-- The call of `called` reaches the type `owner` of the engine. An unqualified call does so through the
type around it, and no local function comes before; a qualified one through the type before the dot. -/
structure Declarations.CallReaches (declarations : Declarations) (tree : Tree)
    (call callee : NodeId) (called : String) (owner : EngineType) : Prop where
  unqualified : (tree.simpleName? callee).isSome →
    ∃ info, declarations.typeAround? tree call = some info ∧
      (∀ method, declarations.methodAround? tree call = some method →
        called ∉ method.localFunctions) ∧
      declarations.InheritsFrom info called owner
  qualified : ∀ {receiver member}, tree.node? callee = some (.memberAccess receiver member) →
    declarations.isVariable tree receiver = false ∧
      ∃ written ref, tree.dottedName? receiver = some written ∧
        declarations.lookup written = some ref ∧ declarations.Provides called owner ref

theorem Declarations.callReaches_of_callSymbol? {declarations : Declarations} {tree : Tree}
    {call callee : NodeId} {called : String} {symbol : Symbol} {container : TypeName}
    (outside : declarations.OutsideEngine) (invoked : tree.node? call = some (.invocation callee))
    (named : tree.methodName? call = some called)
    (found : declarations.callSymbol? tree call callee = some symbol)
    (contained : symbol.container = some container)
    (inEngine : container.namespaceName = some engineNamespace) :
    ∃ owner, declarations.CallReaches tree call callee called owner ∧
      called ∈ owner.methods ∧ container = owner.typeName := by
  rcases callSymbol?_cases found with
    ⟨name, simple, bare⟩ |
      ⟨receiver, member, name, written, ref, accessed, simple, free, dotted, looked, chosen⟩
  · rw [Forest.methodName?_of_simpleName? invoked simple, Option.some.injEq] at named
    subst named
    rcases inheritsFrom_of_bareCallSymbol? outside contained inEngine bare with
      ⟨info, owner, around, locals, inherits, same⟩
    refine ⟨owner, ⟨fun _ => ⟨info, around, locals, inherits⟩, ?_⟩, inherits.mem_methods, same⟩
    intro receiver member accessed
    rw [Forest.simpleName?_of_memberAccess accessed] at simple
    cases simple
  · rw [Forest.methodName?_of_memberAccess invoked accessed, simple, Option.some.injEq] at named
    subst named
    rcases provides_of_methodOf? outside contained inEngine looked chosen with
      ⟨owner, provides, same⟩
    refine ⟨owner, ⟨?_, ?_⟩, provides.mem_methods, same⟩
    · rw [Forest.simpleName?_of_memberAccess accessed]
      exact nofun
    · intro other otherMember otherAccess
      cases accessed.symm.trans otherAccess
      exact ⟨free, written, ref, dotted, looked, provides⟩

theorem SceneLookup.callReaches_of_lookup? {declarations : Declarations} {site : Site}
    {qualified : String} (outside : declarations.OutsideEngine)
    (resolver : site.resolver = declarations.resolver) (found : lookup? site = some qualified) :
    ∃ callee called owner, site.tree.node? site.node = some (.invocation callee) ∧
      site.tree.methodName? site.node = some called ∧ isWatched called lookupMethods ∧
      (owner? site.tree site.node).all (· ∈ owners) ∧
      (site.tree.enclosingMethod? site.node).isSome ∧
      declarations.CallReaches site.tree site.node callee called owner ∧
      called ∈ owner.methods ∧ owner.name ++ "." ++ called = qualified := by
  rcases lookup?_eq_some_iff.mp found with
    ⟨_, called, named, watched, owners, _, around, _, target, container, resolved, contained,
      inEngine, rfl⟩
  rcases Forest.exists_callee_of_methodName? named with ⟨callee, invoked⟩
  rw [Site.resolve, resolver, Declarations.resolver] at resolved
  simp only [Declarations.resolve, invoked] at resolved
  rcases Declarations.callReaches_of_callSymbol? outside invoked named resolved contained inEngine
    with ⟨owner, reaches, lists, rfl⟩
  exact ⟨callee, called, owner, invoked, named, watched, owners,
    Forest.isSome_enclosingMethod? around, reaches, lists, rfl⟩

/-! ## Rows around a lookup -/

namespace ParseTree

variable (source : List Char) (root : ParseTree) (declarations : Declarations)
  (position : Position)

/-- The row at a position declares a method of the type declared at `type`, directly in its body or
below a row that wraps it. -/
structure HasMethod (type : Position) (name : String) (row : ParseTree) : Prop where
  here : root.at? position = some row
  kind : row.kind = "method_declaration"
  text : row.textOf? source .name = some name
  nearest : root.enclosing? isTypeDeclaration position = some type

/-- A type of the file leaves a method to its base: what declares such a method does not stand directly
in the body. -/
structure LeavesMethod (name : String) (info : TypeInfo) : Prop where
  declared : ∃ type row, root.DeclaresType source type row info
  wrapped : ∀ {type row}, root.DeclaresType source type row info →
    ∀ {position declaration}, root.HasMethod source position type name declaration →
      declaration ∉ row.bodyRows

/-- An unqualified call at a position reaches the type `owner` of the engine: the method around it
declares no local function of that name, the declared types on the walk from the type around it leave
the method to their bases, and `owner` is the first type of the engine that has it. -/
structure CallsInherited (called : String) (owner : EngineType) : Prop where
  localFunctions : ∀ method row, root.enclosing? isMethodDeclaration position = some method →
    root.at? method = some row →
      ∀ inner ∈ row.namedRows, inner.kind = "local_function_statement" →
        inner.textOf? source .name ≠ some called
  inherited : ∃ nearest row info passed type,
    root.enclosing? isTypeDeclaration position = some nearest ∧
    root.DeclaresType source nearest row info ∧
    declarations.BaseWalk info passed (.builtIn type) ∧
    (∀ declared ∈ info :: passed, root.LeavesMethod source called declared) ∧
    (type :: type.ancestors).find? (called ∈ ·.methods) = some owner

/-- No variable hides a type of that name at a position: the method around it notes no parameter and no
local of that name, and no field or property of that name is within reach of the type around it. -/
structure Unhidden (name : String) : Prop where
  bindings : ∀ method row, root.enclosing? isMethodDeclaration position = some method →
    root.at? method = some row →
      ∀ inner ∈ row.namedRows, inner.DeclaresVariable source name → inner.Deconstructs source name
  members : ∀ nearest row info, root.enclosing? isTypeDeclaration position = some nearest →
    root.DeclaresType source nearest row info →
      ∀ passed, (info :: passed).IsChain declarations.DeclaredBase → passed.length ≤ 31 →
        ∀ declared ∈ info :: passed, ∀ member ∈ declared.members, member.name ≠ name

end ParseTree

namespace Trace

theorem leavesMethod_of_not_mem {source : List Char} {root : ParseTree} {info : TypeInfo}
    {name : String} (declared : ∃ type row, root.DeclaresType source type row info)
    (without : name ∉ info.methods) : root.LeavesMethod source name info := by
  refine ⟨declared, ?_⟩
  intro type row declares position declaration has inBody
  apply without
  rw [declares.info]
  refine List.mem_filterMap.mpr ⟨declaration, inBody, ?_⟩
  rw [ParseTree.methodOf?, if_pos has.kind, has.text]

variable {source : List Char} {root : ParseTree} {tree : Tree}
  (forest : tree.toForest = (ofParseTree source root).forest) {start : Nat} {part : Trace}
  {around : List (Nat × Trace)} (sits : Sits (ofParseTree source root) start part around)

include forest sits

theorem callsInherited {info : TypeInfo} {called : String} {owner : EngineType}
    (type : (ofParseTree source root).declarations.typeAround? tree (start + part.countBelow) =
      some info)
    (locals : ∀ method,
      (ofParseTree source root).declarations.methodAround? tree (start + part.countBelow) =
        some method → called ∉ method.localFunctions)
    (inherits : (ofParseTree source root).declarations.InheritsFrom info called owner) :
    root.CallsInherited source (ofParseTree source root).declarations part.origin called owner := by
  constructor
  case localFunctions =>
    intro method row enclosing here inner listed kind text
    rcases methodAround?_eq forest sits enclosing with ⟨same, there, noted⟩
    cases here.symm.trans there
    apply locals _ noted
    exact List.mem_filterMap.mpr ⟨inner, listed, by rw [ParseTree.localFunction?, if_pos kind, text]⟩
  case inherited =>
    rcases declaresType_of_typeAround? forest sits type with ⟨nearest, row, enclosing, declares⟩
    rcases inherits with ⟨passed, engineType, walk, without, first⟩
    refine ⟨nearest, row, info, passed, engineType, enclosing, declares, walk, ?_, first⟩
    intro declared member
    apply leavesMethod_of_not_mem _ (without declared member)
    rcases List.mem_cons.mp member with rfl | later
    · exact ⟨nearest, row, declares⟩
    · exact declaresType_of_mem_values (walk.mem_values declared later)

theorem unhidden {name : String}
    (missing : (ofParseTree source root).declarations.memberAround? tree
      (start + part.countBelow) name = none)
    (unbound : ∀ method,
      (ofParseTree source root).declarations.methodAround? tree (start + part.countBelow) =
        some method → name ∉ method.parameters ∧ name ∉ method.locals) :
    root.Unhidden source (ofParseTree source root).declarations part.origin name := by
  constructor
  case bindings =>
    intro method row enclosing here inner listed declares
    rcases methodAround?_eq forest sits enclosing with ⟨same, there, noted⟩
    cases here.symm.trans there
    rcases unbound _ noted with ⟨parameters, locals⟩
    exact declares.deconstructs parameters locals listed
  case members =>
    intro nearest row info enclosing declares passed chain short
    rw [Declarations.memberAround?, typeAround?_eq forest sits enclosing declares] at missing
    exact Declarations.name_ne_of_memberWithin_eq_none missing chain (Nat.lt_succ_of_le short)

end Trace

/-- Every reported lookup calls a method of the engine, unless the file itself declares types in the
namespace of the engine. The only argument names the type that declares the method. If the call is
unqualified, there is no local function of that name, and every method of that name in a declared type
on the way to the engine is wrapped. If the receiver is a name, it stands for a type, and no variable
hides it. -/
theorem sceneLookups_callEngine (path source : String) (root : ParseTree) (scope : ScopeFilter)
    (outside : ∀ info ∈ (SourceUnit.ofParseTree path source root).declarations.types.values,
      info.namespaceName ≠ some "UnityEngine") :
    let unit := SourceUnit.ofParseTree path source root
    let origin := (Trace.ofParseTree source.toList root).originOf
    unit.tree.ReadFrom root origin ∧
      ∀ diagnostic ∈ (Engine.ofRules scope [SceneLookup.rule]).analyze unit.tree
        unit.declarations.resolver, diagnostic.code = "SR0002" ∧
      ∃ call callee called, ∃ owner : EngineType,
        unit.tree.node? call = some (.invocation callee) ∧
        unit.tree.methodName? call = some called ∧
        diagnostic.location = unit.tree.location call ∧
        diagnostic.arguments = [owner.name ++ "." ++ called] ∧
        "Find".toList <+: called.toList ∧ called ∈ owner.methods ∧
        (root.enclosing? ParseTree.isMethodDeclaration (origin call)).isSome ∧
        ((unit.tree.simpleName? callee).isSome →
          root.CallsInherited source.toList unit.declarations (origin call) called owner) ∧
        ∀ receiver member name, unit.tree.node? callee = some (.memberAccess receiver member) →
          unit.tree.node? receiver = some (.identifier name) →
          (name = "Object" ∨ name = "GameObject") ∧
          (∃ ref, unit.declarations.lookup name = some ref ∧
            unit.declarations.Provides called owner ref) ∧
          unit.declarations.resolve unit.tree receiver = none ∧
          root.Unhidden source.toList unit.declarations (origin call) name := by
  have forest := toForest_ofParseTree path source root
  dsimp only at outside ⊢
  rw [declarations_ofParseTree] at outside ⊢
  refine ⟨forest ▸ Trace.readFrom_originOf .., ?_⟩
  intro diagnostic analyzed
  rw [Engine.analyze, List.mem_flatMap] at analyzed
  rcases analyzed with ⟨call, _, reported⟩
  rcases Engine.exists_rule_of_mem_dispatch reported with ⟨rule, member, checked⟩
  rw [List.mem_singleton.mp member] at checked
  rcases SceneLookup.report_of_check checked with ⟨qualified, found, rfl⟩
  rcases SceneLookup.callReaches_of_lookup? outside rfl found with
    ⟨callee, called, owner, invoked, named, watched, owners, inMethod, reaches, lists, rfl⟩
  dsimp only at invoked named owners inMethod reaches
  rcases Trace.exists_sits_of_node? (forest ▸ invoked) with ⟨first, node, around, sits, rfl⟩
  have here := Trace.originOf_eq sits.getElem?_nodes
  refine ⟨rfl, _, callee, called, owner, invoked, named, rfl, rfl,
    SceneLookup.isPrefix_of_isWatched watched, lists, ?_, ?_, ?_⟩
  · rw [here, ← sits.map_originOf_enclosingMethod?, Option.isSome_map, ← forest]
    exact inMethod
  · intro simple
    rcases reaches.unqualified simple with ⟨info, type, locals, inherits⟩
    rw [here]
    exact Trace.callsInherited forest sits type locals inherits
  · intro receiver member name accessed isName
    rcases reaches.qualified accessed with ⟨free, written, ref, dotted, looked, provides⟩
    cases (Forest.dottedName?_of_identifier isName).symm.trans dotted
    have linked := Trace.linked_forest (Trace.ofParseTree source.toList root)
    rw [← forest] at linked
    rcases Declarations.unbound_of_isVariable linked invoked accessed isName free with
      ⟨missing, unbound⟩
    rw [SceneLookup.owner?_eq_some invoked accessed isName] at owners
    rw [here]
    refine ⟨?_, ⟨ref, looked, provides⟩, Declarations.resolve_eq_none_of_isVariable isName free,
      Trace.unhidden forest sits missing unbound⟩
    simpa [SceneLookup.owners] using owners

namespace OwnFind

def source : String :=
  "using UnityEngine; class A : MonoBehaviour " ++
    "{ void Find() { } void Update() { Find(); FindObjectOfType(); GameObject.Find(); } }"

def root : ParseTree :=
  .row "compilation_unit" true none ⟨0, 127, 0, 0⟩ [
    .row "using_directive" true none ⟨0, 18, 0, 0⟩ [
      .row "identifier" true none ⟨6, 17, 0, 6⟩ []],
    .row "class_declaration" true none ⟨19, 127, 0, 19⟩ [
      .row "identifier" true (some .name) ⟨25, 26, 0, 25⟩ [],
      .row "base_list" true none ⟨27, 42, 0, 27⟩ [
        .row "identifier" true none ⟨29, 42, 0, 29⟩ []],
      .row "declaration_list" true (some .body) ⟨43, 127, 0, 43⟩ [
        .row "method_declaration" true none ⟨45, 60, 0, 45⟩ [
          .row "identifier" true (some .name) ⟨50, 54, 0, 50⟩ [],
          .row "parameter_list" true none ⟨54, 56, 0, 54⟩ [],
          .row "block" true (some .body) ⟨57, 60, 0, 57⟩ []],
        .row "method_declaration" true none ⟨61, 125, 0, 61⟩ [
          .row "identifier" true (some .name) ⟨66, 72, 0, 66⟩ [],
          .row "parameter_list" true none ⟨72, 74, 0, 72⟩ [],
          .row "block" true (some .body) ⟨75, 125, 0, 75⟩ [
            .row "expression_statement" true none ⟨77, 84, 0, 77⟩ [
              .row "invocation_expression" true none ⟨77, 83, 0, 77⟩ [
                .row "identifier" true (some .function) ⟨77, 81, 0, 77⟩ [],
                .row "argument_list" true none ⟨81, 83, 0, 81⟩ []]],
            .row "expression_statement" true none ⟨85, 104, 0, 85⟩ [
              .row "invocation_expression" true none ⟨85, 103, 0, 85⟩ [
                .row "identifier" true (some .function) ⟨85, 101, 0, 85⟩ [],
                .row "argument_list" true none ⟨101, 103, 0, 101⟩ []]],
            .row "expression_statement" true none ⟨105, 123, 0, 105⟩ [
              .row "invocation_expression" true none ⟨105, 122, 0, 105⟩ [
                .row "member_access_expression" true (some .function) ⟨105, 120, 0, 105⟩ [
                  .row "identifier" true (some .expression) ⟨105, 115, 0, 105⟩ [],
                  .row "identifier" true (some .name) ⟨116, 120, 0, 116⟩ []],
                .row "argument_list" true none ⟨120, 122, 0, 120⟩ []]]]]]]]

def unit : SourceUnit :=
  .ofParseTree "Assets/A.cs" source root

end OwnFind

section

open OwnFind

theorem sceneLookups_callEngine_ownFind :
    (∀ info ∈ unit.declarations.types.values, info.namespaceName ≠ some "UnityEngine") ∧
      ((Engine.ofRules .standard [SceneLookup.rule]).analyze unit.tree
        unit.declarations.resolver).map (fun diagnostic =>
          (diagnostic.arguments, diagnostic.location.offset)) =
        [(["Object.FindObjectOfType"], 85), (["GameObject.Find"], 105)] ∧
      (∃ owner, root.CallsInherited source.toList unit.declarations [1, 2, 1, 2, 1, 0]
        "FindObjectOfType" owner) ∧
      root.Unhidden source.toList unit.declarations [1, 2, 1, 2, 2, 0] "GameObject" := by
  have computed :
      (∀ info ∈ unit.declarations.types.values, info.namespaceName ≠ some "UnityEngine") ∧
      ((Engine.ofRules .standard [SceneLookup.rule]).analyze unit.tree
        unit.declarations.resolver).map (fun diagnostic =>
          (diagnostic.arguments, diagnostic.location.offset)) =
        [(["Object.FindObjectOfType"], 85), (["GameObject.Find"], 105)] ∧
      (∀ id ∈ unit.tree.ids, unit.tree.kind? id = some .invocation →
        ((unit.tree.location id).offset = 85 → id = 14) ∧
        ((unit.tree.location id).offset = 105 → id = 20)) ∧
      (unit.tree.node? 14 = some (.invocation 12) ∧
        (unit.tree.simpleName? 12).isSome ∧
        unit.tree.methodName? 14 = some "FindObjectOfType") ∧
      (unit.tree.node? 20 = some (.invocation 18) ∧
        unit.tree.node? 18 = some (.memberAccess 16 17) ∧
        unit.tree.node? 16 = some (.identifier "GameObject")) ∧
      (Trace.ofParseTree source.toList root).originOf 14 = [1, 2, 1, 2, 1, 0] ∧
      (Trace.ofParseTree source.toList root).originOf 20 = [1, 2, 1, 2, 2, 0] := by
    decide +kernel
  rcases computed with ⟨outside, reported, calls, bareCall, dottedCall, bareOrigin, dottedOrigin⟩
  rcases sceneLookups_callEngine "Assets/A.cs" source root .standard outside with ⟨_, facts⟩
  rcases List.map_eq_cons_iff.mp reported with ⟨bare, _, listed, bareSummary, others⟩
  rcases List.map_eq_cons_iff.mp others with ⟨dotted, _, rfl, dottedSummary, _⟩
  refine ⟨outside, reported, ?_, ?_⟩
  · rcases facts bare (listed ▸ List.mem_cons_self) with
      ⟨_, id, callee, called, owner, invoked, named, location, _, _, _, _, unqualified, _⟩
    have here : id = 14 := by
      apply (calls id (List.mem_range.mpr (Forest.lt_size_of_node? invoked)) _).1
      · exact location ▸ (Prod.mk.inj bareSummary).2
      · exact congrArg (Option.map Node.kind) invoked
    subst here
    cases bareCall.1.symm.trans invoked
    cases bareCall.2.2.symm.trans named
    exact ⟨owner, bareOrigin ▸ unqualified bareCall.2.1⟩
  · rcases facts dotted (listed ▸ List.mem_cons_of_mem _ List.mem_cons_self) with
      ⟨_, id, callee, called, owner, invoked, _, location, _, _, _, _, _, qualified⟩
    have here : id = 20 := by
      apply (calls id (List.mem_range.mpr (Forest.lt_size_of_node? invoked)) _).2
      · exact location ▸ (Prod.mk.inj dottedSummary).2
      · exact congrArg (Option.map Node.kind) invoked
    subst here
    cases dottedCall.1.symm.trans invoked
    exact dottedOrigin ▸ (qualified 16 17 "GameObject" dottedCall.2.1 dottedCall.2.2).2.2.2

end

namespace WrappedFind

def source : String :=
  "using UnityEngine; class A : MonoBehaviour \x7b\n#if X\nvoid FindObjectOfType() \x7b \x7d\n" ++
    "#endif\nvoid Update() \x7b FindObjectOfType(); \x7d \x7d"

def root : ParseTree :=
  .row "compilation_unit" true none ⟨0, 125, 0, 0⟩ [
    .row "using_directive" true none ⟨0, 18, 0, 0⟩ [
      .row "identifier" true none ⟨6, 17, 0, 6⟩ []],
    .row "class_declaration" true none ⟨19, 125, 0, 19⟩ [
      .row "identifier" true (some .name) ⟨25, 26, 0, 25⟩ [],
      .row "base_list" true none ⟨27, 42, 0, 27⟩ [
        .row "identifier" true none ⟨29, 42, 0, 29⟩ []],
      .row "declaration_list" true (some .body) ⟨43, 125, 0, 43⟩ [
        .row "preproc_if" true none ⟨45, 85, 1, 0⟩ [
          .row "identifier" true (some .condition) ⟨49, 50, 1, 4⟩ [],
          .row "method_declaration" true none ⟨51, 78, 2, 0⟩ [
            .row "predefined_type" true none ⟨51, 55, 2, 0⟩ [],
            .row "identifier" true (some .name) ⟨56, 72, 2, 5⟩ [],
            .row "parameter_list" true none ⟨72, 74, 2, 21⟩ [],
            .row "block" true (some .body) ⟨75, 78, 2, 24⟩ []]],
        .row "method_declaration" true none ⟨86, 123, 4, 0⟩ [
          .row "predefined_type" true none ⟨86, 90, 4, 0⟩ [],
          .row "identifier" true (some .name) ⟨91, 97, 4, 5⟩ [],
          .row "parameter_list" true none ⟨97, 99, 4, 11⟩ [],
          .row "block" true (some .body) ⟨100, 123, 4, 14⟩ [
            .row "expression_statement" true none ⟨102, 121, 4, 16⟩ [
              .row "invocation_expression" true none ⟨102, 120, 4, 16⟩ [
                .row "identifier" true (some .function) ⟨102, 118, 4, 16⟩ [],
                .row "argument_list" true none ⟨118, 120, 4, 32⟩ []]]]]]]]

def unit : SourceUnit :=
  .ofParseTree "Assets/A.cs" source root

end WrappedFind

section

open WrappedFind

/-- The type around the call declares the method itself, but the call is reported as one of the
engine. -/
theorem wrappedFind_reported :
    (∀ info ∈ unit.declarations.types.values, info.namespaceName ≠ some "UnityEngine") ∧
      ((Engine.ofRules .standard [SceneLookup.rule]).analyze unit.tree
        unit.declarations.resolver).map (fun diagnostic =>
          (diagnostic.arguments, diagnostic.location.offset)) =
        [(["Object.FindObjectOfType"], 102)] ∧
      root.enclosing? ParseTree.isTypeDeclaration [1, 2, 1, 3, 0, 0] = some [1] ∧
      ∃ declaration, root.HasMethod source.toList [1, 2, 0, 1] [1] "FindObjectOfType"
        declaration := by
  refine ⟨by decide +kernel, by decide +kernel, by decide, _, rfl, rfl, ?_, by decide⟩
  decide +kernel

end

end UnityLint
