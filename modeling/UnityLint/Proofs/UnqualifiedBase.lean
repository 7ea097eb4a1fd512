import UnityLint.Engine
import UnityLint.Outline.Lowering
import UnityLint.Declaration.Resolver
import UnityLint.Proofs.BaseWalk
import UnityLint.Rule.Preset

/-! # Bases without a namespace

A base that is written without a dot is looked up by its name alone. It refers to the type of the
deriving type's own namespace if that type is the first of its name in the file, and only then: an
earlier type of another namespace captures the name. -/

namespace UnityLint

namespace Declarations

variable {declarations : Declarations} {info target : TypeInfo} {name written : String}

def IsFirst (declarations : Declarations) (target : TypeInfo) : Prop :=
  ∃ before after, declarations.types.values = before ++ target :: after ∧
    ∀ other ∈ before, other.name ≠ target.name

theorem typeNamed?_eq_some_iff :
    declarations.typeNamed? name = some target ↔
      target.name = name ∧ declarations.IsFirst target := by
  rw [typeNamed?, List.find?_eq_some_iff_append]
  constructor
  · rintro ⟨named, before, after, equal, others⟩
    have named : target.name = name := by simpa using named
    subst named
    exact ⟨rfl, before, after, equal, by simpa using others⟩
  · rintro ⟨rfl, before, after, equal, others⟩
    exact ⟨by simp, before, after, equal, by simpa using others⟩

theorem lookup_of_unqualified (unaliased : declarations.aliases = [])
    (undotted : '.' ∉ (bareTypeName written).toList)
    (found : declarations.typeNamed? (bareTypeName written) = some target) :
    declarations.lookup written = some (.declared target) := by
  rw [lookup, unaliased]
  simp only [List.lookup_nil, if_neg undotted, found]

theorem DeclaredBase.bases_eq (base : declarations.DeclaredBase info target) :
    declarations.bases info =
      target.typeName :: declarations.basesWithin (baseLimit - 1) target.base := by
  rcases Option.bind_eq_some_iff.mp base with ⟨written, stated, found⟩
  rw [bases, stated, baseLimit, basesWithin, found]

/-- Let one type of the file have the name of an undotted base and lie in the namespace of the deriving
type. The bases start with that type if and only if it is the first of its name, and then they go on
from it. -/
theorem head?_bases_eq_own_iff (unaliased : declarations.aliases = [])
    (stated : info.base = some written) (undotted : '.' ∉ (bareTypeName written).toList)
    (single : declarations.types.values.filter (fun type =>
      type.name = bareTypeName written ∧ type.namespaceName = info.namespaceName) = [target]) :
    ((declarations.bases info).head? = some ⟨bareTypeName written, info.namespaceName⟩ ↔
        declarations.IsFirst target) ∧
      (declarations.IsFirst target →
        declarations.DeclaredBase info target ∧
          declarations.bases info = ⟨bareTypeName written, info.namespaceName⟩ ::
            declarations.basesWithin (baseLimit - 1) target.base) := by
  have listed : target ∈ declarations.types.values.filter _ :=
    single ▸ List.mem_singleton.mpr rfl
  rcases List.mem_filter.mp listed with ⟨member, own⟩
  simp only [decide_eq_true_eq] at own
  have named : target.typeName = ⟨bareTypeName written, info.namespaceName⟩ :=
    congrArg₂ TypeName.mk own.1 own.2
  have walks (first : declarations.IsFirst target) : declarations.DeclaredBase info target := by
    rw [DeclaredBase, stated]
    exact lookup_of_unqualified unaliased undotted (typeNamed?_eq_some_iff.mpr ⟨own.1, first⟩)
  refine ⟨⟨fun head => ?_, fun first => ?_⟩, fun first => ⟨walks first, ?_⟩⟩
  · -- Some type has the name, so that the lookup finds the first of them, which is the head.
    obtain ⟨found, search⟩ : ∃ found, declarations.typeNamed? (bareTypeName written) = some found :=
      Option.isSome_iff_exists.mp (List.find?_isSome.mpr ⟨target, member, by simpa using own.1⟩)
    have base : declarations.DeclaredBase info found := by
      rw [DeclaredBase, stated]
      exact lookup_of_unqualified unaliased undotted search
    rw [base.bases_eq, List.head?_cons, Option.some.injEq] at head
    have inside : found ∈ [target] := by
      rw [← single]
      refine List.mem_filter.mpr ⟨List.mem_of_find?_eq_some search, ?_⟩
      simpa using TypeName.mk.inj head
    rw [← List.mem_singleton.mp inside]
    exact (typeNamed?_eq_some_iff.mp search).2
  · rw [(walks first).bases_eq, named, List.head?_cons]
  · rw [(walks first).bases_eq, named]

/-! Two types of one name in different namespaces, and a type that derives from the second by its
name. -/

def plainBase : TypeInfo where
  name := "Base"
  namespaceName := some "A"

def behaviourBase : TypeInfo where
  name := "Base"
  namespaceName := some "B"
  base := some "MonoBehaviour"

def derived : TypeInfo where
  name := "D"
  namespaceName := some "B"
  base := some "Base"
  methods := ["Update"]

def ofOwnFirst : Declarations where
  usings := ["UnityEngine"]
  types := [(7, behaviourBase), (18, derived), (24, plainBase)]

theorem head?_bases_eq_own_iff_ofOwnFirst :
    ofOwnFirst.DeclaredBase derived behaviourBase ∧
      ofOwnFirst.bases derived =
        ⟨"Base", some "B"⟩ :: ofOwnFirst.basesWithin (baseLimit - 1) (some "MonoBehaviour") ∧
      (ofOwnFirst.typeSymbol derived).derivesFrom "MonoBehaviour" "UnityEngine" := by
  have unaliased : ofOwnFirst.aliases = [] := rfl
  have stated : derived.base = some "Base" := rfl
  have single : ofOwnFirst.types.values.filter (fun type =>
      type.name = bareTypeName "Base" ∧ type.namespaceName = derived.namespaceName) =
        [behaviourBase] := by
    decide
  have first : ofOwnFirst.IsFirst behaviourBase := ⟨[], [derived, plainBase], rfl, by simp⟩
  rcases (head?_bases_eq_own_iff unaliased stated (by decide) single).2 first with ⟨base, bases⟩
  exact ⟨base, bases, by decide⟩

end Declarations

def capturedText : String :=
  "using UnityEngine; namespace A \x7b class Base \x7b \x7d \x7d " ++
    "namespace B \x7b class Base : MonoBehaviour \x7b \x7d " ++
    "class D : Base \x7b void Update() \x7b GetComponent<C>(); \x7d \x7d \x7d"

def ParseTree.capturedBase : ParseTree :=
  .row "compilation_unit" true none ⟨0, 152, 0, 0⟩ [
    .row "using_directive" true none ⟨0, 18, 0, 0⟩ [
      .row "identifier" true none ⟨6, 17, 0, 6⟩ []],
    .row "namespace_declaration" true none ⟨19, 49, 0, 19⟩ [
      .row "identifier" true (some .name) ⟨29, 30, 0, 29⟩ [],
      .row "declaration_list" true (some .body) ⟨31, 49, 0, 31⟩ [
        .row "class_declaration" true none ⟨33, 47, 0, 33⟩ [
          .row "identifier" true (some .name) ⟨39, 43, 0, 39⟩ [],
          .row "declaration_list" true (some .body) ⟨44, 47, 0, 44⟩ []]]],
    .row "namespace_declaration" true none ⟨50, 152, 0, 50⟩ [
      .row "identifier" true (some .name) ⟨60, 61, 0, 60⟩ [],
      .row "declaration_list" true (some .body) ⟨62, 152, 0, 62⟩ [
        .row "class_declaration" true none ⟨64, 94, 0, 64⟩ [
          .row "identifier" true (some .name) ⟨70, 74, 0, 70⟩ [],
          .row "base_list" true none ⟨75, 90, 0, 75⟩ [
            .row "identifier" true none ⟨77, 90, 0, 77⟩ []],
          .row "declaration_list" true (some .body) ⟨91, 94, 0, 91⟩ []],
        .row "class_declaration" true none ⟨95, 150, 0, 95⟩ [
          .row "identifier" true (some .name) ⟨101, 102, 0, 101⟩ [],
          .row "base_list" true none ⟨103, 109, 0, 103⟩ [
            .row "identifier" true none ⟨105, 109, 0, 105⟩ []],
          .row "declaration_list" true (some .body) ⟨110, 150, 0, 110⟩ [
            .row "method_declaration" true none ⟨112, 148, 0, 112⟩ [
              .row "predefined_type" true none ⟨112, 116, 0, 112⟩ [],
              .row "identifier" true (some .name) ⟨117, 123, 0, 117⟩ [],
              .row "parameter_list" true none ⟨123, 125, 0, 123⟩ [],
              .row "block" true (some .body) ⟨126, 148, 0, 126⟩ [
                .row "expression_statement" true none ⟨128, 146, 0, 128⟩ [
                  .row "invocation_expression" true none ⟨128, 145, 0, 128⟩ [
                    .row "generic_name" true (some .function) ⟨128, 143, 0, 128⟩ [
                      .row "identifier" true none ⟨128, 140, 0, 128⟩ [],
                      .row "type_argument_list" true none ⟨140, 143, 0, 140⟩ [
                        .row "identifier" true none ⟨141, 142, 0, 141⟩ []]],
                    .row "argument_list" true none ⟨143, 145, 0, 143⟩ []]]]]]]]]]

/-- The base of `B.D` is taken for `A.Base`, although `B.Base` is the only type of that name in its
namespace. So `B.D` is no behaviour, and its call is not reported. -/
theorem capturedBase_unbound :
    let unit := SourceUnit.ofParseTree "Assets/A.cs" capturedText .capturedBase
    let engine := Engine.ofRules .standard Preset.all.rules
    unit.declarations.aliases = [] ∧
      unit.declarations.types.values =
        [Declarations.plainBase, Declarations.behaviourBase, Declarations.derived] ∧
      unit.declarations.types.values.filter (fun type =>
        type.name = bareTypeName "Base" ∧ type.namespaceName = some "B") =
          [Declarations.behaviourBase] ∧
      unit.declarations.bases Declarations.derived = [⟨"Base", some "A"⟩] ∧
      engine.analyze unit.tree unit.declarations.resolver = [] := by
  decide +kernel

end UnityLint
