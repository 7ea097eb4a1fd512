import UnityLint.Proofs.TextParts
import UnityLint.Proofs.VerdictAgreement

/-! # Declarations that answer alike

Two files that declare different types can agree on every name that one of them mentions. Then the
searches along the bases of its types agree, and so do the verdicts on its nodes. -/

namespace UnityLint

def simpleTypeName (written : String) : String :=
  String.ofList (Text.afterLast (· = '.') (bareTypeName written).toList)

namespace Declarations

/-- Two files agree on what `names` refer to, and the bases of the types that the first declares are
among them. -/
structure AgreeOn (names : String → Prop) (before after : Declarations) : Prop where
  lookup_eq : ∀ {written}, names written → after.lookup written = before.lookup written
  named : ∀ info ∈ before.types.values, ∀ written ∈ info.base, names written

section AgreeOn

variable {names : String → Prop} {before after : Declarations}
  (agree : AgreeOn names before after)

include agree

theorem AgreeOn.basesWithin_eq (depth : Nat) {base : Option String}
    (named : ∀ written ∈ base, names written) :
    after.basesWithin depth base = before.basesWithin depth base := by
  induction depth generalizing base with
  | zero => rfl
  | succ depth induction =>
      cases base with
      | none => rfl
      | some written =>
          rw [basesWithin, basesWithin, agree.lookup_eq (named written rfl)]
          cases found : before.lookup written with
          | none => rfl
          | some ref =>
              cases ref with
              | builtIn type => rfl
              | declared info =>
                  exact congrArg _ (induction (agree.named info (mem_values_of_lookup found)))

variable {info : TypeInfo} (declared : info ∈ before.types.values)

include declared

theorem AgreeOn.bind_lookup_eq : info.base.bind after.lookup = info.base.bind before.lookup := by
  cases base : info.base with
  | none => rfl
  | some written => exact agree.lookup_eq (agree.named info declared written base)

theorem AgreeOn.typeSymbol_eq : after.typeSymbol info = before.typeSymbol info := by
  rw [typeSymbol, typeSymbol, bases, bases,
    agree.basesWithin_eq baseLimit (agree.named info declared)]

theorem AgreeOn.methodWithin_eq (name : String) (depth : Nat) :
    after.methodWithin name depth info = before.methodWithin name depth info := by
  induction depth generalizing info with
  | zero => rfl
  | succ depth induction =>
      rw [methodWithin, methodWithin, agree.bind_lookup_eq declared]
      cases found : info.base.bind before.lookup with
      | none => rfl
      | some ref =>
          cases ref with
          | builtIn type => rfl
          | declared base =>
              rcases Option.bind_eq_some_iff.mp found with ⟨written, _, looked⟩
              dsimp only
              rw [induction (mem_values_of_lookup looked)]

theorem AgreeOn.memberWithin_eq (name : String) (depth : Nat) :
    after.memberWithin name depth info = before.memberWithin name depth info := by
  induction depth generalizing info with
  | zero => rfl
  | succ depth induction =>
      rw [memberWithin, memberWithin, agree.bind_lookup_eq declared]
      cases found : info.base.bind before.lookup with
      | none => rfl
      | some ref =>
          cases ref with
          | builtIn type => rfl
          | declared base =>
              rcases Option.bind_eq_some_iff.mp found with ⟨written, _, looked⟩
              dsimp only
              rw [induction (mem_values_of_lookup looked)]

theorem AgreeOn.method?_eq (name : String) : after.method? info name = before.method? info name := by
  rw [method?, method?, agree.methodWithin_eq declared]

theorem AgreeOn.member?_eq (name : String) : after.member? info name = before.member? info name := by
  rw [member?, member?, agree.memberWithin_eq declared]

end AgreeOn

/-! ## Types added at the end -/

section Added

variable {before after : Declarations} {added : List TypeInfo}
  (types : after.types.values = before.types.values ++ added)

include types

theorem typeNamed?_of_added {name : String} (fresh : ∀ info ∈ added, info.name ≠ name) :
    after.typeNamed? name = before.typeNamed? name := by
  have none : added.find? (·.name = name) = none := by simpa using fresh
  rw [typeNamed?, typeNamed?, types, List.find?_append, none, Option.or_none]

theorem lookupDotted_of_added {dotted : String}
    (fresh : ∀ info ∈ added,
      info.name ≠ String.ofList (Text.afterLast (· = '.') dotted.toList)) :
    after.lookupDotted dotted = before.lookupDotted dotted := by
  rw [Text.afterLast_eq_cutLast] at fresh
  rw [lookupDotted, lookupDotted]
  cases cut : Text.cutLast '.' dotted.toList with
  | none =>
      rw [cut] at fresh
      rw [typeNamed?_of_added types (by simpa using fresh)]
  | some found =>
      rw [cut] at fresh
      have none : added.find? (fun info => info.name = String.ofList found.2 ∧
          info.namespaceName = some (String.ofList found.1)) = none := by
        rw [List.find?_eq_none]
        intro info member
        have other : info.name ≠ String.ofList found.2 := fresh info member
        simp [other]
      simp only [types, List.find?_append, none, Option.or_none]

theorem AgreeOn.of_added {names : String → Prop} (usings : after.usings = before.usings)
    (aliases : after.aliases = before.aliases)
    (bases : ∀ info ∈ before.types.values, ∀ written ∈ info.base, names written)
    (fresh : ∀ written, (names written ∨ ∃ entry ∈ before.aliases, entry.2 = written) →
      ∀ info ∈ added, info.name ≠ simpleTypeName written) :
    AgreeOn names before after where
  lookup_eq {written} named := by
    have own := fresh written (.inl named)
    rw [simpleTypeName] at own
    simp only [lookup, aliases, usings]
    cases found : before.aliases.lookup (bareTypeName written) with
    | some target =>
        rcases List.lookup_eq_some_iff.mp found with ⟨_, _, equal, _⟩
        have member : (bareTypeName written, target) ∈ before.aliases := by
          rw [equal]
          exact List.mem_append_right _ List.mem_cons_self
        exact lookupDotted_of_added types (fresh target (.inr ⟨_, member, rfl⟩))
    | none =>
        dsimp only
        split
        · exact lookupDotted_of_added types own
        · rename_i undotted
          have whole : Text.afterLast (· = '.') (bareTypeName written).toList =
              (bareTypeName written).toList := by
            rw [Text.afterLast_eq_cutLast]
            cases cut : Text.cutLast '.' (bareTypeName written).toList with
            | none => rfl
            | some found =>
                rw [Text.eq_append_of_cutLast cut] at undotted
                exact absurd (List.mem_append_right _ List.mem_cons_self) undotted
          rw [whole, String.ofList_toList] at own
          rw [typeNamed?_of_added types own]
  named := bases

end Added

end Declarations

/-! ## Agreeing verdicts -/

def Outline.receiverName? (outline : Outline) : Option String :=
  outline.callee?.bind fun callee => callee.access?.bind (·.1.dottedName?)

section Verdicts

open Declarations

variable {names : String → Prop} {before after : Declarations} {around : Surroundings}
  (agree : AgreeOn names before after)
  (known : ∀ info ∈ around.type, info ∈ before.types.values)

include agree known

-- The searches must not be unfolded here: they have a limit that `rfl` would walk up to.

theorem Surroundings.memberSymbol?_congr (name : String) :
    around.memberSymbol? after name = around.memberSymbol? before name := by
  rw [memberSymbol?, memberSymbol?]
  apply Option.bind_congr
  intro info type
  rw [agree.member?_eq (known info type)]

theorem Surroundings.nameSymbol?_congr (name : String) :
    around.nameSymbol? after name = around.nameSymbol? before name := by
  rw [nameSymbol?, nameSymbol?, memberSymbol?_congr agree known]

theorem Surroundings.isVariable_congr (outline : Outline) :
    around.isVariable after outline = around.isVariable before outline := by
  simp only [isVariable, nameSymbol?_congr agree known]

theorem Surroundings.bareCallSymbol?_congr (name : String) :
    around.bareCallSymbol? after name = around.bareCallSymbol? before name := by
  rw [bareCallSymbol?, bareCallSymbol?]
  apply Option.bind_congr
  intro info type
  rw [agree.method?_eq (known info type)]

theorem Surroundings.calleeSymbol?_congr {outline callee : Outline}
    (called : ∀ written ∈ outline.receiverName?, names written)
    (found : outline.callee? = some callee) :
    around.calleeSymbol? after callee = around.calleeSymbol? before callee := by
  rw [calleeSymbol?, calleeSymbol?]
  cases access : callee.access? with
  | none =>
      apply Option.bind_congr
      intro name _
      exact bareCallSymbol?_congr agree known name
  | some pair =>
      rcases pair with ⟨receiver, member⟩
      simp only [isVariable_congr agree known]
      apply Option.bind_congr
      intro name _
      congr 1
      have same : receiver.dottedName?.bind after.lookup = receiver.dottedName?.bind before.lookup := by
        apply Option.bind_congr
        intro written dotted
        apply agree.lookup_eq
        apply called written
        rw [Outline.receiverName?, found, Option.bind_some, access]
        exact dotted
      rw [same]
      apply Option.bind_congr
      intro ref looked
      cases ref with
      | builtIn type => rw [methodOf?, methodOf?]
      | declared info =>
          rcases Option.bind_eq_some_iff.mp looked with ⟨written, _, inside⟩
          rw [methodOf?, methodOf?, agree.method?_eq (mem_values_of_lookup inside)]

theorem Setting.misplaced?_congr (outline : Outline) (path : String) (scope : ScopeFilter) :
    misplaced? { path, scope, declarations := after } around outline =
      misplaced? { path, scope, declarations := before } around outline := by
  rw [misplaced?, misplaced?]
  refine bind_congr fun _ => bind_congr fun called => bind_congr fun _ => bind_congr fun method =>
    bind_congr fun _ => ?_
  apply Option.bind_congr
  intro info type
  dsimp only
  rw [agree.typeSymbol_eq (known info type)]

theorem Setting.sceneLookup?_congr {outline : Outline}
    (called : ∀ written ∈ outline.receiverName?, names written) (path : String)
    (scope : ScopeFilter) :
    sceneLookup? { path, scope, declarations := after } around outline =
      sceneLookup? { path, scope, declarations := before } around outline := by
  rw [sceneLookup?, sceneLookup?]
  refine bind_congr fun _ => ?_
  apply Option.bind_congr
  intro callee found
  dsimp only
  rw [Surroundings.calleeSymbol?_congr agree known called found]

theorem Setting.offence?_congr (guarded : Outline) (path : String) (scope : ScopeFilter) :
    offence? { path, scope, declarations := after } around guarded =
      offence? { path, scope, declarations := before } around guarded := by
  simp only [offence?, Surroundings.nameSymbol?_congr agree known]

theorem Setting.verdict_congr {outline : Outline}
    (called : ∀ written ∈ outline.receiverName?, names written) (path : String)
    (scope : ScopeFilter) :
    verdict { path, scope, declarations := after } around outline =
      verdict { path, scope, declarations := before } around outline := by
  have offences : offence? { path, scope, declarations := after } around =
      offence? { path, scope, declarations := before } around := by
    funext guarded
    exact offence?_congr agree known guarded path scope
  rw [verdict, verdict, misplaced?_congr agree known, sceneLookup?_congr agree known called,
    offences]
  rfl

end Verdicts

/-! ## Declarations of an outline -/

namespace Outline

def types (outline : Outline) : List TypeInfo :=
  (outline.inPlace {}).filterMap (·.2.form.typeInfo?)

mutual

def directives : Outline → List UsingDirective
  | .node form _ parts => form.directive?.toList ++ directivesOfAll parts

def directivesOfAll : List Outline → List UsingDirective
  | [] => []
  | part :: rest => part.directives ++ directivesOfAll rest

end

theorem directivesOfAll_eq_flatMap (outlines : List Outline) :
    directivesOfAll outlines = outlines.flatMap directives := by
  induction outlines with
  | nil => rfl
  | cons outline rest induction => rw [directivesOfAll, induction, List.flatMap_cons]

theorem inPlace_eq (around : Surroundings) (outline : Outline) :
    outline.inPlace around =
      outline.parts.flatMap (inPlace (around.inside outline.form)) ++ [(around, outline)] := by
  cases outline
  rw [inPlace, inPlaceOfAll_eq_flatMap]
  rfl

theorem type_of_mem_inPlace {outline : Outline} {around : Surroundings}
    {place : Surroundings × Outline} (member : place ∈ outline.inPlace around) {info : TypeInfo}
    (type : place.1.type = some info) :
    around.type = some info ∨
      ∃ other ∈ outline.inPlace around, other.2.form.typeInfo? = some info := by
  induction outline generalizing around with
  | node form span parts induction =>
      rw [inPlace_eq, List.mem_append, List.mem_flatMap, List.mem_singleton] at member
      rcases member with ⟨part, listed, inside⟩ | rfl
      · rcases induction part listed inside with outer | ⟨other, below, found⟩
        · cases form with
          | typeDeclaration own =>
              refine .inr ⟨(around, .node (.typeDeclaration own) span parts), ?_, outer⟩
              rw [inPlace_eq]
              exact List.mem_append_right _ (List.mem_singleton.mpr rfl)
          | _ => exact .inl outer
        · refine .inr ⟨other, ?_, found⟩
          rw [inPlace_eq]
          exact List.mem_append_left _ (List.mem_flatMap.mpr ⟨part, listed, below⟩)
      · exact .inl type

theorem mem_types_of_mem_inPlace {outline : Outline} {place : Surroundings × Outline}
    (member : place ∈ outline.inPlace {}) : ∀ info ∈ place.1.type, info ∈ outline.types := by
  intro info type
  rcases type_of_mem_inPlace member type with outer | ⟨other, inside, found⟩
  · cases outer
  · exact List.mem_filterMap.mpr ⟨other, inside, found⟩

end Outline

namespace Trace

theorem map_snd_inPlace (trace : Trace) (around : Surroundings) :
    (trace.outline.inPlace around).map Prod.snd = trace.nodes.map outline := by
  induction trace generalizing around with
  | node form span origin parts induction =>
      have below : ∀ inner : Surroundings,
          (parts.flatMap fun part => (part.outline.inPlace inner).map Prod.snd) =
            parts.flatMap fun part => part.nodes.map outline := by
        intro inner
        apply List.flatMap_congr
        intro part member
        exact induction part member inner
      rw [Outline.inPlace_eq, nodes_eq]
      simp [List.map_flatMap, List.flatMap_map, below, Trace.parts]

theorem exists_node_of_mem_inPlace {trace : Trace} {around : Surroundings}
    {place : Surroundings × Outline} (member : place ∈ trace.outline.inPlace around) :
    ∃ node ∈ trace.nodes, node.outline = place.2 := by
  apply List.mem_map.mp
  rw [← trace.map_snd_inPlace around]
  exact List.mem_map_of_mem member

@[simp] theorem directives_outline (trace : Trace) : trace.outline.directives = trace.directives := by
  induction trace with
  | node form span origin parts induction =>
      rw [outline, Outline.directives, directives, outlines_eq_map,
        Outline.directivesOfAll_eq_flatMap, directivesOfAll_eq_flatMap, List.flatMap_map]
      congr 1
      apply List.flatMap_congr
      exact induction

end Trace

section SourceUnit

variable (path source : String) (root : ParseTree)

theorem values_types_ofParseTree :
    (SourceUnit.ofParseTree path source root).declarations.types.values =
      (Outline.ofParseTree source.toList root).types := by
  have nodes := (Trace.ofParseTree source.toList root).map_snd_inPlace {}
  have types := congrArg (List.filterMap fun outline : Outline => outline.form.typeInfo?) nodes
  rw [List.filterMap_map, List.filterMap_map] at types
  rw [declarations_ofParseTree, Trace.values_types, Outline.types, ← Trace.outline_ofParseTree]
  simpa [Function.comp_def] using types.symm

variable {path source root} in
theorem mem_values_of_mem_inPlace {place : Surroundings × Outline}
    (member : place ∈ (Outline.ofParseTree source.toList root).inPlace {}) :
    ∀ info ∈ place.1.type,
      info ∈ (SourceUnit.ofParseTree path source root).declarations.types.values := by
  rw [values_types_ofParseTree]
  exact Outline.mem_types_of_mem_inPlace member

theorem usings_ofParseTree :
    (SourceUnit.ofParseTree path source root).declarations.usings =
      (Outline.ofParseTree source.toList root).directives.filterMap UsingDirective.imported? := by
  rw [declarations_ofParseTree, (Trace.noted_declarations _).usings, ← Trace.outline_ofParseTree,
    Trace.directives_outline]
  rfl

theorem aliases_ofParseTree :
    (SourceUnit.ofParseTree path source root).declarations.aliases =
      ((Outline.ofParseTree source.toList root).directives.filterMap
        UsingDirective.alias?).reverse := by
  rw [declarations_ofParseTree, (Trace.noted_declarations _).aliases, ← Trace.outline_ofParseTree,
    Trace.directives_outline]
  exact List.append_nil _

end SourceUnit

end UnityLint
