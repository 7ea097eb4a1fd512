import Mathlib.Data.Option.Basic
import UnityLint.Proofs.InjectedGuard
import UnityLint.Rule.Preset

/-! # Verdicts without numbers

What the rules say about a node depends on the outline of the node and on the declarations around it,
not on its number. Here the rules are stated on outlines, and the analysis of a numbered tree is proved
to be the list of what they say about its outlines in their places. -/

namespace UnityLint

/-! ## Outlines in front of the rules -/

namespace Outline

@[elab_as_elim, induction_eliminator]
theorem parts_induction {motive : Outline → Prop}
    (node : ∀ form span parts, (∀ part ∈ parts, motive part) → motive (.node form span parts)) :
    ∀ outline, motive outline
  | .node form span parts => node form span parts fun part _ => parts_induction node part

def access? (outline : Outline) : Option (Outline × Outline) :=
  match outline.form, outline.parts[0]?, outline.parts[1]? with
  | .memberAccess, some receiver, some member => some (receiver, member)
  | _, _, _ => none

def calleeName? (outline : Outline) : Option String :=
  match outline.form with
  | .memberAccess => outline.parts[1]?.bind (·.form.simpleName?)
  | .memberBinding => outline.parts[0]?.bind (·.form.simpleName?)
  | form => form.simpleName?

def callee? (outline : Outline) : Option Outline :=
  if outline.form = .invocation then outline.parts[0]? else none

def ownerName? (callee : Outline) : Option String :=
  callee.access?.bind fun (receiver, _) =>
    match receiver.form with
    | .identifier name => some name
    | _ => none

def dottedName? : Outline → Option String
  | .node .memberAccess _ (receiver :: member :: _) => do
      let head ← receiver.dottedName?
      let last ← member.form.simpleName?
      some (head ++ "." ++ last)
  | .node form _ _ => form.simpleName?

def isNull (outline : Outline) : Bool :=
  outline.form = .literal .null

def tested? (condition : Outline) : Option Outline :=
  match condition.form, condition.parts[0]?, condition.parts[1]? with
  | .comparison _, some left, some right =>
      match left.isNull, right.isNull with
      | true, false => some right
      | false, true => some left
      | _, _ => none
  | .isPattern (.constant _), some subject, some value =>
      if value.isNull then some subject else none
  | .isPattern (.negated (.constant _)), some subject, some value =>
      if value.isNull then some subject else none
  | _, _, _ => none

def guardedBy (receiver : Outline) : Outline :=
  match receiver.form, receiver.parts[1]? with
  | .conditionalAccess, some tail => tail
  | _, _ => receiver

def guarded? (outline : Outline) : Option Outline :=
  match outline.form with
  | .ifStatement => outline.parts[0]?.bind tested?
  | .conditionalAccess => outline.parts[0]?.map guardedBy
  | _ => none

end Outline

/-! ## Declarations around a node -/

def Form.method? : Form → Option (String × MethodInfo)
  | .methodDeclaration name info => some (name, info)
  | _ => none

structure Surroundings where
  type : Option TypeInfo := none
  method : Option (String × MethodInfo) := none

namespace Surroundings

def inside (around : Surroundings) : Form → Surroundings
  | .typeDeclaration info => { around with type := some info }
  | .methodDeclaration name info => { around with method := some (name, info) }
  | _ => around

theorem inside_of_isDeclaration_eq_false (around : Surroundings) {form : Form}
    (other : form.kind.isDeclaration = false) : around.inside form = around := by
  cases form <;> first | rfl | cases other

variable (around : Surroundings) (declarations : Declarations)

def memberSymbol? (name : String) : Option Symbol :=
  around.type.bind (declarations.member? · name)

def nameSymbol? (name : String) : Option Symbol :=
  match around.method with
  | some (_, method) =>
      if name ∈ method.parameters then some { name, kind := .parameter }
      else if name ∈ method.locals then some { name, kind := .local }
      else around.memberSymbol? declarations name
  | none => around.memberSymbol? declarations name

def isVariable (outline : Outline) : Bool :=
  match outline.form with
  | .identifier name => (around.nameSymbol? declarations name).isSome
  | _ => false

def bareCallSymbol? (name : String) : Option Symbol :=
  around.type.bind fun info =>
    if around.method.any (name ∈ ·.2.localFunctions) then some (info.symbol name .method)
    else declarations.method? info name

def calleeSymbol? (callee : Outline) : Option Symbol :=
  match callee.access? with
  | some (receiver, member) =>
      member.form.simpleName?.bind fun name =>
        if around.isVariable declarations receiver then none
        else (receiver.dottedName?.bind declarations.lookup).bind (declarations.methodOf? · name)
  | none => callee.form.simpleName?.bind (around.bareCallSymbol? declarations)

end Surroundings

/-! ## Rules on outlines -/

def Span.location (path : String) (span : Span) : Location where
  file := path
  line := span.line
  column := span.column
  offset := span.start
  length := span.length

structure Setting where
  path : String
  scope : ScopeFilter
  declarations : Declarations

namespace Setting

def inScope (setting : Setting) : Bool :=
  setting.scope.includes setting.path

def report (setting : Setting) (outline : Outline) (descriptor : Descriptor)
    (arguments : List String) : Diagnostic :=
  .ofDescriptor descriptor (outline.span.location setting.path) arguments

variable (setting : Setting) (around : Surroundings) (outline : Outline)

def misplaced? : Option (String × String) := do
  guard setting.inScope
  let called ← outline.callee?.bind Outline.calleeName?
  guard (isWatched called acquisitionMethods)
  let method ← around.method
  guard (method.1 ∉ Acquisition.initializers)
  let type ← around.type
  guard ((setting.declarations.typeSymbol type).derivesFrom Acquisition.behaviour engineNamespace)
  some (called, method.1)

def sceneLookup? : Option String := do
  guard setting.inScope
  let callee ← outline.callee?
  let called ← callee.calleeName?
  guard (isWatched called SceneLookup.lookupMethods)
  guard (callee.ownerName?.all (· ∈ SceneLookup.owners))
  let method ← around.method
  guard (method.1 ∈ SceneLookup.frameMethods)
  let target ← around.calleeSymbol? setting.declarations callee
  let container ← target.container
  guard (container.namespaceName = some engineNamespace)
  some (container.name ++ "." ++ called)

def promises (symbol : Symbol) : Bool :=
  symbol.isMember && symbol.attributes.any fun written =>
    NullGuard.injectingAttributes.any (attributeMatches written · NullGuard.attributeEnding)

def offence? (guarded : Outline) : Option Descriptor :=
  match guarded.form with
  | .invocation =>
      if (guarded.callee?.bind Outline.calleeName?).any (isWatched · acquisitionMethods) then
        some Catalogue.guardedAcquisition
      else
        none
  | .identifier name =>
      if (around.nameSymbol? setting.declarations name).any promises then
        some Catalogue.guardedInjection
      else
        none
  | _ => none

def verdict : List Diagnostic :=
  (setting.misplaced? around outline).toList.map (fun (called, method) =>
      setting.report outline Catalogue.acquisitionOutsideStart [called, method]) ++
    (setting.sceneLookup? around outline).toList.map (fun qualified =>
      setting.report outline Catalogue.sceneLookup [qualified]) ++
    if setting.inScope then
      (outline.guarded?.bind (setting.offence? around)).toList.map fun descriptor =>
        setting.report outline descriptor []
    else
      []

variable {setting around outline}

theorem verdict_eq_nil (uncalled : outline.callee? = none) (unguarded : outline.guarded? = none) :
    setting.verdict around outline = [] := by
  simp [verdict, misplaced?, sceneLookup?, uncalled, unguarded]

theorem location_of_mem_verdict {diagnostic : Diagnostic}
    (member : diagnostic ∈ setting.verdict around outline) :
    diagnostic.location = outline.span.location setting.path := by
  rw [verdict, List.mem_append, List.mem_append, List.mem_map, List.mem_map] at member
  rcases member with (⟨_, _, rfl⟩ | ⟨_, _, rfl⟩) | guarded
  · rfl
  · rfl
  · split at guarded
    · rcases List.mem_map.mp guarded with ⟨_, _, rfl⟩
      rfl
    · cases guarded

end Setting

/-! ## Outlines in their places -/

namespace Outline

mutual

/-- The nodes of an outline in the order of their numbers, each with what is around it. -/
def inPlace (around : Surroundings) : Outline → List (Surroundings × Outline)
  | .node form span parts =>
      inPlaceOfAll (around.inside form) parts ++ [(around, .node form span parts)]

def inPlaceOfAll (around : Surroundings) : List Outline → List (Surroundings × Outline)
  | [] => []
  | part :: rest => part.inPlace around ++ inPlaceOfAll around rest

end

theorem inPlaceOfAll_eq_flatMap (around : Surroundings) (outlines : List Outline) :
    inPlaceOfAll around outlines = outlines.flatMap (inPlace around) := by
  induction outlines with
  | nil => rfl
  | cons outline rest induction => rw [inPlaceOfAll, induction, List.flatMap_cons]

end Outline

namespace Trace

def surroundings : List (Nat × Trace) → Surroundings
  | [] => {}
  | outer :: others => (surroundings others).inside outer.2.form

variable {whole node : Trace} {first : Nat} {around : List (Nat × Trace)}

theorem flatMap_range'_nodesOfAll {α : Type} {visit : Nat → List α}
    {look : Surroundings × Outline → List α} {parts : List Trace} {inner : Surroundings}
    (agree : ∀ start ∈ startsFrom first parts,
      (List.range' start.1 start.2.size).flatMap visit =
        (start.2.outline.inPlace inner).flatMap look) :
    (List.range' first (nodesOfAll parts).length).flatMap visit =
      (Outline.inPlaceOfAll inner (outlines parts)).flatMap look := by
  induction parts generalizing first with
  | nil => rfl
  | cons part rest induction =>
      have own := agree (first, part) List.mem_cons_self
      have others := induction fun start member => agree start (List.mem_cons_of_mem _ member)
      rw [nodesOfAll, List.length_append, length_nodes, ← List.range'_append_1, outlines,
        Outline.inPlaceOfAll, List.flatMap_append, List.flatMap_append, own, others]

theorem Sits.flatMap_range' {α : Type} {visit : Nat → List α}
    {look : Surroundings × Outline → List α}
    (agree : ∀ {start inner others}, Sits whole start inner others →
      visit (start + inner.countBelow) = look (surroundings others, inner.outline))
    (sits : Sits whole first node around) :
    (List.range' first node.size).flatMap visit =
      (node.outline.inPlace (surroundings around)).flatMap look := by
  induction node generalizing first around with
  | node form span origin parts induction =>
      have below : (List.range' first (nodesOfAll parts).length).flatMap visit =
          (Outline.inPlaceOfAll ((surroundings around).inside form) (outlines parts)).flatMap look :=
        flatMap_range'_nodesOfAll fun start member =>
          induction start.2 (mem_of_mem_startsFrom member) (sits.part member)
      have own := agree sits
      simp only [countBelow, Trace.parts, outline] at own
      rw [size, countBelow, Trace.parts, List.range'_concat, outline, Outline.inPlace,
        List.flatMap_append, List.flatMap_append, below]
      simp [own]

end Trace

end UnityLint
