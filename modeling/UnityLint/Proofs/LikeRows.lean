import Mathlib.Data.List.Forall2
import UnityLint.Proofs.Bindings

/-! # Rows that are alike

An edit moves the bytes of all rows behind it. Two parse trees are alike if they differ only in the bytes
of their rows and in the parentheses around the null patterns that are tested, and if the texts that
count are the same. Rows that are alike declare the same. -/

namespace UnityLint

/-! ## Related lists -/

section Lists

variable {α β γ : Type} {related narrowed : α → β → Prop} {finds : α → Bool} {seeks : β → Bool}
  {values : List α} {others : List β}

section Search

variable (agree : ∀ value other, related value other → seeks other = finds value)
  (narrows : ∀ value other, related value other → finds value → narrowed value other)
  (all : List.Forall₂ related values others)

include agree narrows all

theorem rel_find? : Option.Rel narrowed (values.find? finds) (others.find? seeks) := by
  induction all with
  | nil => exact .none
  | @cons value other _ _ first _ induction =>
      rw [List.find?_cons, List.find?_cons, agree value other first]
      cases found : finds value with
      | true => exact .some (narrows value other first found)
      | false => exact induction

theorem forall₂_filter : List.Forall₂ narrowed (values.filter finds) (others.filter seeks) := by
  induction all with
  | nil => exact .nil
  | @cons value other _ _ first _ induction =>
      rw [List.filter_cons, List.filter_cons, agree value other first]
      cases found : finds value with
      | true => exact .cons (narrows value other first found) induction
      | false => exact induction

omit narrows in
theorem forall₂_eraseP :
    List.Forall₂ related (values.eraseP finds) (others.eraseP seeks) := by
  induction all with
  | nil => exact .nil
  | @cons value other _ _ first rest induction =>
      rw [List.eraseP_cons, List.eraseP_cons, agree value other first]
      cases finds value with
      | true => exact rest
      | false => exact .cons first induction

end Search

theorem map_eq_of_forall₂ {image : α → γ} {copy : β → γ}
    (same : ∀ value other, related value other → copy other = image value)
    (all : List.Forall₂ related values others) : others.map copy = values.map image := by
  induction all with
  | nil => rfl
  | cons first _ induction => rw [List.map_cons, List.map_cons, same _ _ first, induction]

theorem flatMap_eq_of_forall₂ {image : α → List γ} {copy : β → List γ}
    (same : ∀ value other, related value other → copy other = image value)
    (all : List.Forall₂ related values others) : others.flatMap copy = values.flatMap image := by
  rw [List.flatMap_def, List.flatMap_def, map_eq_of_forall₂ same all]

theorem filterMap_eq_of_forall₂ {image : α → Option γ} {copy : β → Option γ}
    (same : ∀ value other, related value other → copy other = image value)
    (all : List.Forall₂ related values others) : others.filterMap copy = values.filterMap image := by
  rw [List.filterMap_eq_flatMap_toList, List.filterMap_eq_flatMap_toList]
  apply flatMap_eq_of_forall₂ _ all
  intro value other pair
  rw [same value other pair]

theorem rel_cases {value : Option α} {other : Option β} (both : Option.Rel related value other) :
    value = none ∧ other = none ∨
      ∃ own copy, value = some own ∧ other = some copy ∧ related own copy := by
  cases both with
  | none => exact .inl ⟨rfl, rfl⟩
  | some pair => exact .inr ⟨_, _, rfl, rfl, pair⟩

theorem map_eq_of_rel {image : α → γ} {copy : β → γ} {value : Option α} {other : Option β}
    (same : ∀ value other, related value other → copy other = image value)
    (both : Option.Rel related value other) : other.map copy = value.map image := by
  cases both with
  | none => rfl
  | some pair => exact congrArg some (same _ _ pair)

end Lists

/-! ## Patterns in layers -/

inductive PatternLayer where
  | constant
  | parenthesized
  | negated
deriving DecidableEq, Repr

def PatternLayer.kind : PatternLayer → String
  | .constant => "constant_pattern"
  | .parenthesized => "parenthesized_pattern"
  | .negated => "negated_pattern"

namespace ParseTree

/-- The row `core` under layers of patterns, outermost first. Each layer has the next one, and the last
of them the core, as its only named child. -/
inductive Layered (core : ParseTree) : List PatternLayer → ParseTree → Prop
  | core : Layered core [] core
  | layer {layer layers row inner} (kind : row.kind = layer.kind)
      (only : row.namedChildren = [inner]) (inside : Layered core layers inner) :
      Layered core (layer :: layers) row

def nullPatternKinds : List String :=
  ["constant_pattern", "parenthesized_pattern", "negated_pattern", "null_literal"]

theorem Layered.kind_mem {core row : ParseTree} {layers : List PatternLayer}
    (layered : Layered core layers row) (null : core.kind = "null_literal") :
    row.kind ∈ nullPatternKinds := by
  cases layered with
  | core =>
      rw [null]
      decide
  | @layer layer _ _ _ kind =>
      rw [kind]
      cases layer <;> decide

theorem declares_nothing {row : ParseTree} (null : row.kind ∈ nullPatternKinds)
    (source : List Char) :
    row.membersOf source = [] ∧ row.methodOf? source = none ∧ row.parameter? source = none ∧
      row.local? source = none ∧ row.localFunction? source = none := by
  simp only [nullPatternKinds, List.mem_cons, List.not_mem_nil, or_false] at null
  rcases null with kind | kind | kind | kind <;>
    simp [membersOf, methodOf?, parameter?, local?, localFunction?, kind]

/-! ## Likeness -/

def countsByText (row : ParseTree) : Bool :=
  row.kind ∈ ["identifier", "implicit_parameter", "using_directive"] ∨
    row.field ∈ [some .name, some .operator]

def testsPattern (row : ParseTree) : Bool :=
  row.kind = "is_pattern_expression" ∧ (row.child? .expression).isSome ∧
    (row.child? .pattern).isSome

structure Rewrapped (likeness : ParseTree → ParseTree → Prop) (row moved : ParseTree) : Prop where
  tested : row.field = some .pattern
  field : moved.field = row.field
  named : moved.named = row.named
  layers : ∃ core literal layers others, Layered core layers row ∧ Layered literal others moved ∧
    core.kind = "null_literal" ∧ likeness core literal ∧
      others.filter (· ≠ .parenthesized) = layers.filter (· ≠ .parenthesized)

mutual

/-- The rows are read alike: `row` in a file with the text `source`, and `moved` in one with the text
`other`. -/
inductive Alike (source other : List Char) : ParseTree → ParseTree → Prop
  | intro {row moved} (kind : moved.kind = row.kind) (named : moved.named = row.named)
      (field : moved.field = row.field)
      (text : row.countsByText → moved.text other = row.text source)
      (base : row.kind = "base_list" → moved.firstBase? other = row.firstBase? source)
      (below : AlikeAll source other row.testsPattern row.children moved.children) :
      Alike source other row moved

/-- The children of two rows are alike one by one; if the rows test a pattern, a null pattern may be in
other parentheses. -/
inductive AlikeAll (source other : List Char) : Bool → List ParseTree → List ParseTree → Prop
  | nil {tests} : AlikeAll source other tests [] []
  | cons {tests child moved children others} (first : Alike source other child moved)
      (rest : AlikeAll source other tests children others) :
      AlikeAll source other tests (child :: children) (moved :: others)
  | rewrapped {child moved children others core literal layers parenthesized}
      (tested : child.field = some .pattern) (field : moved.field = child.field)
      (named : moved.named = child.named) (layered : Layered core layers child)
      (again : Layered literal parenthesized moved) (null : core.kind = "null_literal")
      (literals : Alike source other core literal)
      (same : parenthesized.filter (· ≠ .parenthesized) = layers.filter (· ≠ .parenthesized))
      (rest : AlikeAll source other true children others) :
      AlikeAll source other true (child :: children) (moved :: others)

end

def AlikeChild (likeness : ParseTree → ParseTree → Prop) (tests : Bool) (row moved : ParseTree) :
    Prop :=
  likeness row moved ∨ tests ∧ Rewrapped likeness row moved

variable {source other : List Char} {row moved : ParseTree}

/-- Induction over rows that are alike: the children have the motive in common, or else the literals in
their patterns have. -/
@[elab_as_elim]
theorem Alike.children_induction {motive : ParseTree → ParseTree → Prop}
    (step : ∀ {row moved}, Alike source other row moved →
      List.Forall₂ (AlikeChild (fun row moved => Alike source other row moved ∧ motive row moved)
        row.testsPattern) row.children moved.children → motive row moved)
    (alike : Alike source other row moved) : motive row moved := by
  refine @Alike.rec source other (fun row moved _ => motive row moved)
    (fun tests children others _ =>
      List.Forall₂ (AlikeChild (fun row moved => Alike source other row moved ∧ motive row moved)
        tests) children others) ?_ ?_ ?_ ?_ row moved alike
  · intro row moved kind named field text base below all
    exact step (.intro kind named field text base below) all
  · intro tests
    exact .nil
  · intro tests child moved children others first rest own all
    exact .cons (.inl ⟨first, own⟩) all
  · intro child moved children others core literal layers parenthesized tested field named layered
      again null literals same rest own all
    refine .cons (.inr ⟨rfl, tested, field, named, ?_⟩) all
    exact ⟨core, literal, layers, parenthesized, layered, again, null, ⟨literals, own⟩, same⟩

theorem Alike.kind_eq (alike : Alike source other row moved) : moved.kind = row.kind := by
  cases alike with
  | intro kind => exact kind

theorem Alike.named_eq (alike : Alike source other row moved) : moved.named = row.named := by
  cases alike with
  | intro _ named => exact named

theorem Alike.field_eq (alike : Alike source other row moved) : moved.field = row.field := by
  cases alike with
  | intro _ _ field => exact field

theorem Alike.text_eq (alike : Alike source other row moved) (counts : row.countsByText) :
    moved.text other = row.text source := by
  cases alike with
  | intro _ _ _ text => exact text counts

theorem Alike.firstBase?_eq (alike : Alike source other row moved) (list : row.kind = "base_list") :
    moved.firstBase? other = row.firstBase? source := by
  cases alike with
  | intro _ _ _ _ base => exact base list

theorem Rewrapped.mono {likeness wider : ParseTree → ParseTree → Prop}
    (rewrapped : Rewrapped likeness row moved)
    (widens : ∀ row moved, likeness row moved → wider row moved) : Rewrapped wider row moved where
  tested := rewrapped.tested
  field := rewrapped.field
  named := rewrapped.named
  layers := by
    rcases rewrapped.layers with ⟨core, literal, layers, others, layered, again, null, like, same⟩
    exact ⟨core, literal, layers, others, layered, again, null, widens _ _ like, same⟩

theorem AlikeChild.mono {likeness wider : ParseTree → ParseTree → Prop} {tests : Bool}
    (alike : AlikeChild likeness tests row moved)
    (widens : ∀ row moved, likeness row moved → wider row moved) :
    AlikeChild wider tests row moved := by
  rcases alike with like | ⟨tested, rewrapped⟩
  · exact .inl (widens _ _ like)
  · exact .inr ⟨tested, rewrapped.mono widens⟩

theorem Alike.forall₂_children (alike : Alike source other row moved) :
    List.Forall₂ (AlikeChild (Alike source other) row.testsPattern) row.children moved.children := by
  refine Alike.children_induction ?_ alike
  intro row moved _ all
  exact all.imp fun _ _ child => child.mono fun _ _ => And.left

section Children

variable {tests : Bool} (alike : AlikeChild (Alike source other) tests row moved)

include alike

theorem AlikeChild.named_eq : moved.named = row.named := by
  rcases alike with like | ⟨_, rewrapped⟩
  · exact like.named_eq
  · exact rewrapped.named

theorem AlikeChild.fills_eq (field : Field) : fills field moved = fills field row := by
  rw [fills, fills]
  rcases alike with like | ⟨_, rewrapped⟩
  · rw [like.field_eq]
  · rw [rewrapped.field]

theorem AlikeChild.alike_or : Alike source other row moved ∨
    row.kind ∈ nullPatternKinds ∧ moved.kind ∈ nullPatternKinds := by
  rcases alike with like | ⟨_, rewrapped⟩
  · exact .inl like
  · rcases rewrapped.layers with ⟨core, literal, layers, others, layered, again, null, like, _⟩
    exact .inr ⟨layered.kind_mem null, again.kind_mem (like.kind_eq.trans null)⟩

section Kinds

variable {kind : String} (elsewhere : kind ∉ nullPatternKinds)

include elsewhere

theorem AlikeChild.decide_kind_eq : decide (moved.kind = kind) = decide (row.kind = kind) := by
  rcases alike.alike_or with like | ⟨own, others⟩
  · rw [like.kind_eq]
  · rw [decide_eq_false fun same : moved.kind = kind => elsewhere (same ▸ others),
      decide_eq_false fun same : row.kind = kind => elsewhere (same ▸ own)]

theorem AlikeChild.alike_of_kind (same : row.kind = kind) :
    Alike source other row moved ∧ row.kind = kind := by
  rcases alike.alike_or with like | ⟨own, _⟩
  · exact ⟨like, same⟩
  · exact absurd (same ▸ own) elsewhere

end Kinds

end Children

theorem forall₂_named {likeness : ParseTree → ParseTree → Prop} {tests : Bool}
    {children others : List ParseTree}
    (heads : ∀ row moved, likeness row moved → Alike source other row moved)
    (all : List.Forall₂ (AlikeChild likeness tests) children others) :
    List.Forall₂ (AlikeChild likeness tests) (children.filter named) (others.filter named) :=
  forall₂_filter (fun _ _ child => (child.mono heads).named_eq) (fun _ _ child _ => child) all

section Rows

variable (alike : Alike source other row moved)

include alike

theorem Alike.forall₂_namedChildren :
    List.Forall₂ (AlikeChild (Alike source other) row.testsPattern) row.namedChildren
      moved.namedChildren :=
  forall₂_named (fun _ _ like => like) alike.forall₂_children

theorem Alike.rel_child? {field : Field} (elsewhere : field ≠ .pattern) :
    Option.Rel (fun child copy => Alike source other child copy ∧ child.field = some field)
      (row.child? field) (moved.child? field) := by
  refine rel_find? (fun _ _ child => child.fills_eq field) ?_ alike.forall₂_children
  intro child copy like filled
  have own : child.field = some field := by simpa [fills] using filled
  rcases like with like | ⟨_, rewrapped⟩
  · exact ⟨like, own⟩
  · exact absurd (Option.some.inj (own.symm.trans rewrapped.tested)) elsewhere

section Kinds

variable {kind : String} (elsewhere : kind ∉ nullPatternKinds)

include elsewhere

theorem Alike.rel_childOfKind? :
    Option.Rel (fun child copy => Alike source other child copy ∧ child.kind = kind)
      (row.childOfKind? kind) (moved.childOfKind? kind) :=
  rel_find? (fun _ _ child => child.decide_kind_eq elsewhere)
    (fun _ _ child same => child.alike_of_kind elsewhere (by simpa using same))
    alike.forall₂_namedChildren

theorem Alike.forall₂_childrenOfKind :
    List.Forall₂ (fun child copy => Alike source other child copy ∧ child.kind = kind)
      (row.childrenOfKind kind) (moved.childrenOfKind kind) :=
  forall₂_filter (fun _ _ child => child.decide_kind_eq elsewhere)
    (fun _ _ child same => child.alike_of_kind elsewhere (by simpa using same))
    alike.forall₂_namedChildren

end Kinds

/-! ## What rows declare -/

theorem Alike.ofList_text_eq (counts : row.countsByText) :
    String.ofList (moved.text other) = String.ofList (row.text source) := by
  rw [alike.text_eq counts]

theorem Alike.textOf?_name_eq : moved.textOf? other .name = row.textOf? source .name := by
  refine map_eq_of_rel ?_ (alike.rel_child? (by decide))
  rintro child copy ⟨like, filled⟩
  exact like.ofList_text_eq (by simp [countsByText, filled])

theorem Alike.declaredName_eq : moved.declaredName other = row.declaredName source := by
  rw [declaredName, declaredName, alike.textOf?_name_eq]

theorem Alike.declaratorName?_eq : moved.declaratorName? other = row.declaratorName? source := by
  rw [declaratorName?, declaratorName?, Option.map_or, Option.map_or]
  congr 1
  · exact alike.textOf?_name_eq
  · refine map_eq_of_rel ?_ (alike.rel_childOfKind? (by decide))
    rintro child copy ⟨like, kind⟩
    exact like.ofList_text_eq (by simp [countsByText, kind])

theorem Alike.attributes_eq : moved.attributes other = row.attributes source := by
  refine flatMap_eq_of_forall₂ ?_ (alike.forall₂_childrenOfKind (by decide))
  rintro list copy ⟨like, _⟩
  refine filterMap_eq_of_forall₂ ?_ (like.forall₂_childrenOfKind (by decide))
  rintro written again ⟨like, _⟩
  refine map_eq_of_rel ?_ (like.rel_child? (by decide))
  rintro name same ⟨like, filled⟩
  rw [like.text_eq (by simp [countsByText, filled])]

theorem Alike.declaredVariables_eq :
    moved.declaredVariables other = row.declaredVariables source := by
  refine flatMap_eq_of_forall₂ ?_ (alike.forall₂_childrenOfKind (by decide))
  rintro group copy ⟨like, _⟩
  refine filterMap_eq_of_forall₂ ?_ (like.forall₂_childrenOfKind (by decide))
  rintro declarator again ⟨like, _⟩
  exact like.declaratorName?_eq

theorem Alike.membersOf_eq : moved.membersOf other = row.membersOf source := by
  rw [membersOf, membersOf, alike.kind_eq, alike.declaredVariables_eq, alike.attributes_eq,
    alike.textOf?_name_eq]

theorem Alike.methodOf?_eq : moved.methodOf? other = row.methodOf? source := by
  rw [methodOf?, methodOf?, alike.kind_eq, alike.textOf?_name_eq]

theorem Alike.base?_eq : moved.base? other = row.base? source := by
  have bases : (moved.childrenOfKind "base_list").map (firstBase? other) =
      (row.childrenOfKind "base_list").map (firstBase? source) := by
    refine map_eq_of_forall₂ ?_ (alike.forall₂_childrenOfKind (by decide))
    rintro list copy ⟨like, kind⟩
    exact like.firstBase?_eq kind
  have last := congrArg (fun bases => bases.getLast?.bind id) bases
  simp only [List.getLast?_map, Option.bind_map, Function.id_comp] at last
  exact last

theorem Alike.rel_body? : Option.Rel (Alike source other) row.body? moved.body? := by
  rw [body?, body?]
  rcases rel_cases (alike.rel_child? (show Field.body ≠ .pattern by decide)) with
    ⟨own, copied⟩ | ⟨child, copy, own, copied, like, _⟩
  · rw [own, copied]
    rcases rel_cases (alike.rel_childOfKind? (show "declaration_list" ∉ nullPatternKinds by decide))
      with ⟨own, copied⟩ | ⟨child, copy, own, copied, like, _⟩
    · rw [own, copied]
      exact .none
    · rw [own, copied]
      exact .some like
  · rw [own, copied]
    exact .some like

theorem Alike.forall₂_bodyRows :
    List.Forall₂ (fun child copy => Alike source other child copy ∨
        child.kind ∈ nullPatternKinds ∧ copy.kind ∈ nullPatternKinds)
      row.bodyRows moved.bodyRows := by
  rw [bodyRows, bodyRows]
  rcases rel_cases alike.rel_body? with ⟨own, copied⟩ | ⟨body, copy, own, copied, like⟩
  · rw [own, copied]
    exact .nil
  · rw [own, copied]
    exact like.forall₂_namedChildren.imp fun _ _ child => child.alike_or

theorem Alike.typeInfo_eq (namespaceName : Option String) :
    moved.typeInfo other namespaceName = row.typeInfo source namespaceName := by
  have members : moved.bodyRows.flatMap (membersOf other) =
      row.bodyRows.flatMap (membersOf source) := by
    refine flatMap_eq_of_forall₂ ?_ alike.forall₂_bodyRows
    rintro child copy (like | ⟨own, again⟩)
    · exact like.membersOf_eq
    · rw [(declares_nothing own source).1, (declares_nothing again other).1]
  have methods : moved.bodyRows.filterMap (methodOf? other) =
      row.bodyRows.filterMap (methodOf? source) := by
    refine filterMap_eq_of_forall₂ ?_ alike.forall₂_bodyRows
    rintro child copy (like | ⟨own, again⟩)
    · exact like.methodOf?_eq
    · rw [(declares_nothing own source).2.1, (declares_nothing again other).2.1]
  rw [typeInfo, typeInfo, alike.declaredName_eq, alike.base?_eq, members, methods]

theorem Alike.parameter?_eq : moved.parameter? other = row.parameter? source := by
  rw [parameter?, parameter?, alike.kind_eq, alike.textOf?_name_eq]
  split
  · rfl
  split
  · rename_i kind
    rw [alike.text_eq (by simp [countsByText, kind])]
  · rfl

theorem Alike.local?_eq : moved.local? other = row.local? source := by
  have left : ((moved.child? .left).filter (·.kind = "identifier")).map
      (fun left => String.ofList (left.text other)) =
        ((row.child? .left).filter (·.kind = "identifier")).map
          fun left => String.ofList (left.text source) := by
    rcases rel_cases (alike.rel_child? (show Field.left ≠ .pattern by decide)) with
      ⟨own, copied⟩ | ⟨child, copy, own, copied, like, _⟩
    · rw [own, copied]
      rfl
    · by_cases kind : child.kind = "identifier"
      · simp [own, copied, Option.filter, like.kind_eq, kind,
          like.text_eq (by simp [countsByText, kind])]
      · simp [own, copied, Option.filter, like.kind_eq, kind]
  rw [local?, local?, alike.kind_eq, alike.declaratorName?_eq, left, alike.textOf?_name_eq]

theorem Alike.localFunction?_eq : moved.localFunction? other = row.localFunction? source := by
  rw [localFunction?, localFunction?, alike.kind_eq, alike.textOf?_name_eq]

theorem Alike.map_dottedText_eq : (moved.child? .name).map (dottedText other) =
    (row.child? .name).map (dottedText source) := by
  refine map_eq_of_rel ?_ (alike.rel_child? (by decide))
  rintro child copy ⟨like, filled⟩
  rw [dottedText, dottedText, like.text_eq (by simp [countsByText, filled])]

theorem Alike.innerSpaces_eq (spaces : List String) :
    moved.innerSpaces other spaces = row.innerSpaces source spaces := by
  rw [innerSpaces, innerSpaces, alike.kind_eq, alike.map_dottedText_eq]

theorem Alike.fileNamespace?_eq : moved.fileNamespace? other = row.fileNamespace? source := by
  rw [fileNamespace?, fileNamespace?]
  rcases rel_cases (alike.rel_childOfKind?
    (show "file_scoped_namespace_declaration" ∉ nullPatternKinds by decide)) with
    ⟨own, copied⟩ | ⟨declaration, copy, own, copied, like, _⟩
  · rw [own, copied]
    rfl
  · rw [own, copied]
    exact like.map_dottedText_eq

end Rows

section Methods

variable {picks : List Char → ParseTree → Option String}
  (same : ∀ {row moved}, Alike source other row moved → picks other moved = picks source row)
  (nothing : ∀ {row} source, row.kind ∈ nullPatternKinds → picks source row = none)

include nothing in
theorem Layered.filterMap_namedRows {core : ParseTree} {layers : List PatternLayer}
    (layered : Layered core layers row) :
    row.namedRows.filterMap (picks source) = core.namedRows.filterMap (picks source) := by
  induction layered with
  | core => rfl
  | @layer layer _ _ _ kind only _ induction =>
      have wraps : layer.kind ∈ nullPatternKinds := by cases layer <;> decide
      rw [namedRows_eq, only, List.filterMap_cons_none (nothing source (kind ▸ wraps)),
        List.flatMap_singleton, induction]

include same nothing

theorem Alike.filterMap_namedRows (alike : Alike source other row moved) :
    moved.namedRows.filterMap (picks other) = row.namedRows.filterMap (picks source) := by
  refine Alike.children_induction ?_ alike
  intro row moved alike all
  have below : moved.namedChildren.flatMap (fun child => child.namedRows.filterMap (picks other)) =
      row.namedChildren.flatMap fun child => child.namedRows.filterMap (picks source) := by
    refine flatMap_eq_of_forall₂ ?_ (forall₂_named (fun _ _ => And.left) all)
    rintro child copy (like | ⟨_, rewrapped⟩)
    · exact like.2
    · rcases rewrapped.layers with ⟨core, literal, layers, others, layered, again, _, like, _⟩
      rw [layered.filterMap_namedRows nothing, again.filterMap_namedRows nothing, like.2]
  rw [namedRows_eq, namedRows_eq, List.filterMap_cons, List.filterMap_cons, same alike,
    List.filterMap_flatMap, List.filterMap_flatMap, below]

end Methods

theorem Alike.methodInfo_eq (alike : Alike source other row moved) :
    moved.methodInfo other = row.methodInfo source := by
  rw [methodInfo, methodInfo]
  congr 1
  · exact alike.filterMap_namedRows Alike.parameter?_eq
      fun source null => (declares_nothing null source).2.2.1
  · exact alike.filterMap_namedRows Alike.local?_eq
      fun source null => (declares_nothing null source).2.2.2.1
  · exact alike.filterMap_namedRows Alike.localFunction?_eq
      fun source null => (declares_nothing null source).2.2.2.2

end ParseTree

end UnityLint
