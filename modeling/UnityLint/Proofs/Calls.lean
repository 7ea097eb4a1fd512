import Mathlib.Tactic.MkIffOfInductiveProp
import UnityLint.Proofs.Census
import UnityLint.Proofs.Enclosing
import UnityLint.Proofs.Queries

/-! # Calls

The calls among the nodes of a file are the calls in its parse tree: each with the span of its row, the
name that it calls and the declarations around it. -/

namespace UnityLint

open Traced

namespace ParseTree

/-! ## Names in a parse tree -/

def simpleText? (source : List Char) (row : ParseTree) : Option String :=
  if row.kind = "identifier" then
    some (String.ofList (row.text source))
  else if row.kind = "generic_name" then
    some (((row.childOfKind? "identifier").map fun child =>
      String.ofList (child.text source)).getD "")
  else
    none

def lastName? (source : List Char) (row : ParseTree) : Option String :=
  if row.kind = "member_access_expression" ∨ row.kind = "member_binding_expression" then
    (row.child? .name).bind (simpleText? source)
  else
    row.simpleText? source

/-- The name that a callee calls. Behind `?` the name is that of the one row that is bound there, unless
that row starts a chain of its own. -/
def calleeName? (source : List Char) (row : ParseTree) : Option String :=
  if row.kind = "conditional_access_expression" then
    match row.others [.condition] with
    | [bound] => if bound.onOptionalChain then none else bound.lastName? source
    | _ => none
  else
    row.lastName? source

/-- The shape that rows have in the trees of a parser. Below names and literals, and in the names of
declarations, there is no row of the given kind. -/
@[mk_iff]
structure Regular (source : List Char) (kind : String) (row : ParseTree) : Prop where
  token : row.named = false → row.children = []
  invocation : row.kind = "invocation_expression" → (row.child? .function).isSome
  memberAccess : row.kind = "member_access_expression" →
    (row.child? .expression).isSome ∧ (row.child? .name).isSome ∧
      row.others [.expression, .name] = []
  comparison : row.kind = "binary_expression" → row.isComparison source →
    row.others [.left, .right] = []
  isPattern : row.kind = "is_pattern_expression" → row.others [.expression, .pattern] = []
  pattern : row.wrapsPattern → row.namedChildren.length = 1
  leaf : row.kind ∈ ["identifier", "generic_name", "null_literal"] →
    ∀ child ∈ row.children, child.Clear kind
  name : row.kind ∈ ["namespace_declaration", "file_scoped_namespace_declaration",
      "class_declaration", "struct_declaration", "record_declaration",
      "record_struct_declaration", "method_declaration"] →
    ∀ child ∈ row.child? .name, child.Clear kind

instance (source : List Char) (kind : String) (row : ParseTree) :
    Decidable (row.Regular source kind) :=
  decidable_of_iff _ (regular_iff source kind row).symm

@[mk_iff]
structure RegularForCalls (source : List Char) (row : ParseTree) : Prop
    extends Regular source "invocation_expression" row where
  conditionalAccess : row.kind = "conditional_access_expression" →
    (row.child? .condition).isSome ∧ row.others [.condition] ≠ []
  memberBinding : row.kind = "member_binding_expression" → row.others [.name] = []

instance (source : List Char) (row : ParseTree) : Decidable (row.RegularForCalls source) :=
  decidable_of_iff _ (regularForCalls_iff source row).symm

section Regular

variable {source : List Char} {root : ParseTree} {kind : String}

theorem keeps_of_regular
    (regular : ∀ position row, root.at? position = some row → row.Regular source kind)
    (parental : ∀ position row, root.at? position = some row → row.kind = kind →
      row.children ≠ [])
    (conditionalAccess : ∀ position row, root.at? position = some row →
      row.kind = "conditional_access_expression" →
        (row.child? .condition).isSome ∧ row.others [.condition] ≠ [])
    (memberBinding : ∀ position row, root.at? position = some row →
      row.kind = "member_binding_expression" → ∀ other ∈ row.others [.name], other.Clear kind) :
    ∀ position row, root.at? position = some row → row.Keeps source kind := by
  intro position row here
  have clear {others : List ParseTree} (none : others = []) :
      ∀ other ∈ others, other.Clear kind := by
    simp [none]
  have own := regular position row here
  refine ⟨?_, own.invocation, ?_, conditionalAccess position row here,
    memberBinding position row here, fun same compares => clear (own.comparison same compares),
    fun same => clear (own.isPattern same), own.pattern, own.leaf, own.name⟩
  · intro child member unnamed
    rcases List.getElem?_of_mem member with ⟨place, inside⟩
    have there : root.at? (position ++ [place]) = some child := by
      rw [at?_snoc, here]
      exact inside
    have childless := (regular _ child there).token unnamed
    intro found member
    rw [rowsFrom_eq, placed, childless] at member
    rw [List.mem_singleton.mp member]
    exact fun same => parental _ child there same childless
  · intro same
    have access := own.memberAccess same
    exact ⟨access.1, access.2.1, clear access.2.2⟩

theorem RegularForCalls.keeps
    (regular : ∀ position row, root.at? position = some row → row.RegularForCalls source) :
    ∀ position row, root.at? position = some row → row.Keeps source Tally.calls.kind := by
  apply keeps_of_regular
  · exact fun position row here => (regular position row here).toRegular
  · intro position row here same childless
    have present := (regular position row here).invocation same
    rw [child?, childless] at present
    cases present
  · exact fun position row here => (regular position row here).conditionalAccess
  · intro position row here same
    simp [(regular position row here).memberBinding same]

end Regular

/-! ## Names of nodes -/

section Names

variable {source : List Char} {root row : ParseTree} {position : Position}

theorem simpleName?_formOf (fileSpace : Option String) (spaces : List String) (chain : ChainTrace) :
    (row.formOf source fileSpace spaces chain).simpleName? = row.simpleText? source := by
  have known := row.ofKind_mem_constructs source fileSpace spaces chain
  rw [simpleText?]
  by_cases identifier : row.kind = "identifier"
  · rw [if_pos identifier, formOf, (Construct.ofKind_eq_iff_eq .identifier rfl).mpr identifier]
    rfl
  by_cases generic : row.kind = "generic_name"
  · rw [if_neg identifier, if_pos generic, formOf, (Construct.ofKind_eq_iff_eq .genericName rfl).mpr generic]
    rfl
  rw [if_neg identifier, if_neg generic]
  cases form : row.formOf source fileSpace spaces chain with
  | identifier name =>
      rw [form] at known
      exact absurd ((Construct.ofKind_eq_iff_eq _ rfl).mp (List.mem_singleton.mp known)) identifier
  | genericName name =>
      rw [form] at known
      exact absurd ((Construct.ofKind_eq_iff_eq _ rfl).mp (List.mem_singleton.mp known)) generic
  | _ => rfl

theorem simpleName?_whole :
    (root.tracedAt source position row).whole.form.simpleName? = row.simpleText? source := by
  rw [form_whole_tracedAt]
  exact simpleName?_formOf ..

variable (source root position) in
theorem part?_partsAt {field : Field} {child : ParseTree} (found : row.child? field = some child) :
    ∃ part, part? field (root.partsAt source position row) = some part ∧ part.row = child ∧
      part.whole.form.simpleName? = child.simpleText? source := by
  have rows : (root.partsAt source position row).map Traced.row = row.children :=
    rows_of_placed placed_partsAt
  rw [← map_row_part? rows] at found
  rcases Option.map_eq_some_iff.mp found with ⟨part, there, rfl⟩
  refine ⟨part, there, rfl, ?_⟩
  rcases (mem_partsAt ..).mp (mem_of_part? there) with ⟨below, _, rfl⟩
  rw [row_tracedAt]
  exact simpleName?_whole

variable {tally : Tally}
  (keeps : ∀ position row, root.at? position = some row → row.Keeps source tally.kind)
  (here : root.at? position = some row)

include keeps here

end Names

end ParseTree

/-! ## Calls among the nodes -/

namespace Trace

variable {source : List Char} {root row : ParseTree} {node : Trace}

theorem MadeFrom.callee (made : node.MadeFrom source root row) (call : node.form = .invocation) :
    row.kind = "invocation_expression" ∧
      ∃ inner callee rest,
        part? .function (root.partsAt source node.origin row) = some inner ∧
          node.parts = callee :: rest ∧
          (inner.chain = .plain ∧ callee = inner.whole ∨
            ∃ receiver, inner.chain = .optional receiver (some callee)) := by
  rcases made with ⟨here, whole | extended⟩
  · have formed := call
    rw [whole, ParseTree.form_whole_tracedAt, ParseTree.formOf_eq_invocation_iff] at formed
    rcases formed with ⟨kind, plain, present⟩
    have construct := (Construct.ofKind_eq_iff_eq .invocation rfl).mpr kind
    have link : row.link? = some (.function, .invocation) := by rw [ParseTree.link?, if_pos kind]
    rcases Option.isSome_iff_exists.mp present with ⟨function, foundFunction⟩
    rcases ParseTree.part?_partsAt source root node.origin foundFunction with ⟨inner, found, _⟩
    refine ⟨kind, inner, inner.whole, beside .function (root.partsAt source node.origin row), found,
      ?_, .inl ⟨?_, rfl⟩⟩
    · have parts := ParseTree.parts_whole_of_plain source here plain
      rw [← whole, ParseTree.choice, construct] at parts
      rw [parts, chosen, found]
    · rw [ParseTree.chain_tracedAt source here] at plain
      exact chain_eq_plain_of_chainOf plain link found
  · rcases extended.chain with ⟨receiver, chain⟩
    rcases chainOf_eq_optional chain with
      ⟨kind, _⟩ | ⟨field, form, inner, innerTail, link, found, innerChain, equal⟩
    · rcases extended.form with kept | ⟨field, link⟩
      · rw [call] at kept
        cases kept
      · rcases ParseTree.link?_eq_some link with ⟨other, _⟩ | ⟨other, _⟩ | ⟨other, _⟩ <;>
          simp [kind] at other
    · rcases Option.bind_eq_some_iff.mp equal.symm with ⟨callee, rfl, linked⟩
      rcases Option.map_eq_some_iff.mp linked with ⟨others, _, same⟩
      rw [← same] at call
      have sameForm : form = .invocation := call
      rcases ParseTree.link?_eq_some link with ⟨kind, rfl, _⟩ | ⟨_, _, other⟩ | ⟨_, _, other⟩
      · refine ⟨kind, inner, callee, others, found, ?_, .inr ⟨receiver, innerChain⟩⟩
        rw [← same]
        rfl
      · rw [sameForm] at other
        cases other
      · rw [sameForm] at other
        cases other

end Trace

end UnityLint
