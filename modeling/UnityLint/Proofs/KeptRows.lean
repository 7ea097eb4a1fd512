import UnityLint.Proofs.Census

/-! # Rows that have a node

A row has a node if every row around it takes it over. Which of its children a row takes over is said by
its `Choice`. The rows of an optional chain go into one node, but what they take over goes in with
them. -/

namespace UnityLint

open Traced

theorem find?_eq_some_or_mem_eraseP {α : Type} (test : α → Bool) {item : α} {items : List α}
    (member : item ∈ items) : items.find? test = some item ∨ item ∈ items.eraseP test := by
  by_cases tested : test item
  · rcases List.exists_of_eraseP member tested with ⟨first, before, after, none, found, equal, erased⟩
    rw [equal, List.mem_append, List.mem_cons] at member
    rw [erased, List.mem_append]
    rcases member with inside | rfl | inside
    · exact .inr (.inl inside)
    · rw [equal, List.find?_append, List.find?_eq_none.mpr none, List.find?_cons_of_pos found]
      exact .inl rfl
    · exact .inr (.inr inside)
  · exact .inr ((List.mem_eraseP_of_neg tested).mpr member)

namespace ParseTree

def chainKinds : List String :=
  ["conditional_access_expression", "invocation_expression", "member_access_expression",
    "element_access_expression"]

def place? (row : ParseTree) (field : Field) : Option Nat :=
  row.children.findIdx? (fills field)

/-- The row does not break off a chain: something stands behind `?`, and a member has a name. -/
structure ContinuesChain (row : ParseTree) : Prop where
  conditionalAccess : row.kind = "conditional_access_expression" →
    (row.child? .condition).isSome ∧ row.others [.condition] ≠ []
  memberAccess : row.kind = "member_access_expression" → (row.child? .name).isSome

end ParseTree

def Choice.Takes (row : ParseTree) (place : Nat) : Choice → Prop
  | .all => True
  | .allBut field => row.place? field ≠ some place
  | .leading _ => True
  | .only fields => (∀ field ∈ fields, (row.child? field).isSome) →
      ∃ field ∈ fields, field ≠ .pattern ∧ row.place? field = some place
  | .nothing => False

instance (row : ParseTree) (place : Nat) : (choice : Choice) → Decidable (choice.Takes row place)
  | .all => inferInstanceAs (Decidable True)
  | .allBut field => inferInstanceAs (Decidable (row.place? field ≠ some place))
  | .leading _ => inferInstanceAs (Decidable True)
  | .only fields => inferInstanceAs (Decidable ((∀ field ∈ fields, (row.child? field).isSome) →
      ∃ field ∈ fields, field ≠ .pattern ∧ row.place? field = some place))
  | .nothing => inferInstanceAs (Decidable False)

namespace ParseTree

/-- The row at a position is taken over by every row around it. -/
inductive Kept (source : List Char) (root : ParseTree) : Position → ParseTree → Prop
  | root : Kept source root [] root
  | child {position row place child} (around : Kept source root position row)
      (there : row.children[place]? = some child) (named : child.named)
      (taken : (row.choice source).Takes row place)
      (continues : row.onOptionalChain → ∀ below inner, row.at? below = some inner →
        inner.ContinuesChain) :
      Kept source root (position ++ [place]) child

theorem Kept.at?_eq {source : List Char} {root row : ParseTree} {position : Position}
    (kept : root.Kept source position row) : root.at? position = some row := by
  induction kept with
  | root => rfl
  | child _ there _ _ _ induction => rw [at?_snoc, induction, Option.bind_some, there]

/-! ## Children in their places -/

theorem find?_placedFrom (test : ParseTree → Bool) (position : Position) (start : Nat)
    (children : List ParseTree) :
    (placedFrom position start children).find? (fun found => test found.2) =
      (children.findIdx? test).bind fun place =>
        children[place]?.map fun child => (position ++ [start + place], child) := by
  induction children generalizing start with
  | nil => rfl
  | cons child rest induction =>
      rw [placedFrom, List.find?_cons, List.findIdx?_cons]
      cases test child with
      | true => simp
      | false =>
          rw [induction (start + 1)]
          cases rest.findIdx? test with
          | none => rfl
          | some place => simp [Nat.add_assoc, Nat.add_comm 1 place]

section Places

variable {source : List Char} {root row child : ParseTree} {position : Position} {place : Nat}
  {field : Field} (there : row.children[place]? = some child)

theorem part?_partsAt_eq (field : Field) :
    part? field (root.partsAt source position row) =
      (row.place? field).bind fun place => row.children[place]?.map fun child =>
        root.tracedAt source (position ++ [place]) child := by
  have tests : (fun found : Position × ParseTree =>
      (root.tracedAt source found.1 found.2).row.fills field) = fun found => found.2.fills field := by
    funext found
    rw [row_tracedAt]
  rw [part?, partsAt, List.find?_map, Function.comp_def, tests, placed, find?_placedFrom, place?]
  cases row.children.findIdx? (fills field) with
  | none => rfl
  | some index => simp [Function.comp_def]

include there

theorem mem_partsAt_of_place :
    root.tracedAt source (position ++ [place]) child ∈ root.partsAt source position row :=
  (mem_partsAt ..).mpr ⟨(position ++ [place], child), mem_placed.mpr ⟨place, rfl, there⟩, rfl⟩

theorem part?_eq_some_iff :
    part? field (root.partsAt source position row) =
        some (root.tracedAt source (position ++ [place]) child) ↔
      row.place? field = some place := by
  rw [part?_partsAt_eq]
  constructor
  · intro found
    rcases Option.bind_eq_some_iff.mp found with ⟨other, filled, inside⟩
    rcases Option.map_eq_some_iff.mp inside with ⟨_, _, same⟩
    have positions := congrArg Traced.position same
    rw [position_tracedAt, position_tracedAt, List.append_cancel_left_eq, List.singleton_inj]
      at positions
    rw [filled, positions]
  · intro filled
    rw [filled, Option.bind_some, there]
    rfl

theorem whole_mem_chosen {choice : Choice} (named : child.named) (taken : choice.Takes row place) :
    (root.tracedAt source (position ++ [place]) child).whole ∈
      chosen choice (root.partsAt source position row) := by
  have member : root.tracedAt source (position ++ [place]) child ∈ root.partsAt source position row :=
    mem_partsAt_of_place there
  have own : (root.tracedAt source (position ++ [place]) child).row.named := by rwa [row_tracedAt]
  have inWholes : (root.tracedAt source (position ++ [place]) child).whole ∈
      wholes (root.partsAt source position row) := mem_wholes.mpr ⟨_, member, own, rfl⟩
  cases choice with
  | all => exact inWholes
  | allBut field =>
      rcases find?_eq_some_or_mem_eraseP (·.row.fills field) member with first | later
      · exact absurd ((part?_eq_some_iff there).mp first) taken
      · exact mem_wholes.mpr ⟨_, later, own, rfl⟩
  | leading field =>
      rw [chosen]
      rcases find?_eq_some_or_mem_eraseP (·.row.fills field) member with first | later
      · rw [part?, first]
        exact List.mem_cons_self
      · split
        · exact List.mem_cons_of_mem _ (mem_wholes.mpr ⟨_, later, own, rfl⟩)
        · exact inWholes
  | only fields =>
      rw [chosen]
      split
      · rename_i present
        have rows : (root.partsAt source position row).map Traced.row = row.children :=
          rows_of_placed placed_partsAt
        rcases taken fun field listed => (isSome_part? rows field) ▸
          List.all_eq_true.mp present field listed with ⟨field, listed, other, filled⟩
        refine List.mem_flatMap.mpr ⟨field, listed, ?_⟩
        rw [(part?_eq_some_iff there).mpr filled, Option.map_some, Option.getD_some, contribution,
          if_neg other]
        exact List.mem_singleton.mpr rfl
      · exact inWholes
  | nothing => exact taken.elim

end Places

/-! ## Chains -/

theorem unlinked_of_kind {row : ParseTree} (elsewhere : row.kind ∉ chainKinds) :
    row.kind ≠ "conditional_access_expression" ∧ row.link? = none := by
  simp only [chainKinds, List.mem_cons, List.not_mem_nil, or_false, not_or] at elsewhere
  exact ⟨elsewhere.1, by simp [link?, elsewhere]⟩

theorem onOptionalChain_of_chain {source : List Char} {root row : ParseTree} {position : Position}
    (here : root.at? position = some row) :
    ∀ receiver tail, (root.tracedAt source position row).chain = .optional receiver tail →
      row.onOptionalChain := by
  refine placed_induction ?_ here
  intro position row here induction receiver tail chain
  rw [← isSome_chainStart? position]
  rw [chain_tracedAt source here] at chain
  rcases chainOf_eq_optional chain with
    ⟨kind, _⟩ | ⟨field, form, inner, innerTail, link, found, innerChain, _⟩
  · rw [chainStart?_of_conditional kind]
    rfl
  · rw [Traced.chainStart?_of_link placed_partsAt link, found, Option.bind_some]
    rcases (mem_partsAt ..).mp (mem_of_part? found) with ⟨below, placed, rfl⟩
    rw [row_tracedAt, isSome_chainStart?]
    exact induction below placed receiver innerTail innerChain

theorem isSome_tail {source : List Char} {root row : ParseTree} {position : Position}
    (here : root.at? position = some row) :
    (∀ below inner, row.at? below = some inner → inner.ContinuesChain) →
      ∀ receiver tail, (root.tracedAt source position row).chain = .optional receiver tail →
        tail.isSome := by
  refine placed_induction ?_ here
  intro position row here induction continues receiver tail chain
  have own := continues [] row rfl
  have rows : (root.partsAt source position row).map Traced.row = row.children :=
    rows_of_placed placed_partsAt
  rw [chain_tracedAt source here] at chain
  rcases chainOf_eq_optional chain with
    ⟨kind, ⟨condition, found, _, rfl⟩ | ⟨missing, _⟩⟩ |
      ⟨field, form, inner, innerTail, link, found, innerChain, rfl⟩
  · rcases beside_partsAt .condition with ⟨bindings, _, others, beside_eq⟩
    have inhabited : bindings ≠ [] := by
      rintro rfl
      exact (own.conditionalAccess kind).2 others
    rw [beside_eq]
    cases bindings with
    | nil => exact absurd rfl inhabited
    | cons first rest => cases rest <;> rfl
  · have present := (own.conditionalAccess kind).1
    rw [← isSome_part? rows, missing] at present
    cases present
  · rcases (mem_partsAt ..).mp (mem_of_part? found) with ⟨below, placed, rfl⟩
    rcases mem_placed.mp placed with ⟨place, _, inside⟩
    have further := induction below placed (fun rest inner reached => by
      apply continues (place :: rest)
      rw [ParseTree.at?, inside]
      exact reached) receiver innerTail innerChain
    rcases Option.isSome_iff_exists.mp further with ⟨before, rfl⟩
    rw [Option.bind_some, Option.isSome_map, linkOthers]
    split
    · rename_i access
      rw [Option.isSome_map, isSome_part? rows]
      exact own.memberAccess access
    · rfl

end ParseTree

/-- A node is inside the node of a row, and inside the chain that goes on from the row. -/
structure Traced.Holds (traced : Traced) (node : Trace) : Prop where
  whole : node ∈ traced.whole.nodes
  chain : ∀ receiver tail, traced.chain = .optional receiver tail →
    node ∈ receiver.nodes ∨ ∃ last ∈ tail, node ∈ last.nodes

theorem Trace.mem_nodes_of_part {node part trace : Trace} (member : part ∈ trace.parts)
    (inside : node ∈ part.nodes) : node ∈ trace.nodes :=
  mem_nodes.mpr (.inr ⟨part, member, inside⟩)

theorem Traced.mem_nodes_of_bound {row : ParseTree} {position : Position} {traces : List Trace}
    {trace node last : Trace} (equal : bound row position traces = some last)
    (member : trace ∈ traces) (inside : node ∈ trace.nodes) : node ∈ last.nodes := by
  rcases bound_eq_some equal with single | several
  · rw [single, List.mem_singleton] at member
    exact member ▸ inside
  · rw [several]
    exact Trace.mem_nodes_of_part member inside

namespace ParseTree

theorem whole_mem_linkOthers {source : List Char} {root row child : ParseTree} {position : Position}
    {place : Nat} {field : Field} {form : Form} {inner : Traced} {others : List Trace}
    (there : row.children[place]? = some child) (named : child.named)
    (taken : (row.choice source).Takes row place) (link : row.link? = some (field, form))
    (found : part? field (root.partsAt source position row) = some inner)
    (others_eq : linkOthers row field (root.partsAt source position row) = some others)
    (apart : inner ≠ root.tracedAt source (position ++ [place]) child) :
    (root.tracedAt source (position ++ [place]) child).whole ∈ others := by
  have rows : (root.partsAt source position row).map Traced.row = row.children :=
    rows_of_placed placed_partsAt
  rw [linkOthers] at others_eq
  split at others_eq
  · rename_i access
    rcases Option.map_eq_some_iff.mp others_eq with ⟨name, foundName, rfl⟩
    have field_eq : field = .expression := by
      rcases link?_eq_some link with ⟨kind, _⟩ | ⟨_, same, _⟩ | ⟨kind, _⟩
      · simp [access] at kind
      · exact same
      · simp [access] at kind
    subst field_eq
    rw [choice, (Construct.ofKind_eq_iff_eq .memberAccess rfl).mpr access] at taken
    have filled : row.place? .expression = some place ∨ row.place? .name = some place := by
      simpa [Choice.Takes, ← isSome_part? rows, found, foundName] using taken
    rcases filled with filled | filled
    · exact absurd (Option.some.inj (found.symm.trans ((part?_eq_some_iff there).mpr filled))) apart
    · cases foundName.symm.trans ((part?_eq_some_iff there).mpr filled)
      exact List.mem_singleton.mpr rfl
  · cases others_eq
    have member : root.tracedAt source (position ++ [place]) child ∈
        root.partsAt source position row := mem_partsAt_of_place there
    rcases find?_eq_some_or_mem_eraseP (·.row.fills field) member with same | later
    · exact absurd (Option.some.inj (found.symm.trans same)) apart
    · refine mem_wholes.mpr ⟨_, later, ?_, rfl⟩
      rwa [row_tracedAt]

section Taken

variable {source : List Char} {root row child : ParseTree} {position : Position} {place : Nat}
  (here : root.at? position = some row) (there : row.children[place]? = some child)
  (named : child.named) (taken : (row.choice source).Takes row place)
  (continues : row.onOptionalChain → ∀ below inner, row.at? below = some inner →
    inner.ContinuesChain)

include here there named taken continues

theorem mem_chain_of_taken {node : Trace}
    (holds : (root.tracedAt source (position ++ [place]) child).Holds node) :
    ∀ receiver tail, (root.tracedAt source position row).chain = .optional receiver tail →
      node ∈ receiver.nodes ∨ ∃ last ∈ tail, node ∈ last.nodes := by
  intro receiver tail chain
  have rows : (root.partsAt source position row).map Traced.row = row.children :=
    rows_of_placed placed_partsAt
  have member : root.tracedAt source (position ++ [place]) child ∈ root.partsAt source position row :=
    mem_partsAt_of_place there
  have own : (root.tracedAt source (position ++ [place]) child).row.named := by rwa [row_tracedAt]
  replace continues := continues (onOptionalChain_of_chain here receiver tail chain)
  rcases Option.isSome_iff_exists.mp (isSome_tail here continues receiver tail chain) with
    ⟨last, rfl⟩
  have complete := continues [] row rfl
  rw [chain_tracedAt source here] at chain
  rcases chainOf_eq_optional chain with
    ⟨kind, ⟨condition, found, rfl, ends⟩ | ⟨missing, _⟩⟩ |
      ⟨field, form, inner, innerTail, link, found, innerChain, ends⟩
  · rcases find?_eq_some_or_mem_eraseP (·.row.fills .condition) member with first | later
    · cases found.symm.trans first
      exact .inl holds.whole
    · refine .inr ⟨last, rfl, mem_nodes_of_bound ends.symm ?_ holds.whole⟩
      exact mem_wholes.mpr ⟨_, later, own, rfl⟩
  · have present := (complete.conditionalAccess kind).1
    rw [← isSome_part? rows, missing] at present
    cases present
  · rcases Option.bind_eq_some_iff.mp ends.symm with ⟨before, rfl, linked⟩
    rcases Option.map_eq_some_iff.mp linked with ⟨others, others_eq, rfl⟩
    by_cases first : inner = root.tracedAt source (position ++ [place]) child
    · subst first
      rcases holds.chain receiver _ innerChain with front | ⟨tail, same, back⟩
      · exact .inl front
      · cases same
        exact .inr ⟨_, rfl, Trace.mem_nodes_of_part List.mem_cons_self back⟩
    · have beside := whole_mem_linkOthers there named taken link found others_eq first
      exact .inr ⟨_, rfl, Trace.mem_nodes_of_part (List.mem_cons_of_mem _ beside) holds.whole⟩

theorem Holds.of_taken {node : Trace}
    (holds : (root.tracedAt source (position ++ [place]) child).Holds node) :
    (root.tracedAt source position row).Holds node := by
  have chain := mem_chain_of_taken here there named taken continues holds
  refine ⟨?_, chain⟩
  suffices inside : ∃ part ∈ wholeParts source row position (root.partsAt source position row),
      node ∈ part.nodes by
    rcases inside with ⟨part, member, inside⟩
    rw [← parts_whole source here] at member
    exact Trace.mem_nodes_of_part member inside
  have inChosen : ∃ part ∈ chosen (row.choice source) (root.partsAt source position row),
      node ∈ part.nodes := ⟨_, whole_mem_chosen there named taken, holds.whole⟩
  rw [wholeParts]
  split
  · rw [chain_tracedAt source here] at chain
    cases reading : chainOf row position (root.partsAt source position row) with
    | plain => exact inChosen
    | headless =>
        refine ⟨_, mem_wholes.mpr ⟨_, mem_partsAt_of_place there, ?_, rfl⟩, holds.whole⟩
        rwa [row_tracedAt]
    | optional receiver tail =>
        rcases chain receiver tail reading with front | ⟨last, same, back⟩
        · exact ⟨receiver, List.mem_cons_self, front⟩
        · exact ⟨last, List.mem_cons_of_mem _ (Option.mem_toList.mpr same), back⟩
  · exact inChosen

end Taken

/-- What a row holds is in the file if every row around takes the row over. -/
theorem Kept.mem_nodes {source : List Char} {root row : ParseTree} {position : Position}
    (kept : root.Kept source position row) {node : Trace}
    (holds : (root.tracedAt source position row).Holds node) :
    node ∈ (Trace.ofParseTree source root).nodes := by
  induction kept with
  | root => exact holds.whole
  | child around there named taken continues induction =>
      exact induction (Holds.of_taken around.at?_eq there named taken continues holds)

theorem chain_eq_plain (source : List Char) {root row : ParseTree} {position : Position}
    (here : root.at? position = some row) (elsewhere : row.kind ∉ chainKinds) :
    (root.tracedAt source position row).chain = .plain := by
  rcases unlinked_of_kind elsewhere with ⟨other, unlinked⟩
  rw [chain_tracedAt source here, chainOf, if_neg other, unlinked]

/-- A row on no chain that is taken over by every row around it has a node of its own. -/
theorem Kept.exists_node {source : List Char} {root row : ParseTree} {position : Position}
    (kept : root.Kept source position row) (elsewhere : row.kind ∉ chainKinds) :
    ∃ number : Nat, (Trace.ofParseTree source root).nodes[number]? =
      some (root.tracedAt source position row).whole := by
  apply List.mem_iff_getElem?.mp
  apply kept.mem_nodes
  refine ⟨Trace.self_mem_nodes _, ?_⟩
  rw [chain_eq_plain source kept.at?_eq elsewhere]
  exact nofun

/-! ## Statements -/

/-- The kinds of the rows that can leave out children with a place of their own. -/
def selectiveKinds : List String :=
  chainKinds ++ ["member_binding_expression", "binary_expression", "is_pattern_expression",
    "identifier", "generic_name", "null_literal"]

theorem choice_cases (source : List Char) {row : ParseTree} (whole : row.kind ∉ selectiveKinds) :
    row.choice source = .all ∨ row.choice source = .allBut .name ∨
      row.choice source = .leading .condition := by
  have left {construct : Construct} (found : Construct.ofKind row.kind = construct)
      (listed : construct.kinds ≠ [] ∧ construct.kinds ⊆ selectiveKinds) : False :=
    whole (listed.2 ((Construct.ofKind_eq_iff _ listed.1).mp found))
  rw [choice]
  cases construct : Construct.ofKind row.kind with
  | compilationUnit | usingDirective | conditionalAccess | literal | other => exact .inl rfl
  | namespaceDeclaration | typeDeclaration | methodDeclaration => exact .inr (.inl rfl)
  | ifStatement => exact .inr (.inr rfl)
  | _ => exact (left construct (by decide)).elim

theorem onOptionalChain_of_kind {row : ParseTree} (elsewhere : row.kind ∉ chainKinds) :
    row.onOptionalChain = false := by
  rcases unlinked_of_kind elsewhere with ⟨other, unlinked⟩
  rw [onOptionalChain, chainStart?_eq_none other unlinked]
  rfl

theorem Kept.inside {source : List Char} {root row child : ParseTree} {position : Position}
    {place : Nat} (around : root.Kept source position row)
    (there : row.children[place]? = some child) (named : child.named)
    (unnamed : ¬child.fills .name) (whole : row.kind ∉ selectiveKinds) :
    root.Kept source (position ++ [place]) child := by
  have unchained : row.kind ∉ chainKinds := fun chained => whole (List.mem_append_left _ chained)
  refine .child around there named ?_ fun optional => absurd optional (by
    rw [onOptionalChain_of_kind unchained]
    exact Bool.false_ne_true)
  rcases choice_cases source whole with chooses | chooses | chooses <;> rw [chooses]
  · trivial
  · intro filled
    rcases List.findIdx?_eq_some_iff_getElem.mp filled with ⟨bound, fills, _⟩
    rw [List.getElem?_eq_getElem bound, Option.some.injEq] at there
    exact unnamed (there ▸ fills)
  · trivial

/-- The statement in the lambda of `F(() => { if (a) { } })` is taken over by the call. -/
example :
    let statement : ParseTree := .row "if_statement" true none ⟨10, 20, 0, 10⟩ []
    let call : ParseTree := .row "invocation_expression" true none ⟨0, 23, 0, 0⟩ [
      .row "identifier" true (some .function) ⟨0, 1, 0, 0⟩ [],
      .row "argument_list" true none ⟨1, 23, 0, 1⟩ [
        .row "argument" true none ⟨2, 22, 0, 2⟩ [
          .row "lambda_expression" true none ⟨2, 22, 0, 2⟩ [
            .row "block" true (some .body) ⟨8, 22, 0, 8⟩ [statement]]]]]
    call.Kept [] [1, 0, 0, 0, 0] statement := by
  intro statement call
  have plain : call.onOptionalChain = false := by decide
  have arguments : call.Kept [] ([] ++ [1]) _ :=
    .child .root rfl rfl (by decide) fun optional => absurd (plain.symm.trans optional) (by decide)
  exact .inside (.inside (.inside (.inside arguments rfl rfl (by decide) (by decide)) rfl rfl
    (by decide) (by decide)) rfl rfl (by decide) (by decide)) rfl rfl (by decide) (by decide)

end ParseTree

end UnityLint
