import UnityLint.Proofs.Forms

/-! # Where the nodes of a file come from

Every node is the node of a row of its own or the link that a row adds to a chain, and the
declarations around it are those around its row. -/

namespace UnityLint

namespace Traced

def offers (traced : Traced) : List Trace :=
  traced.whole ::
    match traced.chain with
    | .optional receiver tail => receiver :: tail.toList ++ traced.pattern
    | _ => traced.pattern

theorem whole_mem_offers (traced : Traced) : traced.whole ∈ traced.offers :=
  List.mem_cons_self

theorem mem_offers {traced : Traced} {trace : Trace} :
    trace ∈ traced.offers ↔ trace = traced.whole ∨ trace ∈ traced.pattern ∨
      ∃ receiver tail, traced.chain = .optional receiver tail ∧
        (trace = receiver ∨ tail = some trace) := by
  rw [offers, List.mem_cons]
  cases traced.chain with
  | plain => simp
  | headless => simp
  | optional receiver tail =>
      simp only [List.cons_append, List.mem_cons, List.mem_append, Option.mem_toList,
        ChainTrace.optional.injEq]
      grind

def Offered (parts : List Traced) (trace : Trace) : Prop :=
  ∃ part ∈ parts, trace ∈ part.offers

section Parts

variable {row : ParseTree} {position : Position} {parts : List Traced} {trace : Trace}

theorem mem_wholes : trace ∈ wholes parts ↔
    ∃ part ∈ parts, part.row.named ∧ part.whole = trace := by
  simp [wholes, and_assoc]

theorem offered_of_mem_wholes (member : trace ∈ wholes parts) : Offered parts trace := by
  rcases mem_wholes.mp member with ⟨part, inside, _, rfl⟩
  exact ⟨part, inside, part.whole_mem_offers⟩

theorem offered_of_mem_beside {field : Field} (member : trace ∈ beside field parts) :
    Offered parts trace := by
  rcases offered_of_mem_wholes member with ⟨part, inside, offered⟩
  exact ⟨part, List.mem_of_mem_eraseP inside, offered⟩

theorem mem_of_part? {field : Field} {part : Traced} (found : part? field parts = some part) :
    part ∈ parts :=
  List.mem_of_find?_eq_some found

theorem offered_of_part? {field : Field} {part : Traced} (found : part? field parts = some part) :
    Offered parts part.whole :=
  ⟨part, mem_of_part? found, part.whole_mem_offers⟩

theorem offered_of_mem_chosen {choice : Choice} (member : trace ∈ chosen choice parts) :
    Offered parts trace := by
  cases choice with
  | all => exact offered_of_mem_wholes member
  | allBut field => exact offered_of_mem_beside member
  | leading field =>
      rw [chosen] at member
      split at member
      · rename_i first found
        rcases List.mem_cons.mp member with rfl | other
        · exact offered_of_part? found
        · exact offered_of_mem_beside other
      · exact offered_of_mem_wholes member
  | only fields =>
      rw [chosen] at member
      split at member
      · rcases List.mem_flatMap.mp member with ⟨field, _, contributed⟩
        cases found : part? field parts with
        | none => simp [found] at contributed
        | some part =>
            refine ⟨part, mem_of_part? found, mem_offers.mpr ?_⟩
            simp only [found, Option.map_some, Option.getD_some, contribution] at contributed
            split at contributed
            · exact .inr (.inl contributed)
            · exact .inl (List.mem_singleton.mp contributed)
      · exact offered_of_mem_wholes member
  | nothing => cases member

theorem chainOf_eq_optional {receiver : Trace} {tail : Option Trace}
    (chain : chainOf row position parts = .optional receiver tail) :
    (row.kind = "conditional_access_expression" ∧
      ((∃ condition, part? .condition parts = some condition ∧ receiver = condition.whole ∧
          tail = bound row position (beside .condition parts)) ∨
        (part? .condition parts = none ∧
          ∃ first, parts.find? (·.row.named) = some first ∧ receiver = first.whole ∧
            tail = bound row position (wholes (parts.eraseP (·.row.named)))))) ∨
    ∃ field form inner innerTail, row.link? = some (field, form) ∧
      part? field parts = some inner ∧ inner.chain = .optional receiver innerTail ∧
      tail = innerTail.bind fun innerTail =>
        (linkOthers row field parts).map fun others =>
          .node form row.span position (innerTail :: others) := by
  rw [chainOf] at chain
  split at chain
  · rename_i conditional
    left
    refine ⟨conditional, ?_⟩
    rw [chainStart] at chain
    split at chain
    · rename_i condition found
      cases chain
      exact .inl ⟨condition, found, rfl, rfl⟩
    · rename_i missing
      split at chain
      · rename_i first found
        cases chain
        exact .inr ⟨missing, first, found, rfl, rfl⟩
      · cases chain
  · right
    split at chain
    · cases chain
    · rename_i field form link
      rw [chainLink] at chain
      split at chain
      · cases chain
      · rename_i inner found
        cases innerChain : inner.chain with
        | plain => rw [innerChain] at chain; cases chain
        | headless => rw [innerChain] at chain; cases chain
        | optional innerReceiver innerTail =>
            rw [innerChain] at chain
            cases chain
            exact ⟨field, form, inner, innerTail, link, found, innerChain, rfl⟩

theorem kind_mem_of_chainOf {receiver : Trace} {tail : Option Trace}
    (chain : chainOf row position parts = .optional receiver tail) :
    row.kind ∈ ["conditional_access_expression", "invocation_expression",
      "member_access_expression", "element_access_expression"] := by
  rcases chainOf_eq_optional chain with ⟨kind, _⟩ | ⟨field, form, _, _, link, _⟩
  · simp [kind]
  · rcases ParseTree.link?_eq_some link with ⟨kind, _⟩ | ⟨kind, _⟩ | ⟨kind, _⟩ <;> simp [kind]

theorem chain_eq_plain_of_chainOf {field : Field} {form : Form} {inner : Traced}
    (chain : chainOf row position parts = .plain) (link : row.link? = some (field, form))
    (found : part? field parts = some inner) : inner.chain = .plain := by
  have other : row.kind ≠ "conditional_access_expression" := by
    rcases ParseTree.link?_eq_some link with ⟨kind, _⟩ | ⟨kind, _⟩ | ⟨kind, _⟩ <;> simp [kind]
  rw [chainOf, if_neg other, link] at chain
  simp only [chainLink, found] at chain
  cases innerChain : inner.chain with
  | plain => rfl
  | headless => rw [innerChain] at chain; cases chain
  | optional receiver tail => rw [innerChain] at chain; cases chain

theorem bound_eq_some {traces : List Trace} (equal : bound row position traces = some trace) :
    traces = [trace] ∨ trace = .node (.other row.kind none) row.span position traces := by
  match traces with
  | [] => cases equal
  | [single] =>
      cases equal
      exact .inl rfl
  | first :: second :: rest =>
      cases equal
      exact .inr rfl

theorem offered_of_mem_linkOthers {field : Field} {others : List Trace}
    (equal : linkOthers row field parts = some others) :
    ∀ trace ∈ others, Offered parts trace := by
  intro trace member
  rw [linkOthers] at equal
  split at equal
  · rcases Option.map_eq_some_iff.mp equal with ⟨name, found, rfl⟩
    rw [List.mem_singleton.mp member]
    exact offered_of_part? found
  · cases equal
    exact offered_of_mem_beside member

theorem offered_receiver {receiver : Trace} {tail : Option Trace}
    (chain : chainOf row position parts = .optional receiver tail) : Offered parts receiver := by
  rcases chainOf_eq_optional chain with
    ⟨_, ⟨condition, found, rfl, _⟩ | ⟨_, first, found, rfl, _⟩⟩ |
      ⟨field, form, inner, innerTail, _, found, innerChain, _⟩
  · exact offered_of_part? found
  · exact ⟨first, List.mem_of_find?_eq_some found, first.whole_mem_offers⟩
  · exact ⟨inner, mem_of_part? found,
      mem_offers.mpr (.inr (.inr ⟨receiver, innerTail, innerChain, .inl rfl⟩))⟩

/-- A new node at the end of the chain of a row, over nodes that its children offer. -/
structure Extends (row : ParseTree) (position : Position) (parts : List Traced) (tail : Trace) :
    Prop where
  chain : ∃ receiver, chainOf row position parts = .optional receiver (some tail)
  origin : tail.origin = position
  span : tail.span = row.span
  form : tail.form = .other row.kind none ∨ ∃ field, row.link? = some (field, tail.form)
  parts : ∀ part ∈ tail.parts, Offered parts part

theorem Extends.form_ne {tail : Trace} (extended : Extends row position parts tail) :
    tail.form ≠ .conditionalAccess := by
  rcases extended.form with kept | ⟨field, link⟩
  · rw [kept]
    exact Form.noConfusion
  · exact ParseTree.form_ne_of_link? link

theorem offered_tail {receiver tail : Trace}
    (chain : chainOf row position parts = .optional receiver (some tail)) :
    Offered parts tail ∨ Extends row position parts tail := by
  have ofBound {traces : List Trace} (equal : some tail = bound row position traces)
      (offered : ∀ trace ∈ traces, Offered parts trace) :
      Offered parts tail ∨ Extends row position parts tail := by
    rcases bound_eq_some equal.symm with single | several
    · exact .inl (offered tail (by simp [single]))
    · subst several
      exact .inr ⟨⟨receiver, chain⟩, rfl, rfl, .inl rfl, offered⟩
  rcases chainOf_eq_optional chain with
    ⟨_, ⟨_, _, _, equal⟩ | ⟨_, _, _, _, equal⟩⟩ |
      ⟨field, form, inner, innerTail, link, found, innerChain, equal⟩
  · exact ofBound equal fun _ => offered_of_mem_beside
  · apply ofBound equal
    intro trace member
    rcases offered_of_mem_wholes member with ⟨part, inside, offered⟩
    exact ⟨part, List.mem_of_mem_eraseP inside, offered⟩
  · rcases Option.bind_eq_some_iff.mp equal.symm with ⟨before, same, extended⟩
    rcases Option.map_eq_some_iff.mp extended with ⟨others, othersEqual, rfl⟩
    refine .inr ⟨⟨receiver, chain⟩, rfl, rfl, .inr ⟨field, link⟩, fun part member => ?_⟩
    rcases List.mem_cons.mp member with rfl | other
    · exact ⟨inner, mem_of_part? found,
        mem_offers.mpr (.inr (.inr ⟨receiver, innerTail, innerChain, .inr same⟩))⟩
    · exact offered_of_mem_linkOthers othersEqual part other

theorem offered_of_mem_patternOf {whole : Trace} (member : trace ∈ patternOf row parts whole) :
    trace = whole ∨ row.wrapsPattern ∧ ∃ part ∈ parts, trace ∈ part.pattern := by
  rw [patternOf] at member
  split at member
  · rename_i wraps
    cases found : parts.find? (·.row.named) with
    | none => simp [found] at member
    | some part =>
        rw [found] at member
        exact .inr ⟨wraps, part, List.mem_of_find?_eq_some found, member⟩
  · exact .inl (List.mem_singleton.mp member)

theorem offered_of_mem_wholeParts {source : List Char}
    (member : trace ∈ wholeParts source row position parts) :
    Offered parts trace ∨ row.topsChain ∧ ∃ receiver tail,
      chainOf row position parts = .optional receiver tail ∧
        (trace = receiver ∨ tail = some trace) := by
  rw [wholeParts] at member
  split at member
  · rename_i tops
    split at member
    · exact .inl (offered_of_mem_chosen member)
    · exact .inl (offered_of_mem_wholes member)
    · rename_i receiver tail chain
      refine .inr ⟨tops, receiver, tail, chain, ?_⟩
      simpa [Option.mem_toList] using member
  · exact .inl (offered_of_mem_chosen member)

/-- A node inside what a row offers is the node of the row, extends its chain, or is inside what a child
offers. -/
theorem mem_nodes_ofParts {source : List Char} {form : Form} {node : Trace}
    (offered : trace ∈ (ofParts source form row position parts).offers)
    (inside : node ∈ trace.nodes) :
    node = (ofParts source form row position parts).whole ∨
      Extends row position parts node ∨
      ∃ other, Offered parts other ∧ node ∈ other.nodes := by
  have ofTail {receiver tail : Trace}
      (chain : chainOf row position parts = .optional receiver (some tail))
      (inTail : node ∈ tail.nodes) :
      Extends row position parts node ∨
      ∃ other, Offered parts other ∧ node ∈ other.nodes := by
    rcases offered_tail chain with fromChild | extended
    · exact .inr ⟨tail, fromChild, inTail⟩
    · rcases Trace.mem_nodes.mp inTail with rfl | ⟨part, member, below⟩
      · exact .inl extended
      · exact .inr ⟨part, extended.parts part member, below⟩
  have ofWhole (inWhole : node ∈ (ofParts source form row position parts).whole.nodes) :
      node = (ofParts source form row position parts).whole ∨
      Extends row position parts node ∨
      ∃ other, Offered parts other ∧ node ∈ other.nodes := by
    rcases Trace.mem_nodes.mp inWhole with same | ⟨part, member, below⟩
    · exact .inl same
    · rcases offered_of_mem_wholeParts member with
        fromChild | ⟨_, receiver, tail, chain, rfl | same⟩
      · exact .inr (.inr ⟨part, fromChild, below⟩)
      · exact .inr (.inr ⟨part, offered_receiver chain, below⟩)
      · exact .inr (ofTail (same ▸ chain) below)
  rcases mem_offers.mp offered with rfl | inPattern | ⟨receiver, tail, chain, rfl | same⟩
  · exact ofWhole inside
  · rcases offered_of_mem_patternOf inPattern with rfl | ⟨_, part, member, offeredBelow⟩
    · exact ofWhole inside
    · exact .inr (.inr ⟨trace, ⟨part, member, mem_offers.mpr (.inr (.inl offeredBelow))⟩, inside⟩)
  · exact .inr (.inr ⟨trace, offered_receiver chain, inside⟩)
  · exact .inr (ofTail (same ▸ chain) inside)

end Parts

end Traced

/-! ## Rows of a file -/

namespace ParseTree

@[elab_as_elim]
theorem placed_induction {root : ParseTree} {motive : Position → ParseTree → Prop}
    (step : ∀ position row, root.at? position = some row →
      (∀ found ∈ row.placed position, motive found.1 found.2) → motive position row)
    {position : Position} {row : ParseTree} (here : root.at? position = some row) :
    motive position row := by
  induction row generalizing position with
  | row kind named field extent children induction =>
      apply step position _ here
      intro found member
      exact induction found.2 (mem_children_of_mem_placed member) (at?_of_mem_placed here member)

def spacesFrom (source : List Char) : List String → ParseTree → Position → List String
  | spaces, _, [] => spaces
  | spaces, tree, place :: rest =>
      match tree.children[place]? with
      | some child => spacesFrom source (tree.innerSpaces source spaces) child rest
      | none => tree.innerSpaces source spaces

theorem spacesFrom_snoc {source : List Char} {spaces : List String} {root row : ParseTree}
    {position : Position} {place : Nat} (here : root.at? position = some row) :
    spacesFrom source spaces root (position ++ [place]) =
      row.innerSpaces source (spacesFrom source spaces root position) := by
  induction position generalizing root spaces with
  | nil =>
      cases here
      simp only [List.nil_append, spacesFrom]
      split <;> rfl
  | cons head rest induction =>
      rcases Option.bind_eq_some_iff.mp here with ⟨child, inside, below⟩
      rw [List.cons_append, spacesFrom, spacesFrom, inside]
      exact induction below

section File

variable (source : List Char) (root : ParseTree) (position : Position) (row : ParseTree)

def formAt : Form :=
  (row.read source (root.fileNamespace? source)
    (spacesFrom source [] root position)).outline.form

def tracedAt : Traced :=
  row.trace source (root.fileNamespace? source) (spacesFrom source [] root position) position

def partsAt : List Traced :=
  (row.placed position).map fun found => root.tracedAt source found.1 found.2

@[simp] theorem position_tracedAt : (root.tracedAt source position row).position = position :=
  position_trace ..

@[simp] theorem row_tracedAt : (root.tracedAt source position row).row = row :=
  row_trace ..

@[simp] theorem origin_whole_tracedAt :
    (root.tracedAt source position row).whole.origin = position :=
  origin_whole_trace ..

theorem mem_partsAt {part : Traced} :
    part ∈ root.partsAt source position row ↔
      ∃ found ∈ row.placed position, root.tracedAt source found.1 found.2 = part :=
  List.mem_map

variable {root position row}

theorem tracedAt_eq (here : root.at? position = some row) :
    root.tracedAt source position row =
      .ofParts source (root.formAt source position row) row position
        (root.partsAt source position row) := by
  have inner : row.tracedParts source (root.fileNamespace? source)
      (spacesFrom source [] root position) position = root.partsAt source position row := by
    apply List.map_congr_left
    intro found member
    rcases mem_placed.mp member with ⟨place, equal, _⟩
    rw [tracedAt, equal, spacesFrom_snoc here]
  rw [tracedAt, trace_eq, inner]
  rfl

theorem form_whole_tracedAt :
    (root.tracedAt source position row).whole.form =
      row.formOf source (root.fileNamespace? source) (spacesFrom source [] root position)
        (root.tracedAt source position row).chain := by
  rw [← form_read]
  · rw [tracedAt, trace_eq]
    rfl
  · exact (agrees_trace ..).chain

theorem span_whole_tracedAt : (root.tracedAt source position row).whole.span = row.span := by
  rw [tracedAt, trace_eq]
  rfl

theorem parts_whole (here : root.at? position = some row) :
    (root.tracedAt source position row).whole.parts =
      Traced.wholeParts source row position (root.partsAt source position row) := by
  rw [tracedAt_eq source here]
  rfl

theorem chain_tracedAt (here : root.at? position = some row) :
    (root.tracedAt source position row).chain =
      Traced.chainOf row position (root.partsAt source position row) := by
  rw [tracedAt_eq source here]
  rfl

theorem parts_whole_of_plain (here : root.at? position = some row)
    (plain : (root.tracedAt source position row).chain = .plain) :
    (root.tracedAt source position row).whole.parts =
      Traced.chosen (row.choice source) (root.partsAt source position row) := by
  rw [chain_tracedAt source here] at plain
  rw [parts_whole source here, Traced.wholeParts, plain]
  split <;> rfl

end File

end ParseTree

/-! ## Nodes and their rows -/

open Traced

/-- The node was made from a row: it is the node of the row, or the row extends a chain by it. -/
def Trace.MadeFrom (source : List Char) (root : ParseTree) (node : Trace) (row : ParseTree) : Prop :=
  root.at? node.origin = some row ∧
    (node = (root.tracedAt source node.origin row).whole ∨
      Extends row node.origin (root.partsAt source node.origin row) node)

namespace ParseTree

variable {source : List Char} {root row : ParseTree} {position : Position} {node : Trace}

theorem madeFrom_of_mem_offers (here : root.at? position = some row) :
    ∀ trace ∈ (root.tracedAt source position row).offers, ∀ node ∈ trace.nodes,
      ∃ row, node.MadeFrom source root row := by
  refine placed_induction ?_ here
  intro position row here induction trace offered node inside
  rw [tracedAt_eq source here] at offered
  rcases mem_nodes_ofParts offered inside with
    same | extended | ⟨other, ⟨part, member, below⟩, inner⟩
  · have made := (congrArg Traced.whole (tracedAt_eq source here)).symm
    subst same
    exact ⟨row, here, .inl made⟩
  · have same := extended.origin
    refine ⟨row, same ▸ here, .inr ?_⟩
    rw [same]
    exact extended
  · rcases (mem_partsAt ..).mp member with ⟨found, placed, rfl⟩
    exact induction found placed other below node inner

theorem prefix_of_mem_offers (here : root.at? position = some row) :
    ∀ trace ∈ (root.tracedAt source position row).offers, ∀ node ∈ trace.nodes,
      position <+: node.origin := by
  refine placed_induction ?_ here
  intro position row here induction trace offered node inside
  rw [tracedAt_eq source here] at offered
  rcases mem_nodes_ofParts offered inside with
    rfl | extended | ⟨other, ⟨part, member, below⟩, inner⟩
  · exact List.prefix_rfl
  · exact extended.origin ▸ List.prefix_rfl
  · rcases (mem_partsAt ..).mp member with ⟨found, placed, rfl⟩
    rcases mem_placed.mp placed with ⟨place, equal, _⟩
    have further := induction found placed other below node inner
    rw [equal] at further
    exact (List.prefix_append position [place]).trans further

theorem madeFrom_of_mem_nodes (inside : node ∈ (Trace.ofParseTree source root).nodes) :
    ∃ row, node.MadeFrom source root row :=
  have here : root.at? [] = some root := rfl
  madeFrom_of_mem_offers here _ (whole_mem_offers _) node inside

end ParseTree

namespace Trace

variable {source : List Char} {root row : ParseTree} {node : Trace}

theorem MadeFrom.span_eq (made : node.MadeFrom source root row) : node.span = row.span := by
  rcases made with ⟨_, whole | extended⟩
  · rw [whole, ParseTree.span_whole_tracedAt]
  · exact extended.span

theorem MadeFrom.mem_offers (made : node.MadeFrom source root row) :
    node ∈ (root.tracedAt source node.origin row).offers := by
  rcases made with ⟨here, whole | extended⟩
  · exact Traced.mem_offers.mpr (.inl whole)
  · rcases extended.chain with ⟨receiver, chain⟩
    rw [← ParseTree.chain_tracedAt source here] at chain
    exact Traced.mem_offers.mpr (.inr (.inr ⟨receiver, some node, chain, .inr rfl⟩))

theorem MadeFrom.prefix_of_mem_parts (made : node.MadeFrom source root row) {part : Trace}
    (member : part ∈ node.parts) : node.origin <+: part.origin := by
  have inside : part ∈ node.nodes := mem_nodes.mpr (.inr ⟨part, member, part.self_mem_nodes⟩)
  exact ParseTree.prefix_of_mem_offers made.1 node made.mem_offers part inside

end Trace

end UnityLint
