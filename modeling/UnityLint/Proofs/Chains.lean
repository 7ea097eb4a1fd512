import UnityLint.Proofs.Census

/-! # Chains

A chain runs from an optional access `?.` up through calls, members and elements. In a tree of any
shape, the node of an optional access comes from the topmost row that spans its chain. -/

namespace UnityLint

open Traced

def ChainTrace.isOptional : ChainTrace → Bool
  | .optional _ _ => true
  | _ => false

@[simp] theorem ChainTrace.isOptional_extend (link : Trace → Option Trace) (chain : ChainTrace) :
    (chain.extend link).isOptional = chain.isOptional := by
  cases chain <;> rfl

theorem ChainTrace.isOptional_iff {chain : ChainTrace} :
    chain.isOptional ↔ ∃ receiver tail, chain = .optional receiver tail := by
  cases chain <;> simp [isOptional]

namespace Traced

variable {row : ParseTree} {parts : List Traced} {field : Field} {form : Form} {inner : Traced}

theorem exists_part_of_mem_linkOthers (distinct : (parts.map position).Nodup)
    (link : row.link? = some (field, form)) (found : part? field parts = some inner)
    {others : List Trace} (equal : linkOthers row field parts = some others) :
    ∀ trace ∈ others, ∃ part ∈ parts, part.position ≠ inner.position ∧ part.whole = trace := by
  intro trace member
  rw [linkOthers] at equal
  split at equal
  · -- The name of a member does not fill the field of the value in front of it.
    rename_i access
    rcases Option.map_eq_some_iff.mp equal with ⟨name, named, rfl⟩
    refine ⟨name, mem_of_part? named, ?_, (List.mem_singleton.mp member).symm⟩
    intro same
    have one := List.inj_on_of_nodup_map distinct (mem_of_part? named) (mem_of_part? found) same
    have fillsName := List.find?_some named
    have fillsField := List.find?_some found
    rw [one] at fillsName
    rcases ParseTree.link?_eq_some link with ⟨kind, _⟩ | ⟨_, rfl, _⟩ | ⟨kind, _⟩
    · simp [kind] at access
    · simp only [ParseTree.fills, decide_eq_true_eq] at fillsName fillsField
      rw [fillsName] at fillsField
      cases fillsField
    · simp [kind] at access
  · cases equal
    rcases mem_wholes.mp member with ⟨part, kept, _, rfl⟩
    rcases List.exists_of_eraseP (mem_of_part? found) (List.find?_some found) with
      ⟨first, before, after, none, fills, split, erased⟩
    have same : inner = first := by
      have search : part? field parts = some first := by
        rw [part?, split, List.find?_append, List.find?_eq_none.mpr none]
        simp [fills]
      exact Option.some.inj (found.symm.trans search)
    refine ⟨part, List.mem_of_mem_eraseP kept, ?_, rfl⟩
    rw [erased] at kept
    rw [split, List.map_append, List.map_cons, List.nodup_middle, List.nodup_cons,
      ← List.map_append] at distinct
    intro equal
    apply distinct.1
    rw [← same, ← equal]
    exact List.mem_map_of_mem kept

end Traced

namespace ParseTree

variable {source : List Char} {root row : ParseTree} {position start : Position}

theorem prefix_chainStart? (starts : row.chainStart? position = some start) :
    position <+: start := by
  induction row generalizing position with
  | row kind named field extent children induction =>
      generalize here : ParseTree.row kind named field extent children = row at starts
      have children_eq : children = row.children := here ▸ rfl
      by_cases conditional : row.kind = "conditional_access_expression"
      · rw [chainStart?_of_conditional conditional] at starts
        cases starts
        exact List.prefix_rfl
      cases link : row.link? with
      | none =>
          rw [chainStart?_eq_none conditional link] at starts
          cases starts
      | some found =>
          rw [chainStart?_of_link link] at starts
          rcases Option.bind_eq_some_iff.mp starts with ⟨below, search, startsBelow⟩
          have placed := List.mem_of_find?_eq_some search
          rcases mem_placed.mp placed with ⟨place, equal, inside⟩
          have further := induction below.2
            (children_eq ▸ mem_children_of_mem_placed placed) startsBelow
          rw [equal] at further
          exact (List.prefix_append position [place]).trans further

theorem mem_offers_of_prefix (here : root.at? position = some row) :
    ∀ trace ∈ (root.tracedAt source position row).offers, ∀ node ∈ trace.nodes,
      ∀ between inner, position <+: between → root.at? between = some inner →
        between <+: node.origin →
          ∃ other ∈ (root.tracedAt source between inner).offers, node ∈ other.nodes := by
  refine placed_induction ?_ here
  intro position row here induction trace offered node inside between inner above there below
  rcases above with ⟨rest, rfl⟩
  cases rest with
  | nil =>
      rw [List.append_nil] at there ⊢
      cases here.symm.trans there
      exact ⟨trace, offered, inside⟩
  | cons place rest =>
      have notHere : node.origin ≠ position := by
        intro same
        rw [same] at below
        have bound := below.length_le
        rw [List.length_append, List.length_cons] at bound
        omega
      rw [tracedAt_eq source here] at offered
      rcases mem_nodes_ofParts offered inside with
        rfl | extended | ⟨other, ⟨part, member, offeredBelow⟩, innerInside⟩
      · exact absurd rfl notHere
      · exact absurd extended.origin notHere
      · rcases (mem_partsAt ..).mp member with ⟨found, placed, rfl⟩
        have origin := prefix_of_mem_offers (at?_of_mem_placed here placed) other offeredBelow
          node innerInside
        refine induction found placed other offeredBelow node innerInside _ _ ?_ there below
        rcases mem_placed.mp placed with ⟨index, equal, _⟩
        rw [equal] at origin ⊢
        apply List.prefix_of_prefix_length_le origin below
        simp

theorem isOptional_chain (here : root.at? position = some row) :
    row.chainStart? position = some start →
      ∃ access, root.at? start = some access ∧
        (root.tracedAt source position row).chain.isOptional =
          (root.tracedAt source start access).chain.isOptional := by
  refine placed_induction ?_ here
  intro position row here induction starts
  by_cases conditional : row.kind = "conditional_access_expression"
  · rw [chainStart?_of_conditional conditional] at starts
    cases starts
    exact ⟨row, here, rfl⟩
  · cases link : row.link? with
    | none =>
        rw [chainStart?_eq_none conditional link] at starts
        cases starts
    | some found =>
        rcases found with ⟨field, form⟩
        rw [Traced.chainStart?_of_link placed_partsAt link] at starts
        rcases Option.bind_eq_some_iff.mp starts with ⟨inner, search, startsBelow⟩
        rcases (mem_partsAt ..).mp (mem_of_part? search) with ⟨below, placed, rfl⟩
        rw [row_tracedAt, position_tracedAt] at startsBelow
        rcases induction below placed startsBelow with ⟨access, there, same⟩
        refine ⟨access, there, ?_⟩
        rw [chain_tracedAt source here, chainOf, if_neg conditional, link]
        dsimp only
        rw [chainLink, search]
        dsimp only
        rw [ChainTrace.isOptional_extend, same]

theorem nodup_partsAt : ((root.partsAt source position row).map Traced.position).Nodup := by
  have placed : (root.partsAt source position row).map _ = _ := placed_partsAt
  have distinct := nodup_placed position row
  rw [← placed, List.map_map] at distinct
  exact distinct

theorem exists_place_of_offered (here : root.at? position = some row) {trace node : Trace}
    (offered : Offered (root.partsAt source position row) trace) (inside : node ∈ trace.nodes) :
    ∃ place, position ++ [place] <+: node.origin := by
  rcases offered with ⟨part, member, offered⟩
  rcases (mem_partsAt ..).mp member with ⟨found, placed, rfl⟩
  rcases mem_placed.mp placed with ⟨place, equal, _⟩
  refine ⟨place, ?_⟩
  rw [← equal]
  exact prefix_of_mem_offers (at?_of_mem_placed here placed) trace offered node inside

theorem not_prefix_of_snoc_prefix {above below : Position} {place : Nat}
    (further : above ++ [place] <+: below) : ¬ below <+: above := by
  intro back
  have bound := (further.trans back).length_le
  rw [List.length_append, List.length_singleton] at bound
  omega

theorem eq_of_placed_of_prefix {left right : Position × ParseTree} {below : Position}
    (leftPlaced : left ∈ row.placed position) (rightPlaced : right ∈ row.placed position)
    (leftAbove : left.1 <+: below) (rightAbove : right.1 <+: below) : left.1 = right.1 := by
  rcases mem_placed.mp leftPlaced with ⟨leftPlace, leftEqual, _⟩
  rcases mem_placed.mp rightPlaced with ⟨rightPlace, rightEqual, _⟩
  have length : left.1.length = right.1.length := by
    rw [leftEqual, rightEqual, List.length_append, List.length_append]
    rfl
  have nested := List.prefix_of_prefix_length_le leftAbove rightAbove length.le
  exact nested.eq_of_length length

theorem not_prefix_chainStart? (here : root.at? position = some row) :
    ∀ receiver tail, (root.tracedAt source position row).chain = .optional receiver tail →
      ∃ start, row.chainStart? position = some start ∧
        ∀ trace ∈ receiver :: tail.toList, ∀ node ∈ trace.nodes,
          node.form = .conditionalAccess → ¬ node.origin <+: start := by
  refine placed_induction ?_ here
  intro position row here induction receiver tail chain
  rw [chain_tracedAt source here] at chain
  rcases chainOf_eq_optional chain with
    ⟨kind, _⟩ | ⟨field, form, inner, innerTail, link, found, innerChain, equal⟩
  · -- The row starts the chain itself, and what it offers comes from its children.
    refine ⟨position, chainStart?_of_conditional kind, ?_⟩
    intro trace member node inside access
    have ofChild {other : Trace} (offered : Offered (root.partsAt source position row) other)
        (within : node ∈ other.nodes) : ¬ node.origin <+: position := by
      rcases exists_place_of_offered here offered within with ⟨place, further⟩
      exact not_prefix_of_snoc_prefix further
    rcases List.mem_cons.mp member with rfl | inTail
    · exact ofChild (offered_receiver chain) inside
    · rw [Option.mem_toList.mp inTail] at chain
      rcases offered_tail chain with fromChild | extended
      · exact ofChild fromChild inside
      · rcases Trace.mem_nodes.mp inside with rfl | ⟨part, below, within⟩
        · exact absurd access extended.form_ne
        · exact ofChild (extended.parts part below) within
  · -- The row adds a link to the chain of a child, and other children stand beside that child.
    rcases (mem_partsAt ..).mp (mem_of_part? found) with ⟨below, placed, rfl⟩
    rcases induction below placed receiver innerTail innerChain with ⟨start, starts, apart⟩
    refine ⟨start, ?_, ?_⟩
    · rw [Traced.chainStart?_of_link placed_partsAt link, found, Option.bind_some, row_tracedAt,
        position_tracedAt, starts]
    intro trace member node inside access
    rcases List.mem_cons.mp member with rfl | inTail
    · exact apart trace List.mem_cons_self node inside access
    rw [Option.mem_toList.mp inTail] at equal
    rcases Option.bind_eq_some_iff.mp equal.symm with ⟨before, same, extended⟩
    rcases Option.map_eq_some_iff.mp extended with ⟨others, others_eq, rfl⟩
    rcases Trace.mem_nodes.mp inside with rfl | ⟨part, inner, within⟩
    · exact absurd access (form_ne_of_link? link)
    rcases List.mem_cons.mp inner with rfl | other
    · exact apart part (by simp [same]) node within access
    · rcases exists_part_of_mem_linkOthers nodup_partsAt link found others_eq part other with
        ⟨sibling, listed, different, rfl⟩
      rcases (mem_partsAt ..).mp listed with ⟨beside, placedBeside, rfl⟩
      intro prefixed
      have above := prefix_of_mem_offers (at?_of_mem_placed here placedBeside) _
        (whole_mem_offers _) node within
      apply different
      rw [position_tracedAt, position_tracedAt]
      exact eq_of_placed_of_prefix placedBeside placed (above.trans prefixed)
        (prefix_chainStart? starts)

theorem mem_nodes_of_topsChain (here : root.at? position = some row) (tops : row.topsChain)
    {receiver trace node : Trace} {tail : Option Trace}
    (chain : (root.tracedAt source position row).chain = .optional receiver tail)
    (offered : trace ∈ (root.tracedAt source position row).offers) (inside : node ∈ trace.nodes) :
    node = (root.tracedAt source position row).whole ∨
      ∃ part ∈ receiver :: tail.toList, node ∈ part.nodes := by
  have ofWhole (within : node ∈ (root.tracedAt source position row).whole.nodes) :
      node = (root.tracedAt source position row).whole ∨
        ∃ part ∈ receiver :: tail.toList, node ∈ part.nodes := by
    rcases Trace.mem_nodes.mp within with same | ⟨part, member, below⟩
    · exact .inl same
    · rw [chain_tracedAt source here] at chain
      rw [parts_whole source here, wholeParts, if_pos tops, chain] at member
      exact .inr ⟨part, member, below⟩
  rcases mem_offers.mp offered with rfl | inPattern | ⟨other, otherTail, same, which⟩
  · exact ofWhole inside
  · rw [tracedAt_eq source here] at inPattern
    rcases offered_of_mem_patternOf inPattern with rfl | ⟨wraps, _⟩
    · apply ofWhole
      rw [tracedAt_eq source here]
      exact inside
    · simp only [wrapsPattern, topsChain, decide_eq_true_eq] at wraps tops
      rcases wraps with kind | kind | kind <;> simp [kind] at tops
  · cases chain.symm.trans same
    refine .inr ⟨trace, ?_, inside⟩
    rcases which with rfl | last
    · exact List.mem_cons_self
    · rw [last]
      exact List.mem_cons_of_mem _ List.mem_cons_self

end ParseTree

/-- The row at a position spans the chain that starts at `start`, and no row above it does. -/
structure ParseTree.TopOfChain (root : ParseTree) (start position : Position) (row : ParseTree) :
    Prop where
  here : root.at? position = some row
  tops : row.topsChain
  starts : row.chainStart? position = some start
  topmost : ∀ above other, root.at? above = some other → other.topsChain →
    other.chainStart? above = some start → position <+: above

namespace Trace

variable {source : List Char} {root row : ParseTree} {node : Trace}

theorem MadeFrom.access (made : node.MadeFrom source root row)
    (access : node.form = .conditionalAccess) :
    row.topsChain ∧ node = (root.tracedAt source node.origin row).whole ∧
      ∃ receiver tail, (root.tracedAt source node.origin row).chain = .optional receiver tail ∧
        node.parts = receiver :: tail.toList := by
  rcases made with ⟨here, whole | extended⟩
  · have formed := access
    rw [whole, ParseTree.form_whole_tracedAt] at formed
    rcases ParseTree.formOf_eq_conditionalAccess formed with ⟨tops, receiver, tail, chain⟩
    refine ⟨tops, whole, receiver, tail, chain, ?_⟩
    rw [ParseTree.chain_tracedAt source here] at chain
    rw [whole, ParseTree.parts_whole source here, wholeParts, if_pos tops, chain]
  · exact absurd access extended.form_ne

theorem MadeFrom.exists_topOfChain (made : node.MadeFrom source root row)
    (access : node.form = .conditionalAccess) (inside : node ∈ (ofParseTree source root).nodes) :
    ∃ start, root.TopOfChain start node.origin row := by
  rcases made.access access with ⟨tops, _, receiver, tail, chain, _⟩
  rcases ParseTree.not_prefix_chainStart? made.1 receiver tail chain with ⟨start, starts, _⟩
  refine ⟨start, made.1, tops, starts, ?_⟩
  intro above other there otherTops otherStarts
  rcases List.prefix_or_prefix_of_prefix (ParseTree.prefix_chainStart? starts)
    (ParseTree.prefix_chainStart? otherStarts) with done | higher
  · exact done
  · -- A higher row spans the chain too, so that its node has this one inside.
    have optional : (root.tracedAt source above other).chain.isOptional := by
      rcases ParseTree.isOptional_chain made.1 starts with ⟨first, firstAt, same⟩
      rcases ParseTree.isOptional_chain there otherStarts with ⟨second, secondAt, otherSame⟩
      cases firstAt.symm.trans secondAt
      rw [otherSame, ← same, chain]
      rfl
    rcases ChainTrace.isOptional_iff.mp optional with ⟨otherReceiver, otherTail, otherChain⟩
    rcases ParseTree.not_prefix_chainStart? there _ _ otherChain with ⟨again, restarts, apart⟩
    cases otherStarts.symm.trans restarts
    have root_at : root.at? [] = some root := rfl
    rcases ParseTree.mem_offers_of_prefix root_at _ (whole_mem_offers _) node inside above other
      List.nil_prefix there higher with ⟨trace, offered, within⟩
    rcases ParseTree.mem_nodes_of_topsChain there otherTops otherChain offered within with
      rfl | ⟨part, member, below⟩
    · rw [ParseTree.origin_whole_tracedAt]
    · exact absurd (ParseTree.prefix_chainStart? starts) (apart part member node below access)

end Trace

end UnityLint
