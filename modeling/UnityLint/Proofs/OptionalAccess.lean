import UnityLint.Declaration.Resolver
import UnityLint.Proofs.Calls
import UnityLint.Proofs.Chains
import UnityLint.Proofs.Dispatch
import UnityLint.Proofs.NullGuard

/-! # Optional accesses

Every `?.` in a file is one node, which spans the chain from the `?.` upwards and guards the value in
front of it, however deep the chain nests. -/

namespace UnityLint

open Traced

namespace ParseTree

/-! ## Regular rows -/

def isBinding (row : ParseTree) : Bool :=
  row.kind = "member_binding_expression" ∧ (row.child? .name).any named ∧
      (row.others [.name]).isEmpty ∨
    row.kind = "element_binding_expression"

/-- Rows of the usual shape, in which an optional access has a receiver and what stands behind `?`. -/
@[mk_iff]
structure CompleteForAccesses (source : List Char) (row : ParseTree) : Prop
    extends Regular source "conditional_access_expression" row where
  conditionalAccess : row.kind = "conditional_access_expression" →
    (row.child? .condition).isSome ∧ (row.others [.condition]).length = 1 ∧
      ∀ binding ∈ row.others [.condition], binding.isBinding

instance (source : List Char) (row : ParseTree) : Decidable (row.CompleteForAccesses source) :=
  decidable_of_iff _ (completeForAccesses_iff source row).symm

/-- The shape of rows under which no optional access is lost and each has its receiver. A member that
does not stand behind `?` must not hide one either: of its row nothing but the name is kept. -/
@[mk_iff]
structure RegularForAccesses (source : List Char) (row : ParseTree) : Prop
    extends CompleteForAccesses source row where
  memberBinding : row.kind = "member_binding_expression" →
    ∀ other ∈ row.others [.name], other.Clear "conditional_access_expression"

instance (source : List Char) (row : ParseTree) : Decidable (row.RegularForAccesses source) :=
  decidable_of_iff _ (regularForAccesses_iff source row).symm

theorem RegularForAccesses.keeps {source : List Char} {root : ParseTree}
    (regular : ∀ position row, root.at? position = some row → row.RegularForAccesses source) :
    ∀ position row, root.at? position = some row →
      row.Keeps source Tally.optionalAccesses.kind := by
  apply keeps_of_regular
  · exact fun position row here => (regular position row here).toRegular
  · intro position row here same childless
    have present := ((regular position row here).conditionalAccess same).1
    rw [child?, childless] at present
    cases present
  · intro position row here same
    rcases (regular position row here).conditionalAccess same with ⟨present, single, _⟩
    refine ⟨present, fun empty => ?_⟩
    rw [empty] at single
    cases single
  · exact fun position row here => (regular position row here).memberBinding

/-! ## Chains from their start -/

section Chains

variable {source : List Char} {root row : ParseTree} {position : Position}
  (keeps : ∀ position row, root.at? position = some row →
    row.Keeps source Tally.optionalAccesses.kind)
  (here : root.at? position = some row)

include keeps here

theorem receiver_eq_condition {receiver : Trace} {start : Position} :
    ∀ last, (root.tracedAt source position row).chain = .optional receiver (some last) →
      row.chainStart? position = some start →
        ∃ access condition place, root.at? start = some access ∧
          access.child? .condition = some condition ∧
          root.at? (start ++ [place]) = some condition ∧
          receiver = (root.tracedAt source (start ++ [place]) condition).whole := by
  refine placed_induction ?_ here
  intro position row here induction last chain starts
  have placed : (root.partsAt source position row).map _ = _ := placed_partsAt
  rcases chain_cases keeps here chain with
    ⟨kind, condition, found, rfl, _⟩ | ⟨field, form, inner, before, others, link, found, inside, _⟩
  · rw [chainStart?_of_conditional kind] at starts
    cases starts
    have child : row.child? .condition = some condition.row := by
      rw [← map_row_part? (rows_of_placed placed), found]
      rfl
    rcases (mem_partsAt ..).mp (mem_of_part? found) with ⟨below, placed, rfl⟩
    rcases mem_placed.mp placed with ⟨place, equal, _⟩
    refine ⟨row, below.2, place, here, by rw [child, row_tracedAt], ?_, by rw [equal]⟩
    rw [← equal]
    exact at?_of_mem_placed here placed
  · rw [Traced.chainStart?_of_link placed link, found, Option.bind_some] at starts
    rcases (mem_partsAt ..).mp (mem_of_part? found) with ⟨below, placedBelow, rfl⟩
    rw [row_tracedAt, position_tracedAt] at starts
    exact induction below placedBelow before inside starts

end Chains

end ParseTree

/-! ## Guarded values -/

namespace Trace

/-- The value that an optional access guards, given its receiver: of a chain the end of its tail. -/
def guarded (receiver : Trace) : Trace :=
  match receiver.form, receiver.parts with
  | .conditionalAccess, _ :: tail :: _ => tail
  | _, _ => receiver

theorem guarded_of_ne {receiver : Trace} (other : receiver.form ≠ .conditionalAccess) :
    receiver.guarded = receiver := by
  rw [guarded]
  split
  · exact absurd ‹_› other
  · rfl

section Sits

variable {whole node : Trace} {first : Nat} {around : List (Nat × Trace)}

theorem Sits.guard_eq (sits : Sits whole first node around) :
    ∃ start others, Sits whole start node.guarded others ∧
      (match whole.forest.node? (first + node.countBelow) with
        | some (.conditionalAccess _ (some tail)) => some (NullGuard.conditionalAccess tail)
        | some _ => some (.conditionalAccess (first + node.countBelow))
        | none => none) =
        some (.conditionalAccess (start + node.guarded.countBelow)) := by
  by_cases access : node.form = .conditionalAccess
  · rw [sits.node?_eq, access]
    match parts : node.parts with
    | [] =>
        have own : node.guarded = node := by rw [guarded, access, parts]
        refine ⟨first, around, ?_, ?_⟩ <;> rw [own]
        · exact sits
        · rfl
    | [receiver] =>
        have own : node.guarded = node := by rw [guarded, access, parts]
        refine ⟨first, around, ?_, ?_⟩ <;> rw [own]
        · exact sits
        · rfl
    | receiver :: tail :: rest =>
        have own : node.guarded = tail := by rw [guarded, access, parts]
        have found : node.parts[1]? = some tail := by rw [parts]; rfl
        rcases sits.part_of_getElem? found with ⟨start, inner, number⟩
        rw [parts, numbersFrom_cons, numbersFrom_cons] at number
        have same : first + receiver.size + tail.countBelow = start + tail.countBelow := by
          simpa using number
        refine ⟨start, (first + node.countBelow, node) :: around, ?_, ?_⟩ <;> rw [own]
        · exact inner
        · rw [numbersFrom_cons, numbersFrom_cons, ← same]
          rfl
  · have other : (node.form.build (numbersFrom first node.parts)).1.kind ≠ .conditionalAccess := by
      rcases node.form.kind_build (numbersFrom first node.parts) with same | kept
      · rw [same]
        cases form : node.form <;> first | exact absurd form access | exact NodeKind.noConfusion
      · rw [kept]
        exact NodeKind.noConfusion
    refine ⟨first, around, ?_, ?_⟩ <;> rw [guarded_of_ne access]
    · exact sits
    · rw [sits.node?_eq]
      generalize (node.form.build (numbersFrom first node.parts)).1 = built at other
      cases built <;> first | rfl | exact absurd rfl other

end Sits

end Trace

namespace ParseTree

variable {source : List Char} {root row : ParseTree} {position : Position}

variable
  (regular : ∀ position row, root.at? position = some row → row.RegularForAccesses source)
  (here : root.at? position = some row)

include regular here

end ParseTree

/-! ## Optional accesses among the nodes -/

namespace Trace

variable {source : List Char} {root row : ParseTree} {node : Trace}

section Accesses

variable (regular : ∀ position row, root.at? position = some row → row.RegularForAccesses source)
  (made : node.MadeFrom source root row) (access : node.form = .conditionalAccess)

include regular made access

theorem MadeFrom.chainStart?_eq :
    row.chainStart? node.origin = some (Tally.optionalAccesses.home root node) := by
  have keeps := ParseTree.RegularForAccesses.keeps regular
  rcases made.access access with ⟨_, _, receiver, tail, chain, _⟩
  have optional : (row.chainStart? node.origin).isSome := by
    rw [ParseTree.isSome_chainStart?]
    by_contra plain
    rw [(ParseTree.chain_eq_plain_iff keeps made.1).mpr (by simpa using plain)] at chain
    cases chain
  rcases Option.isSome_iff_exists.mp optional with ⟨start, starts⟩
  simp [Tally.home, made.1, starts]

theorem MadeFrom.receiver :
    ∃ start condition position rest,
      root.at? (Tally.optionalAccesses.home root node) = some start ∧
      start.child? .condition = some condition ∧ root.at? position = some condition ∧
      node.parts = (root.tracedAt source position condition).whole :: rest := by
  have keeps := ParseTree.RegularForAccesses.keeps regular
  have starts := made.chainStart?_eq regular access
  rcases made.access access with ⟨tops, whole, _⟩
  have optional : row.onOptionalChain := by
    rw [← ParseTree.isSome_chainStart? node.origin, starts]
    rfl
  rcases ParseTree.whole_of_topsChain keeps made.1 tops optional with
    ⟨receiver, last, chain, _, parts⟩
  rcases ParseTree.receiver_eq_condition keeps made.1 last chain starts with
    ⟨start, condition, place, there, child, below, rfl⟩
  exact ⟨start, condition, _, [last], there, child, below,
    (congrArg Trace.parts whole).trans parts⟩

end Accesses

end Trace

namespace NullGuard

variable {source : List Char} {root row : ParseTree} {whole node receiver : Trace} {tree : Tree}

theorem at?_eq (forest : tree.toForest = whole.forest) {first : Nat} {around : List (Nat × Trace)}
    (sits : whole.Sits first node around) (access : node.form = .conditionalAccess)
    {rest : List Trace} (parts : node.parts = receiver :: rest) :
    ∃ start others, whole.Sits start receiver.guarded others ∧
      at? tree (first + node.countBelow) =
        some (.conditionalAccess (start + receiver.guarded.countBelow)) := by
  have found : node.parts[0]? = some receiver := by rw [parts]; rfl
  rcases sits.part_of_getElem? found with ⟨start, inner, number⟩
  rw [parts, Trace.numbersFrom_cons] at number
  have same : first + receiver.countBelow = start + receiver.countBelow := by simpa using number
  rcases inner.guard_eq with ⟨guardedStart, others, guardedSits, guard⟩
  refine ⟨guardedStart, others, guardedSits, ?_⟩
  rw [← guard, at?, forest, sits.node?_eq, access, parts, Trace.numbersFrom_cons, same]
  cases rest <;> rfl

end NullGuard

end UnityLint
