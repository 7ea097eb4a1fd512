import UnityLint.Outline.Numbering
import UnityLint.Proofs.Position

/-! # Outlines with origins

A trace is an outline whose nodes remember the rows that they were read from. Its nodes are listed in
the order of their numbers, and each of them is known together with the nodes around it. -/

namespace UnityLint

inductive Trace where
  | node (form : Form) (span : Span) (origin : Position) (parts : List Trace)

namespace Trace

def form : Trace → Form
  | .node form _ _ _ => form

def span : Trace → Span
  | .node _ span _ _ => span

def origin : Trace → Position
  | .node _ _ origin _ => origin

def parts : Trace → List Trace
  | .node _ _ _ parts => parts

@[elab_as_elim, induction_eliminator]
theorem parts_induction {motive : Trace → Prop}
    (node : ∀ form span origin parts, (∀ part ∈ parts, motive part) →
      motive (.node form span origin parts)) :
    ∀ trace, motive trace
  | .node form span origin parts =>
      node form span origin parts fun part _ => parts_induction node part

mutual

def outline : Trace → Outline
  | .node form span _ parts => .node form span (outlines parts)

def outlines : List Trace → List Outline
  | [] => []
  | part :: rest => part.outline :: outlines rest

end

theorem outlines_eq_map (traces : List Trace) : outlines traces = traces.map outline := by
  induction traces with
  | nil => rfl
  | cons trace rest induction => rw [outlines, induction, List.map_cons]

@[simp] theorem form_outline (trace : Trace) : trace.outline.form = trace.form := by
  cases trace
  rfl

mutual

/-- The nodes of a trace in the order of their numbers, parts before the whole. -/
def nodes : Trace → List Trace
  | .node form span origin parts => nodesOfAll parts ++ [.node form span origin parts]

def nodesOfAll : List Trace → List Trace
  | [] => []
  | part :: rest => part.nodes ++ nodesOfAll rest

end

theorem nodesOfAll_eq_flatMap (traces : List Trace) :
    nodesOfAll traces = traces.flatMap nodes := by
  induction traces with
  | nil => rfl
  | cons trace rest induction => rw [nodesOfAll, induction, List.flatMap_cons]

theorem nodes_eq (trace : Trace) : trace.nodes = trace.parts.flatMap nodes ++ [trace] := by
  cases trace
  rw [nodes, nodesOfAll_eq_flatMap]
  rfl

theorem self_mem_nodes (trace : Trace) : trace ∈ trace.nodes := by
  rw [nodes_eq]
  simp

theorem mem_nodes {node trace : Trace} :
    node ∈ trace.nodes ↔ node = trace ∨ ∃ part ∈ trace.parts, node ∈ part.nodes := by
  rw [nodes_eq, List.mem_append, List.mem_flatMap, List.mem_singleton, or_comm]

/-! ## Numbers -/

def countBelow (trace : Trace) : Nat :=
  (nodesOfAll trace.parts).length

def size (trace : Trace) : Nat :=
  trace.countBelow + 1

theorem length_nodes (trace : Trace) : trace.nodes.length = trace.size := by
  cases trace
  simp [nodes, size, countBelow, parts]

def startsFrom : Nat → List Trace → List (Nat × Trace)
  | _, [] => []
  | first, part :: rest => (first, part) :: startsFrom (first + part.size) rest

def numbersFrom (first : Nat) (traces : List Trace) : List Nat :=
  (startsFrom first traces).map fun start => start.1 + start.2.countBelow

theorem numbersFrom_cons (first : Nat) (part : Trace) (rest : List Trace) :
    numbersFrom first (part :: rest) =
      (first + part.countBelow) :: numbersFrom (first + part.size) rest := rfl

theorem map_snd_startsFrom (first : Nat) (traces : List Trace) :
    (startsFrom first traces).map Prod.snd = traces := by
  induction traces generalizing first with
  | nil => rfl
  | cons part rest induction => simp [startsFrom, induction]

theorem mem_of_mem_startsFrom {first : Nat} {traces : List Trace} {start : Nat × Trace}
    (member : start ∈ startsFrom first traces) : start.2 ∈ traces := by
  rw [← map_snd_startsFrom first traces]
  exact List.mem_map_of_mem member

theorem le_of_mem_numbersFrom {first number : Nat} {traces : List Trace}
    (member : number ∈ numbersFrom first traces) : first ≤ number := by
  induction traces generalizing first with
  | nil => cases member
  | cons part rest induction =>
      rcases List.mem_cons.mp member with rfl | later
      · exact Nat.le_add_right _ _
      · exact Nat.le_trans (Nat.le_add_right _ _) (induction later)

theorem nodesOfAll_of_mem_startsFrom {first : Nat} {traces : List Trace}
    {start : Nat × Trace} (member : start ∈ startsFrom first traces) :
    ∃ before after, nodesOfAll traces = before ++ start.2.nodes ++ after ∧
      start.1 = first + before.length := by
  induction traces generalizing first with
  | nil => cases member
  | cons part rest induction =>
      rcases List.mem_cons.mp member with rfl | later
      · exact ⟨[], nodesOfAll rest, rfl, rfl⟩
      · rcases induction later with ⟨before, after, equal, position⟩
        refine ⟨part.nodes ++ before, after, by simp [nodesOfAll, equal], ?_⟩
        rw [position, List.length_append, length_nodes]
        omega

/-! ## Places in a trace -/

/-- The node `node` is in the trace `whole`; its own numbers begin at `first`, and `around` lists the
numbered nodes around it, nearest first. -/
inductive Sits (whole : Trace) : Nat → Trace → List (Nat × Trace) → Prop
  | root : Sits whole 0 whole []
  | part {first node around start} (sits : Sits whole first node around)
      (member : start ∈ startsFrom first node.parts) :
      Sits whole start.1 start.2 ((first + node.countBelow, node) :: around)

theorem Sits.nodes_eq {whole node : Trace} {first : Nat} {around : List (Nat × Trace)}
    (sits : Sits whole first node around) :
    ∃ before after, whole.nodes = before ++ node.nodes ++ after ∧ first = before.length := by
  induction sits with
  | root => exact ⟨[], [], by simp, rfl⟩
  | @part first node around start _ member induction =>
      rcases induction with ⟨before, after, equal, position⟩
      rcases nodesOfAll_of_mem_startsFrom member with ⟨inner, outer, split, start_eq⟩
      refine ⟨before ++ inner, outer ++ [node] ++ after, ?_, by simp [start_eq, position]⟩
      rw [equal, Trace.nodes_eq node, ← nodesOfAll_eq_flatMap, split]
      simp

theorem Sits.getElem?_nodes {whole node : Trace} {first : Nat}
    {around : List (Nat × Trace)} (sits : Sits whole first node around) :
    whole.nodes[first + node.countBelow]? = some node := by
  rcases sits.nodes_eq with ⟨before, after, equal, position⟩
  have inner : node.nodes[node.countBelow]? = some node := by
    cases node
    simp [nodes, countBelow, parts]
  have bound : node.countBelow < node.nodes.length := by
    rw [length_nodes]
    exact Nat.lt_succ_self _
  rw [equal, position, List.append_assoc, List.getElem?_append_right (Nat.le_add_right _ _),
    Nat.add_sub_cancel_left, List.getElem?_append_left bound, inner]

theorem Sits.outer {whole node : Trace} {first : Nat} {around : List (Nat × Trace)}
    (sits : Sits whole first node around) :
    ∀ outer ∈ around, whole.nodes[outer.1]? = some outer.2 := by
  induction sits with
  | root => simp
  | part sits _ induction =>
      intro outer member
      rcases List.mem_cons.mp member with rfl | further
      · exact sits.getElem?_nodes
      · exact induction outer further

theorem Sits.exists_of_lt {whole node : Trace} {first : Nat} {around : List (Nat × Trace)}
    (sits : Sits whole first node around) {number : Nat} (atLeast : first ≤ number)
    (inside : number < first + node.size) :
    ∃ start inner others, Sits whole start inner others ∧ number = start + inner.countBelow := by
  induction node generalizing first around with
  | node form span origin parts induction =>
      by_cases last : number = first + (Trace.node form span origin parts).countBelow
      · exact ⟨first, _, around, sits, last⟩
      · -- The number lies in the run of one of the parts.
        have search : ∀ (rest : List Trace) (lower : Nat), lower ≤ number →
            number < lower + (nodesOfAll rest).length →
            ∃ start ∈ startsFrom lower rest,
              start.1 ≤ number ∧ number < start.1 + start.2.size := by
          intro rest
          induction rest with
          | nil =>
              intro lower low high
              simp [nodesOfAll] at high
              omega
          | cons head tail search =>
              intro lower low high
              by_cases here : number < lower + head.size
              · exact ⟨(lower, head), List.mem_cons_self, low, here⟩
              · rw [nodesOfAll, List.length_append, length_nodes] at high
                rcases search (lower + head.size) (by omega) (by omega) with
                  ⟨start, member, bounds⟩
                exact ⟨start, List.mem_cons_of_mem _ member, bounds⟩
        have high : number < first + (nodesOfAll parts).length := by
          simp only [size, countBelow, Trace.parts] at inside last
          omega
        rcases search parts first atLeast high with ⟨start, member, low, bound⟩
        exact induction start.2 (mem_of_mem_startsFrom member) (sits.part member) low bound

theorem exists_sits {whole : Trace} {number : Nat} (inside : number < whole.size) :
    ∃ start node around, Sits whole start node around ∧ number = start + node.countBelow :=
  Sits.root.exists_of_lt (Nat.zero_le _) (by omega)

theorem sits_of_getElem?_nodes {whole node : Trace} {number : Nat}
    (found : whole.nodes[number]? = some node) :
    ∃ start around, Sits whole start node around ∧ number = start + node.countBelow := by
  have inside : number < whole.size := by
    rw [← length_nodes]
    exact (List.getElem?_eq_some_iff.mp found).1
  rcases exists_sits inside with ⟨start, other, around, sits, rfl⟩
  have same : other = node := Option.some.inj (sits.getElem?_nodes.symm.trans found)
  subst same
  exact ⟨start, around, sits, rfl⟩

def originOf (trace : Trace) (number : Nat) : Position :=
  (trace.nodes[number]?.map origin).getD []

theorem originOf_eq {whole node : Trace} {number : Nat} (found : whole.nodes[number]? = some node) :
    whole.originOf number = node.origin := by
  rw [originOf, found]
  rfl

end Trace

end UnityLint
