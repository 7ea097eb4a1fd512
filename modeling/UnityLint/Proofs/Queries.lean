import UnityLint.Proofs.Numbering

/-! # Questions about the nodes of a trace

What the queries answer about a numbered node, read off the trace. -/

namespace UnityLint

namespace Forest

variable {forest : Forest} {call callee id : NodeId} {name called : String}

theorem dottedName?_of_identifier (named : forest.node? id = some (.identifier name)) :
    forest.dottedName? id = some name := by
  rw [dottedName?, dottedNameWithin, named]

theorem exists_callee_of_methodName? (found : forest.methodName? call = some called) :
    ∃ callee, forest.node? call = some (.invocation callee) := by
  rw [methodName?] at found
  split at found
  · exact ⟨_, ‹_›⟩
  · cases found

theorem methodName?_of_simpleName? (invoked : forest.node? call = some (.invocation callee))
    (named : forest.simpleName? callee = some name) : forest.methodName? call = some name := by
  rcases Option.bind_eq_some_iff.mp named with ⟨node, here, simple⟩
  simp only [methodName?, invoked, here]
  cases node with
  | identifier other => exact simple
  | genericName other => exact simple
  | _ => cases simple

theorem methodName?_of_memberAccess {receiver member : NodeId}
    (invoked : forest.node? call = some (.invocation callee))
    (accessed : forest.node? callee = some (.memberAccess receiver member)) :
    forest.methodName? call = forest.simpleName? member := by
  simp only [methodName?, invoked, accessed]

theorem simpleName?_of_memberAccess {receiver member : NodeId}
    (accessed : forest.node? callee = some (.memberAccess receiver member)) :
    forest.simpleName? callee = none := by
  rw [simpleName?, accessed]
  rfl

theorem isSome_enclosingMethod? (found : forest.enclosingMethodName? id = some name) :
    (forest.enclosingMethod? id).isSome := by
  rw [enclosingMethodName?] at found
  cases enclosing : forest.enclosingMethod? id with
  | none =>
      rw [enclosing] at found
      cases found
  | some method => rfl

end Forest

/-! ## Names in a trace -/

def Form.simpleName? : Form → Option String
  | .identifier name => some name
  | .genericName name => some name
  | _ => none

theorem Form.build_isPattern (pattern : Pattern Unit) (subject : NodeId) (rest : List NodeId) :
    ∃ built, ((Form.isPattern pattern).build (subject :: rest)).1 = .isPattern subject built := by
  dsimp only [Form.build]
  cases pattern.constant? with
  | none => exact ⟨_, rfl⟩
  | some _ => cases rest <;> exact ⟨_, rfl⟩

theorem Form.simpleName?_build (form : Form) (ids : List NodeId) :
    (form.build ids).1.simpleName? = form.simpleName? := by
  cases form with
  | isPattern pattern =>
      cases ids with
      | nil => rfl
      | cons subject rest =>
          rcases Form.build_isPattern pattern subject rest with ⟨built, equal⟩
          rw [equal]
          rfl
  | ifStatement => cases ids <;> rfl
  | conditionalAccess => rcases ids with _ | ⟨first, _ | ⟨second, rest⟩⟩ <;> rfl
  | invocation => cases ids <;> rfl
  | memberAccess => rcases ids with _ | ⟨first, _ | ⟨second, rest⟩⟩ <;> rfl
  | memberBinding => cases ids <;> rfl
  | comparison op => rcases ids with _ | ⟨first, _ | ⟨second, rest⟩⟩ <;> rfl
  | _ => rfl

namespace Trace

def calleeName? (trace : Trace) : Option String :=
  match trace.form with
  | .memberAccess => trace.parts[1]?.bind (·.form.simpleName?)
  | .memberBinding => trace.parts[0]?.bind (·.form.simpleName?)
  | form => form.simpleName?

theorem Sits.part_of_getElem? {whole node part : Trace} {first index : Nat}
    {around : List (Nat × Trace)} (sits : Sits whole first node around)
    (found : node.parts[index]? = some part) :
    ∃ start, Sits whole start part ((first + node.countBelow, node) :: around) ∧
      (numbersFrom first node.parts)[index]? = some (start + part.countBelow) := by
  have started : ((startsFrom first node.parts)[index]?).map Prod.snd = some part := by
    rw [← List.getElem?_map, map_snd_startsFrom]
    exact found
  rcases Option.map_eq_some_iff.mp started with ⟨start, inside, rfl⟩
  refine ⟨start.1, sits.part (List.mem_of_getElem? inside), ?_⟩
  rw [numbersFrom, List.getElem?_map, inside]
  rfl

theorem length_numbersFrom (first : Nat) (traces : List Trace) :
    (numbersFrom first traces).length = traces.length := by
  rw [numbersFrom, List.length_map, ← List.length_map Prod.snd, map_snd_startsFrom]

section Sits

variable {whole node : Trace} {first : Nat} {around : List (Nat × Trace)}

theorem Sits.kind_form (sits : Sits whole first node around) {kind : NodeKind}
    (found : whole.forest.kind? (first + node.countBelow) = some kind) (known : kind ≠ .other) :
    node.form.kind = kind := by
  rw [sits.kind?_eq] at found
  rcases node.form.kind_build (numbersFrom first node.parts) with same | other
  · rw [← same]
    exact Option.some.inj found
  · exact absurd (Option.some.inj (found.symm.trans (congrArg some other))) known

theorem exists_node_of_kind? {number : Nat} {kind : NodeKind}
    (found : whole.forest.kind? number = some kind) (known : kind ≠ .other) :
    ∃ node, whole.nodes[number]? = some node ∧ node.form.kind = kind := by
  rcases Option.map_eq_some_iff.mp found with ⟨built, here, _⟩
  rcases exists_sits_of_node? here with ⟨first, node, around, sits, rfl⟩
  exact ⟨node, sits.getElem?_nodes, sits.kind_form found known⟩

theorem Sits.simpleName?_eq (sits : Sits whole first node around) :
    whole.forest.simpleName? (first + node.countBelow) = node.form.simpleName? := by
  rw [Forest.simpleName?, sits.node?_eq, Option.bind_some, Form.simpleName?_build]

theorem Sits.simpleName?_part (sits : Sits whole first node around) (index : Nat) :
    ((numbersFrom first node.parts)[index]?).bind whole.forest.simpleName? =
      node.parts[index]?.bind (·.form.simpleName?) := by
  cases found : node.parts[index]? with
  | none =>
      have missing : (numbersFrom first node.parts)[index]? = none := by
        rw [List.getElem?_eq_none_iff] at found ⊢
        rwa [length_numbersFrom]
      rw [missing]
      rfl
  | some part =>
      rcases sits.part_of_getElem? found with ⟨start, inner, number⟩
      rw [number]
      exact inner.simpleName?_eq

theorem Sits.calleeName?_eq (sits : Sits whole first node around) :
    (match whole.forest.node? (first + node.countBelow) with
      | some (.identifier name) => some name
      | some (.genericName name) => some name
      | some (.memberAccess _ member) => whole.forest.simpleName? member
      | some (.memberBinding member) => whole.forest.simpleName? member
      | _ => none) = node.calleeName? := by
  have memberName := sits.simpleName?_part 1
  have boundName := sits.simpleName?_part 0
  rw [sits.node?_eq, calleeName?]
  generalize numbersFrom first node.parts = ids at *
  cases form : node.form with
  | memberAccess =>
      rw [← memberName]
      rcases ids with _ | ⟨receiver, _ | ⟨member, rest⟩⟩ <;> rfl
  | memberBinding =>
      rw [← boundName]
      cases ids <;> rfl
  | isPattern pattern =>
      cases ids with
      | nil => rfl
      | cons subject rest =>
          rcases Form.build_isPattern pattern subject rest with ⟨built, equal⟩
          rw [equal]
          rfl
  | ifStatement => cases ids <;> rfl
  | conditionalAccess => rcases ids with _ | ⟨first, _ | ⟨second, rest⟩⟩ <;> rfl
  | invocation => cases ids <;> rfl
  | comparison op => rcases ids with _ | ⟨first, _ | ⟨second, rest⟩⟩ <;> rfl
  | _ => rfl

theorem Sits.methodName?_eq (sits : Sits whole first node around)
    (call : node.form = .invocation) :
    whole.forest.methodName? (first + node.countBelow) = node.parts[0]?.bind calleeName? := by
  rw [Forest.methodName?, sits.node?_eq, call]
  cases found : node.parts[0]? with
  | none =>
      have empty : node.parts = [] := by
        cases parts : node.parts with
        | nil => rfl
        | cons head tail => simp [parts] at found
      rw [empty]
      rfl
  | some callee =>
      rcases sits.part_of_getElem? found with ⟨start, inner, number⟩
      cases ids : numbersFrom first node.parts with
      | nil => simp [ids] at number
      | cons head rest =>
          rw [ids] at number
          have same : head = start + callee.countBelow := by simpa using number
          rw [same]
          exact inner.calleeName?_eq

end Sits

end Trace

end UnityLint
