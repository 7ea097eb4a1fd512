import UnityLint.Proofs.Verdict

/-! # Numbered nodes and their outlines

What is around a numbered node and what a numbered call refers to can be read off the outline in its
place. -/

namespace UnityLint

namespace Trace

variable {whole node : Trace} {first : Nat} {around : List (Nat × Trace)}

/-! ## Declarations around a numbered node -/

theorem find?_bind_eq_findSome? {α : Type} {kind : NodeKind} {pick : Form → Option α}
    (picks : ∀ form, (pick form).isSome ↔ form.kind = kind) (around : List (Nat × Trace)) :
    (around.find? (·.2.form.kind = kind)).bind (pick ·.2.form) =
      around.findSome? (pick ·.2.form) := by
  induction around with
  | nil => rfl
  | cons outer others induction =>
      rw [List.findSome?_cons]
      cases found : pick outer.2.form with
      | none =>
          have other : outer.2.form.kind ≠ kind := by
            rw [Ne, ← picks, found]
            exact Bool.false_ne_true
          rw [List.find?_cons_of_neg (by simpa using other), induction]
      | some value =>
          have same : outer.2.form.kind = kind := (picks _).mp (by rw [found]; rfl)
          rw [List.find?_cons_of_pos (by simpa using same), Option.bind_some, found]

theorem type_surroundings (around : List (Nat × Trace)) :
    (surroundings around).type = around.findSome? (·.2.form.typeInfo?) := by
  induction around with
  | nil => rfl
  | cons outer others induction =>
      rw [surroundings, List.findSome?_cons, ← induction]
      cases outer.2.form <;> rfl

theorem method_surroundings (around : List (Nat × Trace)) :
    (surroundings around).method = around.findSome? (·.2.form.method?) := by
  induction around with
  | nil => rfl
  | cons outer others induction =>
      rw [surroundings, List.findSome?_cons, ← induction]
      cases outer.2.form <;> rfl

theorem Sits.enclosing?_eq (sits : Sits whole first node around) {kind : NodeKind}
    (declares : kind.isDeclaration) :
    whole.forest.enclosing? kind (first + node.countBelow) =
      (around.find? (·.2.form.kind = kind)).map Prod.fst := by
  have kinds : ∀ outer ∈ around, decide (whole.forest.kind? outer.1 = some kind) =
      decide (outer.2.form.kind = kind) := by
    intro outer member
    rcases sits_of_getElem?_nodes (sits.outer outer member) with ⟨start, others, outerSits, equal⟩
    rw [equal, outerSits.kind?_eq]
    simp [Form.kind_build_eq_iff _ _ declares]
  rw [Forest.enclosing?, sits.ancestors_eq, List.find?_map]
  exact congrArg _ (List.find?_congr kinds)

theorem Sits.enclosing?_bind (sits : Sits whole first node around) {α : Type} {kind : NodeKind}
    (declares : kind.isDeclaration) {pick : Form → Option α} {find : NodeId → Option α}
    (picks : ∀ form, (pick form).isSome ↔ form.kind = kind)
    (finds : ∀ {id node}, whole.nodes[id]? = some node → find id = pick node.form) :
    (whole.forest.enclosing? kind (first + node.countBelow)).bind find =
      around.findSome? (pick ·.2.form) := by
  rw [sits.enclosing?_eq declares, ← find?_bind_eq_findSome? picks, Option.bind_map]
  cases found : around.find? (·.2.form.kind = kind) with
  | none => rfl
  | some outer => exact finds (sits.outer outer (List.mem_of_find?_eq_some found))

section Agreement

variable {tree : Tree} (forest : tree.toForest = whole.forest)
  (sits : Sits whole first node around)

include forest sits

theorem typeAround?_eq_surroundings :
    whole.declarations.typeAround? tree (first + node.countBelow) = (surroundings around).type := by
  rw [Declarations.typeAround?, forest, Forest.enclosingType?, type_surroundings]
  apply sits.enclosing?_bind rfl
  · intro form
    cases form <;> simp [Form.typeInfo?, Form.kind]
  · intro id node found
    rw [find?_types, found, Option.bind_some]

theorem methodAround?_eq_surroundings :
    whole.declarations.methodAround? tree (first + node.countBelow) =
      (surroundings around).method.map Prod.snd := by
  have second : ∀ form : Form, form.method?.map Prod.snd = form.methodInfo? := by
    intro form
    cases form <;> rfl
  rw [Declarations.methodAround?, forest, Forest.enclosingMethod?, method_surroundings,
    List.map_findSome?]
  simp only [Function.comp_def, second]
  apply sits.enclosing?_bind rfl
  · intro form
    cases form <;> simp [Form.methodInfo?, Form.kind]
  · intro id node found
    rw [find?_methods, found, Option.bind_some]

theorem enclosingMethodName?_eq_surroundings :
    tree.enclosingMethodName? (first + node.countBelow) =
      (surroundings around).method.map Prod.fst := by
  have picks : ∀ form : Form, form.method?.isSome ↔ form.kind = .methodDeclaration := by
    intro form
    cases form <;> simp [Form.method?, Form.kind]
  rw [Forest.enclosingMethodName?, forest, method_surroundings, ← find?_bind_eq_findSome? picks,
    Forest.enclosingMethod?, sits.enclosing?_eq rfl]
  cases found : around.find? (·.2.form.kind = .methodDeclaration) with
  | none => rfl
  | some outer =>
      have kind : outer.2.form.kind = .methodDeclaration := by simpa using List.find?_some found
      rcases sits_of_getElem?_nodes (sits.outer outer (List.mem_of_find?_eq_some found)) with
        ⟨start, others, outerSits, equal⟩
      rw [Option.map_some, Option.bind_some, Option.bind_some, equal, outerSits.node?_eq]
      cases form : outer.2.form with
      | methodDeclaration name info => rfl
      | _ =>
          rw [form] at kind
          cases kind

theorem resolve_enclosingType? :
    (tree.enclosingType? (first + node.countBelow)).bind (whole.declarations.resolve tree) =
      (surroundings around).type.map whole.declarations.typeSymbol := by
  rw [← typeAround?_eq_surroundings forest sits, Declarations.typeAround?, forest,
    Forest.enclosingType?, sits.enclosing?_eq rfl]
  cases found : around.find? (·.2.form.kind = .typeDeclaration) with
  | none => rfl
  | some outer =>
      have kind : outer.2.form.kind = .typeDeclaration := by simpa using List.find?_some found
      rcases sits_of_getElem?_nodes (sits.outer outer (List.mem_of_find?_eq_some found)) with
        ⟨start, others, outerSits, equal⟩
      rw [Option.map_some, Option.bind_some, Option.bind_some, Declarations.resolve, forest, equal,
        outerSits.node?_eq]
      cases form : outer.2.form with
      | typeDeclaration info => rfl
      | _ =>
          rw [form] at kind
          cases kind

theorem memberAround?_eq_surroundings (name : String) :
    whole.declarations.memberAround? tree (first + node.countBelow) name =
      (surroundings around).memberSymbol? whole.declarations name := by
  rw [Declarations.memberAround?, typeAround?_eq_surroundings forest sits]
  rfl

theorem bareSymbol?_eq_surroundings (name : String) :
    whole.declarations.bareSymbol? tree (first + node.countBelow) name =
      (surroundings around).nameSymbol? whole.declarations name := by
  rw [Declarations.bareSymbol?, methodAround?_eq_surroundings forest sits,
    memberAround?_eq_surroundings forest sits, Surroundings.nameSymbol?]
  cases (surroundings around).method <;> rfl

theorem bareCallSymbol?_eq_surroundings (name : String) :
    whole.declarations.bareCallSymbol? tree (first + node.countBelow) name =
      (surroundings around).bareCallSymbol? whole.declarations name := by
  rw [Declarations.bareCallSymbol?, typeAround?_eq_surroundings forest sits,
    methodAround?_eq_surroundings forest sits, Surroundings.bareCallSymbol?]
  cases (surroundings around).method <;> rfl

end Agreement

end Trace

/-! ## Shapes of numbered nodes -/

def Form.isBare : Form → Bool
  | .compilationUnit | .ifStatement | .conditionalAccess | .invocation | .memberAccess
  | .memberBinding => true
  | _ => false

theorem Form.eq_of_kind_eq {form other : Form} (bare : other.isBare)
    (same : form.kind = other.kind) : form = other := by
  revert bare same
  cases other <;> cases form <;> simp [Form.isBare, Form.kind]

theorem Form.build_eq_literal_iff {form : Form} {ids : List NodeId} {kind : LiteralKind} :
    (form.build ids).1 = .literal kind ↔ form = .literal kind := by
  constructor
  · intro equal
    have kinds := form.kind_build ids
    rw [equal] at kinds
    cases form <;> first | (cases equal; rfl) | simp [Form.kind, Node.kind] at kinds
  · rintro rfl
    rfl

theorem Outline.dottedName?_of_access? {outline : Outline} (other : outline.access? = none) :
    outline.dottedName? = outline.form.simpleName? := by
  rw [dottedName?.eq_def]
  split
  · cases other
  · rfl

theorem Forest.methodName?_of_kind? {forest : Forest} {id : NodeId}
    (other : forest.kind? id ≠ some .invocation) : forest.methodName? id = none := by
  cases found : forest.methodName? id with
  | none => rfl
  | some name =>
      rcases exists_callee_of_methodName? found with ⟨callee, here⟩
      rw [kind?, here] at other
      exact absurd rfl other

theorem Forest.dottedNameWithin_of_kind? {forest : Forest} {id : NodeId} {depth : Nat}
    (other : forest.kind? id ≠ some .memberAccess) :
    forest.dottedNameWithin (depth + 1) id = forest.simpleName? id := by
  rw [dottedNameWithin, simpleName?]
  rw [kind?] at other
  cases found : forest.node? id with
  | none => rfl
  | some node =>
      cases node with
      | memberAccess receiver member =>
          rw [found] at other
          exact absurd rfl other
      | _ => rfl

theorem Declarations.callSymbol?_of_kind? {declarations : Declarations} {tree : Tree}
    {call callee : NodeId} (other : tree.kind? callee ≠ some .memberAccess) :
    declarations.callSymbol? tree call callee =
      (tree.simpleName? callee).bind (declarations.bareCallSymbol? tree call) := by
  rw [callSymbol?, Forest.simpleName?]
  rw [Forest.kind?] at other
  cases found : tree.node? callee with
  | none => rfl
  | some node =>
      cases node with
      | memberAccess receiver member =>
          rw [found] at other
          exact absurd rfl other
      | _ => rfl

namespace Trace

variable {whole node : Trace} {first : Nat} {around : List (Nat × Trace)}

theorem Sits.first_part (sits : Sits whole first node around) {part : Trace} {rest : List Trace}
    (parts : node.parts = part :: rest) :
    Sits whole first part ((first + node.countBelow, node) :: around) := by
  have member : (first, part) ∈ startsFrom first node.parts := by
    rw [parts]
    exact List.mem_cons_self
  exact sits.part member

theorem Sits.second_part (sits : Sits whole first node around) {part other : Trace}
    {rest : List Trace} (parts : node.parts = part :: other :: rest) :
    Sits whole (first + part.size) other ((first + node.countBelow, node) :: around) := by
  have member : (first + part.size, other) ∈ startsFrom first node.parts := by
    rw [parts]
    exact List.mem_cons_of_mem _ List.mem_cons_self
  exact sits.part member

@[simp] theorem parts_outline (trace : Trace) : trace.outline.parts = trace.parts.map outline := by
  cases trace
  exact outlines_eq_map _

@[simp] theorem span_outline (trace : Trace) : trace.outline.span = trace.span := by
  cases trace
  rfl

theorem Sits.form_of_kind? (sits : Sits whole first node around) {form : Form} (bare : form.isBare)
    (found : whole.forest.kind? (first + node.countBelow) = some form.kind) : node.form = form := by
  apply Form.eq_of_kind_eq bare
  apply sits.kind_form found
  cases form <;> first | exact NodeKind.noConfusion | cases bare

theorem Sits.match_identifier (sits : Sits whole first node around) {α : Type} (named : String → α)
    (other : α) :
    (match whole.forest.node? (first + node.countBelow) with
      | some (.identifier name) => named name
      | _ => other) =
      match node.form with
      | .identifier name => named name
      | _ => other := by
  cases found : whole.forest.node? (first + node.countBelow) with
  | none =>
      rw [sits.node?_eq] at found
      cases found
  | some built =>
      cases built with
      | identifier name => rw [sits.form_of_identifier found]
      | _ =>
          rw [sits.node?_eq] at found
          cases form : node.form <;> first | rfl | (rw [form] at found; cases found)

theorem Sits.access?_cases (sits : Sits whole first node around) :
    (node.outline.access? = none ∧
      whole.forest.kind? (first + node.countBelow) ≠ some .memberAccess) ∨
    ∃ receiver member rest, node.form = .memberAccess ∧ node.parts = receiver :: member :: rest := by
  by_cases access : node.form = .memberAccess
  · rw [sits.kind?_eq, access]
    match parts : node.parts with
    | [] => exact .inl ⟨by simp [Outline.access?, parts], nofun⟩
    | [receiver] => exact .inl ⟨by simp [Outline.access?, parts], nofun⟩
    | receiver :: member :: rest => exact .inr ⟨receiver, member, rest, rfl, rfl⟩
  · refine .inl ⟨?_, fun found => access (sits.form_of_kind? rfl found)⟩
    rw [Outline.access?, form_outline]
    split
    · exact absurd ‹_› access
    · rfl

theorem access?_outline {receiver member : Trace} {rest : List Trace}
    (access : node.form = .memberAccess) (parts : node.parts = receiver :: member :: rest) :
    node.outline.access? = some (receiver.outline, member.outline) := by
  simp [Outline.access?, access, parts]

theorem Sits.node?_access (sits : Sits whole first node around) {receiver member : Trace}
    {rest : List Trace} (access : node.form = .memberAccess)
    (parts : node.parts = receiver :: member :: rest) :
    whole.forest.node? (first + node.countBelow) =
      some (.memberAccess (first + receiver.countBelow)
        (first + receiver.size + member.countBelow)) := by
  rw [sits.node?_eq, access, parts, numbersFrom_cons, numbersFrom_cons]
  rfl

/-- As many links as there are nodes below a node are enough to follow its dotted name. -/
theorem Sits.dottedNameWithin_eq (sits : Sits whole first node around) {depth : Nat}
    (enough : node.countBelow < depth) :
    whole.forest.dottedNameWithin depth (first + node.countBelow) = node.outline.dottedName? := by
  induction node generalizing first around depth with
  | node form span origin parts induction =>
      cases depth with
      | zero => cases enough
      | succ depth =>
          rcases sits.access?_cases with ⟨none, other⟩ | ⟨receiver, member, rest, access, equal⟩
          · rw [Forest.dottedNameWithin_of_kind? other, sits.simpleName?_eq,
              Outline.dottedName?_of_access? none, form_outline]
          · dsimp only [Trace.form, Trace.parts] at access equal
            subst access equal
            have fewer : receiver.countBelow < depth := by
              rw [countBelow, Trace.parts, nodesOfAll, List.length_append, length_nodes, size]
                at enough
              omega
            have inner := induction receiver List.mem_cons_self (sits.first_part rfl) fewer
            rw [Forest.dottedNameWithin, sits.node?_access rfl rfl]
            simp only [inner, (sits.second_part rfl).simpleName?_eq]
            simp [outline, outlines, Outline.dottedName?]

theorem Sits.size_le (sits : Sits whole first node around) : node.size ≤ whole.size := by
  rcases sits.nodes_eq with ⟨before, after, equal, _⟩
  rw [← length_nodes, ← length_nodes, equal, List.length_append, List.length_append]
  omega

theorem Sits.dottedName?_eq (sits : Sits whole first node around) :
    whole.forest.dottedName? (first + node.countBelow) = node.outline.dottedName? := by
  apply sits.dottedNameWithin_eq
  have bound := sits.size_le
  rw [size] at bound
  rw [size_forest]
  omega

@[simp] theorem calleeName?_outline (trace : Trace) :
    trace.outline.calleeName? = trace.calleeName? := by
  rw [Outline.calleeName?, calleeName?]
  cases form : trace.form <;> simp [form, Option.bind_map]

theorem Sits.methodName?_eq_outline (sits : Sits whole first node around) :
    whole.forest.methodName? (first + node.countBelow) =
      node.outline.callee?.bind Outline.calleeName? := by
  rw [Outline.callee?, form_outline]
  split
  · rw [sits.methodName?_eq ‹_›, parts_outline, List.getElem?_map, Option.bind_map]
    simp
  · rename_i other
    apply Forest.methodName?_of_kind?
    exact fun found => other (sits.form_of_kind? rfl found)

theorem Sits.isVariable_eq (sits : Sits whole first node around) {tree : Tree}
    (forest : tree.toForest = whole.forest) {receiver member : Trace} {rest : List Trace}
    (access : node.form = .memberAccess) (parts : node.parts = receiver :: member :: rest) :
    whole.declarations.isVariable tree (first + receiver.countBelow) =
      (surroundings around).isVariable whole.declarations receiver.outline := by
  have inner := sits.first_part parts
  have parent : (tree.parent? (first + receiver.countBelow)).bind tree.node? =
      some (.memberAccess (first + receiver.countBelow)
        (first + receiver.size + member.countBelow)) := by
    rw [forest, inner.parent?_eq, ← sits.node?_access access parts]
    rfl
  have bare (name : String) :
      whole.declarations.identifierSymbol? tree (first + receiver.countBelow) name =
        (surroundings around).nameSymbol? whole.declarations name := by
    rw [Declarations.identifierSymbol?_eq_bareSymbol? parent,
      bareSymbol?_eq_surroundings forest inner, surroundings, access]
    · rfl
    · intro other same
      have numbers : first + receiver.size + member.countBelow = first + receiver.countBelow :=
        (Node.memberAccess.inj same).2
      rw [size] at numbers
      omega
    · exact NodeKind.noConfusion
  simp only [Declarations.isVariable, bare]
  rw [Surroundings.isVariable, form_outline, forest]
  exact inner.match_identifier (fun name =>
    ((surroundings around).nameSymbol? whole.declarations name).isSome) false

theorem callee?_cases (node : Trace) :
    node.outline.callee? = none ∨ ∃ callee rest, node.form = .invocation ∧
      node.parts = callee :: rest ∧ node.outline.callee? = some callee.outline := by
  rw [Outline.callee?, form_outline, parts_outline]
  split
  · cases parts : node.parts with
    | nil => exact .inl rfl
    | cons callee rest => exact .inr ⟨callee, rest, ‹_›, rfl, rfl⟩
  · exact .inl rfl

section Calls

variable {tree : Tree} (forest : tree.toForest = whole.forest)
  (sits : Sits whole first node around) {callee : Trace} {rest : List Trace}
  (call : node.form = .invocation) (parts : node.parts = callee :: rest)

include sits call parts

theorem Sits.node?_call :
    whole.forest.node? (first + node.countBelow) = some (.invocation (first + callee.countBelow)) := by
  rw [sits.node?_eq, call, parts]
  rfl

include forest

theorem owner?_eq_ownerName? :
    SceneLookup.owner? tree (first + node.countBelow) = callee.outline.ownerName? := by
  have inner := sits.first_part parts
  rw [SceneLookup.owner?, forest, sits.node?_call call parts, Outline.ownerName?]
  dsimp only
  rcases inner.access?_cases with ⟨none, other⟩ | ⟨receiver, member, others, access, equal⟩
  · rw [none, Option.bind_none]
    split
    · rename_i here
      rw [Forest.kind?, here] at other
      exact absurd rfl other
    · rfl
  · have before := inner.first_part equal
    rw [inner.node?_access access equal, access?_outline access equal, Option.bind_some]
    dsimp only
    rw [form_outline]
    exact before.match_identifier some none

theorem callSymbol?_eq_calleeSymbol? :
    whole.declarations.callSymbol? tree (first + node.countBelow) (first + callee.countBelow) =
      (surroundings around).calleeSymbol? whole.declarations callee.outline := by
  have inner := sits.first_part parts
  rw [Surroundings.calleeSymbol?]
  rcases inner.access?_cases with ⟨none, other⟩ | ⟨receiver, member, others, access, equal⟩
  · rw [Declarations.callSymbol?_of_kind? (forest ▸ other), forest, inner.simpleName?_eq, none,
      form_outline]
    congr 1
    funext name
    exact bareCallSymbol?_eq_surroundings forest sits name
  · have same : surroundings ((first + node.countBelow, node) :: around) = surroundings around := by
      rw [surroundings, call]
      rfl
    rw [Declarations.callSymbol?, forest, inner.node?_access access equal,
      access?_outline access equal]
    dsimp only
    rw [(inner.second_part equal).simpleName?_eq, inner.isVariable_eq forest access equal, same,
      (inner.first_part equal).dottedName?_eq, form_outline]
    congr 1
    funext name
    split
    · rfl
    · cases receiver.outline.dottedName?.bind whole.declarations.lookup with
      | none => rfl
      | some ref => cases ref <;> rfl

end Calls

end Trace

end UnityLint
