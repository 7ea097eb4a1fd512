import UnityLint.Proofs.Enclosing

/-! # Noted declarations

The declarations of a file are those of its nodes: types and methods under the numbers of the nodes
that declare them, and `using` directives in the order in which they are entered. -/

namespace UnityLint

namespace Form

def directive? : Form → Option UsingDirective
  | .other _ directive => directive
  | _ => none

def typeInfo? : Form → Option TypeInfo
  | .typeDeclaration info => some info
  | _ => none

def methodInfo? : Form → Option MethodInfo
  | .methodDeclaration _ info => some info
  | _ => none

end Form

namespace UsingDirective

def imported? : UsingDirective → Option String
  | .namespaceImport name => some name
  | .nameAlias _ _ => none

def alias? : UsingDirective → Option (String × String)
  | .namespaceImport _ => none
  | .nameAlias newName target => some (newName, target)

end UsingDirective

namespace Table

variable {α : Type} {table : Table α} {key : Nat}

theorem mem_values_of_find? {value : α} (found : table.find? key = some value) :
    value ∈ table.values := by
  induction table with
  | nil => cases found
  | cons entry rest induction =>
      rw [find?] at found
      split at found
      · cases found
        exact List.mem_cons_self
      · exact List.mem_cons_of_mem _ (induction found)

theorem insert_of_forall_lt (value : α) (largest : ∀ entry ∈ table, entry.1 < key) :
    table.insert key value = table ++ [(key, value)] := by
  induction table with
  | nil => rfl
  | cons entry rest induction =>
      have smaller := largest entry List.mem_cons_self
      rw [insert, if_neg (Nat.not_lt_of_gt smaller), if_neg (Nat.ne_of_gt smaller),
        induction fun other member => largest other (List.mem_cons_of_mem _ member)]
      rfl

theorem find?_eq_none (absent : ∀ entry ∈ table, entry.1 ≠ key) : table.find? key = none := by
  induction table with
  | nil => rfl
  | cons entry rest induction =>
      rw [find?, if_neg (absent entry List.mem_cons_self).symm]
      exact induction fun other member => absent other (List.mem_cons_of_mem _ member)

end Table

namespace Trace

/-! ## Entries of nodes -/

def entries {α : Type} (pick : Form → Option α) : Nat → List Trace → Table α
  | _, [] => []
  | first, head :: rest =>
      ((pick head.form).map fun value => (first, value)).toList ++ entries pick (first + 1) rest

section Entries

variable {α : Type} (pick : Form → Option α) (first : Nat) (nodes : List Trace)

theorem entries_append (others : List Trace) :
    entries pick first (nodes ++ others) =
      entries pick first nodes ++ entries pick (first + nodes.length) others := by
  induction nodes generalizing first with
  | nil => rfl
  | cons node rest induction =>
      rw [List.cons_append, entries, entries, induction, List.append_assoc, List.length_cons,
        Nat.add_assoc, Nat.add_comm 1]

theorem values_entries : (entries pick first nodes).values = nodes.filterMap (pick ·.form) := by
  induction nodes generalizing first with
  | nil => rfl
  | cons node rest induction =>
      have later : (entries pick (first + 1) rest).map Prod.snd = _ := induction (first + 1)
      rw [entries, Table.values, List.map_append, later, List.filterMap_cons]
      cases pick node.form <;> rfl

variable {pick first nodes}

theorem bounds_of_mem_entries {entry : Nat × α} (member : entry ∈ entries pick first nodes) :
    first ≤ entry.1 ∧ entry.1 < first + nodes.length := by
  induction nodes generalizing first with
  | nil => cases member
  | cons node rest induction =>
      rw [List.length_cons]
      rcases List.mem_append.mp member with own | later
      · rcases Option.map_eq_some_iff.mp (Option.mem_toList.mp own) with ⟨value, _, rfl⟩
        dsimp only
        omega
      · have bounds := induction later
        omega

variable (pick first nodes)

theorem find?_entries (index : Nat) :
    (entries pick first nodes).find? (first + index) = nodes[index]?.bind (pick ·.form) := by
  induction nodes generalizing first index with
  | nil => rfl
  | cons node rest induction =>
      cases index with
      | zero =>
          have later : (entries pick (first + 1) rest).find? first = none := by
            apply Table.find?_eq_none
            intro entry member
            have bounds := bounds_of_mem_entries member
            omega
          rw [entries, List.getElem?_cons_zero, Option.bind_some, Nat.add_zero]
          cases pick node.form with
          | none => exact later
          | some value => exact if_pos rfl
      | succ index =>
          have shifted : first + (index + 1) = first + 1 + index := by omega
          rw [entries, List.getElem?_cons_succ, ← induction, shifted]
          cases pick node.form with
          | none => rfl
          | some value => exact if_neg (by omega)

end Entries

/-! ## Directives -/

mutual

def directives : Trace → List UsingDirective
  | .node form _ _ parts => form.directive?.toList ++ directivesOfAll parts

def directivesOfAll : List Trace → List UsingDirective
  | [] => []
  | part :: rest => part.directives ++ directivesOfAll rest

end

theorem directivesOfAll_eq_flatMap (traces : List Trace) :
    directivesOfAll traces = traces.flatMap directives := by
  induction traces with
  | nil => rfl
  | cons trace rest induction => rw [directivesOfAll, induction, List.flatMap_cons]

theorem mem_directives {directive : UsingDirective} {trace : Trace} :
    directive ∈ trace.directives ↔
      ∃ node ∈ trace.nodes, node.form.directive? = some directive := by
  induction trace with
  | node form span origin parts induction =>
      rw [directives, directivesOfAll_eq_flatMap, List.mem_append, Option.mem_toList,
        List.mem_flatMap]
      constructor
      · rintro (own | ⟨part, member, inside⟩)
        · exact ⟨_, self_mem_nodes _, own⟩
        · rcases (induction part member).mp inside with ⟨node, below, found⟩
          exact ⟨node, mem_nodes.mpr (.inr ⟨part, member, below⟩), found⟩
      · rintro ⟨node, inside, found⟩
        rcases mem_nodes.mp inside with rfl | ⟨part, member, below⟩
        · exact .inl found
        · exact .inr ⟨part, member, (induction part member).mpr ⟨node, below, found⟩⟩

/-! ## Numbering notes every declaration -/

/-- After numbering `nodes` from `first` on and entering `directives`, the declarations have grown by
exactly what those declare. -/
structure Noted (first : Nat) (nodes : List Trace) (directives : List UsingDirective)
    (before after : Declarations) : Prop where
  usings : after.usings = before.usings ++ directives.filterMap UsingDirective.imported?
  aliases : after.aliases = (directives.filterMap UsingDirective.alias?).reverse ++ before.aliases
  types : after.types = before.types ++ entries Form.typeInfo? first nodes
  methods : after.methods = before.methods ++ entries Form.methodInfo? first nodes

theorem Noted.trans {first : Nat} {nodes others : List Trace}
    {directives further : List UsingDirective} {before between after : Declarations}
    (earlier : Noted first nodes directives before between)
    (later : Noted (first + nodes.length) others further between after) :
    Noted first (nodes ++ others) (directives ++ further) before after where
  usings := by rw [later.usings, earlier.usings, List.filterMap_append, List.append_assoc]
  aliases := by
    rw [later.aliases, earlier.aliases, List.filterMap_append, List.reverse_append,
      List.append_assoc]
  types := by rw [later.types, earlier.types, entries_append, List.append_assoc]
  methods := by rw [later.methods, earlier.methods, entries_append, List.append_assoc]

def NotedBelow (bound : Nat) (declarations : Declarations) : Prop :=
  (∀ entry ∈ declarations.types, entry.1 < bound) ∧
    ∀ entry ∈ declarations.methods, entry.1 < bound

theorem Noted.notedBelow {first : Nat} {nodes : List Trace} {directives : List UsingDirective}
    {before after : Declarations} (noted : Noted first nodes directives before after)
    (below : NotedBelow first before) : NotedBelow (first + nodes.length) after := by
  constructor
  · intro entry member
    rw [noted.types, List.mem_append] at member
    rcases member with old | new
    · exact Nat.lt_add_right _ (below.1 entry old)
    · exact (bounds_of_mem_entries new).2
  · intro entry member
    rw [noted.methods, List.mem_append] at member
    rcases member with old | new
    · exact Nat.lt_add_right _ (below.2 entry old)
    · exact (bounds_of_mem_entries new).2

theorem noted_enter (first : Nat) (lowered : Lowered) (form : Form) :
    Noted first [] form.directive?.toList lowered.declarations
      (lowered.enter form).declarations := by
  unfold Lowered.enter
  split
  · rename_i directive
    cases directive <;>
      constructor <;> simp [Form.directive?, entries, Declarations.addUsing,
        UsingDirective.imported?, UsingDirective.alias?]
  · have none : form.directive? = none := by
      rename_i absent
      cases form with
      | other label directive =>
          cases directive with
          | none => rfl
          | some directive => exact absurd rfl (absent label directive)
      | _ => rfl
    constructor <;> simp [none, entries]

theorem noted_declare (node : Trace) {id : Nat} {declarations : Declarations}
    (below : NotedBelow id declarations) :
    Noted id [node] [] declarations (Lowered.declare declarations id node.form) := by
  cases form : node.form with
  | typeDeclaration info =>
      constructor <;> simp [Lowered.declare, Declarations.addType, entries, form, Form.typeInfo?,
        Form.methodInfo?, Table.insert_of_forall_lt info below.1]
  | methodDeclaration name info =>
      constructor <;> simp [Lowered.declare, Declarations.addMethod, entries, form, Form.typeInfo?,
        Form.methodInfo?, Table.insert_of_forall_lt info below.2]
  | _ =>
      constructor <;>
        simp [Lowered.declare, entries, form, Form.typeInfo?, Form.methodInfo?]

theorem noted_numberAll {parts : List Trace}
    (number : ∀ part ∈ parts, ∀ lowered : Lowered,
      NotedBelow lowered.forest.size lowered.declarations →
        Noted lowered.forest.size part.nodes part.directives lowered.declarations
          (part.outline.number lowered).2.declarations)
    (lowered : Lowered) (below : NotedBelow lowered.forest.size lowered.declarations) :
    Noted lowered.forest.size (nodesOfAll parts) (directivesOfAll parts) lowered.declarations
      (Outline.numberAll (outlines parts) lowered).2.declarations := by
  induction parts generalizing lowered with
  | nil => constructor <;> simp [outlines, Outline.numberAll, nodesOfAll, directivesOfAll, entries]
  | cons part rest induction =>
      have own := number part List.mem_cons_self lowered below
      have size : (part.outline.number lowered).2.forest.size =
          lowered.forest.size + part.nodes.length := by
        rw [length_nodes, (number_outline part lowered).2.1.size]
      have others := induction (fun other member => number other (List.mem_cons_of_mem _ member))
        (part.outline.number lowered).2 (by rw [size]; exact own.notedBelow below)
      rw [size] at others
      exact own.trans others

theorem noted_number (trace : Trace) (lowered : Lowered)
    (below : NotedBelow lowered.forest.size lowered.declarations) :
    Noted lowered.forest.size trace.nodes trace.directives lowered.declarations
      (trace.outline.number lowered).2.declarations := by
  induction trace generalizing lowered with
  | node form span origin parts induction =>
      -- A directive is entered before the parts are numbered, a type or method is noted after them.
      have entered := noted_enter lowered.forest.size lowered form
      have inner := noted_numberAll induction (lowered.enter form) (by
        rw [forest_enter]
        exact entered.notedBelow below)
      have grown : Grown _ _ (nodesOfAll parts).length :=
        (numberAll_outlines (fun part _ => part.number_outline) (lowered.enter form)).2.1
      have size := grown.size
      rw [forest_enter] at inner size
      have both := entered.trans inner
      have above := noted_declare (.node form span origin parts) (both.notedBelow below)
      rw [List.nil_append, ← size] at above
      have whole := both.trans (by rw [List.nil_append, ← size]; exact above)
      rw [List.append_nil] at whole
      exact whole

def declarations (trace : Trace) : Declarations :=
  (trace.outline.number .empty).2.declarations

theorem noted_declarations (trace : Trace) :
    Noted 0 trace.nodes trace.directives {} trace.declarations :=
  noted_number trace .empty ⟨by simp [Lowered.empty], by simp [Lowered.empty]⟩

section Declared

variable (trace : Trace)

theorem find?_types (id : NodeId) :
    trace.declarations.types.find? id = trace.nodes[id]?.bind (·.form.typeInfo?) := by
  have found := find?_entries Form.typeInfo? 0 trace.nodes id
  rw [Nat.zero_add] at found
  rw [trace.noted_declarations.types]
  exact found

theorem find?_methods (id : NodeId) :
    trace.declarations.methods.find? id = trace.nodes[id]?.bind (·.form.methodInfo?) := by
  have found := find?_entries Form.methodInfo? 0 trace.nodes id
  rw [Nat.zero_add] at found
  rw [trace.noted_declarations.methods]
  exact found

theorem values_types :
    trace.declarations.types.values = trace.nodes.filterMap (·.form.typeInfo?) := by
  rw [trace.noted_declarations.types]
  exact values_entries ..

end Declared

end Trace

/-! ## Lookups -/

namespace Declarations

variable {declarations : Declarations} {written : String} {ref : TypeRef}

theorem lookupDotted_cases (found : declarations.lookupDotted written = some ref) :
    (∃ info ∈ declarations.types.values, ref = .declared info) ∨
      (∃ type, ref = .builtIn type) ∧
        ∃ name, Text.cutLast '.' written.toList = some (engineNamespace.toList, name) := by
  rw [lookupDotted] at found
  split at found
  · rcases Option.map_eq_some_iff.mp found with ⟨info, search, rfl⟩
    exact .inl ⟨info, List.mem_of_find?_eq_some search, rfl⟩
  · rename_i space name cut
    split at found
    · rename_i engine
      rcases Option.map_eq_some_iff.mp found with ⟨type, _, rfl⟩
      rw [cut, ← engine, String.toList_ofList]
      exact .inr ⟨⟨type, rfl⟩, name, rfl⟩
    · rcases Option.map_eq_some_iff.mp found with ⟨info, search, rfl⟩
      exact .inl ⟨info, List.mem_of_find?_eq_some search, rfl⟩

/-- A lookup finds a declared type, or a type of the engine. The latter it finds only if the engine's
namespace is imported or stands before the name or before the name that it is an alias of. -/
theorem lookup_cases (found : declarations.lookup written = some ref) :
    (∃ info ∈ declarations.types.values, ref = .declared info) ∨
      (∃ type, ref = .builtIn type) ∧ (engineNamespace ∈ declarations.usings ∨
        ∃ dotted name, (dotted = written ∨ ∃ entry ∈ declarations.aliases, dotted = entry.2) ∧
          Text.cutLast '.' (bareTypeName dotted).toList =
            some (engineNamespace.toList, name)) := by
  rw [lookup] at found
  split at found
  · rename_i target search
    rcases List.lookup_eq_some_iff.mp search with ⟨before, after, equal, _⟩
    have member : (bareTypeName written, target) ∈ declarations.aliases := by
      rw [equal]
      exact List.mem_append_right _ List.mem_cons_self
    rcases lookupDotted_cases found with declared | ⟨builtIn, name, cut⟩
    · exact .inl declared
    · exact .inr ⟨builtIn, .inr ⟨target, name, .inr ⟨_, member, rfl⟩, cut⟩⟩
  · split at found
    · rcases lookupDotted_cases found with declared | ⟨builtIn, name, cut⟩
      · exact .inl declared
      · exact .inr ⟨builtIn, .inr ⟨written, name, .inl rfl, cut⟩⟩
    · split at found
      · rename_i info search
        cases found
        exact .inl ⟨info, List.mem_of_find?_eq_some search, rfl⟩
      · split at found
        · rcases Option.map_eq_some_iff.mp found with ⟨type, _, rfl⟩
          exact .inr ⟨⟨type, rfl⟩, .inl ‹_›⟩
        · cases found

theorem mem_values_of_lookup {info : TypeInfo}
    (found : declarations.lookup written = some (.declared info)) :
    info ∈ declarations.types.values := by
  rcases lookup_cases found with ⟨other, member, same⟩ | ⟨⟨type, other⟩, _⟩
  · cases same
    exact member
  · cases other

end Declarations

/-! ## What rows declare -/

/-- The row at a position declares a type, which lies in the namespaces around the row or else in that
of the file. -/
structure ParseTree.DeclaresType (source : List Char) (root : ParseTree) (position : Position)
    (row : ParseTree) (info : TypeInfo) : Prop where
  here : root.at? position = some row
  declares : row.isTypeDeclaration
  info : info = row.typeInfo source
    (Reading.namespaceName? (root.fileNamespace? source) (root.spacesFrom source [] position))

namespace Trace

variable {source : List Char} {root row : ParseTree} {node : Trace}

theorem MadeFrom.form_eq (made : node.MadeFrom source root row) (call : node.form ≠ .invocation)
    (access : node.form ≠ .memberAccess) (kept : node.form ≠ .other row.kind none) :
    node.form = row.formOf source (root.fileNamespace? source)
      (root.spacesFrom source [] node.origin) (root.tracedAt source node.origin row).chain := by
  rcases made with ⟨_, whole | extended⟩
  · rw [← ParseTree.form_whole_tracedAt, ← whole]
  · rcases extended.form with same | ⟨field, link⟩
    · exact absurd same kept
    · rcases ParseTree.link?_eq_some link with ⟨_, _, same⟩ | ⟨_, _, same⟩ | ⟨_, _, same⟩
      · exact absurd same call
      · exact absurd same access
      · exact absurd same kept

theorem MadeFrom.declaresType (made : node.MadeFrom source root row) {info : TypeInfo}
    (found : node.form.typeInfo? = some info) : root.DeclaresType source node.origin row info := by
  cases form : node.form with
  | typeDeclaration other =>
      rw [form] at found
      cases found
      have declares := made.kind_eq_typeDeclaration.mp (by rw [form]; rfl)
      have same := made.form_eq (by simp [form]) (by simp [form]) (by simp [form])
      rw [form, ParseTree.formOf, ParseTree.isTypeDeclaration_iff.mp declares] at same
      exact ⟨made.1, declares, Form.typeDeclaration.inj same⟩
  | _ =>
      rw [form] at found
      cases found

theorem declaresType_of_mem_values {info : TypeInfo}
    (listed : info ∈ (ofParseTree source root).declarations.types.values) :
    ∃ position row, root.DeclaresType source position row info := by
  rw [values_types] at listed
  rcases List.mem_filterMap.mp listed with ⟨node, inside, found⟩
  rcases ParseTree.madeFrom_of_mem_nodes inside with ⟨row, made⟩
  exact ⟨node.origin, row, made.declaresType found⟩

theorem MadeFrom.methodInfo_eq (made : node.MadeFrom source root row) {info : MethodInfo}
    (found : node.form.methodInfo? = some info) : info = row.methodInfo source := by
  cases form : node.form with
  | methodDeclaration name other =>
      rw [form] at found
      cases found
      have declares := made.kind_eq_methodDeclaration.mp (by rw [form]; rfl)
      have same := made.form_eq (by simp [form]) (by simp [form]) (by simp [form])
      rw [form, ParseTree.formOf, ParseTree.isMethodDeclaration_iff.mp declares] at same
      exact (Form.methodDeclaration.inj same).2
  | _ =>
      rw [form] at found
      cases found

theorem MadeFrom.directive_eq (made : node.MadeFrom source root row) {directive : UsingDirective}
    (found : node.form.directive? = some directive) :
    ParseTree.usingDirective? (row.text source) = some directive := by
  have known := made.ofKind_mem_constructs
  cases form : node.form with
  | other label other =>
      rw [form] at found
      cases found
      rw [form] at known
      have same := made.form_eq (by simp [form]) (by simp [form]) (by simp [form])
      rw [form, ParseTree.formOf, List.mem_singleton.mp known] at same
      exact (Form.other.inj same).2.symm
  | _ =>
      rw [form] at found
      cases found

theorem MadeFrom.identifier_eq (made : node.MadeFrom source root row) {name : String}
    (form : node.form = .identifier name) :
    row.kind = "identifier" ∧ name = String.ofList (row.text source) := by
  have known := made.ofKind_mem_constructs
  rw [form] at known
  have construct := List.mem_singleton.mp known
  have same := made.form_eq (by simp [form]) (by simp [form]) (by simp [form])
  rw [form, ParseTree.formOf, construct] at same
  exact ⟨(Construct.ofKind_eq_iff_eq _ rfl).mp construct, Form.identifier.inj same⟩

theorem MadeFrom.genericName_eq (made : node.MadeFrom source root row) {name : String}
    (form : node.form = .genericName name) :
    name = ((row.childOfKind? "identifier").map fun child =>
      String.ofList (child.text source)).getD "" := by
  have known := made.ofKind_mem_constructs
  rw [form] at known
  have same := made.form_eq (by simp [form]) (by simp [form]) (by simp [form])
  rw [form, ParseTree.formOf, List.mem_singleton.mp known] at same
  exact Form.genericName.inj same

end Trace

theorem declarations_ofParseTree (path source : String) (root : ParseTree) :
    (SourceUnit.ofParseTree path source root).declarations =
      (Trace.ofParseTree source.toList root).declarations := by
  rw [Trace.declarations, Trace.outline_ofParseTree]
  rfl

end UnityLint
