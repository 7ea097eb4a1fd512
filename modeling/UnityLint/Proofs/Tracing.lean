import Mathlib.Tactic.ByContra
import UnityLint.Outline.Lowering
import UnityLint.Proofs.Trace

/-! # Traces of parse trees

The three readings of a row, again with origins. Which children a row takes over, and in what order, is
said once for all constructs by a `Choice`; that the outlines are those of the readings is proved at
the end, so that everything else can be read off the traces. -/

namespace UnityLint

inductive ChainTrace where
  | plain
  | headless
  | optional (receiver : Trace) (tail : Option Trace)

def ChainTrace.erase : ChainTrace → Chain
  | .plain => .plain
  | .headless => .headless
  | .optional receiver tail => .optional receiver.outline (tail.map Trace.outline)

def ChainTrace.extend (link : Trace → Option Trace) : ChainTrace → ChainTrace
  | .plain => .plain
  | .headless => .headless
  | .optional receiver tail => .optional receiver (tail.bind link)

structure Traced where
  position : Position
  row : ParseTree
  whole : Trace
  chain : ChainTrace
  pattern : List Trace

inductive Choice where
  | all
  | allBut (field : Field)
  /-- The child that fills the field, before the others. -/
  | leading (field : Field)
  /-- The children that fill the fields, if all of them are there. -/
  | only (fields : List Field)
  | nothing

namespace ParseTree

def isComparison (source : List Char) (row : ParseTree) : Bool :=
  ((row.child? .operator).bind fun operator =>
    Reading.comparisonOp? (operator.text source)).isSome

def choice (source : List Char) (row : ParseTree) : Choice :=
  match Construct.ofKind row.kind with
  | .compilationUnit => .all
  | .usingDirective => .all
  | .namespaceDeclaration => .allBut .name
  | .typeDeclaration => .allBut .name
  | .methodDeclaration => .allBut .name
  | .ifStatement => .leading .condition
  | .invocation => .leading .function
  | .memberAccess => .only [.expression, .name]
  | .conditionalAccess => .all
  | .memberBinding => .only [.name]
  | .binary => if row.isComparison source then .only [.left, .right] else .all
  | .isPattern => .only [.expression, .pattern]
  | .identifier => .nothing
  | .genericName => .nothing
  | .nullLiteral => .nothing
  | .literal => .all
  | .other => .all

/-- A row that continues a chain: the field of the link before it, and the form of its own link. -/
def link? (row : ParseTree) : Option (Field × Form) :=
  if row.kind = "invocation_expression" then some (.function, .invocation)
  else if row.kind = "member_access_expression" then some (.expression, .memberAccess)
  else if row.kind = "element_access_expression" then some (.expression, .other row.kind none)
  else none

/-- The node of the row spans the whole chain if the chain starts with an optional access. -/
def topsChain (row : ParseTree) : Bool :=
  row.kind = "invocation_expression" ∨ row.kind = "member_access_expression" ∨
    row.kind = "conditional_access_expression"

def wrapsPattern (row : ParseTree) : Bool :=
  row.kind = "constant_pattern" ∨ row.kind = "parenthesized_pattern" ∨
    row.kind = "negated_pattern"

end ParseTree

namespace Traced

def wholes (parts : List Traced) : List Trace :=
  (parts.filter (·.row.named)).map whole

def part? (field : Field) (parts : List Traced) : Option Traced :=
  parts.find? (·.row.fills field)

def beside (field : Field) (parts : List Traced) : List Trace :=
  wholes (parts.eraseP (·.row.fills field))

def contribution (field : Field) (part : Traced) : List Trace :=
  if field = .pattern then part.pattern else [part.whole]

def chosen : Choice → List Traced → List Trace
  | .all, parts => wholes parts
  | .allBut field, parts => beside field parts
  | .leading field, parts =>
      match part? field parts with
      | some first => first.whole :: beside field parts
      | none => wholes parts
  | .only fields, parts =>
      if fields.all fun field => (part? field parts).isSome then
        fields.flatMap fun field => ((part? field parts).map (contribution field)).getD []
      else
        wholes parts
  | .nothing, _ => []

theorem chosen_only_two {first second : Field} {parts : List Traced} {left right : Traced}
    (foundFirst : part? first parts = some left) (foundSecond : part? second parts = some right) :
    chosen (.only [first, second]) parts = contribution first left ++ contribution second right := by
  simp [chosen, foundFirst, foundSecond]

/-! ## Chains -/

def bound (row : ParseTree) (position : Position) : List Trace → Option Trace
  | [] => none
  | [trace] => some trace
  | traces => some (.node (.other row.kind none) row.span position traces)

def chainStart (row : ParseTree) (position : Position) (parts : List Traced) : ChainTrace :=
  match part? .condition parts with
  | some condition => .optional condition.whole (bound row position (beside .condition parts))
  | none =>
      match parts.find? (·.row.named) with
      | some first =>
          .optional first.whole (bound row position (wholes (parts.eraseP (·.row.named))))
      | none => .headless

def linkOthers (row : ParseTree) (field : Field) (parts : List Traced) : Option (List Trace) :=
  if row.kind = "member_access_expression" then
    (part? .name parts).map fun member => [member.whole]
  else
    some (beside field parts)

def chainLink (row : ParseTree) (position : Position) (field : Field) (form : Form)
    (parts : List Traced) : ChainTrace :=
  match part? field parts with
  | none => .plain
  | some inner =>
      inner.chain.extend fun tail =>
        (linkOthers row field parts).map fun others =>
          .node form row.span position (tail :: others)

def chainOf (row : ParseTree) (position : Position) (parts : List Traced) : ChainTrace :=
  if row.kind = "conditional_access_expression" then
    chainStart row position parts
  else
    match row.link? with
    | none => .plain
    | some (field, form) => chainLink row position field form parts

/-! ## Rows -/

def wholeParts (source : List Char) (row : ParseTree) (position : Position)
    (parts : List Traced) : List Trace :=
  if row.topsChain then
    match chainOf row position parts with
    | .plain => chosen (row.choice source) parts
    | .headless => wholes parts
    | .optional receiver tail => receiver :: tail.toList
  else
    chosen (row.choice source) parts

def patternOf (row : ParseTree) (parts : List Traced) (whole : Trace) : List Trace :=
  if row.wrapsPattern then
    ((parts.find? (·.row.named)).map pattern).getD []
  else
    [whole]

def ofParts (source : List Char) (form : Form) (row : ParseTree) (position : Position)
    (parts : List Traced) : Traced :=
  let whole := .node form row.span position (wholeParts source row position parts)
  { position, row, whole, chain := chainOf row position parts,
    pattern := patternOf row parts whole }

end Traced

mutual

def ParseTree.trace (source : List Char) (fileSpace : Option String) (spaces : List String)
    (position : Position) : ParseTree → Traced
  | .row kind named field extent children =>
      let row := ParseTree.row kind named field extent children
      .ofParts source (row.read source fileSpace spaces).outline.form row position
        (ParseTree.traceAll source fileSpace (row.innerSpaces source spaces) position 0 children)

def ParseTree.traceAll (source : List Char) (fileSpace : Option String) (spaces : List String)
    (position : Position) : Nat → List ParseTree → List Traced
  | _, [] => []
  | place, child :: rest =>
      child.trace source fileSpace spaces (position ++ [place]) ::
        ParseTree.traceAll source fileSpace spaces position (place + 1) rest

end

def Trace.ofParseTree (source : List Char) (root : ParseTree) : Trace :=
  (root.trace source (root.fileNamespace? source) [] []).whole

/-! ## Equations -/

theorem ParseTree.readAll_eq_map (source : List Char) (fileSpace : Option String)
    (spaces : List String) (children : List ParseTree) :
    ParseTree.readAll source fileSpace spaces children =
      children.map fun child => ⟨child, child.read source fileSpace spaces⟩ := by
  induction children with
  | nil => rfl
  | cons child rest induction => rw [readAll, induction, List.map_cons]

theorem ParseTree.traceAll_eq_map (source : List Char) (fileSpace : Option String)
    (spaces : List String) (position : Position) (place : Nat) (children : List ParseTree) :
    ParseTree.traceAll source fileSpace spaces position place children =
      (placedFrom position place children).map fun found =>
        found.2.trace source fileSpace spaces found.1 := by
  induction children generalizing place with
  | nil => rfl
  | cons child rest induction => rw [traceAll, induction, placedFrom, List.map_cons]

namespace ParseTree

variable (source : List Char) (fileSpace : Option String) (spaces : List String)
  (position : Position) (row : ParseTree)

def tracedParts : List Traced :=
  (row.placed position).map fun found =>
    found.2.trace source fileSpace (row.innerSpaces source spaces) found.1

theorem trace_eq :
    row.trace source fileSpace spaces position =
      .ofParts source (row.read source fileSpace spaces).outline.form row position
        (row.tracedParts source fileSpace spaces position) := by
  cases row
  rw [trace, traceAll_eq_map]
  rfl

theorem read_eq :
    row.read source fileSpace spaces =
      .ofParts source fileSpace spaces row
        (row.children.map fun child =>
          ⟨child, child.read source fileSpace (row.innerSpaces source spaces)⟩) := by
  cases row
  rw [read, readAll_eq_map]
  rfl

@[simp] theorem position_trace :
    (row.trace source fileSpace spaces position).position = position := by
  rw [trace_eq]
  rfl

@[simp] theorem row_trace : (row.trace source fileSpace spaces position).row = row := by
  rw [trace_eq]
  rfl

@[simp] theorem origin_whole_trace :
    (row.trace source fileSpace spaces position).whole.origin = position := by
  rw [trace_eq]
  rfl

theorem mem_tracedParts {part : Traced} :
    part ∈ row.tracedParts source fileSpace spaces position ↔
      ∃ found ∈ row.placed position,
        found.2.trace source fileSpace (row.innerSpaces source spaces) found.1 = part :=
  List.mem_map

end ParseTree

/-! ## Kinds of rows -/

namespace Construct

/-- The kinds of rows that are read as a construct. Literals are known by the end of their kind, and
all kinds that are left are `other`. -/
def kinds : Construct → List String
  | .compilationUnit => ["compilation_unit"]
  | .usingDirective => ["using_directive"]
  | .namespaceDeclaration => ["namespace_declaration", "file_scoped_namespace_declaration"]
  | .typeDeclaration =>
      ["class_declaration", "struct_declaration", "record_declaration",
        "record_struct_declaration"]
  | .methodDeclaration => ["method_declaration"]
  | .ifStatement => ["if_statement"]
  | .invocation => ["invocation_expression"]
  | .memberAccess => ["member_access_expression"]
  | .conditionalAccess => ["conditional_access_expression"]
  | .memberBinding => ["member_binding_expression"]
  | .binary => ["binary_expression"]
  | .isPattern => ["is_pattern_expression"]
  | .identifier => ["identifier"]
  | .genericName => ["generic_name"]
  | .nullLiteral => ["null_literal"]
  | .literal => []
  | .other => []

theorem ofKind_of_mem_kinds {construct : Construct} :
    ∀ kind ∈ construct.kinds, ofKind kind = construct := by
  cases construct <;> decide

theorem ofKind_eq_iff {construct : Construct} (kind : String) (listed : construct.kinds ≠ []) :
    ofKind kind = construct ↔ kind ∈ construct.kinds := by
  refine ⟨fun equal => ?_, ofKind_of_mem_kinds kind⟩
  by_contra missing
  by_cases known : ∃ candidate : Construct, kind ∈ candidate.kinds
  · rcases known with ⟨candidate, member⟩
    have same : candidate = construct := (ofKind_of_mem_kinds kind member).symm.trans equal
    exact missing (same ▸ member)
  · have unknown (candidate : Construct) : kind ∉ candidate.kinds := fun member => known ⟨candidate, member⟩
    have single (candidate : Construct) {only : String} (kinds_eq : candidate.kinds = [only]) :
        kind ≠ only := fun same => unknown candidate (kinds_eq ▸ List.mem_singleton.mpr same)
    have notNamespace : kind ∉ ["namespace_declaration", "file_scoped_namespace_declaration"] :=
      unknown .namespaceDeclaration
    have notType : kind ∉ ["class_declaration", "struct_declaration", "record_declaration",
        "record_struct_declaration"] := unknown .typeDeclaration
    -- None of the listed kinds applies, so that the row is a literal or something else.
    rw [ofKind, if_neg (single .compilationUnit rfl), if_neg (single .usingDirective rfl),
      if_neg notNamespace, if_neg notType, if_neg (single .methodDeclaration rfl),
      if_neg (single .ifStatement rfl), if_neg (single .invocation rfl),
      if_neg (single .memberAccess rfl), if_neg (single .conditionalAccess rfl),
      if_neg (single .memberBinding rfl), if_neg (single .binary rfl),
      if_neg (single .isPattern rfl), if_neg (single .identifier rfl),
      if_neg (single .genericName rfl), if_neg (single .nullLiteral rfl)] at equal
    split at equal
    · exact listed (equal ▸ rfl)
    · exact listed (equal ▸ rfl)

theorem ofKind_eq_iff_eq (construct : Construct) {only kind : String}
    (single : construct.kinds = [only]) : ofKind kind = construct ↔ kind = only := by
  rw [ofKind_eq_iff kind (by simp [single]), single]
  exact List.mem_singleton

end Construct

theorem ParseTree.topsChain_iff {row : ParseTree} :
    row.topsChain ↔ Construct.ofKind row.kind = .invocation ∨
      Construct.ofKind row.kind = .memberAccess ∨
        Construct.ofKind row.kind = .conditionalAccess := by
  rw [Construct.ofKind_eq_iff _ (by decide), Construct.ofKind_eq_iff _ (by decide),
    Construct.ofKind_eq_iff _ (by decide)]
  simp [Construct.kinds, topsChain]

theorem ParseTree.link?_eq_some {row : ParseTree} {field : Field} {form : Form}
    (link : row.link? = some (field, form)) :
    row.kind = "invocation_expression" ∧ field = .function ∧ form = .invocation ∨
      row.kind = "member_access_expression" ∧ field = .expression ∧ form = .memberAccess ∨
        row.kind = "element_access_expression" ∧ field = .expression ∧
          form = .other row.kind none := by
  rw [link?] at link
  split at link
  · cases link
    exact .inl ⟨‹_›, rfl, rfl⟩
  · split at link
    · cases link
      exact .inr (.inl ⟨‹_›, rfl, rfl⟩)
    · split at link
      · cases link
        exact .inr (.inr ⟨‹_›, rfl, rfl⟩)
      · cases link

theorem ParseTree.form_ne_of_link? {row : ParseTree} {field : Field} {form : Form}
    (link : row.link? = some (field, form)) : form ≠ .conditionalAccess := by
  rcases link?_eq_some link with ⟨_, _, rfl⟩ | ⟨_, _, rfl⟩ | ⟨_, _, rfl⟩ <;>
    exact Form.noConfusion

end UnityLint
