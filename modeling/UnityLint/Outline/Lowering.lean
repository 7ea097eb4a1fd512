import UnityLint.Outline.Numbering
import UnityLint.ParseTree.Declared

/-! # Outlines of parse trees

Every construct that a rule looks at gets its own form; any other row is kept under its kind, over the
outlines of its named children. A row can be read in three ways, and all are worked out together from
the readings of its children: as a construct of its own, as a link in a chain of accesses such as
`a?.b.c()`, and as the pattern of an `is` test. -/

namespace UnityLint

inductive Chain where
  | plain
  | headless
  /-- The optional access has this receiver, and the chain up to the row is this tail. -/
  | optional (receiver : Outline) (tail : Option Outline)

structure Reading where
  outline : Outline
  chain : Chain
  pattern : Pattern Unit
  patternParts : List Outline

inductive Construct where
  | compilationUnit
  | usingDirective
  | namespaceDeclaration
  | typeDeclaration
  | methodDeclaration
  | ifStatement
  | invocation
  | memberAccess
  | conditionalAccess
  | memberBinding
  | binary
  | isPattern
  | identifier
  | genericName
  | nullLiteral
  | literal
  | other
deriving DecidableEq, Repr

def Construct.ofKind (kind : String) : Construct :=
  if kind = "compilation_unit" then .compilationUnit
  else if kind = "using_directive" then .usingDirective
  else if kind ∈ ["namespace_declaration", "file_scoped_namespace_declaration"] then
    .namespaceDeclaration
  else if kind ∈ ["class_declaration", "struct_declaration", "record_declaration",
      "record_struct_declaration"] then
    .typeDeclaration
  else if kind = "method_declaration" then .methodDeclaration
  else if kind = "if_statement" then .ifStatement
  else if kind = "invocation_expression" then .invocation
  else if kind = "member_access_expression" then .memberAccess
  else if kind = "conditional_access_expression" then .conditionalAccess
  else if kind = "member_binding_expression" then .memberBinding
  else if kind = "binary_expression" then .binary
  else if kind = "is_pattern_expression" then .isPattern
  else if kind = "identifier" then .identifier
  else if kind = "generic_name" then .genericName
  else if kind = "null_literal" then .nullLiteral
  else if "_literal".toList.isSuffixOf kind.toList then .literal
  else .other

structure Part where
  row : ParseTree
  reading : Reading

namespace Reading

def outlines (parts : List Part) : List Outline :=
  (parts.filter (·.row.named)).map (·.reading.outline)

def part? (field : Field) (parts : List Part) : Option Part :=
  parts.find? (·.row.fills field)

def outlinesExcept (field : Field) (parts : List Part) : List Outline :=
  outlines (parts.eraseP (·.row.fills field))

def keep (row : ParseTree) (parts : List Outline) : Outline :=
  .node (.other row.kind none) row.span parts

/-! ## Chains -/

def bound (row : ParseTree) : List Outline → Option Outline
  | [] => none
  | [outline] => some outline
  | outlines => some (keep row outlines)

/-- The chain that an optional access starts. Its receiver is the condition, or else the first named
part. -/
def chainStart (row : ParseTree) (parts : List Part) : Chain :=
  match part? .condition parts with
  | some condition =>
      .optional condition.reading.outline (bound row (outlinesExcept .condition parts))
  | none =>
      match parts.find? (·.row.named) with
      | some first =>
          .optional first.reading.outline (bound row (outlines (parts.eraseP (·.row.named))))
      | none => .headless

def chainLink (field : Field) (parts : List Part) (extend : Outline → Option Outline) : Chain :=
  match part? field parts with
  | none => .plain
  | some inner =>
      match inner.reading.chain with
      | .optional receiver tail => .optional receiver (tail.bind extend)
      | chain => chain

def chainOf (row : ParseTree) (parts : List Part) : Chain :=
  if row.kind = "conditional_access_expression" then
    chainStart row parts
  else if row.kind = "invocation_expression" then
    chainLink .function parts fun callee =>
      some (.node .invocation row.span (callee :: outlinesExcept .function parts))
  else if row.kind = "member_access_expression" then
    chainLink .expression parts fun receiver =>
      (part? .name parts).map fun member =>
        .node .memberAccess row.span [receiver, member.reading.outline]
  else if row.kind = "element_access_expression" then
    chainLink .expression parts fun inner =>
      some (keep row (inner :: outlinesExcept .expression parts))
  else
    .plain

/-- The outline of a row on a chain: the whole optional access if the chain has one, and otherwise what
the row is by itself. -/
def onChain (row : ParseTree) (parts : List Part) (alone : Outline) : Outline :=
  match chainOf row parts with
  | .plain => alone
  | .headless => keep row (outlines parts)
  | .optional receiver tail => .node .conditionalAccess row.span (receiver :: tail.toList)

/-! ## Constructs -/

def ifStatement (row : ParseTree) (parts : List Part) : Outline :=
  match part? .condition parts with
  | some condition =>
      .node .ifStatement row.span
        (condition.reading.outline :: outlinesExcept .condition parts)
  | none => keep row (outlines parts)

def invocation (row : ParseTree) (parts : List Part) : Outline :=
  match part? .function parts with
  | some callee =>
      .node .invocation row.span (callee.reading.outline :: outlinesExcept .function parts)
  | none => keep row (outlines parts)

def memberAccess (row : ParseTree) (parts : List Part) : Outline :=
  match part? .expression parts, part? .name parts with
  | some receiver, some member =>
      .node .memberAccess row.span [receiver.reading.outline, member.reading.outline]
  | _, _ => keep row (outlines parts)

def memberBinding (row : ParseTree) (parts : List Part) : Outline :=
  match part? .name parts with
  | some member => .node .memberBinding row.span [member.reading.outline]
  | none => keep row (outlines parts)

def comparisonOp? (written : List Char) : Option ComparisonOp :=
  if written = "==".toList then some .equal
  else if written = "!=".toList then some .notEqual
  else none

def binary (source : List Char) (row : ParseTree) (parts : List Part) : Outline :=
  match (part? .operator parts).bind fun operator => comparisonOp? (operator.row.text source),
      part? .left parts, part? .right parts with
  | some op, some left, some right =>
      .node (.comparison op) row.span [left.reading.outline, right.reading.outline]
  | _, _, _ => keep row (outlines parts)

def isPattern (row : ParseTree) (parts : List Part) : Outline :=
  match part? .expression parts, part? .pattern parts with
  | some subject, some pattern =>
      .node (.isPattern pattern.reading.pattern) row.span
        (subject.reading.outline :: pattern.reading.patternParts)
  | _, _ => keep row (outlines parts)

/-- The namespace of a type declaration: that of the blocks around it or else that of the file. -/
def namespaceName? (fileSpace : Option String) (spaces : List String) : Option String :=
  if spaces = [] then fileSpace else some (".".intercalate spaces)

def outlineOf (source : List Char) (fileSpace : Option String) (spaces : List String)
    (row : ParseTree) (parts : List Part) : Outline :=
  match Construct.ofKind row.kind with
  | .compilationUnit => .node .compilationUnit row.span (outlines parts)
  | .usingDirective =>
      .node (.other row.kind (ParseTree.usingDirective? (row.text source))) row.span
        (outlines parts)
  | .namespaceDeclaration => keep row (outlinesExcept .name parts)
  | .typeDeclaration =>
      .node (.typeDeclaration (row.typeInfo source (namespaceName? fileSpace spaces))) row.span
        (outlinesExcept .name parts)
  | .methodDeclaration =>
      .node (.methodDeclaration (row.declaredName source) (row.methodInfo source)) row.span
        (outlinesExcept .name parts)
  | .ifStatement => ifStatement row parts
  | .invocation => onChain row parts (invocation row parts)
  | .memberAccess => onChain row parts (memberAccess row parts)
  | .conditionalAccess => onChain row parts (keep row (outlines parts))
  | .memberBinding => memberBinding row parts
  | .binary => binary source row parts
  | .isPattern => isPattern row parts
  | .identifier => .node (.identifier (String.ofList (row.text source))) row.span []
  | .genericName =>
      let name := (row.childOfKind? "identifier").map fun child =>
        String.ofList (child.text source)
      .node (.genericName (name.getD "")) row.span []
  | .nullLiteral => .node (.literal .null) row.span []
  | .literal => .node (.literal .other) row.span (outlines parts)
  | .other => keep row (outlines parts)

/-! ## Patterns -/

def patternOf (row : ParseTree) (parts : List Part) (outline : Outline) :
    Pattern Unit × List Outline :=
  if row.kind = "constant_pattern" ∨ row.kind = "parenthesized_pattern" then
    match parts.find? (·.row.named) with
    | some inner => (inner.reading.pattern, inner.reading.patternParts)
    | none => (.other, [])
  else if row.kind = "negated_pattern" then
    match parts.find? (·.row.named) with
    | some inner => (.negated inner.reading.pattern, inner.reading.patternParts)
    | none => (.other, [])
  else if "_pattern".toList.isSuffixOf row.kind.toList ∨ row.kind = "discard" then
    (.other, [outline])
  else
    (.constant (), [outline])

def ofParts (source : List Char) (fileSpace : Option String) (spaces : List String)
    (row : ParseTree) (parts : List Part) : Reading :=
  let outline := outlineOf source fileSpace spaces row parts
  let pattern := patternOf row parts outline
  { outline, chain := chainOf row parts, pattern := pattern.1, patternParts := pattern.2 }

end Reading

def ParseTree.innerSpaces (source : List Char) (spaces : List String) (row : ParseTree) :
    List String :=
  if row.kind = "namespace_declaration" then
    spaces ++ ((row.child? .name).map (dottedText source)).toList
  else
    spaces

mutual

/-- The readings of a row inside the namespaces `spaces`, outermost first. -/
def ParseTree.read (source : List Char) (fileSpace : Option String) (spaces : List String) :
    ParseTree → Reading
  | .row kind named field extent children =>
      let row := ParseTree.row kind named field extent children
      .ofParts source fileSpace spaces row
        (ParseTree.readAll source fileSpace (row.innerSpaces source spaces) children)

def ParseTree.readAll (source : List Char) (fileSpace : Option String) (spaces : List String) :
    List ParseTree → List Part
  | [] => []
  | child :: rest =>
      ⟨child, child.read source fileSpace spaces⟩ ::
        ParseTree.readAll source fileSpace spaces rest

end

def Outline.ofParseTree (source : List Char) (root : ParseTree) : Outline :=
  (root.read source (root.fileNamespace? source) []).outline

structure SourceUnit where
  tree : Tree
  declarations : Declarations

def SourceUnit.ofParseTree (path : String) (source : String) (root : ParseTree) : SourceUnit :=
  let numbered := (Outline.ofParseTree source.toList root).number .empty
  { tree := numbered.2.forest.finish path numbered.1,
    declarations := numbered.2.declarations }

end UnityLint
