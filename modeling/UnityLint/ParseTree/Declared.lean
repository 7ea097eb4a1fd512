import UnityLint.Declaration.Lookup
import UnityLint.ParseTree.Basic

/-! # Declarations read off a parse tree -/

namespace UnityLint.ParseTree

def declaratorName? (source : List Char) (tree : ParseTree) : Option String :=
  ((tree.child? .name).or (tree.childOfKind? "identifier")).map fun child =>
    String.ofList (child.text source)

/-! ## Types -/

def attributeName (written : List Char) : String :=
  String.ofList <| Text.trim <|
    Text.afterLast (fun char => char = '.' ∨ char = ':') (Text.upTo (· = '<') written)

example : attributeName "field: Ui.Inject<A.B>".toList = "Inject" := by decide

def attributes (source : List Char) (declaration : ParseTree) : List String :=
  (declaration.childrenOfKind "attribute_list").flatMap fun list =>
    (list.childrenOfKind "attribute").filterMap fun written =>
      (written.child? .name).map fun name => attributeName (name.text source)

def declaredVariables (source : List Char) (declaration : ParseTree) : List String :=
  (declaration.childrenOfKind "variable_declaration").flatMap fun group =>
    (group.childrenOfKind "variable_declarator").filterMap (declaratorName? source)

def membersOf (source : List Char) (declaration : ParseTree) : List Member :=
  if declaration.kind = "field_declaration" then
    (declaration.declaredVariables source).map fun name =>
      { name, kind := .field, attributes := declaration.attributes source }
  else if declaration.kind = "property_declaration" then
    (declaration.textOf? source .name).toList.map fun name =>
      { name, kind := .property, attributes := declaration.attributes source }
  else
    []

def methodOf? (source : List Char) (declaration : ParseTree) : Option String :=
  if declaration.kind = "method_declaration" then declaration.textOf? source .name else none

def firstBase? (source : List Char) (list : ParseTree) : Option String :=
  (list.namedChildren.find? (·.kind ≠ "argument_list")).map fun base =>
    String.ofList (Text.trim (Text.upTo (· = '(') (base.text source)))

/-- The base of a type declaration; of several base lists the last counts. -/
def base? (source : List Char) (declaration : ParseTree) : Option String :=
  (declaration.childrenOfKind "base_list").getLast?.bind (firstBase? source)

def body? (declaration : ParseTree) : Option ParseTree :=
  (declaration.child? .body).or (declaration.childOfKind? "declaration_list")

def bodyRows (declaration : ParseTree) : List ParseTree :=
  (declaration.body?.map namedChildren).getD []

def declaredName (source : List Char) (declaration : ParseTree) : String :=
  (declaration.textOf? source .name).getD ""

def typeInfo (source : List Char) (namespaceName : Option String) (declaration : ParseTree) :
    TypeInfo where
  name := declaration.declaredName source
  namespaceName := namespaceName
  base := declaration.base? source
  members := declaration.bodyRows.flatMap (membersOf source)
  methods := declaration.bodyRows.filterMap (methodOf? source)

/-! ## Methods -/

def parameter? (source : List Char) (tree : ParseTree) : Option String :=
  if tree.kind = "parameter" then tree.textOf? source .name
  else if tree.kind = "implicit_parameter" then some (String.ofList (tree.text source))
  else none

def local? (source : List Char) (tree : ParseTree) : Option String :=
  if tree.kind = "variable_declarator" then
    tree.declaratorName? source
  else if tree.kind = "foreach_statement" then
    ((tree.child? .left).filter (·.kind = "identifier")).map fun left =>
      String.ofList (left.text source)
  else if tree.kind ∈ ["declaration_expression", "declaration_pattern", "catch_declaration"] then
    tree.textOf? source .name
  else
    none

def localFunction? (source : List Char) (tree : ParseTree) : Option String :=
  if tree.kind = "local_function_statement" then tree.textOf? source .name else none

def methodInfo (source : List Char) (declaration : ParseTree) : MethodInfo where
  parameters := declaration.namedRows.filterMap (parameter? source)
  locals := declaration.namedRows.filterMap (local? source)
  localFunctions := declaration.namedRows.filterMap (localFunction? source)

/-! ## Namespaces -/

def dottedText (source : List Char) (tree : ParseTree) : String :=
  String.ofList (Text.compact (tree.text source))

/-- What a `using` directive says, from its text. An import of the static members of a type says
nothing here. -/
def usingDirective? (written : List Char) : Option UsingDirective :=
  let statement := Text.trim (Text.dropEndWhile (· = ';') (Text.trim written))
  let directive := ((Text.dropStart? "global".toList statement).map Text.trimStart).getD statement
  (Text.dropStart? "using".toList directive).bind fun rest =>
    let content := Text.trim rest
    if "static ".toList.isPrefixOf content then
      none
    else
      match Text.cutFirst '=' content with
      | some (newName, target) =>
          some (.nameAlias (String.ofList (Text.trim newName)) (String.ofList (Text.compact target)))
      | none => some (.namespaceImport (String.ofList (Text.compact content)))

example : usingDirective? "global using Go = UnityEngine . GameObject;".toList =
    some (.nameAlias "Go" "UnityEngine.GameObject") := by decide

def fileNamespace? (source : List Char) (root : ParseTree) : Option String :=
  (root.childOfKind? "file_scoped_namespace_declaration").bind fun declaration =>
    (declaration.child? .name).map (dottedText source)

end UnityLint.ParseTree
