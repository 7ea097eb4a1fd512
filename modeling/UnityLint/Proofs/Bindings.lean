import UnityLint.Declaration.Resolver
import UnityLint.Proofs.Declarations
import UnityLint.Proofs.Queries

/-! # Names around a node

What the declarations of a file know around a node is what the rows around its row declare. A bare name
stands for a parameter or local of the method around it, and else for a member of the type. -/

namespace UnityLint

namespace Declarations

variable {declarations : Declarations} {tree : Tree} {id : NodeId} {name : String}

theorem mem_values_of_typeAround? {info : TypeInfo}
    (found : declarations.typeAround? tree id = some info) : info ∈ declarations.types.values := by
  rcases Option.bind_eq_some_iff.mp found with ⟨_, _, noted⟩
  exact Table.mem_values_of_find? noted

theorem identifierSymbol?_eq_bareSymbol? {node : Node}
    (parent : (tree.parent? id).bind tree.node? = some node)
    (access : ∀ receiver, node ≠ .memberAccess receiver id)
    (binding : node.kind ≠ .memberBinding) :
    declarations.identifierSymbol? tree id name = declarations.bareSymbol? tree id name := by
  rw [identifierSymbol?, parent]
  cases node with
  | memberAccess receiver member =>
      apply if_neg
      rintro rfl
      exact access receiver rfl
  | memberBinding member => exact absurd rfl binding
  | _ => rfl

def methodOf? (declarations : Declarations) : TypeRef → String → Option Symbol
  | .declared info, name => declarations.method? info name
  | .builtIn type, name => type.method? name

theorem bareSymbol?_eq_memberAround?
    (members : ∀ symbol ∈ declarations.bareSymbol? tree id name, symbol.isMember) :
    declarations.bareSymbol? tree id name = declarations.memberAround? tree id name ∧
      ∀ method, declarations.methodAround? tree id = some method →
        name ∉ method.parameters ∧ name ∉ method.locals := by
  rw [bareSymbol?] at members ⊢
  cases around : declarations.methodAround? tree id with
  | none => exact ⟨rfl, nofun⟩
  | some method =>
      rw [around] at members
      dsimp only at members ⊢
      split at members
      · cases members _ rfl
      · split at members
        · cases members _ rfl
        · rw [if_neg ‹_›, if_neg ‹_›]
          refine ⟨rfl, fun other same => ?_⟩
          cases same
          exact ⟨‹_›, ‹_›⟩

theorem memberAround?_of_bareSymbol? {symbol : Symbol}
    (found : declarations.bareSymbol? tree id name = some symbol) (member : symbol.isMember) :
    declarations.memberAround? tree id name = some symbol ∧
      ∀ method, declarations.methodAround? tree id = some method →
        name ∉ method.parameters ∧ name ∉ method.locals := by
  have members : ∀ other ∈ declarations.bareSymbol? tree id name, other.isMember := by
    intro other same
    cases found.symm.trans same
    exact member
  rcases bareSymbol?_eq_memberAround? members with ⟨equal, unbound⟩
  exact ⟨equal ▸ found, unbound⟩

theorem callSymbol?_cases {call callee : NodeId} {symbol : Symbol}
    (found : declarations.callSymbol? tree call callee = some symbol) :
    (∃ name, tree.simpleName? callee = some name ∧
      declarations.bareCallSymbol? tree call name = some symbol) ∨
    ∃ receiver member name written ref, tree.node? callee = some (.memberAccess receiver member) ∧
      tree.simpleName? member = some name ∧ declarations.isVariable tree receiver = false ∧
      tree.dottedName? receiver = some written ∧ declarations.lookup written = some ref ∧
      declarations.methodOf? ref name = some symbol := by
  rw [callSymbol?] at found
  split at found
  · rename_i name here
    exact .inl ⟨name, by rw [Forest.simpleName?, here]; rfl, found⟩
  · rename_i name here
    exact .inl ⟨name, by rw [Forest.simpleName?, here]; rfl, found⟩
  · rename_i receiver member here
    rcases Option.bind_eq_some_iff.mp found with ⟨name, named, chosen⟩
    split at chosen
    · cases chosen
    · rename_i free
      cases search : (tree.dottedName? receiver).bind declarations.lookup with
      | none =>
          rw [search] at chosen
          cases chosen
      | some ref =>
          rcases Option.bind_eq_some_iff.mp search with ⟨written, dotted, looked⟩
          rw [search] at chosen
          refine .inr ⟨receiver, member, name, written, ref, here, named, ?_, dotted, looked, ?_⟩
          · simpa using free
          · cases ref <;> exact chosen
  · cases found

end Declarations

theorem ParseTree.DeclaresType.eq_info {source : List Char} {root row other : ParseTree}
    {position : Position} {info otherInfo : TypeInfo}
    (first : root.DeclaresType source position row info)
    (second : root.DeclaresType source position other otherInfo) : info = otherInfo := by
  have same : row = other := Option.some.inj (first.here.symm.trans second.here)
  rw [first.info, second.info, same]

/-! ## Rows around a node -/

namespace Trace

theorem exists_node_of_enclosing? {whole : Trace} {kind : NodeKind} {id : NodeId}
    {position : Position}
    (nearest : (whole.forest.enclosing? kind id).map whole.originOf = some position)
    (known : kind ≠ .other) :
    ∃ number node, whole.forest.enclosing? kind id = some number ∧
      whole.nodes[number]? = some node ∧ node.origin = position ∧ node.form.kind = kind := by
  rcases Option.map_eq_some_iff.mp nearest with ⟨number, found, origin⟩
  have kept := List.find?_some found
  rw [decide_eq_true_eq] at kept
  rcases exists_node_of_kind? kept known with ⟨node, inside, formed⟩
  rw [originOf_eq inside] at origin
  exact ⟨number, node, found, inside, origin, formed⟩

variable {source : List Char} {root : ParseTree} {tree : Tree}

section Around

variable (forest : tree.toForest = (ofParseTree source root).forest) {start : Nat} {part : Trace}
  {around : List (Nat × Trace)} (sits : Sits (ofParseTree source root) start part around)

include forest sits

theorem declaresType_of_typeAround? {info : TypeInfo}
    (found : (ofParseTree source root).declarations.typeAround? tree (start + part.countBelow) =
      some info) :
    ∃ nearest row, root.enclosing? ParseTree.isTypeDeclaration part.origin = some nearest ∧
      root.DeclaresType source nearest row info := by
  rcases Option.bind_eq_some_iff.mp found with ⟨type, enclosing, noted⟩
  rw [find?_types] at noted
  rcases Option.bind_eq_some_iff.mp noted with ⟨node, inside, declared⟩
  rcases ParseTree.madeFrom_of_mem_nodes (List.mem_of_getElem? inside) with ⟨row, made⟩
  have nearest := sits.map_originOf_enclosingType?
  rw [← forest, enclosing, Option.map_some, originOf_eq inside] at nearest
  exact ⟨node.origin, row, nearest.symm, made.declaresType declared⟩

theorem typeAround?_eq {nearest : Position} {row : ParseTree} {info : TypeInfo}
    (enclosing : root.enclosing? ParseTree.isTypeDeclaration part.origin = some nearest)
    (type : root.DeclaresType source nearest row info) :
    (ofParseTree source root).declarations.typeAround? tree (start + part.countBelow) =
      some info := by
  rcases exists_node_of_enclosing? (sits.map_originOf_enclosingType?.trans enclosing) (by decide) with
    ⟨id, node, found, inside, rfl, formed⟩
  rcases ParseTree.madeFrom_of_mem_nodes (List.mem_of_getElem? inside) with ⟨_, made⟩
  rw [Declarations.typeAround?, forest, Forest.enclosingType?, found, Option.bind_some,
    find?_types, inside, Option.bind_some]
  cases form : node.form with
  | typeDeclaration other =>
      have same := (made.declaresType (by rw [form]; rfl)).eq_info type
      rw [← same]
      rfl
  | _ =>
      rw [form] at formed
      cases formed

theorem methodAround?_eq {method : Position}
    (enclosing : root.enclosing? ParseTree.isMethodDeclaration part.origin = some method) :
    ∃ row, root.at? method = some row ∧
      (ofParseTree source root).declarations.methodAround? tree (start + part.countBelow) =
        some (row.methodInfo source) := by
  rcases exists_node_of_enclosing? (sits.map_originOf_enclosingMethod?.trans enclosing)
    (by decide) with ⟨id, node, found, inside, rfl, formed⟩
  rcases ParseTree.madeFrom_of_mem_nodes (List.mem_of_getElem? inside) with ⟨row, made⟩
  refine ⟨row, made.1, ?_⟩
  rw [Declarations.methodAround?, forest, Forest.enclosingMethod?, found, Option.bind_some,
    find?_methods, inside, Option.bind_some]
  cases form : node.form with
  | methodDeclaration name info =>
      have same : info = row.methodInfo source := made.methodInfo_eq (by rw [form]; rfl)
      rw [← same]
      rfl
  | _ =>
      rw [form] at formed
      cases formed

end Around

end Trace

/-! ## Names that a method binds -/

namespace ParseTree

theorem namedRowsOfAll_eq_flatMap (children : List ParseTree) :
    namedRowsOfAll children = (children.filter named).flatMap namedRows := by
  induction children with
  | nil => rfl
  | cons child rest induction =>
      rw [namedRowsOfAll, List.filter_cons, induction]
      cases child.named <;> rfl

theorem namedRows_eq (tree : ParseTree) :
    tree.namedRows = tree :: tree.namedChildren.flatMap namedRows := by
  cases tree
  rw [namedRows, namedRowsOfAll_eq_flatMap]
  rfl

theorem mem_namedRows {tree row : ParseTree} {position : Position}
    (tokens : ∀ position row, tree.at? position = some row → row.named = false → row.children = [])
    (here : tree.at? position = some row) (named : row.named) : row ∈ tree.namedRows := by
  induction position generalizing tree with
  | nil =>
      cases here
      rw [namedRows_eq]
      exact List.mem_cons_self
  | cons place rest induction =>
      rcases Option.bind_eq_some_iff.mp here with ⟨child, inside, below⟩
      have childTokens : ∀ position row, child.at? position = some row → row.named = false →
          row.children = [] := by
        intro position row there
        apply tokens (place :: position)
        rw [at?, inside]
        exact there
      have childNamed : child.named := by
        by_contra unnamed
        have childless := childTokens [] child rfl (by simpa using unnamed)
        cases rest with
        | nil =>
            cases below
            exact unnamed named
        | cons next further =>
            rw [at?, childless] at below
            cases below
      rw [namedRows_eq]
      apply List.mem_cons_of_mem
      apply List.mem_flatMap.mpr
      refine ⟨child, ?_, induction childTokens below⟩
      exact List.mem_filter.mpr ⟨List.mem_of_getElem? inside, childNamed⟩

/-! ### Variables of a row -/

inductive Designates (source : List Char) (name : String) : ParseTree → Prop
  | single {pattern : ParseTree} (kind : pattern.kind = "identifier")
      (text : String.ofList (pattern.text source) = name) : Designates source name pattern
  | tuple {pattern part : ParseTree} (kind : pattern.kind = "tuple_pattern")
      (member : part ∈ pattern.children) (designates : Designates source name part) :
      Designates source name pattern

inductive HasPattern (row pattern : ParseTree) : Prop
  | loop (kind : row.kind = "foreach_statement") (left : row.child? .left = some pattern)
  | declarator (kind : row.kind = "variable_declarator") (member : pattern ∈ row.children)
      (tuple : pattern.kind = "tuple_pattern")

inductive DeclaresVariable (source : List Char) (name : String) (row : ParseTree) : Prop
  | parameter (kind : row.kind = "parameter") (text : row.textOf? source .name = some name)
  | implicitParameter (kind : row.kind = "implicit_parameter")
      (text : String.ofList (row.text source) = name)
  | declarator (kind : row.kind = "variable_declarator")
      (text : row.declaratorName? source = some name)
  | pattern {pattern : ParseTree} (has : row.HasPattern pattern)
      (designates : pattern.Designates source name)
  | designation
      (kind : row.kind ∈ ["declaration_expression", "declaration_pattern", "catch_declaration"])
      (text : row.textOf? source .name = some name)

/-- The row declares a variable among the parts of a tuple. -/
def Deconstructs (source : List Char) (name : String) (row : ParseTree) : Prop :=
  ∃ pattern, row.HasPattern pattern ∧ pattern.kind = "tuple_pattern" ∧
    pattern.Designates source name

variable {source : List Char} {name : String} {method row : ParseTree}

theorem DeclaresVariable.noted (declares : row.DeclaresVariable source name) :
    row.parameter? source = some name ∨ row.local? source = some name ∨
      row.Deconstructs source name := by
  cases declares with
  | parameter kind text =>
      left
      rw [parameter?, if_pos kind, text]
  | implicitParameter kind text =>
      left
      rw [parameter?, kind, if_neg (by decide), if_pos rfl, text]
  | declarator kind text =>
      right; left
      rw [local?, if_pos kind, text]
  | pattern has designates =>
      right
      cases designates with
      | tuple kind member designates => exact .inr ⟨_, has, kind, .tuple kind member designates⟩
      | single kind text =>
          cases has with
          | loop loop filled =>
              left
              rw [local?, loop, if_neg (by decide), if_pos rfl, filled, Option.filter_some,
                if_pos (decide_eq_true kind), Option.map_some, text]
          | declarator _ _ tuple =>
              rw [kind] at tuple
              exact absurd tuple (by decide)
  | designation kind text =>
      right; left
      have other : row.kind ≠ "variable_declarator" ∧ row.kind ≠ "foreach_statement" := by
        constructor <;> intro same <;> rw [same] at kind <;> exact absurd kind (by decide)
      rw [local?, if_neg other.1, if_neg other.2, if_pos kind, text]

theorem DeclaresVariable.deconstructs (declares : row.DeclaresVariable source name)
    (parameters : name ∉ (method.methodInfo source).parameters)
    (locals : name ∉ (method.methodInfo source).locals) (listed : row ∈ method.namedRows) :
    row.Deconstructs source name := by
  rcases declares.noted with asParameter | asLocal | deconstructs
  · exact absurd (List.mem_filterMap.mpr ⟨row, listed, asParameter⟩) parameters
  · exact absurd (List.mem_filterMap.mpr ⟨row, listed, asLocal⟩) locals
  · exact deconstructs

theorem DeclaresVariable.implicit_of_childless (declares : row.DeclaresVariable source name)
    (childless : row.children = []) : row.kind = "implicit_parameter" := by
  have missing (field : Field) : row.child? field = none := by rw [child?, childless]; rfl
  have nameless : row.declaratorName? source = none := by
    rw [declaratorName?, missing, childOfKind?, namedChildren, childless]
    rfl
  cases declares with
  | implicitParameter kind => exact kind
  | parameter _ text | designation _ text => simp [textOf?, missing] at text
  | declarator _ text => simp [nameless] at text
  | pattern has =>
      cases has with
      | loop _ filled => simp [missing] at filled
      | declarator _ member => simp [childless] at member

/-- A variable of the method that is not noted is a part of a tuple, or an implicit parameter that is
not a named row. -/
theorem DeclaresVariable.unnoted {position : Position}
    (declares : row.DeclaresVariable source name)
    (tokens : ∀ position row, method.at? position = some row → row.named = false →
      row.children = [])
    (parameters : name ∉ (method.methodInfo source).parameters)
    (locals : name ∉ (method.methodInfo source).locals)
    (here : method.at? position = some row) :
    row.Deconstructs source name ∨ row.kind = "implicit_parameter" ∧ row.named = false := by
  cases named : row.named with
  | false =>
      exact .inr ⟨declares.implicit_of_childless (tokens position row here named), rfl⟩
  | true =>
      exact .inl (declares.deconstructs parameters locals (mem_namedRows tokens here named))

end ParseTree

end UnityLint
