import UnityLint.Proofs.TraceAgreement

/-! # Forms of rows

Which construct a row becomes, from its kind, the fields that its children fill and its chain. -/

namespace UnityLint

def ChainTrace.form (label : String) (alone : Form) : ChainTrace → Form
  | .plain => alone
  | .headless => .other label none
  | .optional _ _ => .conditionalAccess

def ParseTree.formOf (source : List Char) (fileSpace : Option String) (spaces : List String)
    (row : ParseTree) (chain : ChainTrace) : Form :=
  let kept := Form.other row.kind none
  match Construct.ofKind row.kind with
  | .compilationUnit => .compilationUnit
  | .usingDirective => .other row.kind (usingDirective? (row.text source))
  | .namespaceDeclaration => kept
  | .typeDeclaration =>
      .typeDeclaration (row.typeInfo source (Reading.namespaceName? fileSpace spaces))
  | .methodDeclaration => .methodDeclaration (row.declaredName source) (row.methodInfo source)
  | .ifStatement => if (row.child? .condition).isSome then .ifStatement else kept
  | .invocation =>
      chain.form row.kind (if (row.child? .function).isSome then .invocation else kept)
  | .memberAccess =>
      chain.form row.kind <|
        if (row.child? .expression).isSome ∧ (row.child? .name).isSome then .memberAccess else kept
  | .conditionalAccess => chain.form row.kind kept
  | .memberBinding => if (row.child? .name).isSome then .memberBinding else kept
  | .binary =>
      match (row.child? .operator).bind fun operator =>
        Reading.comparisonOp? (operator.text source) with
      | some op =>
          if (row.child? .left).isSome ∧ (row.child? .right).isSome then .comparison op else kept
      | none => kept
  | .isPattern =>
      match row.child? .pattern with
      | some pattern =>
          if (row.child? .expression).isSome then
            .isPattern (pattern.read source fileSpace (row.innerSpaces source spaces)).pattern
          else kept
      | none => kept
  | .identifier => .identifier (String.ofList (row.text source))
  | .genericName =>
      .genericName (((row.childOfKind? "identifier").map fun child =>
        String.ofList (child.text source)).getD "")
  | .nullLiteral => .literal .null
  | .literal => .literal .other
  | .other => kept

namespace ParseTree

theorem form_read (source : List Char) (fileSpace : Option String) (spaces : List String)
    (row : ParseTree) (chain : ChainTrace)
    (same : chain.erase = (row.read source fileSpace spaces).chain) :
    (row.read source fileSpace spaces).outline.form =
      row.formOf source fileSpace spaces chain := by
  rw [read_eq] at same ⊢
  generalize inside : row.innerSpaces source spaces = inner at *
  have part (field : Field) :
      Reading.part? field (row.children.map fun child =>
        (⟨child, child.read source fileSpace inner⟩ : Part)) =
          (row.child? field).map fun child => ⟨child, child.read source fileSpace inner⟩ :=
    List.find?_map
  generalize row.children.map (fun child =>
    (⟨child, child.read source fileSpace inner⟩ : Part)) = parts at *
  have onChain (alone : Outline) :
      (Reading.onChain row parts alone).form = chain.form row.kind alone.form := by
    have chains : Reading.chainOf row parts = chain.erase := same.symm
    rw [Reading.onChain, chains]
    cases chain <;> rfl
  simp only [Reading.ofParts, Reading.outlineOf, formOf]
  cases Construct.ofKind row.kind with
  | invocation =>
      simp only [onChain, Reading.invocation, part]
      cases row.child? .function <;> rfl
  | memberAccess =>
      simp only [onChain, Reading.memberAccess, part]
      cases row.child? .expression <;> cases row.child? .name <;> rfl
  | conditionalAccess => exact onChain _
  | ifStatement =>
      simp only [Reading.ifStatement, part]
      cases row.child? .condition <;> rfl
  | memberBinding =>
      simp only [Reading.memberBinding, part]
      cases row.child? .name <;> rfl
  | binary =>
      simp only [Reading.binary, part, Option.bind_map, Function.comp_def]
      cases (row.child? .operator).bind fun operator =>
          Reading.comparisonOp? (operator.text source) with
      | none => rfl
      | some op => cases row.child? .left <;> cases row.child? .right <;> rfl
  | isPattern =>
      simp only [Reading.isPattern, part, inside]
      cases row.child? .pattern <;> cases row.child? .expression <;> rfl
  | _ => rfl

end ParseTree

/-! ## From forms back to constructs -/

def Form.constructs : Form → List Construct
  | .compilationUnit => [.compilationUnit]
  | .typeDeclaration _ => [.typeDeclaration]
  | .methodDeclaration _ _ => [.methodDeclaration]
  | .ifStatement => [.ifStatement]
  | .conditionalAccess => [.invocation, .memberAccess, .conditionalAccess]
  | .invocation => [.invocation]
  | .identifier _ => [.identifier]
  | .genericName _ => [.genericName]
  | .memberAccess => [.memberAccess]
  | .memberBinding => [.memberBinding]
  | .isPattern _ => [.isPattern]
  | .comparison _ => [.binary]
  | .literal .null => [.nullLiteral]
  | .literal .other => [.literal]
  | .other _ (some _) => [.usingDirective]
  | .other _ none =>
      [.usingDirective, .namespaceDeclaration, .ifStatement, .invocation, .memberAccess,
        .conditionalAccess, .memberBinding, .binary, .isPattern, .other]

namespace ParseTree

theorem ofKind_mem_constructs (source : List Char) (fileSpace : Option String)
    (spaces : List String) (row : ParseTree) (chain : ChainTrace) :
    Construct.ofKind row.kind ∈ (row.formOf source fileSpace spaces chain).constructs := by
  have onChain (alone : Form) {construct : Construct} (known : construct ∈ alone.constructs)
      (tops : construct ∈ Form.conditionalAccess.constructs) :
      construct ∈ (chain.form row.kind alone).constructs := by
    cases chain with
    | plain => exact known
    | headless =>
        simp only [ChainTrace.form, Form.constructs, List.mem_cons, List.not_mem_nil,
          or_false] at tops ⊢
        tauto
    | optional receiver tail => exact tops
  rw [formOf]
  cases Construct.ofKind row.kind with
  | usingDirective => cases usingDirective? (row.text source) <;> simp [Form.constructs]
  | ifStatement =>
      dsimp only
      split <;> simp [Form.constructs]
  | invocation =>
      refine onChain _ ?_ (by decide)
      split <;> simp [Form.constructs]
  | memberAccess =>
      refine onChain _ ?_ (by decide)
      split <;> simp [Form.constructs]
  | conditionalAccess => exact onChain _ (by simp [Form.constructs]) (by decide)
  | memberBinding =>
      dsimp only
      split <;> simp [Form.constructs]
  | binary =>
      dsimp only
      split
      · split <;> simp [Form.constructs]
      · simp [Form.constructs]
  | isPattern =>
      dsimp only
      split
      · split <;> simp [Form.constructs]
      · simp [Form.constructs]
  | _ => simp [Form.constructs]

theorem ofKind_mem_constructs_of_link? {row : ParseTree} {field : Field} {form : Form}
    (link : row.link? = some (field, form)) : Construct.ofKind row.kind ∈ form.constructs := by
  rcases link?_eq_some link with ⟨kind, _, rfl⟩ | ⟨kind, _, rfl⟩ | ⟨kind, _, rfl⟩
  · rw [kind]
    decide
  · rw [kind]
    decide
  · rw [kind]
    decide

theorem formOf_optional {source : List Char} {fileSpace : Option String} {spaces : List String}
    {row : ParseTree} (tops : row.topsChain) (receiver : Trace) (tail : Option Trace) :
    row.formOf source fileSpace spaces (.optional receiver tail) = .conditionalAccess := by
  rw [formOf]
  rcases topsChain_iff.mp tops with construct | construct | construct <;> rw [construct] <;> rfl

theorem formOf_eq_conditionalAccess {source : List Char} {fileSpace : Option String}
    {spaces : List String} {row : ParseTree} {chain : ChainTrace}
    (form : row.formOf source fileSpace spaces chain = .conditionalAccess) :
    row.topsChain ∧ ∃ receiver tail, chain = .optional receiver tail := by
  have known := row.ofKind_mem_constructs source fileSpace spaces chain
  rw [form] at known
  have tops : row.topsChain := topsChain_iff.mpr (by simpa [Form.constructs] using known)
  refine ⟨tops, ?_⟩
  cases chain with
  | optional receiver tail => exact ⟨receiver, tail, rfl⟩
  | headless =>
      rw [formOf] at form
      rcases topsChain_iff.mp tops with construct | construct | construct <;>
        rw [construct] at form <;> cases form
  | plain =>
      rw [formOf] at form
      rcases topsChain_iff.mp tops with construct | construct | construct <;>
        rw [construct] at form <;> dsimp only [ChainTrace.form] at form
      · split at form <;> cases form
      · split at form <;> cases form
      · cases form

theorem formOf_eq_invocation_iff {source : List Char} {fileSpace : Option String}
    {spaces : List String} {row : ParseTree} {chain : ChainTrace} :
    row.formOf source fileSpace spaces chain = .invocation ↔
      row.kind = "invocation_expression" ∧ chain = .plain ∧ (row.child? .function).isSome := by
  have kind : Construct.ofKind row.kind = .invocation ↔ _ := Construct.ofKind_eq_iff_eq _ rfl
  constructor
  · intro form
    have known := row.ofKind_mem_constructs source fileSpace spaces chain
    rw [form] at known
    have construct := List.mem_singleton.mp known
    refine ⟨kind.mp construct, ?_⟩
    rw [formOf, construct] at form
    cases chain with
    | plain =>
        dsimp only [ChainTrace.form] at form
        split at form
        · rename_i present
          exact ⟨rfl, present⟩
        · cases form
    | headless => cases form
    | optional receiver tail => cases form
  · rintro ⟨named, rfl, present⟩
    rw [formOf, kind.mpr named]
    exact if_pos present

end ParseTree

end UnityLint
