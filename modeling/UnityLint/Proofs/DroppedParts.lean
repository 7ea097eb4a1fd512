import UnityLint.Proofs.DroppedRows
import UnityLint.Proofs.Verdict

/-! # Outlines of trees without some rows

Dropping rows before a tree is read comes to the same as dropping their outlines afterwards. -/

namespace UnityLint

def Form.roles : Form → Nat
  | .ifStatement | .invocation | .memberBinding => 1
  | .conditionalAccess | .memberAccess | .isPattern _ | .comparison _ => 2
  | _ => 0

/-! ## Outlines without some parts -/

namespace Outline

def isDropped (drops : String → Bool) : Outline → Bool
  | .node (.other label none) _ [] => drops label
  | _ => false

mutual

/-- The outline without the parts that are dropped. Parts with a role stay. -/
def without (drops : String → Bool) : Outline → Outline
  | .node form span parts => .node form span (withoutAfter drops form.roles parts)

def withoutAfter (drops : String → Bool) : Nat → List Outline → List Outline
  | _, [] => []
  | 0, part :: rest =>
      if part.isDropped drops then withoutAfter drops 0 rest
      else part.without drops :: withoutAfter drops 0 rest
  | roles + 1, part :: rest => part.without drops :: withoutAfter drops roles rest

end

variable {drops : String → Bool}

theorem withoutAfter_zero (outlines : List Outline) :
    withoutAfter drops 0 outlines =
      (outlines.filter fun outline => !outline.isDropped drops).map (without drops) := by
  induction outlines with
  | nil => rfl
  | cons outline rest induction =>
      rw [withoutAfter, induction, List.filter_cons]
      cases outline.isDropped drops <;> rfl

theorem withoutAfter_zero_of_forall {outlines : List Outline}
    (kept : ∀ outline ∈ outlines, outline.isDropped drops = false) :
    withoutAfter drops 0 outlines = outlines.map (without drops) := by
  rw [withoutAfter_zero, List.filter_eq_self.mpr]
  simpa using kept

@[simp] theorem form_without (outline : Outline) : (outline.without drops).form = outline.form := by
  cases outline
  rfl

@[simp] theorem span_without (outline : Outline) : (outline.without drops).span = outline.span := by
  cases outline
  rfl

theorem parts_without (outline : Outline) :
    (outline.without drops).parts = withoutAfter drops outline.form.roles outline.parts := by
  cases outline
  rfl

theorem getElem?_withoutAfter {index roles : Nat} (role : index < roles) (outlines : List Outline) :
    (withoutAfter drops roles outlines)[index]? = outlines[index]?.map (without drops) := by
  induction roles generalizing index outlines with
  | zero => cases role
  | succ roles induction =>
      cases outlines with
      | nil => rfl
      | cons outline rest =>
          cases index with
          | zero => rfl
          | succ index =>
              rw [withoutAfter, List.getElem?_cons_succ, List.getElem?_cons_succ,
                induction (Nat.lt_of_succ_lt_succ role)]

theorem getElem?_parts_without {outline : Outline} {index : Nat} (role : index < outline.form.roles) :
    (outline.without drops).parts[index]? = outline.parts[index]?.map (without drops) := by
  rw [parts_without, getElem?_withoutAfter role]

theorem without_eq_self (none : ∀ kind, drops kind = false) (outline : Outline) :
    outline.without drops = outline := by
  have kept (part : Outline) : part.isDropped drops = false := by
    unfold isDropped
    split
    · exact none _
    · rfl
  induction outline with
  | node form span parts induction =>
      rw [without]
      congr 1
      generalize form.roles = roles
      induction parts generalizing roles with
      | nil => rfl
      | cons part rest inner =>
          have own := induction part List.mem_cons_self
          have others := inner fun other member => induction other (List.mem_cons_of_mem _ member)
          cases roles with
          | zero => rw [withoutAfter, if_neg (by simp [kept]), own, others]
          | succ roles => rw [withoutAfter, own, others]

end Outline

/-! ## Readings without some parts -/

section Without

variable (drops : String → Bool)

def Chain.without : Chain → Chain
  | .plain => .plain
  | .headless => .headless
  | .optional receiver tail =>
      .optional (receiver.without drops) (tail.map (Outline.without drops))

def Reading.without (reading : Reading) : Reading where
  outline := reading.outline.without drops
  chain := reading.chain.without drops
  pattern := reading.pattern
  patternParts := reading.patternParts.map (Outline.without drops)

def Part.without (part : Part) : Part where
  row := part.row.without drops
  reading := part.reading.without drops

def Part.leftOf (parts : List Part) : List Part :=
  (parts.filter fun part => !drops part.row.kind).map (Part.without drops)

end Without

theorem eraseP_filter_of_forall {α : Type} {keeps finds : α → Bool} {values : List α}
    (kept : ∀ value ∈ values, finds value → keeps value) :
    (values.filter keeps).eraseP finds = (values.eraseP finds).filter keeps := by
  induction values with
  | nil => rfl
  | cons value rest induction =>
      have others := induction fun other member => kept other (List.mem_cons_of_mem _ member)
      cases found : finds value with
      | true =>
          rw [List.filter_cons_of_pos (kept value List.mem_cons_self found),
            List.eraseP_cons_of_pos found, List.eraseP_cons_of_pos found]
      | false =>
          rw [List.eraseP_cons_of_neg (by simp [found]), List.filter_cons, List.filter_cons]
          split
          · rw [List.eraseP_cons_of_neg (by simp [found]), others]
          · exact others

structure Part.Spares (source other : List Char) (drops : String → Bool) (part : Part) : Prop where
  field : drops part.row.kind → part.row.field = none
  text : (part.row.without drops).text other = part.row.text source
  outline : part.reading.outline.isDropped drops = drops part.row.kind
  tail : ∀ receiver tail, part.reading.chain = .optional receiver (some tail) →
    tail.isDropped drops = false
  pattern : part.reading.patternParts.length ≤ 1

namespace Reading

variable {source other : List Char} {drops : String → Bool} {row : ParseTree} {parts : List Part}

theorem keep_without (row : ParseTree) (outlines : List Outline) :
    keep (row.without drops) (Outline.withoutAfter drops 0 outlines) =
      (keep row outlines).without drops := by
  rw [keep, keep, ParseTree.kind_without, ParseTree.span_without, Outline.without]
  rfl

/-! ### Tails of chains -/

section Tails

variable (same : ∀ part ∈ parts, part.reading.outline.isDropped drops = drops part.row.kind)

include same

theorem isDropped_of_mem_outlines
    (kept : ∀ part ∈ parts, part.row.named → drops part.row.kind = false) {outline : Outline}
    (member : outline ∈ outlines parts) : outline.isDropped drops = false := by
  rcases List.mem_map.mp member with ⟨part, listed, rfl⟩
  rcases List.mem_filter.mp listed with ⟨inside, named⟩
  rw [same part inside, kept part inside named]

theorem isDropped_of_mem_outlines_eraseP
    (kept : ∀ part ∈ parts, part.row.named → drops part.row.kind = false) (finds : Part → Bool) :
    ∀ outline ∈ outlines (parts.eraseP finds), outline.isDropped drops = false := by
  intro outline member
  exact isDropped_of_mem_outlines (fun part inside => same part (List.mem_of_mem_eraseP inside))
    (fun part inside => kept part (List.mem_of_mem_eraseP inside)) member

omit same in
theorem isDropped_of_bound {outlines : List Outline} {tail : Outline}
    (kept : ∀ outline ∈ outlines, outline.isDropped drops = false)
    (equal : bound row outlines = some tail) : tail.isDropped drops = false := by
  match outlines with
  | [] => cases equal
  | [outline] =>
      cases equal
      exact kept tail (List.mem_singleton.mpr rfl)
  | first :: second :: rest =>
      cases equal
      rfl

omit same in
theorem isDropped_of_chainLink {field : Field} {extend : Outline → Option Outline}
    {receiver tail : Outline}
    (kept : ∀ inner outline, extend inner = some outline → outline.isDropped drops = false)
    (chain : chainLink field parts extend = .optional receiver (some tail)) :
    tail.isDropped drops = false := by
  rw [chainLink] at chain
  split at chain
  · cases chain
  · split at chain
    · rcases Option.bind_eq_some_iff.mp (Chain.optional.inj chain).2 with ⟨inner, _, found⟩
      exact kept inner tail found
    · rename_i other
      exact absurd chain (other receiver (some tail))

theorem isDropped_of_chainOf {receiver tail : Outline}
    (kept : row.kind = "conditional_access_expression" →
      ∀ part ∈ parts, part.row.named → drops part.row.kind = false)
    (chain : chainOf row parts = .optional receiver (some tail)) : tail.isDropped drops = false := by
  rw [chainOf] at chain
  split at chain
  · have left := isDropped_of_mem_outlines_eraseP same (kept ‹_›)
    rw [chainStart] at chain
    split at chain
    · exact isDropped_of_bound (left _) (Chain.optional.inj chain).2
    · split at chain
      · exact isDropped_of_bound (left _) (Chain.optional.inj chain).2
      · cases chain
  · split at chain
    · apply isDropped_of_chainLink _ chain
      intro inner outline equal
      cases equal
      rfl
    · split at chain
      · apply isDropped_of_chainLink _ chain
        intro inner outline equal
        rcases Option.map_eq_some_iff.mp equal with ⟨_, _, rfl⟩
        rfl
      · split at chain
        · apply isDropped_of_chainLink _ chain
          intro inner outline equal
          cases equal
          rfl
        · cases chain

end Tails

section Parts

variable (spares : ∀ part ∈ parts, part.Spares source other drops)

include spares

theorem outlines_leftOf :
    outlines (Part.leftOf drops parts) = Outline.withoutAfter drops 0 (outlines parts) := by
  rw [Outline.withoutAfter_zero, outlines, outlines, Part.leftOf, List.filter_map, List.map_map,
    List.filter_map, List.map_map, List.filter_filter, List.filter_filter]
  congr 1
  apply List.filter_congr
  intro part member
  simp [Part.without, (spares part member).outline, Bool.and_comm]

theorem kept_of_fills (field : Field) :
    ∀ part ∈ parts, part.row.fills field → !drops part.row.kind := by
  intro part member filled
  cases dropped : drops part.row.kind with
  | false => rfl
  | true => simp [ParseTree.fills, (spares part member).field dropped] at filled

theorem part?_leftOf (field : Field) :
    part? field (Part.leftOf drops parts) = (part? field parts).map (Part.without drops) := by
  rw [part?, Part.leftOf, List.find?_map]
  simp only [Function.comp_def, Part.without, ParseTree.fills_without]
  rw [find?_filter_of_forall (kept_of_fills spares field), part?]

omit spares in
theorem eraseP_leftOf {finds : Part → Bool}
    (same : ∀ part, finds (Part.without drops part) = finds part)
    (kept : ∀ part ∈ parts, finds part → !drops part.row.kind) :
    (Part.leftOf drops parts).eraseP finds = Part.leftOf drops (parts.eraseP finds) := by
  rw [Part.leftOf, Part.leftOf, List.eraseP_map]
  simp only [Function.comp_def, same]
  rw [eraseP_filter_of_forall kept]

theorem outlinesExcept_leftOf (field : Field) :
    outlinesExcept field (Part.leftOf drops parts) =
      Outline.withoutAfter drops 0 (outlinesExcept field parts) := by
  rw [outlinesExcept, eraseP_leftOf (by simp [Part.without]) (kept_of_fills spares field)]
  exact outlines_leftOf fun part member => spares part (List.mem_of_mem_eraseP member)

/-! ### Chains -/

omit spares in
theorem bound_without {outlines : List Outline}
    (kept : ∀ outline ∈ outlines, outline.isDropped drops = false) :
    bound (row.without drops) (Outline.withoutAfter drops 0 outlines) =
      (bound row outlines).map (Outline.without drops) := by
  rw [Outline.withoutAfter_zero_of_forall kept]
  match outlines with
  | [] => rfl
  | [outline] => rfl
  | first :: second :: rest =>
      have same : keep (row.without drops) (Outline.withoutAfter drops 0 (first :: second :: rest)) =
          (keep row (first :: second :: rest)).without drops := keep_without row _
      rw [Outline.withoutAfter_zero_of_forall kept] at same
      exact congrArg some same

theorem chainStart_leftOf (kept : ∀ part ∈ parts, part.row.named → drops part.row.kind = false) :
    chainStart (row.without drops) (Part.leftOf drops parts) =
      (chainStart row parts).without drops := by
  have left := isDropped_of_mem_outlines_eraseP (fun part member => (spares part member).outline) kept
  rw [chainStart, chainStart, part?_leftOf spares]
  cases part? .condition parts with
  | some condition =>
      dsimp only [Option.map_some]
      rw [outlinesExcept_leftOf spares, outlinesExcept, bound_without (left _)]
      rfl
  | none =>
      have keptNamed : ∀ part ∈ parts, part.row.named → !drops part.row.kind := by
        simpa using kept
      have found : (Part.leftOf drops parts).find? (·.row.named) =
          (parts.find? (·.row.named)).map (Part.without drops) := by
        rw [Part.leftOf, List.find?_map]
        simp only [Function.comp_def, Part.without, ParseTree.named_without]
        rw [find?_filter_of_forall keptNamed]
      rw [Option.map_none, found]
      cases parts.find? (·.row.named) with
      | none => rfl
      | some first =>
          dsimp only [Option.map_some]
          rw [eraseP_leftOf (by simp [Part.without]) keptNamed,
            outlines_leftOf fun part member => spares part (List.mem_of_mem_eraseP member),
            bound_without (left _)]
          rfl

theorem chainLink_leftOf {field : Field} {extend extend' : Outline → Option Outline}
    (continues : ∀ inner ∈ part? field parts, ∀ receiver tail,
      inner.reading.chain = .optional receiver (some tail) →
        extend' (tail.without drops) = (extend tail).map (Outline.without drops)) :
    chainLink field (Part.leftOf drops parts) extend' =
      (chainLink field parts extend).without drops := by
  rw [chainLink, chainLink, part?_leftOf spares]
  cases found : part? field parts with
  | none => rfl
  | some inner =>
      dsimp only [Option.map_some, Part.without, Reading.without]
      cases chain : inner.reading.chain with
      | plain => rfl
      | headless => rfl
      | optional receiver tail =>
          cases tail with
          | none => rfl
          | some tail =>
              have same := continues inner found receiver tail chain
              simp only [Chain.without, Option.map_some, Option.bind_some, same]

theorem chainOf_leftOf
    (kept : row.kind = "conditional_access_expression" →
      ∀ part ∈ parts, part.row.named → drops part.row.kind = false) :
    chainOf (row.without drops) (Part.leftOf drops parts) = (chainOf row parts).without drops := by
  rw [chainOf, chainOf, ParseTree.kind_without, ParseTree.span_without]
  split
  · exact chainStart_leftOf spares (kept ‹_›)
  · split
    · apply chainLink_leftOf spares
      intro inner _ receiver tail _
      rw [outlinesExcept_leftOf spares]
      rfl
    · split
      · apply chainLink_leftOf spares
        intro inner _ receiver tail _
        rw [part?_leftOf spares]
        cases part? .name parts <;> rfl
      · split
        · apply chainLink_leftOf spares
          intro inner found receiver tail chain
          have spared := (spares inner (List.mem_of_find?_eq_some found)).tail receiver tail chain
          rw [outlinesExcept_leftOf spares, Option.map_some, ← keep_without, Outline.withoutAfter,
            spared]
          rfl
        · rfl

theorem onChain_leftOf {alone alone' : Outline}
    (kept : row.kind = "conditional_access_expression" →
      ∀ part ∈ parts, part.row.named → drops part.row.kind = false)
    (same : alone' = alone.without drops) :
    onChain (row.without drops) (Part.leftOf drops parts) alone' =
      (onChain row parts alone).without drops := by
  rw [onChain, onChain, chainOf_leftOf spares kept]
  cases chainOf row parts with
  | plain => exact same
  | headless =>
      dsimp only [Chain.without]
      rw [outlines_leftOf spares, keep_without]
  | optional receiver tail =>
      dsimp only [Chain.without]
      rw [ParseTree.span_without]
      cases tail <;> rfl

/-! ### Constructs -/

theorem keep_leftOf :
    keep (row.without drops) (outlines (Part.leftOf drops parts)) =
      (keep row (outlines parts)).without drops := by
  rw [outlines_leftOf spares, keep_without]

theorem ifStatement_leftOf :
    ifStatement (row.without drops) (Part.leftOf drops parts) =
      (ifStatement row parts).without drops := by
  rw [ifStatement, ifStatement, part?_leftOf spares, outlinesExcept_leftOf spares,
    keep_leftOf spares, ParseTree.span_without]
  cases part? .condition parts <;> rfl

theorem invocation_leftOf :
    invocation (row.without drops) (Part.leftOf drops parts) =
      (invocation row parts).without drops := by
  rw [invocation, invocation, part?_leftOf spares, outlinesExcept_leftOf spares,
    keep_leftOf spares, ParseTree.span_without]
  cases part? .function parts <;> rfl

theorem memberAccess_leftOf :
    memberAccess (row.without drops) (Part.leftOf drops parts) =
      (memberAccess row parts).without drops := by
  rw [memberAccess, memberAccess, part?_leftOf spares, part?_leftOf spares, keep_leftOf spares,
    ParseTree.span_without]
  cases part? .expression parts <;> cases part? .name parts <;> rfl

theorem memberBinding_leftOf :
    memberBinding (row.without drops) (Part.leftOf drops parts) =
      (memberBinding row parts).without drops := by
  rw [memberBinding, memberBinding, part?_leftOf spares, keep_leftOf spares,
    ParseTree.span_without]
  cases part? .name parts <;> rfl

theorem binary_leftOf :
    binary other (row.without drops) (Part.leftOf drops parts) =
      (binary source row parts).without drops := by
  have written : ((part? .operator (Part.leftOf drops parts)).bind fun operator =>
      comparisonOp? (operator.row.text other)) =
        (part? .operator parts).bind fun operator => comparisonOp? (operator.row.text source) := by
    rw [part?_leftOf spares, Option.bind_map]
    apply Option.bind_congr
    intro operator found
    have same := (spares operator (List.mem_of_find?_eq_some found)).text
    rw [Function.comp_apply, Part.without, same]
  rw [binary, binary, written, part?_leftOf spares, part?_leftOf spares, keep_leftOf spares,
    ParseTree.span_without]
  cases (part? .operator parts).bind fun operator => comparisonOp? (operator.row.text source) <;>
    cases part? .left parts <;> cases part? .right parts <;> rfl

theorem isPattern_leftOf :
    isPattern (row.without drops) (Part.leftOf drops parts) =
      (isPattern row parts).without drops := by
  rw [isPattern, isPattern, part?_leftOf spares, part?_leftOf spares, keep_leftOf spares,
    ParseTree.span_without]
  cases part? .expression parts with
  | none => cases part? .pattern parts <;> rfl
  | some subject =>
      cases found : part? .pattern parts with
      | none => rfl
      | some pattern =>
          have short := (spares pattern (List.mem_of_find?_eq_some found)).pattern
          dsimp only [Option.map_some, Part.without, Reading.without]
          rcases patternParts : pattern.reading.patternParts with _ | ⟨outline, _ | _⟩
          · rfl
          · rfl
          · simp [patternParts] at short

end Parts

section Rows

variable {fileSpace : Option String} {spaces : List String}
  (comments : ∀ kind, drops kind → kind = "comment") (spared : row.Spared source other drops)
  (spares : ∀ part ∈ parts, part.Spares source other drops)
  (access : row.kind = "conditional_access_expression" →
    ∀ part ∈ parts, part.row.named → drops part.row.kind = false)

include comments spared spares access

theorem outlineOf_leftOf :
    outlineOf other fileSpace spaces (row.without drops) (Part.leftOf drops parts) =
      (outlineOf source fileSpace spaces row parts).without drops := by
  rw [outlineOf, outlineOf, ParseTree.kind_without, ParseTree.span_without]
  cases construct : Construct.ofKind row.kind with
  | compilationUnit =>
      dsimp only
      rw [outlines_leftOf spares]
      rfl
  | usingDirective =>
      dsimp only
      rw [outlines_leftOf spares, spared.text_without]
      rfl
  | namespaceDeclaration =>
      dsimp only
      rw [outlinesExcept_leftOf spares, keep_without]
  | typeDeclaration =>
      dsimp only
      rw [outlinesExcept_leftOf spares, ParseTree.typeInfo_without comments spared]
      rfl
  | methodDeclaration =>
      have kept : drops row.kind = false := by
        rw [(Construct.ofKind_eq_iff_eq _ rfl).mp construct]
        exact ParseTree.drops_eq_false comments (by decide)
      dsimp only
      rw [outlinesExcept_leftOf spares, ParseTree.methodInfo_without comments spared kept,
        spared.declaredName_without]
      rfl
  | ifStatement => exact ifStatement_leftOf spares
  | invocation => exact onChain_leftOf spares access (invocation_leftOf spares)
  | memberAccess => exact onChain_leftOf spares access (memberAccess_leftOf spares)
  | conditionalAccess => exact onChain_leftOf spares access (keep_leftOf spares)
  | memberBinding => exact memberBinding_leftOf spares
  | binary => exact binary_leftOf spares
  | isPattern => exact isPattern_leftOf spares
  | identifier =>
      dsimp only
      rw [spared.text_without]
      rfl
  | genericName =>
      have name : ((row.without drops).childOfKind? "identifier").map
          (fun child => String.ofList (child.text other)) =
            (row.childOfKind? "identifier").map fun child => String.ofList (child.text source) := by
        rw [ParseTree.childOfKind?_without comments row (by decide), Option.map_map]
        apply Option.map_congr
        intro child found
        rw [Function.comp_apply, (spared.of_childOfKind? found).text_without]
      dsimp only
      rw [name]
      rfl
  | nullLiteral => rfl
  | literal =>
      dsimp only
      rw [outlines_leftOf spares]
      rfl
  | other => exact keep_leftOf spares

variable (wraps : row.wrapsPattern →
  ∀ first ∈ parts.find? (·.row.named), drops first.row.kind = false)

include wraps

theorem ofParts_leftOf :
    ofParts other fileSpace spaces (row.without drops) (Part.leftOf drops parts) =
      (ofParts source fileSpace spaces row parts).without drops := by
  have first (wrapping : row.wrapsPattern) : (Part.leftOf drops parts).find? (·.row.named) =
      (parts.find? (·.row.named)).map (Part.without drops) := by
    rw [Part.leftOf, List.find?_map]
    simp only [Function.comp_def, Part.without, ParseTree.named_without]
    rw [find?_filter_of_find? (by simpa using wraps wrapping)]
  have pattern (outline : Outline) :
      patternOf (row.without drops) (Part.leftOf drops parts) (outline.without drops) =
        ((patternOf row parts outline).1,
          (patternOf row parts outline).2.map (Outline.without drops)) := by
    rw [patternOf, patternOf, ParseTree.kind_without]
    split
    · rename_i kind
      rw [first (by simpa [ParseTree.wrapsPattern, ← or_assoc] using .inl kind)]
      cases parts.find? (·.row.named) <;> rfl
    · split
      · rename_i kind
        rw [first (by simp [ParseTree.wrapsPattern, kind])]
        cases parts.find? (·.row.named) <;> rfl
      · split <;> rfl
  simp only [ofParts, Reading.without, outlineOf_leftOf comments spared spares access, pattern,
    chainOf_leftOf spares access]

end Rows

end Reading

namespace ParseTree

variable {source other : List Char} {drops : String → Bool}

theorem eq_kind_of_formOf {fileSpace : Option String} {spaces : List String} {row : ParseTree}
    {chain : ChainTrace} {label : String}
    (kept : row.formOf source fileSpace spaces chain = .other label none) : label = row.kind := by
  have ofOther {directive : Option UsingDirective}
      (same : Form.other row.kind directive = .other label none) : label = row.kind :=
    (Form.other.inj same).1.symm
  have ofChain {alone : Form} (same : chain.form row.kind alone = .other label none)
      (own : alone = .other label none → label = row.kind) : label = row.kind := by
    cases chain with
    | plain => exact own same
    | headless => exact ofOther same
    | optional receiver tail => cases same
  have ofIte {condition : Prop} [Decidable condition] {form : Form}
      (same : (if condition then form else .other row.kind none) = .other label none)
      (own : form ≠ .other label none) : label = row.kind := by
    split at same
    · exact absurd same own
    · exact ofOther same
  rw [formOf] at kept
  cases construct : Construct.ofKind row.kind <;> rw [construct] at kept <;> dsimp only at kept
  case usingDirective | namespaceDeclaration | other => exact ofOther kept
  case ifStatement | memberBinding => exact ofIte kept Form.noConfusion
  case conditionalAccess => exact ofChain kept ofOther
  case invocation | memberAccess => exact ofChain kept fun same => ofIte same Form.noConfusion
  case binary =>
    split at kept
    · exact ofIte kept Form.noConfusion
    · exact ofOther kept
  case isPattern =>
    split at kept
    · exact ofIte kept Form.noConfusion
    · exact ofOther kept
  all_goals cases kept

theorem Spares.isDropped_read {row : ParseTree} (comments : ∀ kind, drops kind → kind = "comment")
    (spares : row.Spares source other drops) (text : List Char) (fileSpace : Option String)
    (spaces : List String) :
    (row.read text fileSpace spaces).outline.isDropped drops = drops row.kind := by
  cases dropped : drops row.kind with
  | true =>
      have construct : Construct.ofKind row.kind = .other := by
        rw [comments row.kind dropped]
        decide
      have childless := (spares.leaf dropped).2
      rw [read_eq, childless]
      simp only [Reading.ofParts, Reading.outlineOf, construct]
      exact dropped
  | false =>
      rw [Outline.isDropped.eq_def]
      split
      · rename_i label span equal
        have form := form_read text fileSpace spaces row _
          (agrees_trace text fileSpace spaces [] row).chain
        rw [equal] at form
        rw [eq_kind_of_formOf form.symm, dropped]
      · rfl

def readParts (source : List Char) (fileSpace : Option String) (spaces : List String)
    (row : ParseTree) : List Part :=
  row.children.map fun child =>
    ⟨child, child.read source fileSpace (row.innerSpaces source spaces)⟩

theorem read_eq_ofParts (source : List Char) (fileSpace : Option String) (spaces : List String)
    (row : ParseTree) :
    row.read source fileSpace spaces =
      .ofParts source fileSpace spaces row (row.readParts source fileSpace spaces) :=
  read_eq ..

theorem mem_readParts {fileSpace : Option String} {spaces : List String} {row : ParseTree}
    {part : Part} :
    part ∈ row.readParts source fileSpace spaces ↔ ∃ child ∈ row.children,
      ⟨child, child.read source fileSpace (row.innerSpaces source spaces)⟩ = part :=
  List.mem_map

theorem length_patternParts_read (source : List Char) (fileSpace : Option String)
    (spaces : List String) (row : ParseTree) :
    (row.read source fileSpace spaces).patternParts.length ≤ 1 := by
  induction row generalizing spaces with
  | row kind named field extent children induction =>
      rw [read_eq_ofParts]
      generalize all : readParts source fileSpace spaces _ = parts
      have inner {part : Part} (found : parts.find? (·.row.named) = some part) :
          part.reading.patternParts.length ≤ 1 := by
        subst all
        rcases mem_readParts.mp (List.mem_of_find?_eq_some found) with ⟨child, member, rfl⟩
        exact induction child member _
      simp only [Reading.ofParts, Reading.patternOf]
      split
      · split
        · exact inner ‹_›
        · exact Nat.zero_le _
      · split
        · split
          · exact inner ‹_›
          · exact Nat.zero_le _
        · split <;> exact Nat.le_refl _

section Read

variable (comments : ∀ kind, drops kind → kind = "comment") {row : ParseTree}
  (spared : row.Spared source other drops)

include spared

theorem Spared.access_readParts (fileSpace : Option String) (spaces : List String)
    (access : row.kind = "conditional_access_expression") :
    ∀ part ∈ row.readParts source fileSpace spaces,
      part.row.named → drops part.row.kind = false := by
  intro part member named
  rcases mem_readParts.mp member with ⟨child, inside, rfl⟩
  exact spared.here.access access child (List.mem_filter.mpr ⟨inside, named⟩)

include comments

theorem isDropped_readParts (fileSpace : Option String) (spaces : List String) :
    ∀ part ∈ row.readParts source fileSpace spaces,
      part.reading.outline.isDropped drops = drops part.row.kind := by
  intro part member
  rcases mem_readParts.mp member with ⟨child, inside, rfl⟩
  exact (spared.of_mem_children inside).here.isDropped_read comments ..

theorem spares_readParts (fileSpace : Option String) (spaces : List String) :
    ∀ part ∈ row.readParts source fileSpace spaces, part.Spares source other drops := by
  intro part member
  have outline := isDropped_readParts comments spared fileSpace spaces part member
  rcases mem_readParts.mp member with ⟨child, inside, rfl⟩
  have below := spared.of_mem_children inside
  refine ⟨fun dropped => (below.here.leaf dropped).1, below.text_without, outline, ?_,
    length_patternParts_read ..⟩
  intro receiver tail chain
  rw [read_eq_ofParts] at chain
  exact Reading.isDropped_of_chainOf (isDropped_readParts comments below _ _)
    (below.access_readParts _ _) chain

/-- Dropping rows before a row is read comes to the same as dropping their outlines afterwards. -/
theorem read_without (fileSpace : Option String) (spaces : List String) :
    (row.without drops).read other fileSpace spaces =
      (row.read source fileSpace spaces).without drops := by
  induction row generalizing spaces with
  | row kind named field extent children induction =>
      have left : ((ParseTree.row kind named field extent children).without drops).readParts other
          fileSpace spaces =
            Part.leftOf drops ((ParseTree.row kind named field extent children).readParts source
              fileSpace spaces) := by
        rw [readParts, readParts, Part.leftOf, children_without, spared.innerSpaces_without,
          List.map_map, List.filter_map, List.map_map]
        apply List.map_congr_left
        intro child member
        have inside : child ∈ children := List.mem_of_mem_filter member
        simp only [Function.comp_apply, Part.without,
          induction child inside (spared.of_mem_children inside)]
      rw [read_eq_ofParts, read_eq_ofParts, left]
      apply Reading.ofParts_leftOf comments spared (spares_readParts comments spared _ _)
        (spared.access_readParts _ _)
      intro wraps first found
      rw [readParts, List.find?_map] at found
      rcases Option.map_eq_some_iff.mp found with ⟨child, inside, rfl⟩
      exact spared.here.pattern wraps child inside

end Read

end ParseTree

end UnityLint
