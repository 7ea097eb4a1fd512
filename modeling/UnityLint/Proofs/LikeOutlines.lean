import UnityLint.Proofs.LikeRows
import UnityLint.Proofs.Verdict

/-! # Outlines of rows that are alike

The outlines of rows that are alike differ in the places of their nodes only. -/

namespace UnityLint

/-! ## Outlines without places -/

namespace Outline

mutual

def unplaced : Outline → Outline
  | .node form _ parts => .node form {} (unplacedAll parts)

def unplacedAll : List Outline → List Outline
  | [] => []
  | part :: rest => part.unplaced :: unplacedAll rest

end

theorem unplacedAll_eq_map (outlines : List Outline) :
    unplacedAll outlines = outlines.map unplaced := by
  induction outlines with
  | nil => rfl
  | cons outline rest induction => rw [unplacedAll, induction, List.map_cons]

@[simp] theorem unplaced_node (form : Form) (span : Span) (parts : List Outline) :
    (node form span parts).unplaced = .node form {} (parts.map unplaced) := by
  rw [unplaced, unplacedAll_eq_map]

end Outline

def Chain.unplaced : Chain → Chain
  | .plain => .plain
  | .headless => .headless
  | .optional receiver tail => .optional receiver.unplaced (tail.map Outline.unplaced)

theorem Chain.cases_of_unplaced_eq {chain copy : Chain} (same : copy.unplaced = chain.unplaced) :
    chain = .plain ∧ copy = .plain ∨ chain = .headless ∧ copy = .headless ∨
      ∃ receiver tail receiverCopy tailCopy, chain = .optional receiver tail ∧
        copy = .optional receiverCopy tailCopy ∧ receiverCopy.unplaced = receiver.unplaced ∧
        tailCopy.map Outline.unplaced = tail.map Outline.unplaced := by
  cases chain <;> cases copy <;> simp [unplaced] at same ⊢
  exact same

def Reading.unplaced (reading : Reading) : Reading where
  outline := reading.outline.unplaced
  chain := reading.chain.unplaced
  pattern := reading.pattern
  patternParts := reading.patternParts.map Outline.unplaced

theorem Reading.unplaced_eq_iff {reading copy : Reading} :
    copy.unplaced = reading.unplaced ↔
      copy.outline.unplaced = reading.outline.unplaced ∧
        copy.chain.unplaced = reading.chain.unplaced ∧ copy.pattern = reading.pattern ∧
        copy.patternParts.map Outline.unplaced = reading.patternParts.map Outline.unplaced := by
  simp only [unplaced, Reading.mk.injEq]

/-! ## Parts that are alike -/

structure Part.Alike (source other : List Char) (part copy : Part) : Prop where
  named : copy.row.named = part.row.named
  field : copy.row.field = part.row.field
  operator : part.row.field = some .operator → copy.row.text other = part.row.text source
  reading : copy.reading.unplaced = part.reading.unplaced

namespace Part.Alike

variable {source other : List Char} {part copy : Part} (alike : part.Alike source other copy)

include alike

theorem outline_eq : copy.reading.outline.unplaced = part.reading.outline.unplaced :=
  (Reading.unplaced_eq_iff.mp alike.reading).1

theorem chain_eq : copy.reading.chain.unplaced = part.reading.chain.unplaced :=
  (Reading.unplaced_eq_iff.mp alike.reading).2.1

theorem pattern_eq : copy.reading.pattern = part.reading.pattern :=
  (Reading.unplaced_eq_iff.mp alike.reading).2.2.1

theorem patternParts_eq :
    copy.reading.patternParts.map Outline.unplaced =
      part.reading.patternParts.map Outline.unplaced :=
  (Reading.unplaced_eq_iff.mp alike.reading).2.2.2

theorem fills_eq (field : Field) : copy.row.fills field = part.row.fills field := by
  rw [ParseTree.fills, ParseTree.fills, alike.field]

end Part.Alike

namespace Reading

variable {source other : List Char} {row moved : ParseTree} (kind : moved.kind = row.kind)

include kind in
theorem keep_unplaced {outlines again : List Outline}
    (same : again.map Outline.unplaced = outlines.map Outline.unplaced) :
    (keep moved again).unplaced = (keep row outlines).unplaced := by
  rw [keep, keep, Outline.unplaced_node, Outline.unplaced_node, kind, same]

variable {parts copies : List Part} (all : List.Forall₂ (Part.Alike source other) parts copies)

include all

theorem outlines_unplaced :
    (outlines copies).map Outline.unplaced = (outlines parts).map Outline.unplaced := by
  have named : List.Forall₂ (Part.Alike source other) (parts.filter (·.row.named))
      (copies.filter (·.row.named)) :=
    forall₂_filter (fun _ _ part => part.named) (fun _ _ part _ => part) all
  rw [outlines, outlines, List.map_map, List.map_map]
  exact map_eq_of_forall₂ (fun _ _ part => part.outline_eq) named

theorem outlinesExcept_unplaced (field : Field) :
    (outlinesExcept field copies).map Outline.unplaced =
      (outlinesExcept field parts).map Outline.unplaced :=
  outlines_unplaced (forall₂_eraseP (fun _ _ part => part.fills_eq field) all)

theorem rel_part? (field : Field) :
    Option.Rel (fun part copy => part.Alike source other copy ∧ part.row.field = some field)
      (part? field parts) (part? field copies) := by
  refine rel_find? (fun _ _ part => part.fills_eq field) ?_ all
  intro part copy like filled
  exact ⟨like, by simpa [ParseTree.fills] using filled⟩

theorem rel_firstNamed : Option.Rel (Part.Alike source other) (parts.find? (·.row.named))
    (copies.find? (·.row.named)) :=
  rel_find? (fun _ _ part => part.named) (fun _ _ part _ => part) all

include kind

/-! ### Chains -/

omit all in
theorem bound_unplaced {outlines again : List Outline}
    (same : again.map Outline.unplaced = outlines.map Outline.unplaced) :
    (bound moved again).map Outline.unplaced = (bound row outlines).map Outline.unplaced := by
  match outlines, again, same with
  | [], [], _ => rfl
  | [outline], [copy], same => exact congrArg some (List.cons.inj same).1
  | [_], _ :: _ :: _, same => cases (List.cons.inj same).2
  | _ :: _ :: _, [_], same => cases (List.cons.inj same).2
  | _ :: _ :: _, _ :: _ :: _, same => exact congrArg some (keep_unplaced kind same)

theorem chainStart_unplaced :
    (chainStart moved copies).unplaced = (chainStart row parts).unplaced := by
  rw [chainStart, chainStart]
  rcases rel_cases (rel_part? all .condition) with
    ⟨own, copied⟩ | ⟨condition, copy, own, copied, like, _⟩
  · rw [own, copied]
    rcases rel_cases (rel_firstNamed all) with ⟨own, copied⟩ | ⟨first, copy, own, copied, like⟩
    · rw [own, copied]
    · have others := outlines_unplaced (forall₂_eraseP (fun _ _ part => part.named) all)
      simp only [own, copied, Chain.unplaced, like.outline_eq, bound_unplaced kind others]
  · simp only [own, copied, Chain.unplaced, like.outline_eq,
      bound_unplaced kind (outlinesExcept_unplaced all .condition)]

omit kind in
theorem chainLink_unplaced (field : Field) {extend again : Outline → Option Outline}
    (same : ∀ outline copy : Outline, copy.unplaced = outline.unplaced →
      (again copy).map Outline.unplaced = (extend outline).map Outline.unplaced) :
    (chainLink field copies again).unplaced = (chainLink field parts extend).unplaced := by
  rw [chainLink, chainLink]
  rcases rel_cases (rel_part? all field) with ⟨own, copied⟩ | ⟨part, copy, own, copied, like, _⟩
  · rw [own, copied]
  · rw [own, copied]
    dsimp only
    rcases Chain.cases_of_unplaced_eq like.chain_eq with ⟨inner, innerCopy⟩ | ⟨inner, innerCopy⟩ |
      ⟨receiver, tail, receiverCopy, tailCopy, inner, innerCopy, receivers, tails⟩
    · rw [inner, innerCopy]
    · rw [inner, innerCopy]
    · simp only [inner, innerCopy, Chain.unplaced, Chain.optional.injEq]
      refine ⟨receivers, ?_⟩
      cases tail with
      | none =>
          rw [Option.map_eq_none_iff.mp tails]
          rfl
      | some outline =>
          rcases Option.map_eq_some_iff.mp tails with ⟨outlineCopy, rfl, equal⟩
          exact same outline outlineCopy equal

theorem chainOf_unplaced : (chainOf moved copies).unplaced = (chainOf row parts).unplaced := by
  rw [chainOf, chainOf, kind]
  split
  · exact chainStart_unplaced kind all
  split
  · apply chainLink_unplaced all
    intro outline copy same
    simp [same, outlinesExcept_unplaced all]
  split
  · apply chainLink_unplaced all
    intro outline copy same
    rcases rel_cases (rel_part? all .name) with ⟨own, copied⟩ | ⟨member, name, own, copied, like, _⟩
    · rw [own, copied]
      rfl
    · simp [own, copied, same, like.outline_eq]
  split
  · apply chainLink_unplaced all
    intro outline copy same
    exact congrArg some (keep_unplaced kind (by simp [same, outlinesExcept_unplaced all]))
  · rfl

/-! ### Constructs -/

theorem onChain_unplaced {alone again : Outline} (same : again.unplaced = alone.unplaced) :
    (onChain moved copies again).unplaced = (onChain row parts alone).unplaced := by
  rw [onChain, onChain]
  rcases Chain.cases_of_unplaced_eq (chainOf_unplaced kind all) with ⟨own, copied⟩ | ⟨own, copied⟩ |
    ⟨receiver, tail, receiverCopy, tailCopy, own, copied, receivers, tails⟩
  · rw [own, copied]
    exact same
  · rw [own, copied]
    exact keep_unplaced kind (outlines_unplaced all)
  · have links : tailCopy.toList.map Outline.unplaced = tail.toList.map Outline.unplaced := by
      rw [← Option.toList_map, ← Option.toList_map, tails]
    simp [own, copied, receivers, links]

theorem ifStatement_unplaced :
    (ifStatement moved copies).unplaced = (ifStatement row parts).unplaced := by
  rw [ifStatement, ifStatement]
  rcases rel_cases (rel_part? all .condition) with
    ⟨own, copied⟩ | ⟨condition, copy, own, copied, like, _⟩
  · rw [own, copied]
    exact keep_unplaced kind (outlines_unplaced all)
  · simp [own, copied, like.outline_eq, outlinesExcept_unplaced all]

theorem invocation_unplaced :
    (invocation moved copies).unplaced = (invocation row parts).unplaced := by
  rw [invocation, invocation]
  rcases rel_cases (rel_part? all .function) with
    ⟨own, copied⟩ | ⟨callee, copy, own, copied, like, _⟩
  · rw [own, copied]
    exact keep_unplaced kind (outlines_unplaced all)
  · simp [own, copied, like.outline_eq, outlinesExcept_unplaced all]

theorem memberAccess_unplaced :
    (memberAccess moved copies).unplaced = (memberAccess row parts).unplaced := by
  have kept := keep_unplaced kind (outlines_unplaced all)
  rw [memberAccess, memberAccess]
  rcases rel_cases (rel_part? all .expression) with
    ⟨own, copied⟩ | ⟨receiver, copy, own, copied, like, _⟩
  · rw [own, copied]
    exact kept
  rcases rel_cases (rel_part? all .name) with
    ⟨ownName, copiedName⟩ | ⟨member, name, ownName, copiedName, memberLike, _⟩
  · rw [own, copied, ownName, copiedName]
    exact kept
  · simp [own, copied, ownName, copiedName, like.outline_eq, memberLike.outline_eq]

theorem memberBinding_unplaced :
    (memberBinding moved copies).unplaced = (memberBinding row parts).unplaced := by
  rw [memberBinding, memberBinding]
  rcases rel_cases (rel_part? all .name) with ⟨own, copied⟩ | ⟨member, copy, own, copied, like, _⟩
  · rw [own, copied]
    exact keep_unplaced kind (outlines_unplaced all)
  · simp [own, copied, like.outline_eq]

omit kind in
theorem comparisonOp?_eq :
    ((part? .operator copies).bind fun operator => comparisonOp? (operator.row.text other)) =
      (part? .operator parts).bind fun operator => comparisonOp? (operator.row.text source) := by
  rcases rel_cases (rel_part? all .operator) with
    ⟨own, copied⟩ | ⟨operator, copy, own, copied, like, filled⟩
  · rw [own, copied]
    rfl
  · rw [own, copied]
    exact congrArg comparisonOp? (like.operator filled)

theorem binary_unplaced :
    (binary other moved copies).unplaced = (binary source row parts).unplaced := by
  have kept := keep_unplaced kind (outlines_unplaced all)
  rw [binary, binary, comparisonOp?_eq all]
  cases (part? .operator parts).bind fun operator => comparisonOp? (operator.row.text source) with
  | none => exact kept
  | some op =>
      rcases rel_cases (rel_part? all .left) with
        ⟨own, copied⟩ | ⟨left, copy, own, copied, like, _⟩
      · rw [own, copied]
        exact kept
      rcases rel_cases (rel_part? all .right) with
        ⟨ownRight, copiedRight⟩ | ⟨right, again, ownRight, copiedRight, rightLike, _⟩
      · rw [own, copied, ownRight, copiedRight]
        exact kept
      · simp [own, copied, ownRight, copiedRight, like.outline_eq, rightLike.outline_eq]

theorem isPattern_unplaced :
    (isPattern moved copies).unplaced = (isPattern row parts).unplaced := by
  have kept := keep_unplaced kind (outlines_unplaced all)
  rw [isPattern, isPattern]
  rcases rel_cases (rel_part? all .expression) with
    ⟨own, copied⟩ | ⟨subject, copy, own, copied, like, _⟩
  · rw [own, copied]
    exact kept
  rcases rel_cases (rel_part? all .pattern) with
    ⟨ownPattern, copiedPattern⟩ | ⟨pattern, again, ownPattern, copiedPattern, patternLike, _⟩
  · rw [own, copied, ownPattern, copiedPattern]
    exact kept
  · simp [own, copied, ownPattern, copiedPattern, like.outline_eq, patternLike.pattern_eq,
      patternLike.patternParts_eq]

/-! ### Rows -/

omit kind in
theorem outlineOf_unplaced (alike : ParseTree.Alike source other row moved)
    (fileSpace : Option String) (spaces : List String) :
    (outlineOf other fileSpace spaces moved copies).unplaced =
      (outlineOf source fileSpace spaces row parts).unplaced := by
  have kind := alike.kind_eq
  have whole := outlines_unplaced all
  have unnamed := outlinesExcept_unplaced all .name
  rw [outlineOf, outlineOf, kind]
  cases construct : Construct.ofKind row.kind with
  | compilationUnit => simp [whole]
  | usingDirective =>
      have directive := (Construct.ofKind_eq_iff_eq .usingDirective rfl).mp construct
      simp [whole, alike.text_eq (by simp [ParseTree.countsByText, directive])]
  | namespaceDeclaration => exact keep_unplaced kind unnamed
  | typeDeclaration => simp [alike.typeInfo_eq, unnamed]
  | methodDeclaration => simp [alike.declaredName_eq, alike.methodInfo_eq, unnamed]
  | ifStatement => exact ifStatement_unplaced kind all
  | invocation => exact onChain_unplaced kind all (invocation_unplaced kind all)
  | memberAccess => exact onChain_unplaced kind all (memberAccess_unplaced kind all)
  | conditionalAccess => exact onChain_unplaced kind all (keep_unplaced kind whole)
  | memberBinding => exact memberBinding_unplaced kind all
  | binary => exact binary_unplaced kind all
  | isPattern => exact isPattern_unplaced kind all
  | identifier =>
      have identifier := (Construct.ofKind_eq_iff_eq .identifier rfl).mp construct
      simp [alike.text_eq (by simp [ParseTree.countsByText, identifier])]
  | genericName =>
      have name : ((moved.childOfKind? "identifier").map fun child =>
          String.ofList (child.text other)) =
            (row.childOfKind? "identifier").map fun child => String.ofList (child.text source) := by
        refine map_eq_of_rel ?_ (alike.rel_childOfKind? (by decide))
        rintro child copy ⟨like, identifier⟩
        exact like.ofList_text_eq (by simp [ParseTree.countsByText, identifier])
      simp [name]
  | nullLiteral => rfl
  | literal => simp [whole]
  | other => exact keep_unplaced kind whole

theorem patternOf_unplaced {outline copy : Outline} (same : copy.unplaced = outline.unplaced) :
    (patternOf moved copies copy).1 = (patternOf row parts outline).1 ∧
      (patternOf moved copies copy).2.map Outline.unplaced =
        (patternOf row parts outline).2.map Outline.unplaced := by
  rw [patternOf, patternOf, kind]
  rcases rel_cases (rel_firstNamed all) with ⟨own, copied⟩ | ⟨first, again, own, copied, like⟩
  · rw [own, copied]
    split
    · exact ⟨rfl, rfl⟩
    split
    · exact ⟨rfl, rfl⟩
    split <;> simp [same]
  · rw [own, copied]
    split
    · exact ⟨like.pattern_eq, like.patternParts_eq⟩
    split
    · exact ⟨congrArg Pattern.negated like.pattern_eq, like.patternParts_eq⟩
    split <;> simp [same]

omit kind in
theorem ofParts_unplaced (alike : ParseTree.Alike source other row moved)
    (fileSpace : Option String) (spaces : List String) :
    (ofParts other fileSpace spaces moved copies).unplaced =
      (ofParts source fileSpace spaces row parts).unplaced := by
  have outline := outlineOf_unplaced all alike fileSpace spaces
  have pattern := patternOf_unplaced alike.kind_eq all outline
  simp only [ofParts, unplaced, outline, chainOf_unplaced alike.kind_eq all, pattern]

omit kind all in
theorem patternOf_eq_constant (constant : row.kind ∈ ["null_literal", "is_pattern_expression"])
    (outline : Outline) : patternOf row parts outline = (.constant (), [outline]) := by
  have kinds : ∀ kind ∈ ["null_literal", "is_pattern_expression"],
      ¬(kind = "constant_pattern" ∨ kind = "parenthesized_pattern") ∧ kind ≠ "negated_pattern" ∧
        ¬("_pattern".toList.isSuffixOf kind.toList ∨ kind = "discard") := by
    decide
  rcases kinds row.kind constant with ⟨unwrapped, positive, other⟩
  rw [patternOf, if_neg unwrapped, if_neg positive, if_neg other]

omit all in
theorem ofParts_unplaced_of_isPattern (isTest : row.kind = "is_pattern_expression")
    {subject subjectCopy pattern patternCopy : Part}
    (subject_eq : part? .expression parts = some subject)
    (subjectCopy_eq : part? .expression copies = some subjectCopy)
    (pattern_eq : part? .pattern parts = some pattern)
    (patternCopy_eq : part? .pattern copies = some patternCopy)
    (subjects : subjectCopy.reading.outline.unplaced = subject.reading.outline.unplaced)
    (patterns : patternCopy.reading.pattern = pattern.reading.pattern ∧
      patternCopy.reading.patternParts.map Outline.unplaced =
        pattern.reading.patternParts.map Outline.unplaced)
    (fileSpace : Option String) (spaces : List String) :
    (ofParts other fileSpace spaces moved copies).unplaced =
      (ofParts source fileSpace spaces row parts).unplaced := by
  have testCopy := kind.trans isTest
  have outline : (outlineOf other fileSpace spaces moved copies).unplaced =
      (outlineOf source fileSpace spaces row parts).unplaced := by
    rw [outlineOf, outlineOf, kind, (Construct.ofKind_eq_iff_eq .isPattern rfl).mpr isTest]
    simp [isPattern, subject_eq, subjectCopy_eq, pattern_eq, patternCopy_eq, subjects, patterns]
  simp only [ofParts, unplaced, outline, patternOf_eq_constant (show row.kind ∈ _ by simp [isTest]),
    patternOf_eq_constant (show moved.kind ∈ _ by simp [testCopy]), List.map_cons, List.map_nil]
  simp [chainOf, isTest, testCopy]

end Reading

/-! ## Null patterns -/

def Pattern.negations : Nat → Pattern Unit
  | 0 => .constant ()
  | count + 1 => .negated (negations count)

namespace ParseTree

variable {source other : List Char} {row moved : ParseTree}

theorem Layered.read_eq {core : ParseTree} {layers : List PatternLayer}
    (layered : Layered core layers row) (null : core.kind = "null_literal") (source : List Char)
    (fileSpace : Option String) (spaces : List String) :
    (row.read source fileSpace spaces).pattern = .negations (layers.count .negated) ∧
      (row.read source fileSpace spaces).patternParts = [.node (.literal .null) core.span []] := by
  induction layered with
  | core =>
      have construct := (Construct.ofKind_eq_iff_eq .nullLiteral rfl).mpr null
      rw [ParseTree.read_eq, Reading.ofParts, Reading.patternOf_eq_constant (by simp [null]),
        Reading.outlineOf, construct]
      exact ⟨rfl, rfl⟩
  | @layer layer layers row inner kind only _ induction =>
      have first : (row.children.map fun child => (⟨child, child.read source fileSpace
          (row.innerSpaces source spaces)⟩ : Part)).find? (·.row.named) =
            some ⟨inner, inner.read source fileSpace spaces⟩ := by
        have inside : row.children.find? named = some inner := by
          rw [← List.head?_filter]
          exact congrArg List.head? only
        have outside : row.innerSpaces source spaces = spaces := by
          apply if_neg
          rw [kind]
          cases layer <;> decide
        rw [outside, List.find?_map]
        exact congrArg _ inside
      rw [ParseTree.read_eq]
      cases layer <;>
        simp [Reading.ofParts, Reading.patternOf, kind, PatternLayer.kind, first, induction,
          Pattern.negations]

theorem Rewrapped.read_eq {likeness : ParseTree → ParseTree → Prop}
    (rewrapped : Rewrapped likeness row moved)
    (heads : ∀ row moved, likeness row moved → Alike source other row moved)
    (fileSpace : Option String) (spaces : List String) :
    (moved.read other fileSpace spaces).pattern = (row.read source fileSpace spaces).pattern ∧
      (moved.read other fileSpace spaces).patternParts.map Outline.unplaced =
        (row.read source fileSpace spaces).patternParts.map Outline.unplaced := by
  rcases rewrapped.layers with ⟨core, literal, layers, others, layered, again, null, like, same⟩
  have negations : others.count .negated = layers.count .negated := by
    have counts := congrArg (List.count PatternLayer.negated) same
    rwa [List.count_filter (by decide), List.count_filter (by decide)] at counts
  have own := layered.read_eq null source fileSpace spaces
  have copied := again.read_eq ((heads _ _ like).kind_eq.trans null) other fileSpace spaces
  rw [own.1, own.2, copied.1, copied.2, negations]
  simp

/-! ## Readings -/

theorem part?_read (row : ParseTree) (field : Field) (reads : ParseTree → Reading) :
    Reading.part? field (row.children.map fun child => ⟨child, reads child⟩) =
      (row.child? field).map fun child => ⟨child, reads child⟩ := by
  rw [Reading.part?, List.find?_map]
  rfl

def ReadAlike (source other : List Char) (row moved : ParseTree) : Prop :=
  ∀ fileSpace spaces, (moved.read other fileSpace spaces).unplaced =
    (row.read source fileSpace spaces).unplaced

section Tests

variable (all : List.Forall₂ (AlikeChild
  (fun row moved => Alike source other row moved ∧ ReadAlike source other row moved)
  row.testsPattern) row.children moved.children)

include all

theorem rel_subject : Option.Rel (ReadAlike source other) (row.child? .expression)
    (moved.child? .expression) := by
  refine rel_find? (fun _ _ child => (child.mono fun _ _ => And.left).fills_eq .expression) ?_ all
  rintro child copy (⟨_, same⟩ | ⟨_, rewrapped⟩) filled
  · exact same
  · simp [fills, rewrapped.tested] at filled

theorem rel_pattern (fileSpace : Option String) (spaces : List String) :
    Option.Rel (fun child copy =>
        (copy.read other fileSpace spaces).pattern = (child.read source fileSpace spaces).pattern ∧
          (copy.read other fileSpace spaces).patternParts.map Outline.unplaced =
            (child.read source fileSpace spaces).patternParts.map Outline.unplaced)
      (row.child? .pattern) (moved.child? .pattern) := by
  refine rel_find? (fun _ _ child => (child.mono fun _ _ => And.left).fills_eq .pattern) ?_ all
  rintro child copy (⟨_, same⟩ | ⟨_, rewrapped⟩) _
  · exact (Reading.unplaced_eq_iff.mp (same fileSpace spaces)).2.2
  · exact rewrapped.read_eq (fun _ _ => And.left) fileSpace spaces

theorem Alike.readAlike_of_testsPattern (alike : Alike source other row moved)
    (tests : row.testsPattern) : ReadAlike source other row moved := by
  intro fileSpace spaces
  rw [ParseTree.read_eq, ParseTree.read_eq, alike.innerSpaces_eq]
  generalize row.innerSpaces source spaces = inner
  simp only [testsPattern, decide_eq_true_eq] at tests
  rcases tests with ⟨isTest, hasSubject, hasPattern⟩
  rcases rel_cases (rel_subject all) with ⟨none, _⟩ | ⟨subject, subjectCopy, own, copied, subjects⟩
  · rw [none] at hasSubject
    cases hasSubject
  rcases rel_cases (rel_pattern all fileSpace inner) with
    ⟨none, _⟩ | ⟨pattern, patternCopy, test, testCopy, patterns⟩
  · rw [none] at hasPattern
    cases hasPattern
  exact Reading.ofParts_unplaced_of_isPattern alike.kind_eq isTest
    (by rw [part?_read, own]; rfl) (by rw [part?_read, copied]; rfl)
    (by rw [part?_read, test]; rfl) (by rw [part?_read, testCopy]; rfl)
    (Reading.unplaced_eq_iff.mp (subjects fileSpace inner)).1 patterns fileSpace spaces

end Tests

theorem Alike.readAlike (alike : Alike source other row moved) : ReadAlike source other row moved := by
  refine Alike.children_induction ?_ alike
  intro row moved alike all
  cases tests : row.testsPattern with
  | true => exact alike.readAlike_of_testsPattern all tests
  | false =>
      intro fileSpace spaces
      rw [ParseTree.read_eq, ParseTree.read_eq, alike.innerSpaces_eq]
      refine Reading.ofParts_unplaced ?_ alike fileSpace spaces
      rw [List.forall₂_map_left_iff, List.forall₂_map_right_iff]
      refine all.imp ?_
      rintro child copy (⟨like, same⟩ | ⟨tested, _⟩)
      · exact ⟨like.named_eq, like.field_eq,
          fun operator => like.text_eq (by simp [countsByText, operator]), same ..⟩
      · rw [tests] at tested
        cases tested

end ParseTree

theorem Outline.ofParseTree_unplaced {source other : List Char} {root moved : ParseTree}
    (alike : root.Alike source other moved) :
    (ofParseTree other moved).unplaced = (ofParseTree source root).unplaced := by
  rw [ofParseTree, ofParseTree, alike.fileNamespace?_eq]
  exact (Reading.unplaced_eq_iff.mp (alike.readAlike _ [])).1

/-! ## Numbered nodes -/

def Forest.link? (forest : Forest) (id : NodeId) : Option (Node × Option NodeId) :=
  forest.entries[id]?.map fun entry => (entry.node, entry.parent)

theorem Forest.node?_eq_map_link? (forest : Forest) (id : NodeId) :
    forest.node? id = (forest.link? id).map Prod.fst := by
  rw [link?, Option.map_map]
  rfl

theorem Forest.parent?_eq_bind_link? (forest : Forest) (id : NodeId) :
    forest.parent? id = (forest.link? id).bind Prod.snd := by
  rw [link?, Option.bind_map]
  rfl

structure Lowered.Similar (lowered copy : Lowered) : Prop where
  size : copy.forest.size = lowered.forest.size
  link? : ∀ id, copy.forest.link? id = lowered.forest.link? id
  declarations : copy.declarations = lowered.declarations

namespace Lowered.Similar

variable {lowered copy : Lowered}

theorem enter (similar : lowered.Similar copy) (form : Form) :
    (lowered.enter form).Similar (copy.enter form) := by
  cases form with
  | other label directive =>
      cases directive with
      | none => exact similar
      | some directive =>
          refine ⟨similar.size, similar.link?, ?_⟩
          simp only [Lowered.enter, similar.declarations]
  | _ => exact similar

theorem leave (similar : lowered.Similar copy) (form : Form) (span moved : Span)
    (ids : List NodeId) : (lowered.leave form span ids).Similar (copy.leave form moved ids) where
  size := by simp only [Lowered.leave, Forest.size_push, similar.size]
  link? id := by
    have old := similar.link? id
    simp only [Lowered.leave, Forest.link?, Forest.getElem?_push, similar.size] at old ⊢
    split
    · rfl
    split
    · have adopted := congrArg (Option.map fun link => (link.1, some lowered.forest.size)) old
      simpa only [Option.map_map, Function.comp_def] using adopted
    · exact old
  declarations := by simp only [Lowered.leave, similar.declarations, similar.size]

theorem trans {third : Lowered} (first : lowered.Similar copy) (second : copy.Similar third) :
    lowered.Similar third where
  size := second.size.trans first.size
  link? id := (second.link? id).trans (first.link? id)
  declarations := second.declarations.trans first.declarations

theorem symm (similar : lowered.Similar copy) : copy.Similar lowered where
  size := similar.size.symm
  link? id := (similar.link? id).symm
  declarations := similar.declarations.symm

end Lowered.Similar

namespace Outline

theorem numberAll_unplaced {parts : List Outline}
    (number : ∀ part ∈ parts, ∀ {lowered copy : Lowered}, lowered.Similar copy →
      (part.unplaced.number copy).1 = (part.number lowered).1 ∧
        (part.number lowered).2.Similar (part.unplaced.number copy).2)
    {lowered copy : Lowered} (similar : lowered.Similar copy) :
    (numberAll (parts.map unplaced) copy).1 = (numberAll parts lowered).1 ∧
      (numberAll parts lowered).2.Similar (numberAll (parts.map unplaced) copy).2 := by
  induction parts generalizing lowered copy with
  | nil => exact ⟨rfl, similar⟩
  | cons part rest induction =>
      rcases number part List.mem_cons_self similar with ⟨top, first⟩
      rcases induction (fun other member => number other (List.mem_cons_of_mem _ member)) first with
        ⟨tops, others⟩
      rw [List.map_cons, numberAll, numberAll]
      exact ⟨congrArg₂ List.cons top tops, others⟩

theorem number_unplaced (outline : Outline) {lowered copy : Lowered}
    (similar : lowered.Similar copy) :
    (outline.unplaced.number copy).1 = (outline.number lowered).1 ∧
      (outline.number lowered).2.Similar (outline.unplaced.number copy).2 := by
  induction outline generalizing lowered copy with
  | node form span parts induction =>
      rcases numberAll_unplaced (fun part member => induction part member) (similar.enter form) with
        ⟨tops, below⟩
      rw [unplaced_node, number, number, tops]
      exact ⟨below.size, below.leave form span {} _⟩

theorem number_of_unplaced_eq {outline copy : Outline} (same : copy.unplaced = outline.unplaced)
    (lowered : Lowered) :
    (copy.number lowered).1 = (outline.number lowered).1 ∧
      (outline.number lowered).2.Similar (copy.number lowered).2 := by
  have reflexive : lowered.Similar lowered := ⟨rfl, fun _ => rfl, rfl⟩
  have own := outline.number_unplaced reflexive
  have copied := copy.number_unplaced reflexive
  rw [same] at copied
  exact ⟨copied.1.symm.trans own.1, own.2.trans copied.2.symm⟩

end Outline

structure SourceUnit.Similar (unit copy : SourceUnit) : Prop where
  path : copy.tree.path = unit.tree.path
  node? : copy.tree.node? = unit.tree.node?
  parent? : copy.tree.parent? = unit.tree.parent?
  declarations : copy.declarations = unit.declarations

theorem Lowered.Similar.finish {lowered copy : Lowered} (similar : lowered.Similar copy)
    (path : String) (root other : NodeId) :
    SourceUnit.Similar ⟨lowered.forest.finish path root, lowered.declarations⟩
      ⟨copy.forest.finish path other, copy.declarations⟩ where
  path := rfl
  node? := by
    funext id
    rw [Forest.node?_eq_map_link?, Forest.node?_eq_map_link?]
    exact congrArg (Option.map Prod.fst) (similar.link? id)
  parent? := by
    funext id
    rw [Forest.parent?_eq_bind_link?, Forest.parent?_eq_bind_link?]
    exact congrArg (Option.bind · Prod.snd) (similar.link? id)
  declarations := similar.declarations

/-- Files that are alike differ in places only. -/
theorem SourceUnit.ofParseTree_similar (path : String) {source other : String}
    {root moved : ParseTree} (alike : root.Alike source.toList other.toList moved) :
    (ofParseTree path source root).Similar (ofParseTree path other moved) := by
  have similar := (Outline.number_of_unplaced_eq (Outline.ofParseTree_unplaced alike) .empty).2
  exact similar.finish path _ _

end UnityLint
