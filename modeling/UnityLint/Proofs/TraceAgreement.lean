import UnityLint.Proofs.Tracing

/-! # Traces agree with readings

The outline, the chain and the pattern of a row are those of its traces once the origins are
forgotten. -/

namespace UnityLint

structure Traced.Agrees (traced : Traced) (reading : Reading) : Prop where
  whole : traced.whole.outline = reading.outline
  chain : traced.chain.erase = reading.chain
  pattern : traced.pattern.map Trace.outline = reading.patternParts

namespace Traced

def toPart (read : ParseTree → Reading) (traced : Traced) : Part :=
  ⟨traced.row, read traced.row⟩

theorem part?_toPart (read : ParseTree → Reading) (field : Field) (parts : List Traced) :
    Reading.part? field (parts.map (toPart read)) = (part? field parts).map (toPart read) :=
  List.find?_map

section Agreement

variable {read : ParseTree → Reading} {parts : List Traced}
  (agree : ∀ part ∈ parts, part.Agrees (read part.row))

include agree

theorem outlines_toPart :
    Reading.outlines (parts.map (toPart read)) = (wholes parts).map Trace.outline := by
  rw [Reading.outlines, wholes, List.filter_map, List.map_map, List.map_map]
  apply List.map_congr_left
  intro part member
  exact ((agree part (List.mem_of_mem_filter member)).whole).symm

theorem outlinesExcept_toPart (field : Field) :
    Reading.outlinesExcept field (parts.map (toPart read)) =
      (beside field parts).map Trace.outline := by
  rw [Reading.outlinesExcept, beside, List.eraseP_map]
  exact outlines_toPart fun part member => agree part (List.mem_of_mem_eraseP member)

theorem agrees_of_part? {field : Field} {part : Traced} (found : part? field parts = some part) :
    part.Agrees (read part.row) :=
  agree part (List.mem_of_find?_eq_some found)

theorem outline_of_part? {field : Field} {part : Traced} (found : part? field parts = some part) :
    (toPart read part).reading.outline = part.whole.outline :=
  (agrees_of_part? agree found).whole.symm

omit agree in
theorem bound_map (row : ParseTree) (position : Position) (traces : List Trace) :
    (bound row position traces).map Trace.outline =
      Reading.bound row (traces.map Trace.outline) := by
  match traces with
  | [] => rfl
  | [trace] => rfl
  | first :: second :: rest =>
      simp [bound, Reading.bound, Reading.keep, Trace.outline, Trace.outlines_eq_map]

theorem chainStart_erase (row : ParseTree) (position : Position) :
    (chainStart row position parts).erase =
      Reading.chainStart row (parts.map (toPart read)) := by
  rw [chainStart, Reading.chainStart, part?_toPart]
  cases found : part? .condition parts with
  | some condition =>
      simp only [Option.map_some, ChainTrace.erase, bound_map,
        outlinesExcept_toPart agree, outline_of_part? agree found]
  | none =>
      have same : List.find? (fun part : Part => part.row.named) (parts.map (toPart read)) =
          (parts.find? (·.row.named)).map (toPart read) := List.find?_map
      simp only [Option.map_none, same]
      cases first : parts.find? (·.row.named) with
      | none => rfl
      | some part =>
          have erased : List.eraseP (fun part : Part => part.row.named)
              (parts.map (toPart read)) =
                (parts.eraseP (·.row.named)).map (toPart read) := List.eraseP_map ..
          have named := (agree part (List.mem_of_find?_eq_some first)).whole
          have others := outlines_toPart fun other member =>
            agree other (List.mem_of_mem_eraseP (p := (·.row.named)) member)
          simp only [Option.map_some, ChainTrace.erase, bound_map, named, erased, others]
          rfl

theorem chainLink_erase (row : ParseTree) (position : Position) (field : Field) (form : Form)
    (extend : Outline → Option Outline)
    (same : ∀ tail : Trace, extend tail.outline = (linkOthers row field parts).map fun others =>
      .node form row.span ((tail :: others).map Trace.outline)) :
    (chainLink row position field form parts).erase =
      Reading.chainLink field (parts.map (toPart read)) extend := by
  rw [chainLink, Reading.chainLink, part?_toPart]
  cases found : part? field parts with
  | none => rfl
  | some inner =>
      have chain : (toPart read inner).reading.chain = inner.chain.erase :=
        (agrees_of_part? agree found).chain.symm
      simp only [Option.map_some, chain]
      cases inner.chain with
      | plain => rfl
      | headless => rfl
      | optional receiver tail =>
          cases tail with
          | none => rfl
          | some tail =>
              simp only [ChainTrace.extend, ChainTrace.erase, Option.map_some, Option.bind_some,
                same]
              cases linkOthers row field parts <;> simp [Trace.outline, Trace.outlines_eq_map]

theorem chainOf_erase (row : ParseTree) (position : Position) :
    (chainOf row position parts).erase = Reading.chainOf row (parts.map (toPart read)) := by
  rw [chainOf, Reading.chainOf, ParseTree.link?]
  by_cases conditional : row.kind = "conditional_access_expression"
  · simp only [conditional, if_true]
    exact chainStart_erase agree row position
  by_cases invocation : row.kind = "invocation_expression"
  · simp only [invocation, if_true]
    apply chainLink_erase agree
    intro tail
    simp [linkOthers, invocation, outlinesExcept_toPart agree]
  by_cases member : row.kind = "member_access_expression"
  · simp only [member, if_true]
    apply chainLink_erase agree
    intro tail
    simp only [linkOthers, member, if_true, part?_toPart]
    cases found : part? .name parts with
    | none => rfl
    | some name => simp [outline_of_part? agree found]
  by_cases element : row.kind = "element_access_expression"
  · simp only [element, if_true]
    apply chainLink_erase agree
    intro tail
    simp [linkOthers, element, outlinesExcept_toPart agree, Reading.keep]
  · simp only [conditional, invocation, member, element, if_false]
    rfl

end Agreement

theorem map_row_part? {row : ParseTree} {parts : List Traced}
    (rows : parts.map Traced.row = row.children) (field : Field) :
    (part? field parts).map Traced.row = row.child? field := by
  rw [ParseTree.child?, ← rows, List.find?_map]
  rfl

def Over (row : ParseTree) (parts : List Trace) (outline : Outline) : Prop :=
  outline = .node outline.form row.span (parts.map Trace.outline)

section Agreement

variable {read : ParseTree → Reading} {parts : List Traced}
  (agree : ∀ part ∈ parts, part.Agrees (read part.row))

include agree

theorem keep_toPart (row : ParseTree) :
    Reading.keep row (Reading.outlines (parts.map (toPart read))) =
      .node (.other row.kind none) row.span ((wholes parts).map Trace.outline) := by
  rw [Reading.keep, outlines_toPart agree]

theorem over_ifStatement (row : ParseTree) :
    Over row (chosen (.leading .condition) parts)
      (Reading.ifStatement row (parts.map (toPart read))) := by
  simp only [Over, Reading.ifStatement, part?_toPart, chosen]
  cases found : part? .condition parts with
  | none => simp [keep_toPart agree, Outline.form]
  | some condition =>
      simp [outline_of_part? agree found, outlinesExcept_toPart agree, Outline.form]

theorem over_invocation (row : ParseTree) :
    Over row (chosen (.leading .function) parts)
      (Reading.invocation row (parts.map (toPart read))) := by
  simp only [Over, Reading.invocation, part?_toPart, chosen]
  cases found : part? .function parts with
  | none => simp [keep_toPart agree, Outline.form]
  | some function =>
      simp [outline_of_part? agree found, outlinesExcept_toPart agree, Outline.form]

theorem over_memberAccess (row : ParseTree) :
    Over row (chosen (.only [.expression, .name]) parts)
      (Reading.memberAccess row (parts.map (toPart read))) := by
  simp only [Over, Reading.memberAccess, part?_toPart, chosen]
  cases receiver : part? .expression parts with
  | none => simp [keep_toPart agree, Outline.form, receiver]
  | some receiverPart =>
      cases member : part? .name parts with
      | none => simp [keep_toPart agree, Outline.form, receiver, member]
      | some memberPart =>
          simp [contribution, outline_of_part? agree receiver, outline_of_part? agree member,
            Outline.form, receiver, member]

theorem over_memberBinding (row : ParseTree) :
    Over row (chosen (.only [.name]) parts)
      (Reading.memberBinding row (parts.map (toPart read))) := by
  simp only [Over, Reading.memberBinding, part?_toPart, chosen]
  cases found : part? .name parts with
  | none => simp [keep_toPart agree, Outline.form, found]
  | some name => simp [outline_of_part? agree found, contribution, Outline.form, found]

theorem over_binary (source : List Char) (row : ParseTree)
    (rows : parts.map Traced.row = row.children) :
    Over row
      (chosen (if row.isComparison source then .only [.left, .right] else .all) parts)
      (Reading.binary source row (parts.map (toPart read))) := by
  have operator : ((Reading.part? .operator (parts.map (toPart read))).bind fun operator =>
      Reading.comparisonOp? (operator.row.text source)) =
        (row.child? .operator).bind fun operator =>
          Reading.comparisonOp? (operator.text source) := by
    rw [part?_toPart, ← map_row_part? rows, Option.bind_map, Option.bind_map]
    rfl
  simp only [Over, Reading.binary, operator]
  simp only [part?_toPart]
  cases written : (row.child? .operator).bind fun operator =>
      Reading.comparisonOp? (operator.text source) with
  | none =>
      have comparison : row.isComparison source = false := by
        simp [ParseTree.isComparison, written]
      simp [comparison, chosen, keep_toPart agree, Outline.form]
  | some op =>
      have comparison : row.isComparison source = true := by
        simp [ParseTree.isComparison, written]
      rw [if_pos comparison]
      cases left : part? .left parts with
      | none => simp [chosen, keep_toPart agree, Outline.form, left]
      | some leftPart =>
          cases right : part? .right parts with
          | none => simp [chosen, keep_toPart agree, Outline.form, left, right]
          | some rightPart =>
              simp [chosen, contribution, outline_of_part? agree left,
                outline_of_part? agree right, Outline.form, left, right]

theorem over_isPattern (row : ParseTree) :
    Over row (chosen (.only [.expression, .pattern]) parts)
      (Reading.isPattern row (parts.map (toPart read))) := by
  simp only [Over, Reading.isPattern, part?_toPart, chosen]
  cases subject : part? .expression parts with
  | none => simp [keep_toPart agree, Outline.form, subject]
  | some subjectPart =>
      cases pattern : part? .pattern parts with
      | none => simp [keep_toPart agree, Outline.form, subject, pattern]
      | some patternPart =>
          have same := (agrees_of_part? agree pattern).pattern
          have subjectSame := outline_of_part? agree subject
          simp only [toPart] at subjectSame
          simp [contribution, Outline.form, subject, pattern, same, toPart, subjectSame]

theorem over_onChain (source : List Char) (row : ParseTree) (position : Position)
    (tops : row.topsChain) {alone : Outline}
    (single : Over row (chosen (row.choice source) parts) alone) :
    Over row (wholeParts source row position parts)
      (Reading.onChain row (parts.map (toPart read)) alone) := by
  rw [Reading.onChain, ← chainOf_erase agree row position, wholeParts, if_pos tops]
  cases chainOf row position parts with
  | plain => exact single
  | headless => simp [Over, ChainTrace.erase, keep_toPart agree, Outline.form]
  | optional receiver tail => cases tail <;> simp [Over, ChainTrace.erase, Outline.form]

theorem over_outlineOf (source : List Char) (fileSpace : Option String) (spaces : List String)
    (row : ParseTree) (position : Position) (rows : parts.map Traced.row = row.children) :
    Over row (wholeParts source row position parts)
      (Reading.outlineOf source fileSpace spaces row (parts.map (toPart read))) := by
  have alone (other : ¬(Construct.ofKind row.kind = .invocation ∨
      Construct.ofKind row.kind = .memberAccess ∨
        Construct.ofKind row.kind = .conditionalAccess)) :
      wholeParts source row position parts = chosen (row.choice source) parts := by
    rw [wholeParts, if_neg (mt ParseTree.topsChain_iff.mp other)]
  rw [Reading.outlineOf]
  cases construct : Construct.ofKind row.kind with
  | invocation =>
      apply over_onChain agree source row position
        (ParseTree.topsChain_iff.mpr (.inl construct))
      rw [ParseTree.choice, construct]
      exact over_invocation agree row
  | memberAccess =>
      apply over_onChain agree source row position
        (ParseTree.topsChain_iff.mpr (.inr (.inl construct)))
      rw [ParseTree.choice, construct]
      exact over_memberAccess agree row
  | conditionalAccess =>
      apply over_onChain agree source row position
        (ParseTree.topsChain_iff.mpr (.inr (.inr construct)))
      rw [ParseTree.choice, construct]
      simp [Over, keep_toPart agree, chosen, Outline.form]
  | ifStatement =>
      rw [alone (by simp [construct]), ParseTree.choice, construct]
      exact over_ifStatement agree row
  | memberBinding =>
      rw [alone (by simp [construct]), ParseTree.choice, construct]
      exact over_memberBinding agree row
  | binary =>
      rw [alone (by simp [construct]), ParseTree.choice, construct]
      exact over_binary agree source row rows
  | isPattern =>
      rw [alone (by simp [construct]), ParseTree.choice, construct]
      exact over_isPattern agree row
  | _ =>
      rw [alone (by simp [construct]), ParseTree.choice, construct]
      simp [Over, chosen, outlines_toPart agree, outlinesExcept_toPart agree, Outline.form,
        Reading.keep]

theorem patternOf_map (row : ParseTree) (whole : Trace) :
    (patternOf row parts whole).map Trace.outline =
      (Reading.patternOf row (parts.map (toPart read)) whole.outline).2 := by
  have first : List.find? (fun part : Part => part.row.named) (parts.map (toPart read)) =
      (parts.find? (·.row.named)).map (toPart read) := List.find?_map
  have inner {part : Traced} (found : parts.find? (·.row.named) = some part) :
      part.pattern.map Trace.outline = (toPart read part).reading.patternParts :=
    (agree part (List.mem_of_find?_eq_some found)).pattern
  have wraps_iff : row.wrapsPattern ↔ (row.kind = "constant_pattern" ∨
      row.kind = "parenthesized_pattern") ∨ row.kind = "negated_pattern" := by
    simp [ParseTree.wrapsPattern, or_assoc]
  simp only [patternOf, Reading.patternOf, first]
  by_cases plain : row.kind = "constant_pattern" ∨ row.kind = "parenthesized_pattern"
  · rw [if_pos plain, if_pos (wraps_iff.mpr (.inl plain))]
    cases found : parts.find? (·.row.named) with
    | none => rfl
    | some part => exact inner found
  · by_cases negated : row.kind = "negated_pattern"
    · rw [if_neg plain, if_pos negated, if_pos (wraps_iff.mpr (.inr negated))]
      cases found : parts.find? (·.row.named) with
      | none => rfl
      | some part => exact inner found
    · rw [if_neg plain, if_neg negated, if_neg fun wraps => (wraps_iff.mp wraps).elim plain negated]
      split <;> rfl

end Agreement

end Traced

/-- The traces of a row are those of its reading, up to origins. -/
theorem ParseTree.agrees_trace (source : List Char) (fileSpace : Option String)
    (spaces : List String) (position : Position) (row : ParseTree) :
    (row.trace source fileSpace spaces position).Agrees (row.read source fileSpace spaces) := by
  induction row generalizing spaces position with
  | row kind named field extent children induction =>
      generalize here : ParseTree.row kind named field extent children = row
      have children_eq : children = row.children := here ▸ rfl
      rw [trace_eq, read_eq]
      generalize inside : row.innerSpaces source spaces = inner
      have agree : ∀ part ∈ row.tracedParts source fileSpace spaces position,
          part.Agrees (part.row.read source fileSpace inner) := by
        intro part member
        rcases (mem_tracedParts ..).mp member with ⟨found, placed, rfl⟩
        rw [row_trace, inside]
        exact induction found.2 (children_eq ▸ mem_children_of_mem_placed placed) inner found.1
      have rows : (row.tracedParts source fileSpace spaces position).map Traced.row =
          row.children := by
        rw [tracedParts, List.map_map]
        refine Eq.trans (List.map_congr_left fun found _ => ?_)
          (map_snd_placedFrom position 0 row.children)
        exact row_trace ..
      have parts : (row.children.map fun child =>
          (⟨child, child.read source fileSpace inner⟩ : Part)) =
            (row.tracedParts source fileSpace spaces position).map
              (Traced.toPart fun child => child.read source fileSpace inner) := by
        rw [← rows, List.map_map]
        rfl
      rw [parts]
      have whole : _ = Outline.node _ _ _ :=
        Traced.over_outlineOf agree source fileSpace spaces row position rows
      constructor
      · simp only [Traced.ofParts, Reading.ofParts, Trace.outline, Trace.outlines_eq_map]
        exact whole.symm
      · exact Traced.chainOf_erase agree row position
      · simp only [Traced.ofParts, Reading.ofParts]
        rw [Traced.patternOf_map agree, Trace.outline, Trace.outlines_eq_map, ← whole]

theorem Trace.outline_ofParseTree (source : List Char) (root : ParseTree) :
    (Trace.ofParseTree source root).outline = Outline.ofParseTree source root :=
  (root.agrees_trace source (root.fileNamespace? source) [] []).whole

end UnityLint
