import UnityLint.Analyzer
import UnityLint.Frontend.CSharp
import UnityLint.Proofs.EngineLookup
import UnityLint.Proofs.OptionalAccess
import UnityLint.Report.Basic
import UnityLint.Rule.Preset

/-! # Locations of diagnostics

A diagnostic stands at a row of the parse tree: at a call, at a condition, or at the topmost row of a
chain with `?.`, whatever the shape of the tree. Its location is the extent of that row. -/

namespace UnityLint

/-! ## Rows of nodes -/

namespace Trace

variable {source : List Char} {root row : ParseTree} {node : Trace}

theorem MadeFrom.kind_of_construct (made : node.MadeFrom source root row) {construct : Construct}
    (single : node.form.constructs = [construct]) {kind : String}
    (known : construct.kinds = [kind]) : row.kind = kind := by
  have listed := made.ofKind_mem_constructs
  rw [single, List.mem_singleton] at listed
  exact (construct.ofKind_eq_iff_eq known).mp listed

end Trace

/-- The row at a position is of the sort that nodes of a kind come from. -/
def ParseTree.Yields (root : ParseTree) (position : Position) (row : ParseTree) :
    NodeKind → Prop
  | .invocation => row.kind = "invocation_expression"
  | .ifStatement => row.kind = "if_statement"
  | .conditionalAccess => ∃ start, root.TopOfChain start position row
  | _ => True

theorem exists_row_of_kind? (path source : String) (root : ParseTree) {id : NodeId}
    {kind : NodeKind} (found : (SourceUnit.ofParseTree path source root).tree.kind? id = some kind)
    (known : kind ≠ .other) :
    ∃ position row, root.at? position = some row ∧ root.Yields position row kind ∧
      (SourceUnit.ofParseTree path source root).tree.span id = row.span := by
  have forest := toForest_ofParseTree path source root
  rw [forest] at found ⊢
  rcases Trace.exists_node_of_kind? found known with ⟨node, listed, rfl⟩
  rcases Trace.sits_of_getElem?_nodes listed with ⟨first, around, sits, rfl⟩
  rcases sits.madeFrom with ⟨row, made⟩
  refine ⟨node.origin, row, made.1, ?_, by rw [sits.span_eq, made.span_eq]⟩
  cases form : node.form with
  | invocation => exact made.kind_of_construct (by rw [form]; rfl) rfl
  | ifStatement => exact made.kind_of_construct (by rw [form]; rfl) rfl
  | conditionalAccess => exact made.exists_topOfChain form (List.mem_of_getElem? listed)
  | _ => exact trivial

/-! ## Reports -/

theorem Analyzer.exists_diagnose_csharp {analyzer : Analyzer} {parser : String → Option ParseTree}
    {path source : String} {root : ParseTree} (frontends : analyzer.frontends = [.csharp parser])
    (parsed : parser source = some root) :
    ∃ diagnostics, analyzer.diagnose path source = .ok diagnostics ∧
      ∀ diagnostic ∈ diagnostics,
        let unit := SourceUnit.ofParseTree path source root
        diagnostic ∈ analyzer.engine.analyze unit.tree unit.declarations.resolver := by
  have read : (Frontend.csharp parser).parse path source =
      .ok { tree := (SourceUnit.ofParseTree path source root).tree,
            resolver := (SourceUnit.ofParseTree path source root).declarations.resolver } := by
    simp only [Frontend.csharp, parsed]
  have selected : analyzer.frontend? path =
      if (Frontend.csharp parser).handles path then some (.csharp parser) else none := by
    rw [frontend?, frontends, List.find?_singleton]
  by_cases handled : (Frontend.csharp parser).handles path
  · rw [if_pos handled] at selected
    rw [diagnose, selected]
    dsimp only
    split
    · exact ⟨[], rfl, by simp⟩
    · rw [read]
      exact ⟨_, rfl, fun _ => id⟩
  · rw [if_neg handled] at selected
    rw [diagnose, selected]
    exact ⟨[], rfl, by simp⟩

theorem Report.label_eq {diagnostic : Diagnostic} {source : String}
    (inside : diagnostic.location.offset + diagnostic.location.length ≤ source.utf8ByteSize) :
    (ofDiagnostic diagnostic source).offset = diagnostic.location.offset ∧
      (ofDiagnostic diagnostic source).length = diagnostic.location.length := by
  simp only [ofDiagnostic]
  omega

/-- If all rows of a file lie inside its text, every diagnostic of the built-in rules is at the extent
of a row: a call, or a condition or the topmost row of an optional chain, by its code. A report over
the text labels that extent. -/
theorem locations_of_diagnose {analyzer : Analyzer} {parser : String → Option ParseTree}
    {scope : ScopeFilter} {rules : List Rule} {source : String} {root : ParseTree} (path : String)
    (frontends : analyzer.frontends = [.csharp parser]) (parsed : parser source = some root)
    (engine : analyzer.engine = .ofRules scope rules)
    (builtIn : ∀ rule ∈ rules, rule ∈ Preset.all.rules)
    (inside : ∀ position row, root.at? position = some row →
      row.extent.start ≤ row.extent.stop ∧ row.extent.stop ≤ source.utf8ByteSize) :
    ∃ diagnostics, analyzer.diagnose path source = .ok diagnostics ∧
      ∀ diagnostic ∈ diagnostics, ∃ position row, root.at? position = some row ∧
        (diagnostic.code ∈ ["SR0001", "SR0002"] ∧ row.kind = "invocation_expression" ∨
          diagnostic.code ∈ ["SR0003", "SR0004"] ∧
            (row.kind = "if_statement" ∨ ∃ start, root.TopOfChain start position row)) ∧
        diagnostic.location =
          { file := path, line := row.extent.row + 1, column := row.extent.column + 1,
            offset := row.extent.start, length := row.extent.stop - row.extent.start } ∧
        (Report.ofDiagnostic diagnostic source).offset = diagnostic.location.offset ∧
        (Report.ofDiagnostic diagnostic source).length = diagnostic.location.length := by
  rcases Analyzer.exists_diagnose_csharp frontends parsed with ⟨diagnostics, diagnosed, analysed⟩
  refine ⟨diagnostics, diagnosed, ?_⟩
  intro diagnostic member
  have reported := analysed diagnostic member
  rw [engine] at reported
  rcases List.mem_flatMap.mp reported with ⟨id, _, dispatched⟩
  rcases Engine.exists_interested_of_mem_dispatch dispatched with
    ⟨kind, found, rule, listed, interested, checked⟩
  rcases Preset.exists_descriptor_of_mem_check (builtIn rule listed) checked with
    ⟨descriptor, own, arguments, rfl⟩
  have codes := Preset.codes_of_interests rule (builtIn rule listed) kind interested descriptor own
  have known : kind ≠ .other := by
    rintro rfl
    simp at codes
  rcases exists_row_of_kind? path source root found known with ⟨position, row, here, yields, span⟩
  have location : (SourceUnit.ofParseTree path source root).tree.location id =
      { file := path, line := row.extent.row + 1, column := row.extent.column + 1,
        offset := row.extent.start, length := row.extent.stop - row.extent.start } := by
    rw [Tree.location, span]
    rfl
  refine ⟨position, row, here, ?_, location, Report.label_eq ?_⟩
  · rcases codes with ⟨rfl, code⟩ | ⟨rfl | rfl, code⟩
    · exact .inl ⟨code, yields⟩
    · exact .inr ⟨code, .inl yields⟩
    · exact .inr ⟨code, .inr yields⟩
  · have bounds := inside position row here
    rw [Site.report, Diagnostic.ofDescriptor, location]
    dsimp only
    omega

def linkedText : String :=
  "class A \x7b\n  void M() \x7b\n    if (GetComponent<B>() == null) \x7b \x7d\n" ++
    "    GetComponent<B>()?.C[0].D(); \x7d \x7d"

def ParseTree.linkedGuard : ParseTree :=
  .row "compilation_unit" true none ⟨0, 98, 0, 0⟩ [
    .row "class_declaration" true none ⟨0, 98, 0, 0⟩ [
      .row "identifier" true (some .name) ⟨6, 7, 0, 6⟩ [],
      .row "declaration_list" true (some .body) ⟨8, 98, 0, 8⟩ [
        .row "method_declaration" true none ⟨12, 96, 1, 2⟩ [
          .row "predefined_type" true none ⟨12, 16, 1, 2⟩ [],
          .row "identifier" true (some .name) ⟨17, 18, 1, 7⟩ [],
          .row "parameter_list" true none ⟨18, 20, 1, 8⟩ [],
          .row "block" true (some .body) ⟨21, 96, 1, 11⟩ [
            .row "if_statement" true none ⟨27, 61, 2, 4⟩ [
              .row "binary_expression" true (some .condition) ⟨31, 56, 2, 8⟩ [
                .row "invocation_expression" true (some .left) ⟨31, 48, 2, 8⟩ [
                  .row "generic_name" true (some .function) ⟨31, 46, 2, 8⟩ [
                    .row "identifier" true none ⟨31, 43, 2, 8⟩ [],
                    .row "type_argument_list" true none ⟨43, 46, 2, 20⟩ [
                      .row "identifier" true none ⟨44, 45, 2, 21⟩ []]],
                  .row "argument_list" true none ⟨46, 48, 2, 23⟩ []],
                .row "==" false (some .operator) ⟨49, 51, 2, 26⟩ [],
                .row "null_literal" true (some .right) ⟨52, 56, 2, 29⟩ []],
              .row "block" true none ⟨58, 61, 2, 35⟩ []],
            .row "expression_statement" true none ⟨66, 94, 3, 4⟩ [
              .row "invocation_expression" true none ⟨66, 93, 3, 4⟩ [
                .row "member_access_expression" true (some .function) ⟨66, 91, 3, 4⟩ [
                  .row "element_access_expression" true (some .expression) ⟨66, 89, 3, 4⟩ [
                    .row "conditional_access_expression" true (some .expression) ⟨66, 86, 3, 4⟩ [
                      .row "invocation_expression" true (some .condition) ⟨66, 83, 3, 4⟩ [
                        .row "generic_name" true (some .function) ⟨66, 81, 3, 4⟩ [
                          .row "identifier" true none ⟨66, 78, 3, 4⟩ [],
                          .row "type_argument_list" true none ⟨78, 81, 3, 16⟩ [
                            .row "identifier" true none ⟨79, 80, 3, 17⟩ []]],
                        .row "argument_list" true none ⟨81, 83, 3, 19⟩ []],
                      .row "member_binding_expression" true none ⟨84, 86, 3, 22⟩ [
                        .row "identifier" true (some .name) ⟨85, 86, 3, 23⟩ []]],
                    .row "bracketed_argument_list" true none ⟨86, 89, 3, 24⟩ [
                      .row "argument" true none ⟨87, 88, 3, 25⟩ [
                        .row "integer_literal" true none ⟨87, 88, 3, 25⟩ []]]],
                  .row "identifier" true (some .name) ⟨90, 91, 3, 28⟩ []],
                .row "argument_list" true none ⟨91, 93, 3, 29⟩ []]]]]]]]

def linkedAnalyzer : Analyzer where
  root := "/Game"
  frontends := [.csharp fun _ => some .linkedGuard]
  engine := .ofRules .standard Preset.all.rules
  exclusions := []
  respectGitignore := true
  rejectsUnparsable := false

theorem locations_of_diagnose_linkedGuard :
    ∃ diagnostics, linkedAnalyzer.diagnose "Assets/A.cs" linkedText = .ok diagnostics ∧
      diagnostics.map (fun found =>
        (found.code, found.location.line, found.location.offset, found.location.length)) =
          [("SR0003", 3, 27, 34), ("SR0003", 4, 66, 27)] ∧
      ∀ diagnostic ∈ diagnostics, ∃ position row,
        ParseTree.linkedGuard.at? position = some row ∧
        (row.kind = "if_statement" ∨ ∃ start, ParseTree.linkedGuard.TopOfChain start position row) ∧
        (Report.ofDiagnostic diagnostic linkedText).offset = row.extent.start ∧
        (Report.ofDiagnostic diagnostic linkedText).length =
          row.extent.stop - row.extent.start := by
  have inside : ∀ found ∈ ParseTree.linkedGuard.rowsFrom [],
      found.2.extent.start ≤ found.2.extent.stop ∧
        found.2.extent.stop ≤ linkedText.utf8ByteSize := by
    decide +kernel
  rcases locations_of_diagnose "Assets/A.cs" (rfl : linkedAnalyzer.frontends = _)
    (rfl : some ParseTree.linkedGuard = _) rfl (fun _ => id)
    (fun position row here => inside (position, row) (ParseTree.mem_rowsFrom_nil.mpr here)) with
    ⟨diagnostics, diagnosed, located⟩
  have listed : (linkedAnalyzer.diagnose "Assets/A.cs" linkedText).toOption.map
      (List.map fun found =>
        (found.code, found.location.line, found.location.offset, found.location.length)) =
      some [("SR0003", 3, 27, 34), ("SR0003", 4, 66, 27)] := by
    decide +kernel
  rw [diagnosed] at listed
  have summary := Option.some.inj listed
  have codes : diagnostics.map (·.code) = ["SR0003", "SR0003"] := by
    have firsts := congrArg (List.map Prod.fst) summary
    rw [List.map_map] at firsts
    exact firsts
  refine ⟨diagnostics, diagnosed, summary, ?_⟩
  intro diagnostic member
  rcases located diagnostic member with
    ⟨position, row, here, ⟨other, _⟩ | ⟨_, sort⟩, location, offset, length⟩
  · have code : diagnostic.code ∈ diagnostics.map (·.code) := List.mem_map_of_mem member
    rw [codes, List.mem_cons, List.mem_singleton, or_self] at code
    rw [code] at other
    exact absurd other (by decide)
  · rw [location] at offset length
    exact ⟨position, row, here, sort, offset, length⟩

end UnityLint
