import UnityLint.Proofs.DroppedParts
import UnityLint.Proofs.LookupAgreement

/-! # Comments

Comments are named rows, so that they take part in everything that goes by the place of a row. Three
readings do: the first base of a type, the pattern inside a pattern, and the tail of an optional
access. A comment anywhere else changes no verdict. -/

namespace UnityLint

variable {drops : String → Bool}

/-! ## Rules on outlines without some parts -/

namespace Outline

theorem access?_without (outline : Outline) :
    (outline.without drops).access? =
      outline.access?.map (Prod.map (without drops) (without drops)) := by
  rw [access?, access?, form_without]
  cases form : outline.form with
  | memberAccess =>
      rw [getElem?_parts_without (by simp [form, Form.roles]),
        getElem?_parts_without (by simp [form, Form.roles])]
      cases outline.parts[0]? <;> cases outline.parts[1]? <;> rfl
  | _ => rfl

theorem calleeName?_without (outline : Outline) :
    (outline.without drops).calleeName? = outline.calleeName? := by
  rw [calleeName?, calleeName?, form_without]
  cases form : outline.form with
  | memberAccess =>
      rw [getElem?_parts_without (by simp [form, Form.roles])]
      cases outline.parts[1]? <;> simp
  | memberBinding =>
      dsimp only
      rw [getElem?_parts_without (by simp [form, Form.roles])]
      cases outline.parts[0]? <;> simp
  | _ => rfl

theorem callee?_without (outline : Outline) :
    (outline.without drops).callee? = outline.callee?.map (without drops) := by
  rw [callee?, callee?, form_without]
  split
  · rename_i call
    rw [getElem?_parts_without (by simp [call, Form.roles])]
  · rfl

theorem bind_calleeName?_without (outline : Outline) :
    (outline.without drops).callee?.bind calleeName? = outline.callee?.bind calleeName? := by
  rw [callee?_without, Option.bind_map]
  apply Option.bind_congr
  intro callee _
  exact calleeName?_without callee

theorem ownerName?_without (callee : Outline) :
    (callee.without drops).ownerName? = callee.ownerName? := by
  rw [ownerName?, ownerName?, access?_without, Option.bind_map]
  apply Option.bind_congr
  intro pair _
  simp only [Function.comp_apply, Prod.map_fst, form_without]

theorem dottedName?_without (outline : Outline) :
    (outline.without drops).dottedName? = outline.dottedName? := by
  induction outline with
  | node form span parts induction =>
      cases form with
      | memberAccess =>
          match parts with
          | [] => rfl
          | [receiver] => rfl
          | receiver :: member :: rest =>
              have same := induction receiver List.mem_cons_self
              simp only [without, Form.roles, withoutAfter, dottedName?, same, form_without]
      | _ => rfl

theorem isNull_without (outline : Outline) : (outline.without drops).isNull = outline.isNull := by
  rw [isNull, isNull, form_without]

theorem tested?_without (condition : Outline) :
    (condition.without drops).tested? = condition.tested?.map (without drops) := by
  have inRole (pair : 2 ≤ condition.form.roles) : ∀ index < 2,
      (condition.without drops).parts[index]? = condition.parts[index]?.map (without drops) :=
    fun index small => getElem?_parts_without (Nat.lt_of_lt_of_le small pair)
  rw [tested?, tested?, form_without]
  cases form : condition.form with
  | comparison op =>
      rw [form] at inRole
      rw [inRole (Nat.le_refl 2) 0 (by decide), inRole (Nat.le_refl 2) 1 (by decide)]
      cases condition.parts[0]? with
      | none => rfl
      | some left =>
          cases condition.parts[1]? with
          | none => rfl
          | some right =>
              simp only [Option.map_some, isNull_without]
              cases left.isNull <;> cases right.isNull <;> rfl
  | isPattern pattern =>
      rw [form] at inRole
      rw [inRole (Nat.le_refl 2) 0 (by decide), inRole (Nat.le_refl 2) 1 (by decide)]
      rcases pattern with _ | (_ | _ | _) | _
      case constant | negated.constant =>
        cases condition.parts[0]? with
        | none => rfl
        | some subject =>
            cases condition.parts[1]? with
            | none => rfl
            | some value =>
                simp only [Option.map_some, isNull_without]
                cases value.isNull <;> rfl
      all_goals rfl
  | _ => rfl

theorem guardedBy_without (receiver : Outline) :
    (receiver.without drops).guardedBy = receiver.guardedBy.without drops := by
  rw [guardedBy, guardedBy, form_without]
  cases form : receiver.form with
  | conditionalAccess =>
      rw [getElem?_parts_without (by simp [form, Form.roles])]
      cases receiver.parts[1]? <;> rfl
  | _ => rfl

theorem guarded?_without (outline : Outline) :
    (outline.without drops).guarded? = outline.guarded?.map (without drops) := by
  rw [guarded?, guarded?, form_without]
  cases form : outline.form with
  | ifStatement =>
      rw [getElem?_parts_without (by simp [form, Form.roles])]
      cases outline.parts[0]? with
      | none => rfl
      | some condition => exact tested?_without condition
  | conditionalAccess =>
      rw [getElem?_parts_without (by simp [form, Form.roles])]
      cases outline.parts[0]? with
      | none => rfl
      | some receiver => exact congrArg some (guardedBy_without receiver)
  | _ => rfl

end Outline

section Verdicts

variable (setting : Setting) (around : Surroundings) (declarations : Declarations)

theorem Surroundings.isVariable_without (outline : Outline) :
    around.isVariable declarations (outline.without drops) =
      around.isVariable declarations outline := by
  rw [isVariable, isVariable, Outline.form_without]

theorem Surroundings.calleeSymbol?_without (callee : Outline) :
    around.calleeSymbol? declarations (callee.without drops) =
      around.calleeSymbol? declarations callee := by
  rw [calleeSymbol?, calleeSymbol?, Outline.access?_without, Outline.form_without]
  cases callee.access? with
  | none => rfl
  | some pair =>
      simp only [Option.map_some, Prod.map_fst, Prod.map_snd, Outline.form_without,
        isVariable_without, Outline.dottedName?_without]

theorem Setting.sceneLookup?_without (outline : Outline) :
    setting.sceneLookup? around (outline.without drops) = setting.sceneLookup? around outline := by
  rw [sceneLookup?, sceneLookup?, Outline.callee?_without]
  apply bind_congr
  intro _
  cases outline.callee? with
  | none => rfl
  | some callee =>
      simp only [Option.map_some, Option.bind_eq_bind, Option.bind_some,
        Outline.calleeName?_without, Outline.ownerName?_without,
        Surroundings.calleeSymbol?_without]

theorem Setting.offence?_without (guarded : Outline) :
    setting.offence? around (guarded.without drops) = setting.offence? around guarded := by
  rw [offence?, offence?, Outline.form_without, Outline.bind_calleeName?_without]

theorem Setting.verdict_without (outline : Outline) :
    setting.verdict around (outline.without drops) = setting.verdict around outline := by
  have offences : (outline.without drops).guarded?.bind (setting.offence? around) =
      outline.guarded?.bind (setting.offence? around) := by
    rw [Outline.guarded?_without, Option.bind_map]
    apply Option.bind_congr
    intro guarded _
    exact offence?_without setting around guarded
  have reports : setting.report (outline.without drops) = setting.report outline := by
    funext descriptor arguments
    rw [report, report, Outline.span_without]
  rw [verdict, verdict, misplaced?, misplaced?, Outline.bind_calleeName?_without,
    sceneLookup?_without, offences, reports]

end Verdicts

/-! ## Walks over outlines without some parts -/

namespace Outline

theorem eq_of_isDropped {outline : Outline} (dropped : outline.isDropped drops) :
    ∃ label span, outline = .node (.other label none) span [] := by
  unfold isDropped at dropped
  split at dropped
  · exact ⟨_, _, rfl⟩
  · cases dropped

theorem flatMap_withoutAfter {α : Type} {lists before : Outline → List α} {parts : List Outline}
    (kept : ∀ part ∈ parts, lists (part.without drops) = before part)
    (dropped : ∀ part ∈ parts, part.isDropped drops → before part = []) (roles : Nat) :
    (withoutAfter drops roles parts).flatMap lists = parts.flatMap before := by
  induction parts generalizing roles with
  | nil => rfl
  | cons part rest induction =>
      have own := kept part List.mem_cons_self
      have others := induction (fun other member => kept other (List.mem_cons_of_mem _ member))
        (fun other member => dropped other (List.mem_cons_of_mem _ member))
      rw [List.flatMap_cons]
      cases roles with
      | zero =>
          rw [withoutAfter]
          split
          · rename_i gone
            rw [others, dropped part List.mem_cons_self gone, List.nil_append]
          · rw [List.flatMap_cons, own, others]
      | succ roles => rw [withoutAfter, List.flatMap_cons, own, others]

theorem flatMap_inPlace_without {α : Type} {look : Surroundings × Outline → List α}
    (same : ∀ around outline, look (around, outline.without drops) = look (around, outline))
    (nothing : ∀ around label span, look (around, .node (.other label none) span []) = [])
    (around : Surroundings) (outline : Outline) :
    ((outline.without drops).inPlace around).flatMap look = (outline.inPlace around).flatMap look := by
  induction outline generalizing around with
  | node form span parts induction =>
      rw [inPlace_eq, inPlace_eq, List.flatMap_append, List.flatMap_append, List.flatMap_assoc,
        List.flatMap_assoc, List.flatMap_singleton, List.flatMap_singleton, same, form_without,
        parts_without]
      congr 1
      apply flatMap_withoutAfter
      · intro part member
        exact induction part member _
      · intro part _ dropped
        rcases eq_of_isDropped dropped with ⟨label, spanned, rfl⟩
        simp [inPlace_eq, Outline.parts, nothing]

theorem types_without (outline : Outline) : (outline.without drops).types = outline.types := by
  rw [types, types, List.filterMap_eq_flatMap_toList, List.filterMap_eq_flatMap_toList]
  apply flatMap_inPlace_without
  · intro around node
    rw [form_without]
  · intro around label span
    rfl

theorem directives_without (outline : Outline) :
    (outline.without drops).directives = outline.directives := by
  induction outline with
  | node form span parts induction =>
      rw [without, directives, directives, directivesOfAll_eq_flatMap, directivesOfAll_eq_flatMap]
      congr 1
      apply flatMap_withoutAfter induction
      intro part _ dropped
      rcases eq_of_isDropped dropped with ⟨label, spanned, rfl⟩
      rfl

end Outline

section Analysis

variable {source other : String} {root : ParseTree}
  (comments : ∀ kind, drops kind → kind = "comment")
  (spared : root.Spared source.toList other.toList drops)

include comments spared

theorem Outline.ofParseTree_without :
    Outline.ofParseTree other.toList (root.without drops) =
      (Outline.ofParseTree source.toList root).without drops := by
  have space := ParseTree.fileNamespace?_without comments
    (fun child member => spared.of_mem_children member)
  rw [Outline.ofParseTree, Outline.ofParseTree, space, ParseTree.read_without comments spared]
  rfl

theorem agreeOn_without (path : String) :
    Declarations.AgreeOn (fun _ => True)
      (SourceUnit.ofParseTree path source root).declarations
      (SourceUnit.ofParseTree path other (root.without drops)).declarations := by
  have outline := Outline.ofParseTree_without comments spared
  apply Declarations.AgreeOn.of_added
  · rw [values_types_ofParseTree, values_types_ofParseTree, outline, Outline.types_without,
      List.append_nil]
  · rw [usings_ofParseTree, usings_ofParseTree, outline, Outline.directives_without]
  · rw [aliases_ofParseTree, aliases_ofParseTree, outline, Outline.directives_without]
  · intros
    trivial
  · intro written _ info member
    cases member

theorem analyze_without (path : String) (scope : ScopeFilter) :
    let before := SourceUnit.ofParseTree path source root
    let after := SourceUnit.ofParseTree path other (root.without drops)
    let engine := Engine.ofRules scope Preset.all.rules
    engine.analyze after.tree after.declarations.resolver =
      engine.analyze before.tree before.declarations.resolver := by
  intro before after engine
  have agree := agreeOn_without comments spared path
  rw [analyze_eq_flatMap_verdict, analyze_eq_flatMap_verdict,
    Outline.ofParseTree_without comments spared, Outline.flatMap_inPlace_without]
  · apply List.flatMap_congr
    intro place member
    exact Setting.verdict_congr agree (mem_values_of_mem_inPlace member) (fun _ _ => trivial) path
      scope
  · intro around outline
    exact Setting.verdict_without _ around outline
  · intro around label span
    exact Setting.verdict_eq_nil rfl rfl

end Analysis

/-! ## Comments in their places -/

namespace ParseTree

def withoutComments (root : ParseTree) : ParseTree :=
  root.without fun kind => kind = "comment"

/-- A row whose comments are not where another row counts by its place: before the first base of a
type, before the pattern inside a pattern, or in an optional access. A comment itself has no field
and nothing below it. -/
@[mk_iff]
structure CommentsAside (row : ParseTree) : Prop where
  leaf : row.kind = "comment" → row.field = none ∧ row.children = []
  base : row.kind = "base_list" →
    ∀ first ∈ row.namedChildren.find? (·.kind ≠ "argument_list"), first.kind ≠ "comment"
  pattern : row.wrapsPattern → ∀ first ∈ row.namedChildren.head?, first.kind ≠ "comment"
  access : row.kind = "conditional_access_expression" →
    ∀ child ∈ row.namedChildren, child.kind ≠ "comment"

instance (row : ParseTree) : Decidable row.CommentsAside :=
  decidable_of_iff _ (commentsAside_iff row).symm

theorem CommentsAside.spares {row : ParseTree} (aside : row.CommentsAside) (source : List Char) :
    row.Spares source source fun kind => kind = "comment" where
  text := rfl
  leaf comment := aside.leaf (by simpa using comment)
  base list first found := by simpa using aside.base list first found
  pattern wraps first found := by
    rw [← List.head?_filter] at found
    simpa using aside.pattern wraps first found
  access optional child member := by simpa using aside.access optional child member

end ParseTree

/-- Comments change no diagnostic, except where a comment takes the place of a row that counts by its
place. -/
theorem analyze_withoutComments (path source : String) (root : ParseTree) (scope : ScopeFilter)
    (aside : ∀ position row, root.at? position = some row → row.CommentsAside) :
    let commented := SourceUnit.ofParseTree path source root
    let plain := SourceUnit.ofParseTree path source root.withoutComments
    let engine := Engine.ofRules scope Preset.all.rules
    engine.analyze plain.tree plain.declarations.resolver =
      engine.analyze commented.tree commented.declarations.resolver := by
  apply analyze_without
  · intro kind comment
    simpa using comment
  · intro position row here
    exact (aside position row here).spares source.toList

namespace ParseTree

/-- The parse tree of `using UnityEngine; class A : MonoBehaviour /* b */, I` with the body
`{ void Update() { GetComponent<B>(/* c */); } }`. -/
def commentedCall : ParseTree :=
  .row "compilation_unit" true none ⟨0, 101, 0, 0⟩ [
    .row "using_directive" true none ⟨0, 18, 0, 0⟩ [
      .row "identifier" true none ⟨6, 17, 0, 6⟩ []],
    .row "class_declaration" true none ⟨19, 101, 0, 19⟩ [
      .row "identifier" true (some .name) ⟨25, 26, 0, 25⟩ [],
      .row "base_list" true none ⟨27, 53, 0, 27⟩ [
        .row "identifier" true none ⟨29, 42, 0, 29⟩ [],
        .row "comment" true none ⟨43, 50, 0, 43⟩ [],
        .row "identifier" true none ⟨52, 53, 0, 52⟩ []],
      .row "declaration_list" true (some .body) ⟨54, 101, 0, 54⟩ [
        .row "method_declaration" true none ⟨56, 99, 0, 56⟩ [
          .row "predefined_type" true none ⟨56, 60, 0, 56⟩ [],
          .row "identifier" true (some .name) ⟨61, 67, 0, 61⟩ [],
          .row "parameter_list" true none ⟨67, 69, 0, 67⟩ [],
          .row "block" true (some .body) ⟨70, 99, 0, 70⟩ [
            .row "expression_statement" true none ⟨72, 97, 0, 72⟩ [
              .row "invocation_expression" true none ⟨72, 96, 0, 72⟩ [
                .row "generic_name" true (some .function) ⟨72, 87, 0, 72⟩ [
                  .row "identifier" true none ⟨72, 84, 0, 72⟩ [],
                  .row "type_argument_list" true none ⟨84, 87, 0, 84⟩ [
                    .row "identifier" true none ⟨85, 86, 0, 85⟩ []]],
                .row "argument_list" true none ⟨87, 96, 0, 87⟩ [
                  .row "comment" true none ⟨88, 95, 0, 88⟩ []]]]]]]]]

end ParseTree

theorem analyze_withoutComments_commentedCall :
    let source := "using UnityEngine; class A : MonoBehaviour /* b */, " ++
      "I \x7b void Update() \x7b GetComponent<B>(/* c */); \x7d \x7d"
    let commented := SourceUnit.ofParseTree "Assets/A.cs" source .commentedCall
    let plain := SourceUnit.ofParseTree "Assets/A.cs" source ParseTree.commentedCall.withoutComments
    let engine := Engine.ofRules .standard Preset.all.rules
    (∀ position row, ParseTree.commentedCall.at? position = some row → row.CommentsAside) ∧
      (engine.analyze commented.tree commented.declarations.resolver).map (·.code) = ["SR0001"] ∧
      engine.analyze plain.tree plain.declarations.resolver =
        engine.analyze commented.tree commented.declarations.resolver := by
  have aside : ∀ found ∈ ParseTree.commentedCall.rowsFrom [], found.2.CommentsAside := by
    decide
  have everywhere : ∀ position row,
      ParseTree.commentedCall.at? position = some row → row.CommentsAside :=
    fun position row here => aside (position, row) (ParseTree.mem_rowsFrom_nil.mpr here)
  refine ⟨everywhere, ?_, analyze_withoutComments _ _ _ _ everywhere⟩
  decide +kernel

namespace ParseTree

/-- The parse tree of `using UnityEngine; class A : /* b */ MonoBehaviour` with the body
`{ void Update() { GetComponent<B>(); } }`. -/
def commentedBase : ParseTree :=
  .row "compilation_unit" true none ⟨0, 91, 0, 0⟩ [
    .row "using_directive" true none ⟨0, 18, 0, 0⟩ [
      .row "identifier" true none ⟨6, 17, 0, 6⟩ []],
    .row "class_declaration" true none ⟨19, 91, 0, 19⟩ [
      .row "identifier" true (some .name) ⟨25, 26, 0, 25⟩ [],
      .row "base_list" true none ⟨27, 50, 0, 27⟩ [
        .row "comment" true none ⟨29, 36, 0, 29⟩ [],
        .row "identifier" true none ⟨37, 50, 0, 37⟩ []],
      .row "declaration_list" true (some .body) ⟨51, 91, 0, 51⟩ [
        .row "method_declaration" true none ⟨53, 89, 0, 53⟩ [
          .row "predefined_type" true none ⟨53, 57, 0, 53⟩ [],
          .row "identifier" true (some .name) ⟨58, 64, 0, 58⟩ [],
          .row "parameter_list" true none ⟨64, 66, 0, 64⟩ [],
          .row "block" true (some .body) ⟨67, 89, 0, 67⟩ [
            .row "expression_statement" true none ⟨69, 87, 0, 69⟩ [
              .row "invocation_expression" true none ⟨69, 86, 0, 69⟩ [
                .row "generic_name" true (some .function) ⟨69, 84, 0, 69⟩ [
                  .row "identifier" true none ⟨69, 81, 0, 69⟩ [],
                  .row "type_argument_list" true none ⟨81, 84, 0, 81⟩ [
                    .row "identifier" true none ⟨82, 83, 0, 82⟩ []]],
                .row "argument_list" true none ⟨84, 86, 0, 84⟩ []]]]]]]]

/-- The parse tree of `class A { [Inject] B b; void M() { if (b is not /* c */ null) { } } }`. -/
def commentedPattern : ParseTree :=
  .row "compilation_unit" true none ⟨0, 69, 0, 0⟩ [
    .row "class_declaration" true none ⟨0, 69, 0, 0⟩ [
      .row "identifier" true (some .name) ⟨6, 7, 0, 6⟩ [],
      .row "declaration_list" true (some .body) ⟨8, 69, 0, 8⟩ [
        .row "field_declaration" true none ⟨10, 23, 0, 10⟩ [
          .row "attribute_list" true none ⟨10, 18, 0, 10⟩ [
            .row "attribute" true none ⟨11, 17, 0, 11⟩ [
              .row "identifier" true (some .name) ⟨11, 17, 0, 11⟩ []]],
          .row "variable_declaration" true none ⟨19, 22, 0, 19⟩ [
            .row "identifier" true none ⟨19, 20, 0, 19⟩ [],
            .row "variable_declarator" true none ⟨21, 22, 0, 21⟩ [
              .row "identifier" true (some .name) ⟨21, 22, 0, 21⟩ []]]],
        .row "method_declaration" true none ⟨24, 67, 0, 24⟩ [
          .row "predefined_type" true none ⟨24, 28, 0, 24⟩ [],
          .row "identifier" true (some .name) ⟨29, 30, 0, 29⟩ [],
          .row "parameter_list" true none ⟨30, 32, 0, 30⟩ [],
          .row "block" true (some .body) ⟨33, 67, 0, 33⟩ [
            .row "if_statement" true none ⟨35, 65, 0, 35⟩ [
              .row "is_pattern_expression" true (some .condition) ⟨39, 60, 0, 39⟩ [
                .row "identifier" true (some .expression) ⟨39, 40, 0, 39⟩ [],
                .row "negated_pattern" true (some .pattern) ⟨44, 60, 0, 44⟩ [
                  .row "comment" true none ⟨48, 55, 0, 48⟩ [],
                  .row "constant_pattern" true none ⟨56, 60, 0, 56⟩ [
                    .row "null_literal" true none ⟨56, 60, 0, 56⟩ []]]],
              .row "block" true none ⟨62, 65, 0, 62⟩ []]]]]]]

/-- The parse tree of `class A { void M() { b?/* c */.GetComponent<C>()?.D(); } }`. -/
def commentedAccess : ParseTree :=
  .row "compilation_unit" true none ⟨0, 58, 0, 0⟩ [
    .row "class_declaration" true none ⟨0, 58, 0, 0⟩ [
      .row "identifier" true (some .name) ⟨6, 7, 0, 6⟩ [],
      .row "declaration_list" true (some .body) ⟨8, 58, 0, 8⟩ [
        .row "method_declaration" true none ⟨10, 56, 0, 10⟩ [
          .row "predefined_type" true none ⟨10, 14, 0, 10⟩ [],
          .row "identifier" true (some .name) ⟨15, 16, 0, 15⟩ [],
          .row "parameter_list" true none ⟨16, 18, 0, 16⟩ [],
          .row "block" true (some .body) ⟨19, 56, 0, 19⟩ [
            .row "expression_statement" true none ⟨21, 54, 0, 21⟩ [
              .row "invocation_expression" true none ⟨21, 53, 0, 21⟩ [
                .row "conditional_access_expression" true (some .function) ⟨21, 51, 0, 21⟩ [
                  .row "invocation_expression" true (some .condition) ⟨21, 48, 0, 21⟩ [
                    .row "conditional_access_expression" true (some .function) ⟨21, 46, 0, 21⟩ [
                      .row "identifier" true (some .condition) ⟨21, 22, 0, 21⟩ [],
                      .row "comment" true none ⟨23, 30, 0, 23⟩ [],
                      .row "member_binding_expression" true none ⟨30, 46, 0, 30⟩ [
                        .row "generic_name" true (some .name) ⟨31, 46, 0, 31⟩ [
                          .row "identifier" true none ⟨31, 43, 0, 31⟩ [],
                          .row "type_argument_list" true none ⟨43, 46, 0, 43⟩ [
                            .row "identifier" true none ⟨44, 45, 0, 44⟩ []]]]],
                    .row "argument_list" true none ⟨46, 48, 0, 46⟩ []],
                  .row "member_binding_expression" true none ⟨49, 51, 0, 49⟩ [
                    .row "identifier" true (some .name) ⟨50, 51, 0, 50⟩ []]],
                .row "argument_list" true none ⟨51, 53, 0, 51⟩ []]]]]]]]

end ParseTree

/-- In each of the three places a comment hides what is reported without it. -/
theorem misplacedComments_hide_reports :
    let codes := fun source root =>
      let unit := SourceUnit.ofParseTree "Assets/A.cs" source root
      ((Engine.ofRules .standard Preset.all.rules).analyze unit.tree
        unit.declarations.resolver).map (·.code)
    let base := "using UnityEngine; class A : /* b */ MonoBehaviour \x7b" ++
      " void Update() \x7b GetComponent<B>(); \x7d \x7d"
    let pattern := "class A \x7b [Inject] B b; " ++
      "void M() \x7b if (b is not /* c */ null) \x7b \x7d \x7d \x7d"
    let access := "class A \x7b void M() \x7b b?/* c */.GetComponent<C>()?.D(); \x7d \x7d"
    (codes base .commentedBase = [] ∧
        codes base ParseTree.commentedBase.withoutComments = ["SR0001"]) ∧
      (codes pattern .commentedPattern = [] ∧
        codes pattern ParseTree.commentedPattern.withoutComments = ["SR0004"]) ∧
      codes access .commentedAccess = [] ∧
        codes access ParseTree.commentedAccess.withoutComments = ["SR0003"] := by
  decide +kernel

end UnityLint
