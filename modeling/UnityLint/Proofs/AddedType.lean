import UnityLint.Proofs.DroppedParts
import UnityLint.Proofs.LookupAgreement

/-! # Types added to a file

A type that is added at the end of a file, under a name that the rest of the file does not mention,
leaves what is reported about the rest as it is. -/

namespace UnityLint

/-! ## What a file mentions -/

def Forest.receiverName? (forest : Forest) (call : NodeId) : Option String :=
  match forest.node? call with
  | some (.invocation callee) =>
      match forest.node? callee with
      | some (.memberAccess receiver _) => forest.dottedName? receiver
      | _ => none
  | _ => none

/-- The types that a file mentions, as written: the bases of its types, what its aliases stand for,
and what its calls are made on. -/
def SourceUnit.mentioned (unit : SourceUnit) : List String :=
  unit.declarations.types.values.filterMap (·.base) ++ unit.declarations.aliases.map (·.2) ++
    unit.tree.ids.filterMap unit.tree.receiverName?

namespace Trace

theorem Sits.receiverName?_of_outline {whole node : Trace} {first : Nat}
    {around : List (Nat × Trace)} (sits : Sits whole first node around) {written : String}
    (named : node.outline.receiverName? = some written) :
    whole.forest.receiverName? (first + node.countBelow) = some written := by
  rw [Outline.receiverName?] at named
  rcases node.callee?_cases with none | ⟨callee, rest, call, parts, found⟩
  · rw [none] at named
    cases named
  · have inner := sits.first_part parts
    rw [found, Option.bind_some] at named
    rcases inner.access?_cases with ⟨none, _⟩ | ⟨receiver, member, others, access, equal⟩
    · rw [none] at named
      cases named
    · rw [access?_outline access equal, Option.bind_some] at named
      rw [Forest.receiverName?, sits.node?_call call parts]
      dsimp only
      rw [inner.node?_access access equal]
      exact (inner.first_part equal).dottedName?_eq.trans named

end Trace

theorem mem_mentioned_of_receiverName? (path source : String) (root : ParseTree)
    {place : Surroundings × Outline}
    (member : place ∈ (Outline.ofParseTree source.toList root).inPlace {}) :
    ∀ written ∈ place.2.receiverName?,
      written ∈ (SourceUnit.ofParseTree path source root).mentioned := by
  intro written named
  have forest := toForest_ofParseTree path source root
  rw [← Trace.outline_ofParseTree] at member
  rcases Trace.exists_node_of_mem_inPlace member with ⟨node, inside, equal⟩
  rcases List.mem_iff_getElem?.mp inside with ⟨number, here⟩
  have small := (List.getElem?_eq_some_iff.mp here).1
  rcases Trace.sits_of_getElem?_nodes here with ⟨first, around, sits, rfl⟩
  have found := sits.receiverName?_of_outline (equal ▸ named)
  apply List.mem_append_right
  apply List.mem_filterMap.mpr
  refine ⟨first + node.countBelow, ?_, forest ▸ found⟩
  rw [Tree.ids, List.mem_range, forest, Trace.size_forest, ← Trace.length_nodes]
  exact small

/-! ## Rows of a part of a file -/

namespace ParseTree

variable {source : List Char} {root row : ParseTree} {position : Position}

theorem exists_trace_read (here : root.at? position = some row) :
    ∃ trace : Trace,
      trace.outline = (row.read source (root.fileNamespace? source)
        (root.spacesFrom source [] position)).outline ∧
      ∀ node ∈ trace.nodes, ∃ inner below, row.at? inner = some below ∧
        node.MadeFrom source root below := by
  refine ⟨(root.tracedAt source position row).whole, (agrees_trace ..).whole, ?_⟩
  intro node inside
  have offered := (root.tracedAt source position row).whole_mem_offers
  rcases madeFrom_of_mem_offers here _ offered node inside with ⟨below, made⟩
  rcases prefix_of_mem_offers here _ offered node inside with ⟨inner, equal⟩
  refine ⟨inner, below, ?_, made⟩
  have there := made.1
  rw [← equal, at?_append, here] at there
  exact there

end ParseTree

theorem Trace.MadeFrom.kind_eq_usingDirective {source : List Char} {root row : ParseTree}
    {node : Trace} (made : node.MadeFrom source root row) {directive : UsingDirective}
    (found : node.form.directive? = some directive) : row.kind = "using_directive" := by
  have known := made.ofKind_mem_constructs
  cases form : node.form with
  | other label other =>
      rw [form] at found
      cases found
      rw [form] at known
      exact (Construct.ofKind_eq_iff_eq _ rfl).mp (List.mem_singleton.mp known)
  | _ =>
      rw [form] at found
      cases found

/-! ## Files with a further row -/

namespace ParseTree

def appending (root : ParseTree) (stop : Nat) (added : ParseTree) : ParseTree :=
  .row root.kind root.named root.field { root.extent with stop } (root.children ++ [added])

section Appending

variable (root : ParseTree) (stop : Nat) (added : ParseTree)

@[simp] theorem kind_appending : (root.appending stop added).kind = root.kind :=
  rfl

@[simp] theorem children_appending :
    (root.appending stop added).children = root.children ++ [added] :=
  rfl

theorem at?_appending : (root.appending stop added).at? [root.children.length] = some added := by
  rw [at?, children_appending, List.getElem?_append_right (Nat.le_refl _), Nat.sub_self]
  rfl

theorem fileNamespace?_appending (source : List Char) {added : ParseTree}
    (declares : added.isTypeDeclaration) :
    (root.appending stop added).fileNamespace? source = root.fileNamespace? source := by
  have other : added.kind ≠ "file_scoped_namespace_declaration" := by
    intro equal
    rw [isTypeDeclaration, equal] at declares
    exact absurd declares (by decide)
  have same : (root.appending stop added).childOfKind? "file_scoped_namespace_declaration" =
      root.childOfKind? "file_scoped_namespace_declaration" := by
    simp [childOfKind?, namedChildren, List.find?_filter, List.find?_append, other]
  rw [fileNamespace?, fileNamespace?, same]

end Appending

/-! ### Rows that keep their texts -/

section Texts

variable {source extended : List Char} {root : ParseTree}
  (texts : ∀ position row, root.at? position = some row → position ≠ [] →
    row.text extended = row.text source)

include texts

theorem spared_of_texts :
    ∀ child ∈ root.children, child.Spared source extended fun _ => false := by
  intro child member position row here
  rcases List.mem_iff_getElem?.mp member with ⟨place, found⟩
  have inside : root.at? (place :: position) = some row := by
    rw [at?, found]
    exact here
  exact ⟨texts _ row inside (List.cons_ne_nil _ _), fun dropped => absurd dropped Bool.false_ne_true,
    fun _ _ _ => rfl, fun _ _ _ => rfl, fun _ _ _ => rfl⟩

theorem outline_read_of_texts {child : ParseTree} (member : child ∈ root.children)
    (fileSpace : Option String) (spaces : List String) :
    (child.read extended fileSpace spaces).outline =
      (child.read source fileSpace spaces).outline := by
  have kept : ∀ kind : String, (fun _ : String => false) kind = true → kind = "comment" := nofun
  have same := read_without kept (spared_of_texts texts child member) fileSpace spaces
  rw [without_eq_self _ fun _ => rfl] at same
  rw [same]
  exact Outline.without_eq_self (fun _ => rfl) _

theorem fileNamespace?_of_texts : root.fileNamespace? extended = root.fileNamespace? source := by
  have kept : ∀ kind : String, (fun _ : String => false) kind = true → kind = "comment" := nofun
  have same := fileNamespace?_without kept (spared_of_texts texts)
  rwa [without_eq_self _ fun _ => rfl] at same

end Texts

end ParseTree

namespace Outline

def ofRows (source : List Char) (fileSpace : Option String) (rows : List ParseTree) :
    List Outline :=
  (rows.filter (·.named)).map fun row => (row.read source fileSpace []).outline

theorem ofParseTree_of_file {root : ParseTree} (file : root.kind = "compilation_unit")
    (source : List Char) :
    Outline.ofParseTree source root =
      .node .compilationUnit root.span
        (ofRows source (root.fileNamespace? source) root.children) := by
  have construct : Construct.ofKind root.kind = .compilationUnit := by
    rw [file]
    decide
  have spaces : root.innerSpaces source [] = [] := by
    rw [ParseTree.innerSpaces, file, if_neg (by decide)]
  rw [Outline.ofParseTree, ParseTree.read_eq_ofParts, Reading.ofParts]
  simp only [Reading.outlineOf, construct, ParseTree.readParts, spaces, Reading.outlines, ofRows,
    List.filter_map, List.map_map, Function.comp_def]

theorem ofRows_append (source : List Char) (fileSpace : Option String)
    (rows others : List ParseTree) :
    ofRows source fileSpace (rows ++ others) =
      ofRows source fileSpace rows ++ ofRows source fileSpace others := by
  rw [ofRows, List.filter_append, List.map_append, ofRows, ofRows]

/-! ### What a file consists of -/

section File

variable (span : Span) (parts : List Outline)

theorem types_file :
    (Outline.node .compilationUnit span parts).types = parts.flatMap types := by
  rw [types, inPlace_eq, List.filterMap_append, List.filterMap_flatMap]
  exact List.append_nil _

theorem directives_file :
    (Outline.node .compilationUnit span parts).directives = parts.flatMap directives := by
  rw [directives, directivesOfAll_eq_flatMap]
  rfl

theorem inPlace_file :
    (Outline.node .compilationUnit span parts).inPlace {} =
      parts.flatMap (inPlace {}) ++ [(({} : Surroundings), .node .compilationUnit span parts)] :=
  inPlace_eq {} _

end File

end Outline

/-! ## The added row -/

/-- The row declares a type and can be added to a file without a clash: it contains no `using`
directive, and no type in it has the simple name of a type that the file mentions. -/
structure ParseTree.Independent (source : List Char) (unit : SourceUnit) (added : ParseTree) : Prop
    where
  declares : added.isTypeDeclaration
  directives : ∀ position row, added.at? position = some row → row.kind ≠ "using_directive"
  names : ∀ position row, added.at? position = some row → row.isTypeDeclaration →
    ∀ written ∈ unit.mentioned, row.declaredName source ≠ simpleTypeName written

section Added

variable {path source extended : String} {root added : ParseTree} {stop : Nat}
  (file : root.kind = "compilation_unit") {part : Outline}
  (member : part ∈ Outline.ofRows extended.toList
    ((root.appending stop added).fileNamespace? extended.toList) [added])

include file member

theorem exists_trace_added :
    ∃ trace : Trace, trace.outline = part ∧
      ∀ node ∈ trace.nodes, ∃ inner below, added.at? inner = some below ∧
        node.MadeFrom extended.toList (root.appending stop added) below := by
  have top : (root.appending stop added).at? [] = some (root.appending stop added) := rfl
  have spaces : (root.appending stop added).spacesFrom extended.toList []
      ([] ++ [root.children.length]) = [] := by
    rw [ParseTree.spacesFrom_snoc top, ParseTree.innerSpaces, ParseTree.kind_appending, file,
      if_neg (by decide)]
    rfl
  rcases ParseTree.exists_trace_read (root.at?_appending stop added) with ⟨trace, equal, made⟩
  refine ⟨trace, ?_, made⟩
  rcases List.mem_map.mp member with ⟨row, listed, rfl⟩
  rw [List.nil_append] at spaces
  rw [List.mem_singleton.mp (List.mem_of_mem_filter listed), equal, spaces]

theorem exists_row_added {around : Surroundings} {place : Surroundings × Outline}
    (inside : place ∈ part.inPlace around) :
    ∃ inner below, added.at? inner = some below ∧ place.2.span = below.span := by
  rcases exists_trace_added file member with ⟨trace, rfl, made⟩
  rcases Trace.exists_node_of_mem_inPlace inside with ⟨node, below, equal⟩
  rcases made node below with ⟨inner, row, here, origin⟩
  refine ⟨inner, row, here, ?_⟩
  rw [← equal, Trace.span_outline, origin.span_eq]

variable (independent : added.Independent extended.toList (SourceUnit.ofParseTree path source root))

include independent

theorem name_added {info : TypeInfo} (declared : info ∈ part.types) :
    ∀ written ∈ (SourceUnit.ofParseTree path source root).mentioned,
      info.name ≠ simpleTypeName written := by
  rcases exists_trace_added file member with ⟨trace, rfl, made⟩
  rcases List.mem_filterMap.mp declared with ⟨place, inside, found⟩
  rcases Trace.exists_node_of_mem_inPlace inside with ⟨node, below, equal⟩
  rcases made node below with ⟨inner, row, here, origin⟩
  rw [← equal, Trace.form_outline] at found
  have type := origin.declaresType found
  rw [type.info]
  exact independent.names inner row here type.declares

theorem directives_added : part.directives = [] := by
  rcases exists_trace_added file member with ⟨trace, rfl, made⟩
  rw [Trace.directives_outline, List.eq_nil_iff_forall_not_mem]
  intro directive listed
  rcases Trace.mem_directives.mp listed with ⟨node, below, found⟩
  rcases made node below with ⟨inner, row, here, origin⟩
  exact independent.directives inner row here (origin.kind_eq_usingDirective found)

end Added

/-! ## The file with the added row -/

section File

variable {path source extended : String} {root added : ParseTree} {stop : Nat}
  (file : root.kind = "compilation_unit")
  (texts : ∀ position row, root.at? position = some row → position ≠ [] →
    row.text extended.toList = row.text source.toList)
  (independent : added.Independent extended.toList (SourceUnit.ofParseTree path source root))

include file texts independent

theorem ofParseTree_appending :
    Outline.ofParseTree extended.toList (root.appending stop added) =
      .node .compilationUnit (root.appending stop added).span
        (Outline.ofRows source.toList (root.fileNamespace? source.toList) root.children ++
          Outline.ofRows extended.toList
            ((root.appending stop added).fileNamespace? extended.toList) [added]) := by
  have space : (root.appending stop added).fileNamespace? extended.toList =
      root.fileNamespace? source.toList := by
    rw [ParseTree.fileNamespace?_appending _ _ _ independent.declares,
      ParseTree.fileNamespace?_of_texts texts]
  rw [Outline.ofParseTree_of_file (by rw [ParseTree.kind_appending, file]),
    ParseTree.children_appending, Outline.ofRows_append]
  congr 2
  rw [Outline.ofRows, Outline.ofRows, space]
  apply List.map_congr_left
  intro child member
  exact ParseTree.outline_read_of_texts texts (List.mem_of_mem_filter member) _ _

theorem agreeOn_appending :
    Declarations.AgreeOn (· ∈ (SourceUnit.ofParseTree path source root).mentioned)
      (SourceUnit.ofParseTree path source root).declarations
      (SourceUnit.ofParseTree path extended (root.appending stop added)).declarations := by
  have before := Outline.ofParseTree_of_file file source.toList
  have after : Outline.ofParseTree extended.toList (root.appending stop added) = _ :=
    ofParseTree_appending file texts independent
  have directives : (Outline.ofParseTree extended.toList (root.appending stop added)).directives =
      (Outline.ofParseTree source.toList root).directives := by
    rw [before, after, Outline.directives_file, Outline.directives_file, List.flatMap_append]
    rw [List.flatMap_eq_nil_iff.mpr fun part member => directives_added file member independent,
      List.append_nil]
  apply Declarations.AgreeOn.of_added
  · rw [values_types_ofParseTree, values_types_ofParseTree, before, after, Outline.types_file,
      Outline.types_file, List.flatMap_append]
  · rw [usings_ofParseTree, usings_ofParseTree, directives]
  · rw [aliases_ofParseTree, aliases_ofParseTree, directives]
  · intro info declared written base
    apply List.mem_append_left
    apply List.mem_append_left
    exact List.mem_filterMap.mpr ⟨info, declared, base⟩
  · intro written mentioned info declared
    rcases List.mem_flatMap.mp declared with ⟨part, member, inside⟩
    apply name_added file member independent inside
    rcases mentioned with named | ⟨entry, listed, rfl⟩
    · exact named
    · apply List.mem_append_left
      apply List.mem_append_right
      exact List.mem_map_of_mem listed

end File

/-- A type that is added to a file under names that the file does not mention: all that was reported
is reported again, first and in the same order, and what is new is located in the added row. -/
theorem analyze_appending (path source extended : String) (root added : ParseTree) (stop : Nat)
    (scope : ScopeFilter) (file : root.kind = "compilation_unit")
    (texts : ∀ position row, root.at? position = some row → position ≠ [] →
      row.text extended.toList = row.text source.toList)
    (independent : added.Independent extended.toList (SourceUnit.ofParseTree path source root)) :
    let before := SourceUnit.ofParseTree path source root
    let after := SourceUnit.ofParseTree path extended (root.appending stop added)
    let engine := Engine.ofRules scope Preset.all.rules
    ∃ further,
      engine.analyze after.tree after.declarations.resolver =
        engine.analyze before.tree before.declarations.resolver ++ further ∧
      ∀ diagnostic ∈ further, ∃ position row, added.at? position = some row ∧
        diagnostic.location = row.span.location path := by
  intro before after engine
  let appended := Outline.ofRows extended.toList
    ((root.appending stop added).fileNamespace? extended.toList) [added]
  let later : Setting := { path, scope, declarations := after.declarations }
  refine ⟨(appended.flatMap (Outline.inPlace {})).flatMap fun place =>
    later.verdict place.1 place.2, ?_, ?_⟩
  · have agree : Declarations.AgreeOn (· ∈ before.mentioned) before.declarations
        after.declarations :=
      agreeOn_appending file texts independent
    have own : ∀ place ∈ (Outline.ofParseTree source.toList root).inPlace {},
        later.verdict place.1 place.2 =
          Setting.verdict { path, scope, declarations := before.declarations } place.1 place.2 := by
      intro place member
      exact Setting.verdict_congr agree (mem_values_of_mem_inPlace member)
        (mem_mentioned_of_receiverName? path source root member) path scope
    rw [analyze_eq_flatMap_verdict, analyze_eq_flatMap_verdict, ← List.flatMap_congr own,
      ofParseTree_appending file texts independent, Outline.ofParseTree_of_file file,
      Outline.inPlace_file, Outline.inPlace_file]
    have silent (setting : Setting) (span : Span) (parts : List Outline) :
        setting.verdict {} (.node .compilationUnit span parts) = [] :=
      Setting.verdict_eq_nil rfl rfl
    simp only [List.flatMap_append, List.flatMap_singleton, silent, List.append_nil]
    rfl
  · intro diagnostic member
    rcases List.mem_flatMap.mp member with ⟨place, listed, said⟩
    rcases List.mem_flatMap.mp listed with ⟨part, inside, below⟩
    rcases exists_row_added file inside below with ⟨position, row, here, span⟩
    refine ⟨position, row, here, ?_⟩
    rw [Setting.location_of_mem_verdict said, span]

def lookupText : String :=
  "using UnityEngine; class A : MonoBehaviour " ++
    "\x7b void Update() \x7b Object.FindObjectOfType<B>(); \x7d \x7d"

def ParseTree.lookupFile : ParseTree :=
  .row "compilation_unit" true none ⟨0, 94, 0, 0⟩ [
    .row "using_directive" true none ⟨0, 18, 0, 0⟩ [
      .row "identifier" true none ⟨6, 17, 0, 6⟩ []],
    .row "class_declaration" true none ⟨19, 94, 0, 19⟩ [
      .row "identifier" true (some .name) ⟨25, 26, 0, 25⟩ [],
      .row "base_list" true none ⟨27, 42, 0, 27⟩ [
        .row "identifier" true none ⟨29, 42, 0, 29⟩ []],
      .row "declaration_list" true (some .body) ⟨43, 94, 0, 43⟩ [
        .row "method_declaration" true none ⟨45, 92, 0, 45⟩ [
          .row "predefined_type" true none ⟨45, 49, 0, 45⟩ [],
          .row "identifier" true (some .name) ⟨50, 56, 0, 50⟩ [],
          .row "parameter_list" true none ⟨56, 58, 0, 56⟩ [],
          .row "block" true (some .body) ⟨59, 92, 0, 59⟩ [
            .row "expression_statement" true none ⟨61, 90, 0, 61⟩ [
              .row "invocation_expression" true none ⟨61, 89, 0, 61⟩ [
                .row "member_access_expression" true (some .function) ⟨61, 87, 0, 61⟩ [
                  .row "identifier" true (some .expression) ⟨61, 67, 0, 61⟩ [],
                  .row "generic_name" true (some .name) ⟨68, 87, 0, 68⟩ [
                    .row "identifier" true none ⟨68, 84, 0, 68⟩ [],
                    .row "type_argument_list" true none ⟨84, 87, 0, 84⟩ [
                      .row "identifier" true none ⟨85, 86, 0, 85⟩ []]]],
                .row "argument_list" true none ⟨87, 89, 0, 87⟩ []]]]]]]]

def lookupTextAndGuard : String :=
  lookupText ++ " class C \x7b [Inject] B b; void M() \x7b if (b == null) \x7b \x7d \x7d \x7d"

def ParseTree.guardType : ParseTree :=
  .row "class_declaration" true none ⟨95, 152, 0, 95⟩ [
    .row "identifier" true (some .name) ⟨101, 102, 0, 101⟩ [],
    .row "declaration_list" true (some .body) ⟨103, 152, 0, 103⟩ [
      .row "field_declaration" true none ⟨105, 118, 0, 105⟩ [
        .row "attribute_list" true none ⟨105, 113, 0, 105⟩ [
          .row "attribute" true none ⟨106, 112, 0, 106⟩ [
            .row "identifier" true (some .name) ⟨106, 112, 0, 106⟩ []]],
        .row "variable_declaration" true none ⟨114, 117, 0, 114⟩ [
          .row "identifier" true none ⟨114, 115, 0, 114⟩ [],
          .row "variable_declarator" true none ⟨116, 117, 0, 116⟩ [
            .row "identifier" true (some .name) ⟨116, 117, 0, 116⟩ []]]],
      .row "method_declaration" true none ⟨119, 150, 0, 119⟩ [
        .row "predefined_type" true none ⟨119, 123, 0, 119⟩ [],
        .row "identifier" true (some .name) ⟨124, 125, 0, 124⟩ [],
        .row "parameter_list" true none ⟨125, 127, 0, 125⟩ [],
        .row "block" true (some .body) ⟨128, 150, 0, 128⟩ [
          .row "if_statement" true none ⟨130, 148, 0, 130⟩ [
            .row "binary_expression" true (some .condition) ⟨134, 143, 0, 134⟩ [
              .row "identifier" true (some .left) ⟨134, 135, 0, 134⟩ [],
              .row "==" false (some .operator) ⟨136, 138, 0, 136⟩ [],
              .row "null_literal" true (some .right) ⟨139, 143, 0, 139⟩ []],
            .row "block" true none ⟨145, 148, 0, 145⟩ []]]]]]

theorem analyze_appending_guardType :
    let before := SourceUnit.ofParseTree "Assets/A.cs" lookupText .lookupFile
    let after := SourceUnit.ofParseTree "Assets/A.cs" lookupTextAndGuard
      (ParseTree.lookupFile.appending 152 .guardType)
    let engine := Engine.ofRules .standard Preset.all.rules
    before.mentioned = ["MonoBehaviour", "Object"] ∧
      (engine.analyze after.tree after.declarations.resolver).map (·.code) =
        ["SR0002", "SR0004"] ∧
      ∃ further,
        engine.analyze after.tree after.declarations.resolver =
          engine.analyze before.tree before.declarations.resolver ++ further ∧
        ∀ diagnostic ∈ further, ∃ position row, ParseTree.guardType.at? position = some row ∧
          diagnostic.location = row.span.location "Assets/A.cs" := by
  have texts : ∀ found ∈ ParseTree.lookupFile.rowsFrom [], found.1 ≠ [] →
      found.2.text lookupTextAndGuard.toList = found.2.text lookupText.toList := by
    decide +kernel
  have directives : ∀ found ∈ ParseTree.guardType.rowsFrom [],
      found.2.kind ≠ "using_directive" := by
    decide
  have mentioned : (SourceUnit.ofParseTree "Assets/A.cs" lookupText .lookupFile).mentioned =
      ["MonoBehaviour", "Object"] := by
    decide +kernel
  have names : ∀ found ∈ ParseTree.guardType.rowsFrom [], found.2.isTypeDeclaration →
      ∀ written ∈ ["MonoBehaviour", "Object"],
        found.2.declaredName lookupTextAndGuard.toList ≠ simpleTypeName written := by
    decide +kernel
  refine ⟨mentioned, by decide +kernel, analyze_appending _ _ _ _ _ _ _ rfl ?_ ?_⟩
  · intro position row here
    exact texts (position, row) (ParseTree.mem_rowsFrom_nil.mpr here)
  · refine ⟨by decide, ?_, ?_⟩
    · intro position row here
      exact directives (position, row) (ParseTree.mem_rowsFrom_nil.mpr here)
    · intro position row here
      rw [mentioned]
      exact names (position, row) (ParseTree.mem_rowsFrom_nil.mpr here)

end UnityLint
