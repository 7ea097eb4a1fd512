import UnityLint.Engine
import UnityLint.Proofs.Bindings
import UnityLint.Rule.Preset

/-! # Members of a type

The members noted for a type are the fields and properties that stand directly in its body. Those that
another row wraps, such as a conditional directive, are not noted. -/

namespace UnityLint

namespace ParseTree

structure Declares (source : List Char) (declaration : ParseTree) (member : Member) : Prop where
  attributes : member.attributes = declaration.attributes source
  kind : declaration.kind = "field_declaration" ∧ member.kind = .field ∧
      (∃ group ∈ declaration.childrenOfKind "variable_declaration",
        ∃ declarator ∈ group.childrenOfKind "variable_declarator",
          declarator.declaratorName? source = some member.name) ∨
    declaration.kind = "property_declaration" ∧ member.kind = .property ∧
      declaration.textOf? source .name = some member.name

variable {source : List Char} {declaration : ParseTree}

theorem mem_declaredVariables {name : String} :
    name ∈ declaration.declaredVariables source ↔
      ∃ group ∈ declaration.childrenOfKind "variable_declaration",
        ∃ declarator ∈ group.childrenOfKind "variable_declarator",
          declarator.declaratorName? source = some name := by
  simp only [declaredVariables, List.mem_flatMap, List.mem_filterMap]

theorem mem_membersOf {member : Member} :
    member ∈ declaration.membersOf source ↔ declaration.Declares source member := by
  rw [membersOf]
  constructor
  · intro listed
    split at listed
    · rename_i field
      rcases List.mem_map.mp listed with ⟨name, declared, rfl⟩
      exact ⟨rfl, .inl ⟨field, rfl, mem_declaredVariables.mp declared⟩⟩
    · split at listed
      · rename_i property
        rcases List.mem_map.mp listed with ⟨name, declared, rfl⟩
        exact ⟨rfl, .inr ⟨property, rfl, Option.mem_toList.mp declared⟩⟩
      · cases listed
  · rcases member with ⟨name, kind, attributes⟩
    rintro ⟨carried, ⟨field, same, declared⟩ | ⟨property, same, declared⟩⟩
    · dsimp only at carried same declared
      subst carried same
      rw [if_pos field]
      exact List.mem_map_of_mem (mem_declaredVariables.mpr declared)
    · dsimp only at carried same declared
      subst carried same
      rw [property, if_neg (by decide), if_pos rfl, declared]
      exact List.mem_singleton.mpr rfl

theorem mem_members_typeInfo {type : ParseTree} {namespaceName : Option String} {member : Member} :
    member ∈ (type.typeInfo source namespaceName).members ↔
      ∃ declaration ∈ type.bodyRows, declaration.Declares source member := by
  simp only [typeInfo, List.mem_flatMap, mem_membersOf]

end ParseTree

/-- Every type of a file is noted with exactly the fields and properties that stand directly in its
body, each with the attributes of its declaration. -/
theorem noted_members (path source : String) (root : ParseTree) :
    let unit := SourceUnit.ofParseTree path source root
    let origin := (Trace.ofParseTree source.toList root).originOf
    unit.tree.ReadFrom root origin ∧
      ∀ id, unit.tree.kind? id = some .typeDeclaration →
        ∃ type info, root.at? (origin id) = some type ∧ type.isTypeDeclaration ∧
          unit.declarations.types.find? id = some info ∧
          ∀ member, member ∈ info.members ↔
            ∃ declaration ∈ type.bodyRows, declaration.Declares source.toList member := by
  have forest := toForest_ofParseTree path source root
  dsimp only
  rw [declarations_ofParseTree]
  refine ⟨forest ▸ Trace.readFrom_originOf .., ?_⟩
  intro id kind
  rw [forest] at kind
  rcases Trace.exists_node_of_kind? kind (by decide) with ⟨node, inside, formed⟩
  rcases ParseTree.madeFrom_of_mem_nodes (List.mem_of_getElem? inside) with ⟨row, made⟩
  rw [Trace.originOf_eq inside, Trace.find?_types, inside, Option.bind_some]
  cases form : node.form with
  | typeDeclaration info =>
      have type := made.declaresType (by rw [form]; rfl)
      refine ⟨row, info, made.1, type.declares, rfl, ?_⟩
      rw [type.info]
      intro member
      exact ParseTree.mem_members_typeInfo
  | _ =>
      rw [form] at formed
      cases formed

def memberText : String :=
  "class A \x7b [Inject] B b, c; D d \x7b get; \x7d class E \x7b F f; \x7d \x7d"

def ParseTree.memberFile : ParseTree :=
  .row "compilation_unit" true none ⟨0, 58, 0, 0⟩ [
    .row "class_declaration" true none ⟨0, 58, 0, 0⟩ [
      .row "identifier" true (some .name) ⟨6, 7, 0, 6⟩ [],
      .row "declaration_list" true (some .body) ⟨8, 58, 0, 8⟩ [
        .row "field_declaration" true none ⟨10, 26, 0, 10⟩ [
          .row "attribute_list" true none ⟨10, 18, 0, 10⟩ [
            .row "attribute" true none ⟨11, 17, 0, 11⟩ [
              .row "identifier" true (some .name) ⟨11, 17, 0, 11⟩ []]],
          .row "variable_declaration" true none ⟨19, 25, 0, 19⟩ [
            .row "identifier" true none ⟨19, 20, 0, 19⟩ [],
            .row "variable_declarator" true none ⟨21, 22, 0, 21⟩ [
              .row "identifier" true (some .name) ⟨21, 22, 0, 21⟩ []],
            .row "variable_declarator" true none ⟨24, 25, 0, 24⟩ [
              .row "identifier" true (some .name) ⟨24, 25, 0, 24⟩ []]]],
        .row "property_declaration" true none ⟨27, 39, 0, 27⟩ [
          .row "identifier" true none ⟨27, 28, 0, 27⟩ [],
          .row "identifier" true (some .name) ⟨29, 30, 0, 29⟩ [],
          .row "accessor_list" true none ⟨31, 39, 0, 31⟩ [
            .row "accessor_declaration" true none ⟨33, 37, 0, 33⟩ []]],
        .row "class_declaration" true none ⟨40, 56, 0, 40⟩ [
          .row "identifier" true (some .name) ⟨46, 47, 0, 46⟩ [],
          .row "declaration_list" true (some .body) ⟨48, 56, 0, 48⟩ [
            .row "field_declaration" true none ⟨50, 54, 0, 50⟩ [
              .row "variable_declaration" true none ⟨50, 53, 0, 50⟩ [
                .row "identifier" true none ⟨50, 51, 0, 50⟩ [],
                .row "variable_declarator" true none ⟨52, 53, 0, 52⟩ [
                  .row "identifier" true (some .name) ⟨52, 53, 0, 52⟩ []]]]]]]]]

theorem noted_members_memberFile :
    let unit := SourceUnit.ofParseTree "Assets/A.cs" memberText .memberFile
    unit.tree.kind? 23 = some .typeDeclaration ∧
      ∃ type info, ParseTree.memberFile.at? [0] = some type ∧
        unit.declarations.types.find? 23 = some info ∧
        info.members =
          [⟨"b", .field, ["Inject"]⟩, ⟨"c", .field, ["Inject"]⟩, ⟨"d", .property, []⟩] ∧
        ∀ member, member ∈ info.members ↔
          ∃ declaration ∈ type.bodyRows, declaration.Declares memberText.toList member := by
  have facts :
      let unit := SourceUnit.ofParseTree "Assets/A.cs" memberText .memberFile
      unit.tree.kind? 23 = some .typeDeclaration ∧
        (Trace.ofParseTree memberText.toList .memberFile).originOf 23 = [0] ∧
        (unit.declarations.types.find? 23).map (·.members) =
          some [⟨"b", .field, ["Inject"]⟩, ⟨"c", .field, ["Inject"]⟩, ⟨"d", .property, []⟩] := by
    decide +kernel
  rcases facts with ⟨kind, origin, members⟩
  rcases (noted_members "Assets/A.cs" memberText .memberFile).2 23 kind with
    ⟨type, info, here, _, found, exactly⟩
  rw [origin] at here
  rw [found, Option.map_some, Option.some.injEq] at members
  exact ⟨kind, type, info, here, found, members, exactly⟩

def wrappedText : String :=
  "class A \x7b\n#if X\n[Inject] B b;\n#endif\n" ++
    "void M() \x7b if (b == null) \x7b \x7d \x7d \x7d"

def ParseTree.wrappedField : ParseTree :=
  .row "compilation_unit" true none ⟨0, 70, 0, 0⟩ [
    .row "class_declaration" true none ⟨0, 70, 0, 0⟩ [
      .row "identifier" true (some .name) ⟨6, 7, 0, 6⟩ [],
      .row "declaration_list" true (some .body) ⟨8, 70, 0, 8⟩ [
        .row "preproc_if" true none ⟨10, 36, 1, 0⟩ [
          .row "identifier" true (some .condition) ⟨14, 15, 1, 4⟩ [],
          .row "field_declaration" true none ⟨16, 29, 2, 0⟩ [
            .row "attribute_list" true none ⟨16, 24, 2, 0⟩ [
              .row "attribute" true none ⟨17, 23, 2, 1⟩ [
                .row "identifier" true (some .name) ⟨17, 23, 2, 1⟩ []]],
            .row "variable_declaration" true none ⟨25, 28, 2, 9⟩ [
              .row "identifier" true none ⟨25, 26, 2, 9⟩ [],
              .row "variable_declarator" true none ⟨27, 28, 2, 11⟩ [
                .row "identifier" true (some .name) ⟨27, 28, 2, 11⟩ []]]]],
        .row "method_declaration" true none ⟨37, 68, 4, 0⟩ [
          .row "predefined_type" true none ⟨37, 41, 4, 0⟩ [],
          .row "identifier" true (some .name) ⟨42, 43, 4, 5⟩ [],
          .row "parameter_list" true none ⟨43, 45, 4, 6⟩ [],
          .row "block" true (some .body) ⟨46, 68, 4, 9⟩ [
            .row "if_statement" true none ⟨48, 66, 4, 11⟩ [
              .row "binary_expression" true (some .condition) ⟨52, 61, 4, 15⟩ [
                .row "identifier" true (some .left) ⟨52, 53, 4, 15⟩ [],
                .row "==" false (some .operator) ⟨54, 56, 4, 17⟩ [],
                .row "null_literal" true (some .right) ⟨57, 61, 4, 20⟩ []],
              .row "block" true none ⟨63, 66, 4, 26⟩ []]]]]]]

/-- The field is declared in the type, but it is not noted, and the guard on it is not reported. -/
theorem wrappedField_unnoted :
    let unit := SourceUnit.ofParseTree "Assets/A.cs" wrappedText .wrappedField
    let engine := Engine.ofRules .standard Preset.all.rules
    (∃ declaration, ParseTree.wrappedField.at? [0, 1, 0, 1] = some declaration ∧
        ParseTree.wrappedField.enclosing? ParseTree.isTypeDeclaration [0, 1, 0, 1] = some [0] ∧
        declaration.Declares wrappedText.toList ⟨"b", .field, ["Inject"]⟩) ∧
      (Trace.ofParseTree wrappedText.toList .wrappedField).originOf 20 = [0] ∧
      (unit.declarations.types.find? 20).map (·.members) = some [] ∧
      engine.analyze unit.tree unit.declarations.resolver = [] := by
  refine ⟨⟨_, rfl, by decide, ?_, .inl ⟨rfl, rfl, ?_⟩⟩, ?_⟩
  · decide +kernel
  · exact ⟨_, List.mem_singleton.mpr rfl, _, List.mem_singleton.mpr rfl, by decide +kernel⟩
  · decide +kernel

end UnityLint
