import UnityLint.Proofs.Bindings

/-! # Rows that are dropped

If rows without children that fill no field are dropped from a parse tree, and the others keep their
texts, then what the remaining rows declare stays the same. -/

namespace UnityLint

/-! ## Lists without some members -/

section Lists

variable {α β : Type} {keeps : α → Bool}

theorem find?_filter_of_forall {finds : α → Bool} {values : List α}
    (kept : ∀ value ∈ values, finds value → keeps value) :
    (values.filter keeps).find? finds = values.find? finds := by
  rw [List.find?_filter]
  apply List.find?_congr
  intro value member
  rw [Bool.eq_iff_iff]
  simpa using kept value member

theorem find?_filter_of_find? {finds : α → Bool} {values : List α}
    (kept : ∀ value ∈ values.find? finds, keeps value) :
    (values.filter keeps).find? finds = values.find? finds := by
  induction values with
  | nil => rfl
  | cons value rest induction =>
      cases found : finds value with
      | true =>
          have first : (value :: rest).find? finds = some value := List.find?_cons_of_pos found
          rw [List.filter_cons_of_pos (kept value first), List.find?_cons_of_pos found, first]
      | false =>
          rw [List.find?_cons_of_neg (by simp [found])] at kept ⊢
          rw [List.filter_cons]
          split
          · rw [List.find?_cons_of_neg (by simp [found]), induction kept]
          · exact induction kept

theorem flatMap_map_filter {trims : α → α} {lists before : α → List β} {values : List α}
    (kept : ∀ value ∈ values, keeps value → lists (trims value) = before value)
    (dropped : ∀ value ∈ values, keeps value = false → before value = []) :
    ((values.filter keeps).map trims).flatMap lists = values.flatMap before := by
  induction values with
  | nil => rfl
  | cons value rest induction =>
      have others := induction (fun other member => kept other (List.mem_cons_of_mem _ member))
        (fun other member => dropped other (List.mem_cons_of_mem _ member))
      rw [List.flatMap_cons, ← others]
      cases keep : keeps value with
      | true =>
          rw [List.filter_cons_of_pos keep, List.map_cons, List.flatMap_cons,
            kept value List.mem_cons_self keep]
      | false =>
          rw [List.filter_cons_of_neg (by simp [keep]), dropped value List.mem_cons_self keep,
            List.nil_append]

theorem filterMap_map_filter {trims : α → α} {picks before : α → Option β} {values : List α}
    (kept : ∀ value ∈ values, keeps value → picks (trims value) = before value)
    (dropped : ∀ value ∈ values, keeps value = false → before value = none) :
    ((values.filter keeps).map trims).filterMap picks = values.filterMap before := by
  rw [List.filterMap_map, List.filterMap_filter]
  apply List.filterMap_congr
  intro value member
  cases keep : keeps value with
  | true => exact kept value member keep
  | false => exact (dropped value member keep).symm

end Lists

namespace ParseTree

/-! ## Trees without some rows -/

mutual

def without (drops : String → Bool) : ParseTree → ParseTree
  | .row kind named field extent children =>
      .row kind named field extent (withoutOfAll drops children)

def withoutOfAll (drops : String → Bool) : List ParseTree → List ParseTree
  | [] => []
  | child :: rest =>
      if drops child.kind then withoutOfAll drops rest
      else child.without drops :: withoutOfAll drops rest

end

variable {drops : String → Bool}

theorem withoutOfAll_eq_map (children : List ParseTree) :
    withoutOfAll drops children =
      (children.filter fun child => !drops child.kind).map (without drops) := by
  induction children with
  | nil => rfl
  | cons child rest induction =>
      rw [withoutOfAll, induction, List.filter_cons]
      cases drops child.kind <;> rfl

section Rows

variable (row : ParseTree)

@[simp] theorem kind_without : (row.without drops).kind = row.kind := by
  cases row
  rfl

@[simp] theorem named_without : (row.without drops).named = row.named := by
  cases row
  rfl

@[simp] theorem field_without : (row.without drops).field = row.field := by
  cases row
  rfl

@[simp] theorem extent_without : (row.without drops).extent = row.extent := by
  cases row
  rfl

@[simp] theorem span_without : (row.without drops).span = row.span := by
  rw [span, span, extent_without]

@[simp] theorem fills_without (field : Field) : fills field (row.without drops) = fills field row := by
  rw [fills, fills, field_without]

@[simp] theorem children_without :
    (row.without drops).children =
      (row.children.filter fun child => !drops child.kind).map (without drops) := by
  cases row
  exact withoutOfAll_eq_map _

theorem namedChildren_without :
    (row.without drops).namedChildren =
      (row.namedChildren.filter fun child => !drops child.kind).map (without drops) := by
  rw [namedChildren, children_without, List.filter_map, namedChildren, List.filter_filter,
    List.filter_filter]
  simp [Bool.and_comm]

theorem without_eq_self (none : ∀ kind, drops kind = false) : row.without drops = row := by
  induction row with
  | row kind named field extent children induction =>
      rw [without, withoutOfAll_eq_map]
      congr 1
      rw [List.filter_eq_self.mpr fun child _ => by simp [none]]
      exact (List.map_congr_left induction).trans (List.map_id _)

end Rows

/-- What may be dropped at a row, if the texts of rows come from `other` afterwards: leaves without a
field, but not a row that counts by its place. -/
structure Spares (source other : List Char) (drops : String → Bool) (row : ParseTree) : Prop where
  text : row.text other = row.text source
  leaf : drops row.kind → row.field = none ∧ row.children = []
  base : row.kind = "base_list" →
    ∀ first ∈ row.namedChildren.find? (·.kind ≠ "argument_list"), drops first.kind = false
  pattern : row.wrapsPattern → ∀ first ∈ row.children.find? named, drops first.kind = false
  access : row.kind = "conditional_access_expression" →
    ∀ child ∈ row.namedChildren, drops child.kind = false

def Spared (source other : List Char) (drops : String → Bool) (row : ParseTree) : Prop :=
  ∀ position below, row.at? position = some below → below.Spares source other drops

section Spared

variable {source other : List Char} {row : ParseTree} (spared : row.Spared source other drops)

include spared

theorem Spared.here : row.Spares source other drops :=
  spared [] row rfl

theorem Spared.of_mem_children {child : ParseTree} (member : child ∈ row.children) :
    child.Spared source other drops := by
  rcases List.mem_iff_getElem?.mp member with ⟨place, found⟩
  intro position below inside
  apply spared (place :: position)
  rw [at?, found]
  exact inside

theorem Spared.of_mem_namedChildren {child : ParseTree} (member : child ∈ row.namedChildren) :
    child.Spared source other drops :=
  spared.of_mem_children (List.mem_of_mem_filter member)

theorem Spared.of_child? {child : ParseTree} {field : Field} (found : row.child? field = some child) :
    child.Spared source other drops :=
  spared.of_mem_children (List.mem_of_find?_eq_some found)

theorem Spared.of_childOfKind? {child : ParseTree} {kind : String}
    (found : row.childOfKind? kind = some child) : child.Spared source other drops :=
  spared.of_mem_namedChildren (List.mem_of_find?_eq_some found)

theorem Spared.of_mem_childrenOfKind {child : ParseTree} {kind : String}
    (member : child ∈ row.childrenOfKind kind) : child.Spared source other drops :=
  spared.of_mem_namedChildren (List.mem_of_mem_filter member)

theorem Spared.text_without : (row.without drops).text other = row.text source := by
  rw [← spared.here.text, text, text, extent_without]

theorem Spared.child?_without (field : Field) :
    (row.without drops).child? field = (row.child? field).map (without drops) := by
  rw [child?, children_without, List.find?_map]
  simp only [Function.comp_def, fills_without]
  rw [find?_filter_of_forall, child?]
  intro child member filled
  cases dropped : drops child.kind with
  | false => rfl
  | true =>
      have unfilled := ((spared.of_mem_children member).here.leaf dropped).1
      simp [fills, unfilled] at filled

theorem Spared.textOf?_without (field : Field) :
    (row.without drops).textOf? other field = row.textOf? source field := by
  rw [textOf?, textOf?, spared.child?_without, Option.map_map]
  apply Option.map_congr
  intro child found
  rw [Function.comp_apply, (spared.of_child? found).text_without]

theorem Spared.declaredName_without :
    (row.without drops).declaredName other = row.declaredName source := by
  rw [declaredName, declaredName, spared.textOf?_without]

theorem Spared.methodOf?_without : (row.without drops).methodOf? other = row.methodOf? source := by
  rw [methodOf?, methodOf?, kind_without, spared.textOf?_without]

theorem Spared.firstBase?_without (list : row.kind = "base_list") :
    (row.without drops).firstBase? other = row.firstBase? source := by
  rw [firstBase?, firstBase?, namedChildren_without, List.find?_map]
  simp only [Function.comp_def, kind_without]
  rw [find?_filter_of_find? (by simpa using spared.here.base list), Option.map_map]
  apply Option.map_congr
  intro base found
  have below := spared.of_mem_namedChildren (List.mem_of_find?_eq_some found)
  rw [Function.comp_apply, below.text_without]

theorem Spared.of_mem_bodyRows {child : ParseTree} (member : child ∈ row.bodyRows) :
    child.Spared source other drops := by
  rw [bodyRows, body?] at member
  cases found : (row.child? .body).or (row.childOfKind? "declaration_list") with
  | none =>
      rw [found] at member
      cases member
  | some body =>
      rw [found] at member
      have below : body.Spared source other drops := by
        rcases Option.or_eq_some_iff.mp found with filled | ⟨_, list⟩
        · exact spared.of_child? filled
        · exact spared.of_childOfKind? list
      exact below.of_mem_namedChildren member

theorem Spared.parameter?_without : (row.without drops).parameter? other = row.parameter? source := by
  rw [parameter?, parameter?, kind_without, spared.textOf?_without, spared.text_without]

theorem Spared.localFunction?_without :
    (row.without drops).localFunction? other = row.localFunction? source := by
  rw [localFunction?, localFunction?, kind_without, spared.textOf?_without]

theorem Spared.of_mem_namedRows {below : ParseTree} (member : below ∈ row.namedRows) :
    below.Spared source other drops := by
  induction row with
  | row kind named field extent children induction =>
      rw [namedRows_eq, List.mem_cons, List.mem_flatMap] at member
      rcases member with rfl | ⟨child, listed, inside⟩
      · exact spared
      · exact induction child (List.mem_of_mem_filter listed) (spared.of_mem_namedChildren listed)
          inside

theorem Spared.namedRows_without (kept : drops row.kind = false) :
    (row.without drops).namedRows =
      (row.namedRows.filter fun below => !drops below.kind).map (without drops) := by
  induction row with
  | row kind named field extent children induction =>
      rw [namedRows_eq, namedRows_eq, List.filter_cons_of_pos (by simp [kept]), List.map_cons]
      congr 1
      rw [namedChildren_without, List.filter_flatMap, List.map_flatMap]
      apply flatMap_map_filter
      · intro child member keep
        exact induction child (List.mem_of_mem_filter member)
          (spared.of_mem_namedChildren member) (by simpa using keep)
      · intro child member dropped
        have childless := ((spared.of_mem_namedChildren member).here.leaf (by simpa using dropped)).2
        have leaf : child.namedRows = [child] := by
          rw [namedRows_eq, namedChildren, childless]
          rfl
        rw [leaf, List.filter_cons_of_neg (by simpa using dropped)]
        rfl

theorem Spared.innerSpaces_without (spaces : List String) :
    (row.without drops).innerSpaces other spaces = row.innerSpaces source spaces := by
  rw [innerSpaces, innerSpaces, kind_without, spared.child?_without, Option.map_map]
  have same : (row.child? .name).map (dottedText other ∘ without drops) =
      (row.child? .name).map (dottedText source) := by
    apply Option.map_congr
    intro name found
    rw [Function.comp_apply, dottedText, dottedText, (spared.of_child? found).text_without]
  rw [same]

end Spared

section Comments

variable (comments : ∀ kind, drops kind → kind = "comment")

include comments

theorem drops_eq_false {kind : String} (other : kind ≠ "comment") : drops kind = false := by
  cases dropped : drops kind with
  | false => rfl
  | true => exact absurd (comments kind dropped) other

theorem childrenOfKind_without (row : ParseTree) {kind : String} (kept : kind ≠ "comment") :
    (row.without drops).childrenOfKind kind = (row.childrenOfKind kind).map (without drops) := by
  rw [childrenOfKind, namedChildren_without, List.filter_map, childrenOfKind, List.filter_filter]
  congr 1
  apply List.filter_congr
  intro child _
  by_cases same : child.kind = kind <;> simp [same, drops_eq_false comments kept]

theorem childOfKind?_without (row : ParseTree) {kind : String} (kept : kind ≠ "comment") :
    (row.without drops).childOfKind? kind = (row.childOfKind? kind).map (without drops) := by
  rw [childOfKind?, namedChildren_without, List.find?_map]
  simp only [Function.comp_def, kind_without]
  rw [find?_filter_of_forall, childOfKind?]
  intro child _ found
  simp only [decide_eq_true_eq] at found
  simp [found, drops_eq_false comments kept]

end Comments

/-! ## Declarations -/

section Declared

variable {source other : List Char} {row : ParseTree}
  (comments : ∀ kind, drops kind → kind = "comment") (spared : row.Spared source other drops)

include comments spared

theorem declaratorName?_without :
    (row.without drops).declaratorName? other = row.declaratorName? source := by
  rw [declaratorName?, declaratorName?, spared.child?_without,
    childOfKind?_without comments row (by decide), ← Option.map_or, Option.map_map]
  apply Option.map_congr
  intro child found
  have below : child.Spared source other drops := by
    rcases Option.or_eq_some_iff.mp found with named | ⟨_, identifier⟩
    · exact spared.of_child? named
    · exact spared.of_childOfKind? identifier
  rw [Function.comp_apply, below.text_without]

theorem attributes_without : (row.without drops).attributes other = row.attributes source := by
  rw [attributes, attributes, childrenOfKind_without comments row (by decide), List.flatMap_map]
  apply List.flatMap_congr
  intro list member
  have listSpared := spared.of_mem_childrenOfKind member
  rw [childrenOfKind_without comments list (by decide), List.filterMap_map]
  apply List.filterMap_congr
  intro written inside
  have writtenSpared := listSpared.of_mem_childrenOfKind inside
  rw [Function.comp_apply, writtenSpared.child?_without, Option.map_map]
  apply Option.map_congr
  intro name found
  rw [Function.comp_apply, (writtenSpared.of_child? found).text_without]

theorem declaredVariables_without :
    (row.without drops).declaredVariables other = row.declaredVariables source := by
  rw [declaredVariables, declaredVariables, childrenOfKind_without comments row (by decide),
    List.flatMap_map]
  apply List.flatMap_congr
  intro group member
  rw [childrenOfKind_without comments group (by decide), List.filterMap_map]
  apply List.filterMap_congr
  intro declarator inside
  exact declaratorName?_without comments
    ((spared.of_mem_childrenOfKind member).of_mem_childrenOfKind inside)

theorem membersOf_without : (row.without drops).membersOf other = row.membersOf source := by
  rw [membersOf, membersOf, kind_without, declaredVariables_without comments spared,
    attributes_without comments spared, spared.textOf?_without]

theorem base?_without : (row.without drops).base? other = row.base? source := by
  rw [base?, base?, childrenOfKind_without comments row (by decide), List.getLast?_map,
    Option.bind_map]
  apply Option.bind_congr
  intro list found
  have member := List.mem_of_getLast? found
  have kind : list.kind = "base_list" := by simpa using (List.mem_filter.mp member).2
  exact (spared.of_mem_childrenOfKind member).firstBase?_without kind

theorem body?_without : (row.without drops).body? = row.body?.map (without drops) := by
  rw [body?, body?, spared.child?_without, childOfKind?_without comments row (by decide),
    Option.map_or]

theorem bodyRows_without :
    (row.without drops).bodyRows =
      (row.bodyRows.filter fun child => !drops child.kind).map (without drops) := by
  rw [bodyRows, bodyRows, body?_without comments spared, Option.map_map]
  cases row.body? with
  | none => rfl
  | some body => exact namedChildren_without body

theorem typeInfo_without (namespaceName : Option String) :
    (row.without drops).typeInfo other namespaceName = row.typeInfo source namespaceName := by
  have members : (row.without drops).bodyRows.flatMap (membersOf other) =
      row.bodyRows.flatMap (membersOf source) := by
    rw [bodyRows_without comments spared]
    apply flatMap_map_filter
    · intro child member _
      exact membersOf_without comments (spared.of_mem_bodyRows member)
    · intro child _ dropped
      simp [membersOf, comments child.kind (by simpa using dropped)]
  have methods : (row.without drops).bodyRows.filterMap (methodOf? other) =
      row.bodyRows.filterMap (methodOf? source) := by
    rw [bodyRows_without comments spared]
    apply filterMap_map_filter
    · intro child member _
      exact (spared.of_mem_bodyRows member).methodOf?_without
    · intro child _ dropped
      simp [methodOf?, comments child.kind (by simpa using dropped)]
  rw [typeInfo, typeInfo, spared.declaredName_without, base?_without comments spared, members,
    methods]

theorem local?_without : (row.without drops).local? other = row.local? source := by
  have left : (((row.without drops).child? .left).filter (·.kind = "identifier")).map
      (fun left => String.ofList (left.text other)) =
        ((row.child? .left).filter (·.kind = "identifier")).map
          fun left => String.ofList (left.text source) := by
    rw [spared.child?_without]
    cases found : row.child? .left with
    | none => rfl
    | some left =>
        have same := (spared.of_child? found).text_without
        by_cases kind : left.kind = "identifier" <;> simp [Option.filter, kind, same]
  rw [local?, local?, kind_without, declaratorName?_without comments spared, left,
    spared.textOf?_without]

theorem methodInfo_without (kept : drops row.kind = false) :
    (row.without drops).methodInfo other = row.methodInfo source := by
  rw [methodInfo, methodInfo, spared.namedRows_without kept]
  congr 1
  · apply filterMap_map_filter
    · intro below member _
      exact (spared.of_mem_namedRows member).parameter?_without
    · intro below _ dropped
      simp [parameter?, comments below.kind (by simpa using dropped)]
  · apply filterMap_map_filter
    · intro below member _
      exact local?_without comments (spared.of_mem_namedRows member)
    · intro below _ dropped
      simp [local?, comments below.kind (by simpa using dropped)]
  · apply filterMap_map_filter
    · intro below member _
      exact (spared.of_mem_namedRows member).localFunction?_without
    · intro below _ dropped
      simp [localFunction?, comments below.kind (by simpa using dropped)]

end Declared

theorem fileNamespace?_without {source other : List Char} {root : ParseTree}
    (comments : ∀ kind, drops kind → kind = "comment")
    (spared : ∀ child ∈ root.children, child.Spared source other drops) :
    (root.without drops).fileNamespace? other = root.fileNamespace? source := by
  rw [fileNamespace?, fileNamespace?, childOfKind?_without comments root (by decide),
    Option.bind_map]
  apply Option.bind_congr
  intro declaration found
  have below := spared declaration (List.mem_of_mem_filter (List.mem_of_find?_eq_some found))
  rw [Function.comp_apply, below.child?_without, Option.map_map]
  apply Option.map_congr
  intro name inside
  rw [Function.comp_apply, dottedText, dottedText, (below.of_child? inside).text_without]

end ParseTree

end UnityLint
