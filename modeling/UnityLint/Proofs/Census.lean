import Mathlib.Algebra.BigOperators.Group.Multiset.Basic
import Mathlib.Algebra.Order.Group.Multiset
import Mathlib.Data.Set.Function
import Mathlib.Tactic.Abel
import UnityLint.Proofs.Origin

/-! # A census of calls and of optional accesses

Every call in a parse tree is one node, and so is every optional access, wherever the links of a chain
go. What is counted, and how a node is credited to a row, is a parameter of the count. -/

namespace UnityLint

/-! ## Sums over children -/

section Sums

variable {α β : Type} {weigh : α → Multiset β} {test : α → Bool} {items : List α}

theorem sum_map_eraseP {found : α} (first : items.find? test = some found) :
    (items.map weigh).sum = weigh found + ((items.eraseP test).map weigh).sum := by
  induction items with
  | nil => cases first
  | cons head tail induction =>
      by_cases tested : test head
      · rw [List.find?_cons_of_pos tested] at first
        cases first
        rw [List.eraseP_cons_of_pos tested, List.map_cons, List.sum_cons]
      · rw [List.find?_cons_of_neg tested] at first
        rw [List.eraseP_cons_of_neg tested, List.map_cons, List.map_cons, List.sum_cons,
          List.sum_cons, induction first]
        abel

theorem sum_map_filter (dropped : ∀ item ∈ items, test item = false → weigh item = 0) :
    ((items.filter test).map weigh).sum = (items.map weigh).sum := by
  induction items with
  | nil => rfl
  | cons head tail induction =>
      have rest := induction fun item member => dropped item (List.mem_cons_of_mem _ member)
      cases tested : test head with
      | true => rw [List.filter_cons_of_pos tested, List.map_cons, List.map_cons, List.sum_cons,
          List.sum_cons, rest]
      | false =>
          rw [List.filter_cons_of_neg (by simp [tested]), rest, List.map_cons, List.sum_cons,
            dropped head List.mem_cons_self tested, zero_add]

theorem find?_eraseP {other : α → Bool} (apart : ∀ item, test item → other item = false) :
    (items.eraseP test).find? other = items.find? other := by
  induction items with
  | nil => rfl
  | cons head tail induction =>
      by_cases tested : test head
      · rw [List.eraseP_cons_of_pos tested, List.find?_cons_of_neg (by simp [apart head tested])]
      · rw [List.eraseP_cons_of_neg tested, List.find?_cons, List.find?_cons, induction]

end Sums

/-! ## What is counted -/

namespace ParseTree

mutual

/-- The position of the optional access that starts the chain of a row at `position`: the row itself,
or the start of the chain of the link before it. -/
def chainStart? (position : Position) : ParseTree → Option Position
  | .row kind named field extent children =>
      if kind = "conditional_access_expression" then some position
      else
        (link? (.row kind named field extent children)).bind fun link =>
          chainStartIn? link.1 position 0 children

def chainStartIn? (field : Field) (position : Position) : Nat → List ParseTree → Option Position
  | _, [] => none
  | place, child :: rest =>
      if child.fills field then child.chainStart? (position ++ [place])
      else chainStartIn? field position (place + 1) rest

end

theorem chainStartIn?_eq (field : Field) (position : Position) (place : Nat)
    (children : List ParseTree) :
    chainStartIn? field position place children =
      ((placedFrom position place children).find? fun found => found.2.fills field).bind
        fun found => found.2.chainStart? found.1 := by
  induction children generalizing place with
  | nil => rfl
  | cons child rest induction =>
      rw [chainStartIn?, placedFrom, List.find?_cons, induction]
      cases child.fills field <;> rfl

theorem chainStart?_of_conditional {position : Position} {row : ParseTree}
    (kind : row.kind = "conditional_access_expression") :
    row.chainStart? position = some position := by
  cases row
  exact if_pos kind

theorem chainStart?_of_link {position : Position} {row : ParseTree} {field : Field} {form : Form}
    (link : row.link? = some (field, form)) :
    row.chainStart? position =
      ((row.placed position).find? fun found => found.2.fills field).bind
        fun found => found.2.chainStart? found.1 := by
  have other : row.kind ≠ "conditional_access_expression" := by
    rcases link?_eq_some link with ⟨kind, _⟩ | ⟨kind, _⟩ | ⟨kind, _⟩ <;> simp [kind]
  cases row with
  | row kind named field extent children =>
      have otherKind : kind ≠ "conditional_access_expression" := other
      rw [chainStart?, if_neg otherKind, link, Option.bind_some, chainStartIn?_eq]
      rfl

theorem chainStart?_eq_none {position : Position} {row : ParseTree}
    (other : row.kind ≠ "conditional_access_expression") (unlinked : row.link? = none) :
    row.chainStart? position = none := by
  cases row with
  | row kind named field extent children =>
      have otherKind : kind ≠ "conditional_access_expression" := other
      rw [chainStart?, if_neg otherKind, unlinked]
      rfl

def onOptionalChain (row : ParseTree) : Bool :=
  (row.chainStart? []).isSome

theorem isSome_chainStart? (position : Position) (row : ParseTree) :
    (row.chainStart? position).isSome = row.onOptionalChain := by
  have same (left right : Position) :
      (row.chainStart? left).isSome = (row.chainStart? right).isSome := by
    induction row generalizing left right with
    | row kind named field extent children induction =>
        generalize here : ParseTree.row kind named field extent children = row
        have children_eq : children = row.children := here ▸ rfl
        by_cases conditional : row.kind = "conditional_access_expression"
        · rw [chainStart?_of_conditional conditional, chainStart?_of_conditional conditional]
          rfl
        cases link : row.link? with
        | none => rw [chainStart?_eq_none conditional link, chainStart?_eq_none conditional link]
        | some found =>
            have search (place : Nat) (children : List ParseTree)
                (induction : ∀ child ∈ children, ∀ left right : Position,
                  (child.chainStart? left).isSome = (child.chainStart? right).isSome) :
                (chainStartIn? found.1 left place children).isSome =
                  (chainStartIn? found.1 right place children).isSome := by
              induction children generalizing place with
              | nil => rfl
              | cons child rest search =>
                  rw [chainStartIn?, chainStartIn?]
                  split
                  · exact induction child List.mem_cons_self _ _
                  · exact search _ fun other member =>
                      induction other (List.mem_cons_of_mem _ member)
            rw [chainStart?_of_link link, chainStart?_of_link link, placed, placed,
              ← chainStartIn?_eq, ← chainStartIn?_eq]
            exact search 0 row.children (children_eq ▸ induction)
  exact same position []

def sites (kind : String) (position : Position) (row : ParseTree) : Multiset Position :=
  ((row.rowsFrom position).filter (·.2.kind = kind)).map Prod.fst

theorem sites_eq (kind : String) (position : Position) (row : ParseTree) :
    row.sites kind position =
      (if row.kind = kind then {position} else 0) +
        ((row.placed position).map fun found => found.2.sites kind found.1).sum := by
  have below (found : List (Position × ParseTree)) :
      (((found.flatMap fun child => child.2.rowsFrom child.1).filter (·.2.kind = kind)).map
          Prod.fst : Multiset Position) =
        (found.map fun child => child.2.sites kind child.1).sum := by
    induction found with
    | nil => rfl
    | cons head tail induction =>
        rw [List.flatMap_cons, List.filter_append, List.map_append, ← Multiset.coe_add, induction,
          List.map_cons, List.sum_cons]
        rfl
  rw [sites, rowsFrom_eq, List.filter_cons]
  split
  · rename_i same
    rw [if_pos (of_decide_eq_true same), List.map_cons, ← Multiset.cons_coe, below]
    rfl
  · rename_i other
    rw [if_neg fun same => other (decide_eq_true same), below, zero_add]

def Clear (kind : String) (row : ParseTree) : Prop :=
  ∀ found ∈ row.rowsFrom [], found.2.kind ≠ kind

instance (kind : String) (row : ParseTree) : Decidable (row.Clear kind) :=
  inferInstanceAs (Decidable (∀ found ∈ row.rowsFrom [], found.2.kind ≠ kind))

theorem Clear.sites_eq_zero {kind : String} {row : ParseTree} (clear : row.Clear kind)
    (position : Position) : row.sites kind position = 0 := by
  rw [sites, Multiset.coe_eq_zero, List.map_eq_nil_iff, List.filter_eq_nil_iff]
  intro found member same
  rcases mem_rowsFrom.mp member with ⟨rest, _, below⟩
  exact clear (rest, found.2) (mem_rowsFrom_nil.mpr below) (of_decide_eq_true same)

end ParseTree

inductive Tally where
  | calls
  | optionalAccesses

namespace Tally

def kind : Tally → String
  | .calls => "invocation_expression"
  | .optionalAccesses => "conditional_access_expression"

def form : Tally → Form
  | .calls => .invocation
  | .optionalAccesses => .conditionalAccess

/-- The position of the row that a node is counted for: a call stands for its own row, and an optional
access for the row that starts its chain. -/
def home (root : ParseTree) (node : Trace) : Tally → Position
  | .calls => node.origin
  | .optionalAccesses =>
      ((root.at? node.origin).bind (·.chainStart? node.origin)).getD node.origin

/-- What a chain adds to the count of its receiver and its tail. -/
def ofStart (start : Position) : Tally → Multiset Position
  | .calls => 0
  | .optionalAccesses => {start}

end Tally

namespace Trace

def homes (tally : Tally) (root : ParseTree) (trace : Trace) : Multiset Position :=
  (trace.nodes.filter (·.form = tally.form)).map fun node => tally.home root node

theorem homes_eq (tally : Tally) (root : ParseTree) (trace : Trace) :
    trace.homes tally root =
      (trace.parts.map (homes tally root)).sum +
        if trace.form = tally.form then {tally.home root trace} else 0 := by
  have below (parts : List Trace) :
      (((parts.flatMap nodes).filter (·.form = tally.form)).map
          fun node => tally.home root node : Multiset Position) =
        (parts.map (homes tally root)).sum := by
    induction parts with
    | nil => rfl
    | cons head tail induction =>
        rw [List.flatMap_cons, List.filter_append, List.map_append, ← Multiset.coe_add, induction,
          List.map_cons, List.sum_cons]
        rfl
  rw [homes, nodes_eq, List.filter_append, List.map_append, ← Multiset.coe_add, below]
  congr 1
  by_cases same : trace.form = tally.form <;> simp [same]

end Trace

/-! ## Rows that lose nothing -/

namespace ParseTree

def others (fields : List Field) (row : ParseTree) : List ParseTree :=
  (fields.foldl (fun children field => children.eraseP (fills field)) row.children).filter named

/-- A row has the children that its construct needs, and no row of a kind stands at or below a child
that its node leaves out. -/
structure Keeps (source : List Char) (kind : String) (row : ParseTree) : Prop where
  tokens : ∀ child ∈ row.children, child.named = false → child.Clear kind
  invocation : row.kind = "invocation_expression" → (row.child? .function).isSome
  memberAccess : row.kind = "member_access_expression" →
    (row.child? .expression).isSome ∧ (row.child? .name).isSome ∧
      ∀ other ∈ row.others [.expression, .name], other.Clear kind
  conditionalAccess : row.kind = "conditional_access_expression" →
    (row.child? .condition).isSome ∧ row.others [.condition] ≠ []
  memberBinding : row.kind = "member_binding_expression" →
    ∀ other ∈ row.others [.name], other.Clear kind
  comparison : row.kind = "binary_expression" → row.isComparison source →
    ∀ other ∈ row.others [.left, .right], other.Clear kind
  isPattern : row.kind = "is_pattern_expression" →
    ∀ other ∈ row.others [.expression, .pattern], other.Clear kind
  pattern : row.wrapsPattern → row.namedChildren.length = 1
  leaf : row.kind ∈ ["identifier", "generic_name", "null_literal"] →
    ∀ child ∈ row.children, child.Clear kind
  name : row.kind ∈ Construct.kinds .namespaceDeclaration ++ Construct.kinds .typeDeclaration ++
      Construct.kinds .methodDeclaration →
    ∀ child ∈ row.child? .name, child.Clear kind

end ParseTree

namespace Traced

/-- The readings of a row count every row at and below it once, as a construct, as a chain and as a
pattern. -/
structure Complete (tally : Tally) (root : ParseTree) (traced : Traced) : Prop where
  whole : traced.whole.homes tally root = traced.row.sites tally.kind traced.position
  headed : traced.chain ≠ .headless
  chain : ∀ receiver tail, traced.chain = .optional receiver tail →
    ∃ last start, tail = some last ∧ traced.row.chainStart? traced.position = some start ∧
      tally.ofStart start + receiver.homes tally root + last.homes tally root =
        traced.row.sites tally.kind traced.position
  pattern : (traced.pattern.map (Trace.homes tally root)).sum =
    traced.row.sites tally.kind traced.position

section Parts

variable {tally : Tally} {root row : ParseTree} {source : List Char} {position : Position}
  {parts : List Traced}

def sites (kind : String) (traced : Traced) : Multiset Position :=
  traced.row.sites kind traced.position

variable (complete : ∀ part ∈ parts, part.Complete tally root)

include complete

theorem sum_wholes (tokens : ∀ part ∈ parts, part.row.named = false → part.row.Clear tally.kind) :
    ((wholes parts).map (Trace.homes tally root)).sum = (parts.map (sites tally.kind)).sum := by
  rw [wholes, List.map_map]
  have same : (parts.filter (·.row.named)).map (Trace.homes tally root ∘ whole) =
      (parts.filter (·.row.named)).map (sites tally.kind) := by
    apply List.map_congr_left
    intro part member
    exact (complete part (List.mem_of_mem_filter member)).whole
  rw [same]
  apply sum_map_filter
  intro part member unnamed
  exact (tokens part member unnamed).sites_eq_zero part.position

theorem sum_beside {field : Field}
    (tokens : ∀ part ∈ parts, part.row.named = false → part.row.Clear tally.kind) :
    ((beside field parts).map (Trace.homes tally root)).sum =
      ((parts.eraseP (·.row.fills field)).map (sites tally.kind)).sum :=
  sum_wholes (fun part member => complete part (List.mem_of_mem_eraseP member))
    fun part member => tokens part (List.mem_of_mem_eraseP member)

theorem sum_only (fields : List Field) (distinct : fields.Nodup)
    (present : ∀ field ∈ fields, (part? field parts).isSome)
    (clear : ∀ part ∈ fields.foldl (fun parts field => parts.eraseP (·.row.fills field)) parts,
      part.row.Clear tally.kind) :
    ((fields.flatMap fun field => ((part? field parts).map (contribution field)).getD []).map
        (Trace.homes tally root)).sum =
      (parts.map (sites tally.kind)).sum := by
  induction fields generalizing parts with
  | nil =>
      symm
      apply List.sum_eq_zero
      intro weight member
      rcases List.mem_map.mp member with ⟨part, inside, rfl⟩
      exact (clear part inside).sites_eq_zero part.position
  | cons field rest induction =>
      rcases Option.isSome_iff_exists.mp (present field List.mem_cons_self) with ⟨part, found⟩
      have same : ∀ other ∈ rest,
          part? other (parts.eraseP (·.row.fills field)) = part? other parts := by
        intro other member
        apply find?_eraseP
        intro item fills
        have differs : other ≠ field := fun equal =>
          (List.nodup_cons.mp distinct).1 (equal ▸ member)
        simp only [ParseTree.fills, decide_eq_true_eq, decide_eq_false_iff_not] at fills ⊢
        rw [fills]
        exact fun equal => differs (Option.some.inj equal).symm
      have own : ((contribution field part).map (Trace.homes tally root)).sum =
          sites tally.kind part := by
        have inner := complete part (mem_of_part? found)
        rw [contribution]
        split
        · exact inner.pattern
        · rw [List.map_singleton, List.sum_singleton]
          exact inner.whole
      have others := induction
        (fun part member => complete part (List.mem_of_mem_eraseP member))
        (List.nodup_cons.mp distinct).2
        (fun other member => by
          rw [same other member]
          exact present other (List.mem_cons_of_mem _ member))
        clear
      have unchanged : (rest.flatMap fun other =>
          ((part? other (parts.eraseP (·.row.fills field))).map (contribution other)).getD []) =
            rest.flatMap fun other => ((part? other parts).map (contribution other)).getD [] := by
        apply List.flatMap_congr
        intro other member
        rw [same other member]
      rw [sum_map_eraseP found, ← others, unchanged, List.flatMap_cons, List.map_append,
        List.sum_append, found, Option.map_some, Option.getD_some, own]

/-! ## The parts of a row -/

variable (rows : parts.map Traced.row = row.children) (keeps : row.Keeps source tally.kind)

omit complete in
include rows keeps in
theorem clear_of_unnamed :
    ∀ part ∈ parts, part.row.named = false → part.row.Clear tally.kind := by
  intro part member
  apply keeps.tokens
  rw [← rows]
  exact List.mem_map_of_mem member

omit complete in
include rows keeps in
theorem clear_of_others {fields : List Field}
    (others : ∀ other ∈ row.others fields, other.Clear tally.kind) :
    ∀ part ∈ fields.foldl (fun parts field => parts.eraseP (·.row.fills field)) parts,
      part.row.Clear tally.kind := by
  have erased (fields : List Field) (parts : List Traced) :
      (fields.foldl (fun parts field => parts.eraseP (·.row.fills field)) parts).map Traced.row =
        fields.foldl (fun children field => children.eraseP (ParseTree.fills field))
          (parts.map Traced.row) := by
    induction fields generalizing parts with
    | nil => rfl
    | cons field rest induction =>
        rw [List.foldl_cons, List.foldl_cons, induction, List.eraseP_map]
        rfl
  have inside (fields : List Field) (parts : List Traced) :
      ∀ part ∈ fields.foldl (fun parts field => parts.eraseP (·.row.fills field)) parts,
        part ∈ parts := by
    induction fields generalizing parts with
    | nil => exact fun part member => member
    | cons field rest induction =>
        exact fun part member => List.mem_of_mem_eraseP (induction _ part member)
  intro part member
  cases named : part.row.named with
  | false => exact clear_of_unnamed rows keeps part (inside fields parts part member) named
  | true =>
      apply others
      rw [ParseTree.others, List.mem_filter, ← rows, ← erased]
      exact ⟨List.mem_map_of_mem member, named⟩

omit complete in
include rows in
theorem isSome_part? (field : Field) : (part? field parts).isSome = (row.child? field).isSome := by
  rw [← map_row_part? rows, Option.isSome_map]

include rows keeps in
theorem sum_chosen_allBut {field : Field}
    (clear : ∀ child, row.child? field = some child → child.Clear tally.kind) :
    ((chosen (.allBut field) parts).map (Trace.homes tally root)).sum =
      (parts.map (sites tally.kind)).sum := by
  rw [chosen, sum_beside complete (clear_of_unnamed rows keeps)]
  cases found : part? field parts with
  | none => rw [List.eraseP_of_forall_not (List.find?_eq_none.mp found)]
  | some part =>
      have named : row.child? field = some part.row := by rw [← map_row_part? rows, found]; rfl
      have nothing := (clear part.row named).sites_eq_zero part.position
      rw [sum_map_eraseP found, sites, nothing, zero_add]

include rows keeps in
theorem sum_chosen_only {fields : List Field} (distinct : fields.Nodup)
    (clear : ∀ other ∈ row.others fields, other.Clear tally.kind) :
    ((chosen (.only fields) parts).map (Trace.homes tally root)).sum =
      (parts.map (sites tally.kind)).sum := by
  rw [chosen]
  split
  · rename_i present
    exact sum_only complete fields distinct (List.all_eq_true.mp present)
      (clear_of_others rows keeps clear)
  · exact sum_wholes complete (clear_of_unnamed rows keeps)

include rows keeps in
theorem sum_chosen_leading {field : Field} :
    ((chosen (.leading field) parts).map (Trace.homes tally root)).sum =
      (parts.map (sites tally.kind)).sum := by
  have tokens := clear_of_unnamed rows keeps
  rw [chosen]
  split
  · rename_i first found
    rw [List.map_cons, List.sum_cons, sum_beside complete tokens, sum_map_eraseP found,
      (complete first (mem_of_part? found)).whole]
    rfl
  · exact sum_wholes complete tokens

omit complete in
include rows in
theorem sum_chosen_nothing (clear : ∀ child ∈ row.children, child.Clear tally.kind) :
    ((chosen .nothing parts).map (Trace.homes tally root)).sum =
      (parts.map (sites tally.kind)).sum := by
  symm
  apply List.sum_eq_zero
  intro weight member
  rcases List.mem_map.mp member with ⟨part, inside, rfl⟩
  have below : part.row ∈ row.children := rows ▸ List.mem_map_of_mem inside
  exact (clear part.row below).sites_eq_zero part.position

include rows keeps in
theorem sum_chosen :
    ((chosen (row.choice source) parts).map (Trace.homes tally root)).sum =
      (parts.map (sites tally.kind)).sum := by
  have all := sum_wholes complete (clear_of_unnamed rows keeps)
  have kinds {construct : Construct} (equal : Construct.ofKind row.kind = construct)
      (listed : construct.kinds ≠ []) : row.kind ∈ construct.kinds :=
    (Construct.ofKind_eq_iff row.kind listed).mp equal
  have kind {construct : Construct} {only : String} (equal : Construct.ofKind row.kind = construct)
      (single : construct.kinds = [only]) : row.kind = only :=
    (Construct.ofKind_eq_iff_eq construct single).mp equal
  rw [ParseTree.choice]
  cases construct : Construct.ofKind row.kind with
  | compilationUnit => exact all
  | usingDirective => exact all
  | namespaceDeclaration =>
      apply sum_chosen_allBut complete rows keeps
      exact keeps.name (by simp [kinds construct (by decide)])
  | typeDeclaration =>
      apply sum_chosen_allBut complete rows keeps
      exact keeps.name (by simp [kinds construct (by decide)])
  | methodDeclaration =>
      apply sum_chosen_allBut complete rows keeps
      exact keeps.name (by simp [kinds construct (by decide)])
  | ifStatement => exact sum_chosen_leading complete rows keeps
  | invocation => exact sum_chosen_leading complete rows keeps
  | memberAccess =>
      apply sum_chosen_only complete rows keeps (by decide)
      exact (keeps.memberAccess (kind construct rfl)).2.2
  | conditionalAccess => exact all
  | memberBinding =>
      apply sum_chosen_only complete rows keeps (by decide)
      exact keeps.memberBinding (kind construct rfl)
  | binary =>
      dsimp only
      split
      · rename_i comparison
        apply sum_chosen_only complete rows keeps (by decide)
        exact keeps.comparison (kind construct rfl) comparison
      · exact all
  | isPattern =>
      apply sum_chosen_only complete rows keeps (by decide)
      exact keeps.isPattern (kind construct rfl)
  | identifier => exact sum_chosen_nothing rows (keeps.leaf (by simp [kind construct rfl]))
  | genericName => exact sum_chosen_nothing rows (keeps.leaf (by simp [kind construct rfl]))
  | nullLiteral => exact sum_chosen_nothing rows (keeps.leaf (by simp [kind construct rfl]))
  | literal => exact all
  | other => exact all

/-! ## The chain of a row -/

omit complete in
theorem homes_bound {traces : List Trace} {last : Trace}
    (equal : bound row position traces = some last) :
    last.homes tally root = (traces.map (Trace.homes tally root)).sum := by
  rcases bound_eq_some equal with rfl | rfl
  · rw [List.map_singleton, List.sum_singleton]
  · have kept : Form.other row.kind none ≠ tally.form := by cases tally <;> simp [Tally.form]
    rw [Trace.homes_eq, if_neg]
    · exact add_zero _
    · exact kept

omit complete in
theorem isSome_bound {traces : List Trace} (nonempty : traces ≠ []) :
    ∃ last, bound row position traces = some last := by
  match traces with
  | [] => exact absurd rfl nonempty
  | [trace] => exact ⟨trace, rfl⟩
  | first :: second :: rest => exact ⟨_, rfl⟩

omit complete in
include rows in
theorem beside_ne_nil {field : Field} (others : row.others [field] ≠ []) :
    beside field parts ≠ [] := by
  intro empty
  apply others
  have erased : (parts.eraseP (·.row.fills field)).filter (·.row.named) = [] :=
    List.map_eq_nil_iff.mp empty
  rw [ParseTree.others, List.foldl_cons, List.foldl_nil, ← rows, List.eraseP_map, List.filter_map]
  exact List.map_eq_nil_iff.mpr erased

include rows keeps in
theorem sum_linkOthers {field : Field} {form : Form} {inner : Traced}
    (link : row.link? = some (field, form)) (found : part? field parts = some inner) :
    ∃ others, linkOthers row field parts = some others ∧
      (others.map (Trace.homes tally root)).sum =
        ((parts.eraseP (·.row.fills field)).map (sites tally.kind)).sum := by
  rw [linkOthers]
  split
  · rename_i kind
    rcases ParseTree.link?_eq_some link with ⟨other, _⟩ | ⟨_, rfl, _⟩ | ⟨other, _⟩
    · simp [kind] at other
    · rcases keeps.memberAccess kind with ⟨_, named, clear⟩
      rw [← isSome_part? rows] at named
      rcases Option.isSome_iff_exists.mp named with ⟨name, foundName⟩
      refine ⟨[name.whole], by rw [foundName]; rfl, ?_⟩
      have both := sum_only complete [.expression, .name] (by decide)
        (by simp [found, foundName]) (clear_of_others rows keeps clear)
      have whole := (complete inner (mem_of_part? found)).whole
      rw [sum_map_eraseP found] at both
      simp only [found, foundName, List.flatMap_cons, List.flatMap_nil, Option.map_some,
        Option.getD_some, contribution, reduceCtorEq, if_false, List.cons_append, List.nil_append,
        List.map_cons, List.map_nil, List.sum_cons, List.sum_nil, add_zero, whole] at both ⊢
      exact add_left_cancel both
    · simp [kind] at other
  · exact ⟨beside field parts, rfl, sum_beside complete (clear_of_unnamed rows keeps)⟩

variable (placed : parts.map (fun part => (part.position, part.row)) = row.placed position)

omit complete in
include placed in
theorem rows_of_placed : parts.map Traced.row = row.children := by
  have rows := congrArg (List.map Prod.snd) placed
  rw [List.map_map] at rows
  exact rows.trans (ParseTree.map_snd_placedFrom position 0 row.children)

omit complete in
include placed in
theorem sites_of_placed (kind : String) :
    row.sites kind position =
      (if row.kind = kind then {position} else 0) + (parts.map (sites kind)).sum := by
  rw [ParseTree.sites_eq, ← placed, List.map_map]
  rfl

omit complete in
include placed in
theorem chainStart?_of_link {field : Field} {form : Form}
    (link : row.link? = some (field, form)) :
    row.chainStart? position =
      (part? field parts).bind fun inner => inner.row.chainStart? inner.position := by
  rw [ParseTree.chainStart?_of_link link, ← placed, List.find?_map, Option.bind_map]
  rfl

omit complete in
include keeps placed in
theorem chainOf_conditional (kind : row.kind = "conditional_access_expression") :
    ∃ receiver tail, chainOf row position parts = .optional receiver tail := by
  have present := (keeps.conditionalAccess kind).1
  rw [← isSome_part? (rows_of_placed placed)] at present
  rcases Option.isSome_iff_exists.mp present with ⟨condition, found⟩
  rw [chainOf, if_pos kind, chainStart, found]
  exact ⟨_, _, rfl⟩

include keeps placed in
theorem chainOf_ne_headless : chainOf row position parts ≠ .headless := by
  by_cases kind : row.kind = "conditional_access_expression"
  · rcases chainOf_conditional keeps placed kind with ⟨receiver, tail, chain⟩
    rw [chain]
    exact ChainTrace.noConfusion
  · rw [chainOf, if_neg kind]
    split
    · exact ChainTrace.noConfusion
    · rw [chainLink]
      split
      · exact ChainTrace.noConfusion
      · rename_i inner found
        have headed := (complete inner (mem_of_part? found)).headed
        cases innerChain : inner.chain with
        | headless => exact absurd innerChain headed
        | plain => exact ChainTrace.noConfusion
        | optional receiver tail => exact ChainTrace.noConfusion

include keeps placed in
theorem homes_chainOf {receiver : Trace} {tail : Option Trace}
    (chain : chainOf row position parts = .optional receiver tail) :
    ∃ last start, tail = some last ∧ row.chainStart? position = some start ∧
      tally.ofStart start + receiver.homes tally root + last.homes tally root =
        row.sites tally.kind position := by
  have rows := rows_of_placed placed
  have tokens := clear_of_unnamed rows keeps
  rw [sites_of_placed placed]
  rcases chainOf_eq_optional chain with
    ⟨kind, ⟨condition, found, rfl, rfl⟩ | ⟨missing, _⟩⟩ |
      ⟨field, form, inner, innerTail, link, found, innerChain, rfl⟩
  · -- The row starts the chain.
    rcases isSome_bound (beside_ne_nil rows (keeps.conditionalAccess kind).2) with ⟨last, equal⟩
    refine ⟨last, position, equal, ParseTree.chainStart?_of_conditional kind, ?_⟩
    have own : (if row.kind = tally.kind then {position} else 0) = tally.ofStart position := by
      rw [kind]
      cases tally <;> rfl
    rw [homes_bound equal, sum_beside complete tokens, own, sum_map_eraseP found,
      (complete condition (mem_of_part? found)).whole, add_assoc]
    rfl
  · have present := (keeps.conditionalAccess kind).1
    rw [← isSome_part? rows, missing] at present
    cases present
  · -- The row adds a link to the chain of a child.
    rcases (complete inner (mem_of_part? found)).chain receiver innerTail innerChain with
      ⟨innerLast, start, rfl, startInner, count⟩
    rcases sum_linkOthers complete rows keeps link found with ⟨others, equal, countOthers⟩
    refine ⟨.node form row.span position (innerLast :: others), start, ?_, ?_, ?_⟩
    · rw [equal]
      rfl
    · rw [chainStart?_of_link placed link, found]
      exact startInner
    · have own (node : Trace) (formed : node.form = form) (origin : node.origin = position) :
          (if node.form = tally.form then {tally.home root node} else 0) =
            if row.kind = tally.kind then ({position} : Multiset Position) else 0 := by
        rw [formed]
        rcases ParseTree.link?_eq_some link with ⟨kind, _, rfl⟩ | ⟨kind, _, rfl⟩ | ⟨kind, _, rfl⟩ <;>
          rw [kind] <;> cases tally <;> simp [Tally.kind, Tally.form, Tally.home, origin]
      rw [Trace.homes_eq tally root (.node form row.span position (innerLast :: others)),
        own _ rfl rfl, Trace.parts, List.map_cons, List.sum_cons, countOthers,
        sum_map_eraseP found, sites, ← count]
      abel

/-! ## The node of a row -/

variable {fileSpace : Option String} {spaces : List String} {form : Form}
  (formed : form = row.formOf source fileSpace spaces (chainOf row position parts))

include keeps placed in
theorem homes_of_chosen
    (parts_eq : wholeParts source row position parts = chosen (row.choice source) parts)
    (same : form = tally.form ↔ row.kind = tally.kind)
    (homed : form = tally.form →
      tally.home root (ofParts source form row position parts).whole = position) :
    (ofParts source form row position parts).whole.homes tally root =
      row.sites tally.kind position := by
  rw [Trace.homes_eq, sites_of_placed placed,
    ← sum_chosen complete (rows_of_placed placed) keeps, ← parts_eq, add_comm]
  congr 1
  by_cases counted : form = tally.form
  · rw [if_pos (same.mp counted)]
    refine (if_pos counted).trans ?_
    rw [homed counted]
  · rw [if_neg fun kind => counted (same.mpr kind)]
    exact if_neg counted

include keeps placed formed in
theorem homes_of_plain (tops : row.topsChain) (chain : chainOf row position parts = .plain) :
    (ofParts source form row position parts).whole.homes tally root =
      row.sites tally.kind position := by
  have parts_eq : wholeParts source row position parts = chosen (row.choice source) parts := by
    rw [wholeParts, if_pos tops, chain]
  cases tally with
  | calls =>
      refine homes_of_chosen complete keeps placed parts_eq ?_ fun _ => rfl
      rw [formed, Tally.form, Tally.kind, ParseTree.formOf_eq_invocation_iff]
      exact ⟨And.left, fun kind => ⟨kind, chain, keeps.invocation kind⟩⟩
  | optionalAccesses =>
      have different : form ≠ .conditionalAccess := by
        intro access
        rw [formed, chain] at access
        rcases ParseTree.formOf_eq_conditionalAccess access with ⟨_, _, _, optional⟩
        cases optional
      have other : row.kind ≠ "conditional_access_expression" := by
        intro kind
        rcases chainOf_conditional keeps placed kind with ⟨_, _, optional⟩
        rw [chain] at optional
        cases optional
      exact homes_of_chosen complete keeps placed parts_eq (iff_of_false different other)
        fun counted => absurd counted different

include keeps placed formed in
theorem homes_of_optional (here : root.at? position = some row) (tops : row.topsChain)
    {receiver : Trace} {tail : Option Trace}
    (chain : chainOf row position parts = .optional receiver tail) :
    (ofParts source form row position parts).whole.homes tally root =
      row.sites tally.kind position := by
  rcases homes_chainOf complete keeps placed chain with ⟨last, start, rfl, started, count⟩
  have access : form = .conditionalAccess := by
    rw [formed, chain, ParseTree.formOf_optional tops]
  have parts_eq : wholeParts source row position parts = [receiver, last] := by
    rw [wholeParts, if_pos tops, chain]
    rfl
  have own (node : Trace) (formed : node.form = .conditionalAccess)
      (origin : node.origin = position) :
      (if node.form = tally.form then {tally.home root node} else 0) = tally.ofStart start := by
    rw [formed]
    cases tally with
    | calls => rfl
    | optionalAccesses => simp [Tally.form, Tally.home, Tally.ofStart, origin, here, started]
  rw [Trace.homes_eq, own (ofParts source form row position parts).whole access rfl, ← count]
  simp only [ofParts, Trace.parts, parts_eq, List.map_cons, List.map_nil, List.sum_cons,
    List.sum_nil]
  abel

include keeps placed formed in
theorem homes_of_not_topsChain (tops : ¬row.topsChain) :
    (ofParts source form row position parts).whole.homes tally root =
      row.sites tally.kind position := by
  have different : form ≠ tally.form := by
    intro counted
    have known := row.ofKind_mem_constructs source fileSpace spaces (chainOf row position parts)
    rw [← formed, counted] at known
    apply tops
    rw [ParseTree.topsChain_iff]
    cases tally with
    | calls => exact .inl (List.mem_singleton.mp known)
    | optionalAccesses => simpa [Tally.form, Form.constructs] using known
  have other : row.kind ≠ tally.kind := by
    intro kind
    apply tops
    rw [ParseTree.topsChain, decide_eq_true_eq]
    cases tally with
    | calls => exact .inl kind
    | optionalAccesses => exact .inr (.inr kind)
  apply homes_of_chosen complete keeps placed
  · rw [wholeParts, if_neg tops]
  · exact iff_of_false different other
  · exact fun counted => absurd counted different

include keeps placed formed in
theorem homes_whole (here : root.at? position = some row) :
    (ofParts source form row position parts).whole.homes tally root =
      row.sites tally.kind position := by
  by_cases tops : row.topsChain
  · cases chain : chainOf row position parts with
    | headless => exact absurd chain (chainOf_ne_headless complete keeps placed)
    | plain => exact homes_of_plain complete keeps placed formed tops chain
    | optional receiver tail =>
        exact homes_of_optional complete keeps placed formed here tops chain
  · exact homes_of_not_topsChain complete keeps placed formed tops

/-! ## All rows -/

include keeps placed in
theorem sum_patternOf {whole : Trace}
    (homes : whole.homes tally root = row.sites tally.kind position) :
    ((patternOf row parts whole).map (Trace.homes tally root)).sum =
      row.sites tally.kind position := by
  rw [patternOf]
  split
  · -- The pattern inside is the only named child.
    rename_i wraps
    have rows := rows_of_placed placed
    have single : (parts.filter (·.row.named)).length = 1 := by
      have count := keeps.pattern wraps
      rw [ParseTree.namedChildren, ← rows, List.filter_map, List.length_map] at count
      exact count
    have other : row.kind ≠ tally.kind := by
      simp only [ParseTree.wrapsPattern, decide_eq_true_eq] at wraps
      rcases wraps with kind | kind | kind <;> rw [kind] <;> cases tally <;> simp [Tally.kind]
    have all := sum_wholes complete (clear_of_unnamed rows keeps)
    rcases List.length_eq_one_iff.mp single with ⟨part, only⟩
    have found : parts.find? (·.row.named) = some part := by
      rw [← List.head?_filter, only]
      rfl
    rw [wholes, only, List.map_singleton, List.map_singleton, List.sum_singleton] at all
    have inner := complete part (List.mem_of_find?_eq_some found)
    rw [found, Option.map_some, Option.getD_some, inner.pattern, ← inner.whole, all,
      sites_of_placed placed, if_neg other, zero_add]
  · rw [List.map_singleton, List.sum_singleton, homes]

end Parts

end Traced

open Traced

namespace ParseTree

variable {tally : Tally} {source : List Char} {root row : ParseTree} {position : Position}

theorem placed_partsAt :
    (root.partsAt source position row).map (fun part => (part.position, part.row)) =
      row.placed position := by
  rw [partsAt, List.map_map]
  refine (List.map_congr_left fun found _ => ?_).trans (List.map_id _)
  simp

theorem beside_partsAt (field : Field) :
    ∃ bindings : List (Position × ParseTree),
      (∀ found ∈ bindings, found ∈ row.placed position) ∧ row.others [field] = bindings.map Prod.snd ∧
        beside field (root.partsAt source position row) =
          bindings.map fun found => (root.tracedAt source found.1 found.2).whole := by
  refine ⟨((row.placed position).eraseP fun found => found.2.fills field).filter
    fun found => found.2.named, ?_, ?_, ?_⟩
  · exact fun found member => List.mem_of_mem_eraseP (List.mem_of_mem_filter member)
  · rw [others, List.foldl_cons, List.foldl_nil, ← map_snd_placedFrom position 0 row.children,
      List.eraseP_map, List.filter_map]
    rfl
  · rw [beside, wholes, partsAt, List.eraseP_map, List.filter_map, List.map_map]
    simp only [Function.comp_def, row_tracedAt]

variable (keeps : ∀ position row, root.at? position = some row → row.Keeps source tally.kind)
  (here : root.at? position = some row)

include keeps here

/-- Every row is read completely if no row of the tree leaves anything to be counted out. -/
theorem complete_tracedAt : (root.tracedAt source position row).Complete tally root := by
  refine placed_induction ?_ here
  intro position row here induction
  have complete : ∀ part ∈ root.partsAt source position row, part.Complete tally root := by
    intro part member
    rcases (mem_partsAt ..).mp member with ⟨found, placed, rfl⟩
    exact induction found placed
  have formed : (root.tracedAt source position row).whole.form = _ := form_whole_tracedAt source
  rw [tracedAt_eq source here] at formed ⊢
  have whole := homes_whole complete (keeps position row here) placed_partsAt formed here
  exact ⟨whole, chainOf_ne_headless complete (keeps position row here) placed_partsAt,
    fun receiver tail => homes_chainOf complete (keeps position row here) placed_partsAt,
    sum_patternOf complete (keeps position row here) placed_partsAt whole⟩

theorem chainStart?_eq_none_of_plain :
    (root.tracedAt source position row).chain = .plain → row.chainStart? position = none := by
  refine placed_induction ?_ here
  intro position row here induction plain
  rw [tracedAt_eq source here] at plain
  have chain : chainOf row position (root.partsAt source position row) = .plain := plain
  by_cases conditional : row.kind = "conditional_access_expression"
  · rcases chainOf_conditional (keeps position row here) placed_partsAt conditional with
      ⟨receiver, tail, optional⟩
    rw [chain] at optional
    cases optional
  cases link : row.link? with
  | none => exact chainStart?_eq_none conditional link
  | some found =>
      have placed : (root.partsAt source position row).map _ = _ := placed_partsAt
      rw [Traced.chainStart?_of_link placed link]
      cases part : part? found.1 (root.partsAt source position row) with
      | none => rfl
      | some inner =>
          have innerPlain := chain_eq_plain_of_chainOf chain link part
          rcases (mem_partsAt ..).mp (mem_of_part? part) with ⟨below, placed, rfl⟩
          rw [Option.bind_some, row_tracedAt, position_tracedAt]
          exact induction below placed innerPlain

theorem chain_eq_plain_iff :
    (root.tracedAt source position row).chain = .plain ↔ row.onOptionalChain = false := by
  rw [← isSome_chainStart? position]
  constructor
  · intro plain
    rw [chainStart?_eq_none_of_plain keeps here plain]
    rfl
  · intro unstarted
    have complete := complete_tracedAt keeps here
    cases chain : (root.tracedAt source position row).chain with
    | plain => rfl
    | headless => exact absurd chain complete.headed
    | optional receiver tail =>
        rcases complete.chain receiver tail chain with ⟨last, start, _, started, _⟩
        rw [position_tracedAt, row_tracedAt] at started
        rw [started] at unstarted
        cases unstarted

theorem exists_chain (optional : row.onOptionalChain) :
    ∃ receiver last, (root.tracedAt source position row).chain = .optional receiver (some last) := by
  have complete := complete_tracedAt keeps here
  cases chain : (root.tracedAt source position row).chain with
  | plain =>
      rw [(chain_eq_plain_iff keeps here).mp chain] at optional
      cases optional
  | headless => exact absurd chain complete.headed
  | optional receiver tail =>
      rcases complete.chain receiver tail chain with ⟨last, _, rfl, _, _⟩
      exact ⟨receiver, last, rfl⟩

/-- What an optional chain at a row is made of: the row starts it behind its condition, or continues the
chain of a child by a link. -/
theorem chain_cases {receiver last : Trace}
    (chain : (root.tracedAt source position row).chain = .optional receiver (some last)) :
    (row.kind = "conditional_access_expression" ∧
      ∃ condition, part? .condition (root.partsAt source position row) = some condition ∧
        receiver = condition.whole ∧
        bound row position (beside .condition (root.partsAt source position row)) = some last) ∨
    ∃ field form inner before others, row.link? = some (field, form) ∧
      part? field (root.partsAt source position row) = some inner ∧
      inner.chain = .optional receiver (some before) ∧
      linkOthers row field (root.partsAt source position row) = some others ∧
      last = .node form row.span position (before :: others) := by
  rw [chain_tracedAt source here] at chain
  rcases chainOf_eq_optional chain with
    ⟨kind, ⟨condition, found, headed, equal⟩ | ⟨missing, _⟩⟩ |
      ⟨field, form, inner, innerTail, link, found, innerChain, equal⟩
  · exact .inl ⟨kind, condition, found, headed, equal.symm⟩
  · have rows : (root.partsAt source position row).map Traced.row = row.children :=
      rows_of_placed placed_partsAt
    have present := ((keeps position row here).conditionalAccess kind).1
    rw [← isSome_part? rows, missing] at present
    cases present
  · rcases Option.bind_eq_some_iff.mp equal.symm with ⟨before, rfl, linked⟩
    rcases Option.map_eq_some_iff.mp linked with ⟨others, othersEqual, same⟩
    exact .inr ⟨field, form, inner, before, others, link, found, innerChain, othersEqual, same.symm⟩

theorem whole_of_topsChain (tops : row.topsChain) (optional : row.onOptionalChain) :
    ∃ receiver last, (root.tracedAt source position row).chain = .optional receiver (some last) ∧
      (root.tracedAt source position row).whole.form = .conditionalAccess ∧
      (root.tracedAt source position row).whole.parts = [receiver, last] := by
  rcases exists_chain keeps here optional with ⟨receiver, last, chain⟩
  refine ⟨receiver, last, chain, ?_, ?_⟩
  · rw [form_whole_tracedAt, chain, formOf_optional tops]
  · rw [chain_tracedAt source here] at chain
    rw [parts_whole source here, wholeParts, if_pos tops, chain]
    rfl

end ParseTree

end UnityLint
