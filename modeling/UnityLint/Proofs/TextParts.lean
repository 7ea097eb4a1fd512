import Mathlib.Data.List.Infix
import UnityLint.Text.Basic

/-! # Parts of texts

Cutting and trimming leave a part of the text that stands there as one run of characters. -/

namespace UnityLint.Text

theorem isSuffix_trimStart (text : List Char) : trimStart text <:+ text :=
  List.dropWhile_suffix _

theorem isPrefix_dropEndWhile (drops : Char → Bool) (text : List Char) :
    dropEndWhile drops text <+: text := by
  have reversed := List.dropWhile_suffix drops (l := text.reverse)
  rw [← List.reverse_prefix, List.reverse_reverse] at reversed
  exact reversed

theorem isInfix_trim (text : List Char) : trim text <:+: text :=
  (isPrefix_dropEndWhile _ _).isInfix.trans (isSuffix_trimStart text).isInfix

theorem isPrefix_upTo (stops : Char → Bool) (text : List Char) : upTo stops text <+: text :=
  List.takeWhile_prefix _

theorem suffix_of_dropStart? {start text rest : List Char} (found : dropStart? start text = some rest) :
    rest <:+ text := by
  rw [dropStart?] at found
  split at found
  · cases found
    exact List.drop_suffix _ _
  · cases found

theorem eq_append_of_cutFirst {divider : Char} {text before after : List Char}
    (found : cutFirst divider text = some (before, after)) : text = before ++ divider :: after := by
  induction text generalizing before after with
  | nil => cases found
  | cons char rest induction =>
      rw [cutFirst] at found
      split at found
      · rename_i same
        cases found
        rw [same]
        rfl
      · rcases Option.map_eq_some_iff.mp found with ⟨⟨inner, outer⟩, later, equal⟩
        cases equal
        rw [induction later]
        rfl

theorem eq_append_of_cutLast {divider : Char} {text before after : List Char}
    (found : cutLast divider text = some (before, after)) : text = before ++ divider :: after := by
  induction text generalizing before after with
  | nil => cases found
  | cons char rest induction =>
      rw [cutLast] at found
      split at found
      · rename_i inner outer later
        cases found
        rw [induction later]
        rfl
      · split at found
        · rename_i same
          cases found
          rw [same]
          rfl
        · cases found

theorem afterLast_eq_cutLast (divider : Char) (text : List Char) :
    afterLast (· = divider) text = ((cutLast divider text).map Prod.snd).getD text := by
  induction text with
  | nil => rfl
  | cons char rest induction =>
      rw [afterLast, List.reverse_eq_iff] at induction
      rw [afterLast, List.reverse_cons, List.takeWhile_append, induction, cutLast]
      cases found : cutLast divider rest with
      | none =>
          by_cases same : char = divider <;> simp [same]
      | some cut =>
          have shorter : cut.2.length ≠ rest.length := by
            rw [eq_append_of_cutLast found, List.length_append, List.length_cons]
            omega
          simp [shorter]

theorem suffix_of_dropBytes {size : Nat} {text rest : List Char}
    (found : dropBytes size text = some rest) : rest <:+ text := by
  induction text generalizing size with
  | nil =>
      cases size with
      | zero => cases found; exact List.suffix_rfl
      | succ size => cases found
  | cons char tail induction =>
      cases size with
      | zero => cases found; exact List.suffix_rfl
      | succ size =>
          rw [dropBytes] at found
          split at found
          · exact (induction found).trans (List.suffix_cons char tail)
          · cases found

theorem prefix_of_takeBytes {size : Nat} {text taken : List Char}
    (found : takeBytes size text = some taken) : taken <+: text := by
  induction text generalizing size taken with
  | nil =>
      cases size with
      | zero => cases found; exact List.nil_prefix
      | succ size => cases found
  | cons char tail induction =>
      cases size with
      | zero => cases found; exact List.nil_prefix
      | succ size =>
          rw [takeBytes] at found
          split at found
          · rcases Option.map_eq_some_iff.mp found with ⟨inner, later, rfl⟩
            exact (List.prefix_cons_inj char).mpr (induction later)
          · cases found

theorem isInfix_slice (text : List Char) (start stop : Nat) : slice text start stop <:+: text := by
  rw [slice]
  cases found : (dropBytes start text).bind (takeBytes (stop - start)) with
  | none => exact List.nil_infix
  | some taken =>
      rcases Option.bind_eq_some_iff.mp found with ⟨rest, dropped, inside⟩
      exact (prefix_of_takeBytes inside).isInfix.trans (suffix_of_dropBytes dropped).isInfix

theorem isInfix_compact {part text : List Char} (inside : part <:+: text) :
    compact part <:+: compact text :=
  inside.filter _

theorem compact_compact (text : List Char) : compact (compact text) = compact text := by
  simp [compact]

theorem prefix_of_divided {needle left right : List Char} {divider : Char}
    (undivided : divider ∉ needle) (starts : needle <+: left ++ divider :: right) :
    needle <+: left := by
  rcases List.prefix_or_prefix_of_prefix starts (List.prefix_append left _) with inside | longer
  · exact inside
  · rcases longer with ⟨rest, rfl⟩
    have further := (List.prefix_append_right_inj left).mp starts
    cases rest with
    | nil => rw [List.append_nil]
    | cons head tail =>
        have same := (List.cons_prefix_cons.mp further).1
        exact absurd (same ▸ List.mem_append_right left List.mem_cons_self) undivided

theorem infix_or_infix_of_divided {needle left right : List Char} {divider : Char}
    (undivided : divider ∉ needle) (inside : needle <:+: left ++ divider :: right) :
    needle <:+: left ∨ needle <:+: right := by
  induction left with
  | nil =>
      rcases List.infix_cons_iff.mp inside with starts | later
      · have empty : needle <+: [] := prefix_of_divided undivided starts
        exact .inl empty.isInfix
      · exact .inr later
  | cons char rest induction =>
      rcases List.infix_cons_iff.mp inside with starts | later
      · exact .inl (prefix_of_divided undivided starts).isInfix
      · rcases induction later with inLeft | inRight
        · exact .inl (List.infix_cons inLeft)
        · exact .inr inRight

end UnityLint.Text
