import UnityLint.Diagnostic.Template

/-! # Filled templates

A message is its template with the places replaced by the arguments; all other text is kept, and so is
the text of the arguments. -/

namespace UnityLint

theorem Text.cutFirst_append {divider : Char} {before : List Char} (undivided : divider ∉ before)
    (after : List Char) : cutFirst divider (before ++ divider :: after) = some (before, after) := by
  induction before with
  | nil => simp [cutFirst]
  | cons char rest induction =>
      rw [List.mem_cons, not_or] at undivided
      rw [List.cons_append, cutFirst, if_neg (Ne.symm undivided.1), induction undivided.2,
        Option.map_some]

namespace Template

variable {arguments : List (List Char)}

theorem fill_append {text : List Char} (plain : '\x7b' ∉ text) (rest : List Char) :
    fill arguments (text ++ rest) = text ++ fill arguments rest := by
  induction text with
  | nil => rfl
  | cons char others induction =>
      rw [List.mem_cons, not_or] at plain
      rw [List.cons_append, fill, if_neg (Ne.symm plain.1), induction plain.2, List.cons_append]

theorem fill_eq_self {text : List Char} (plain : '\x7b' ∉ text) : fill arguments text = text := by
  have kept : fill arguments (text ++ []) = text ++ fill arguments [] := fill_append plain []
  rw [List.append_nil, fill, List.append_nil] at kept
  exact kept

theorem fill_place {digits argument : List Char} (closed : '\x7d' ∉ digits)
    (found : argument? arguments digits = some argument) (rest : List Char) :
    fill arguments ('\x7b' :: (digits ++ '\x7d' :: rest)) = argument ++ fill arguments rest := by
  have cut := Text.cutFirst_append closed rest
  rw [fill, if_pos rfl]
  split
  · rename_i inner after inside
    cases cut.symm.trans inside
    rw [found]
  · rename_i outside
    rw [cut] at outside
    cases outside

theorem fill_nil (template : List Char) : fill [] template = template := by
  have missing (digits : List Char) : argument? [] digits = none := by
    cases found : Text.word? digits <;> simp [argument?, found]
  induction template with
  | nil => rw [fill]
  | cons char rest induction =>
      rw [fill, induction]
      split
      · split
        · rw [missing]
        · rfl
      · rfl

theorem format_nil (template : String) : format template [] = template := by
  rw [format, List.map_nil, fill_nil, String.ofList_toList]

end Template

end UnityLint
