import UnityLint.Text.Basic

/-! # Message templates

A template holds numbered places, such as `{0}`, that are filled from a list of arguments. -/

namespace UnityLint.Template

theorem length_cutFirst {divider : Char} {text before after : List Char}
    (cut : Text.cutFirst divider text = some (before, after)) :
    text.length = before.length + after.length + 1 := by
  induction text generalizing before with
  | nil => cases cut
  | cons char rest induction =>
      rw [Text.cutFirst] at cut
      split at cut
      · cases cut
        simp
      · obtain ⟨⟨inner, tail⟩, found, equal⟩ := Option.map_eq_some_iff.mp cut
        cases equal
        simp only [List.length_cons, induction found]
        omega

def argument? (arguments : List (List Char)) (digits : List Char) : Option (List Char) :=
  (Text.word? digits).bind fun index => arguments[index]?

/-- Fills the places of a template. An opening brace that begins no place with an argument stays as it
is, and the text of an argument is not searched for places. -/
def fill (arguments : List (List Char)) : List Char → List Char
  | [] => []
  | char :: rest =>
      if char = '\x7b' then
        match _cut : Text.cutFirst '\x7d' rest with
        | some (digits, after) =>
            match argument? arguments digits with
            | some argument => argument ++ fill arguments after
            | none => char :: fill arguments rest
        | none => char :: fill arguments rest
      else
        char :: fill arguments rest
termination_by template => template.length
decreasing_by
  all_goals simp only [List.length_cons]
  · have := length_cutFirst _cut
    omega
  all_goals omega

def format (template : String) (arguments : List String) : String :=
  String.ofList (fill (arguments.map String.toList) template.toList)

end UnityLint.Template
