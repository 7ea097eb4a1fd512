/-! # Tests on the ends of a list

A matcher that goes along a list puts the same question to many ends of it. The answers can be kept, one
for each end and the longest end first, so that no question is asked twice. Each way to make one test from
another has its counterpart on answers. -/

namespace UnityLint.Ends

variable {α : Type}

/-! ## Tests -/

def either (left right : List α → Bool) (list : List α) : Bool :=
  left list || right list

def afterOne (starts : α → Bool) (accepts : List α → Bool) : List α → Bool
  | [] => false
  | head :: rest => starts head && accepts rest

/-- An end is accepted that follows elements which satisfy `passes`. -/
def afterMany (passes : α → Bool) (accepts : List α → Bool) : List α → Bool
  | [] => accepts []
  | head :: rest => accepts (head :: rest) || (passes head && afterMany passes accepts rest)

def atEnd (accepts : List α → Bool) (_ : List α) : Bool :=
  accepts []

/-! ## Answers -/

def answers (accepts : List α → Bool) : List α → List Bool
  | [] => [accepts []]
  | head :: rest => accepts (head :: rest) :: answers accepts rest

def whole (answers : List Bool) : Bool :=
  answers.headD false

@[simp] theorem whole_answers (accepts : List α → Bool) (list : List α) :
    whole (answers accepts list) = accepts list := by
  cases list <;> rfl

def eitherAnswers (left right : List Bool) : List Bool :=
  List.zipWith (· || ·) left right

theorem answers_either (left right : List α → Bool) (list : List α) :
    answers (either left right) list =
      eitherAnswers (answers left list) (answers right list) := by
  induction list with
  | nil => rfl
  | cons head rest induction => simp [answers, induction, either, eitherAnswers]

def afterOneAnswers (starts : α → Bool) : List α → List Bool → List Bool
  | [], _ => [false]
  | head :: rest, answers =>
      (starts head && whole answers.tail) :: afterOneAnswers starts rest answers.tail

theorem answers_afterOne (starts : α → Bool) (accepts : List α → Bool) (list : List α) :
    answers (afterOne starts accepts) list =
      afterOneAnswers starts list (answers accepts list) := by
  induction list with
  | nil => rfl
  | cons head rest induction => simp [answers, induction, afterOne, afterOneAnswers]

def afterManyAnswers (passes : α → Bool) : List α → List Bool → List Bool
  | [], answers => [whole answers]
  | head :: rest, answers =>
      let later := afterManyAnswers passes rest answers.tail
      (whole answers || (passes head && whole later)) :: later

theorem answers_afterMany (passes : α → Bool) (accepts : List α → Bool) (list : List α) :
    answers (afterMany passes accepts) list =
      afterManyAnswers passes list (answers accepts list) := by
  induction list with
  | nil => rfl
  | cons head rest induction =>
      simp only [answers, afterMany, afterManyAnswers, List.tail_cons, ← induction, whole_answers]
      rfl

def atEndAnswers (answers : List Bool) : List Bool :=
  answers.map fun _ => answers.getLastD false

theorem getLastD_answers (accepts : List α → Bool) (list : List α) (other : Bool) :
    (answers accepts list).getLastD other = accepts [] := by
  induction list generalizing other with
  | nil => rfl
  | cons head rest induction => rw [answers, List.getLastD_cons, induction]

theorem answers_atEnd (accepts : List α → Bool) (list : List α) :
    answers (atEnd accepts) list = atEndAnswers (answers accepts list) := by
  rw [atEndAnswers, getLastD_answers]
  induction list with
  | nil => rfl
  | cons head rest induction => simp [answers, induction, atEnd]

def noAnswers (list : List α) : List Bool :=
  answers (fun _ => false) list

end UnityLint.Ends
