/-!
# Splitting lists

`splitWhere` divides a list at the members of a class, as commas divide an enumeration: there is
always one piece more than there are separators.
-/

namespace Metamath.Text

/-- The pieces of a list between the members that satisfy `p`, the outer ones included. -/
def splitWhere {α : Type} (p : α → Bool) : List α → List (List α)
  | [] => [[]]
  | a :: as =>
    match splitWhere p as with
    | [] => [[a]]
    | piece :: pieces => if p a then [] :: piece :: pieces else (a :: piece) :: pieces

/-- There is always a piece. -/
theorem splitWhere_ne_nil {α : Type} (p : α → Bool) (l : List α) : splitWhere p l ≠ [] := by
  cases l with
  | nil => simp [splitWhere]
  | cons a as =>
    unfold splitWhere
    split
    · simp
    · split <;> simp

/-- One piece more than separators. -/
theorem length_splitWhere {α : Type} (p : α → Bool) (l : List α) :
    (splitWhere p l).length = l.countP p + 1 := by
  induction l with
  | nil => rfl
  | cons a as ih =>
    unfold splitWhere
    split
    · rename_i h
      exact absurd h (splitWhere_ne_nil p as)
    · rename_i h
      rw [h, List.length_cons] at ih
      split <;> simp_all

end Metamath.Text
