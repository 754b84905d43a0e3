/-!
Contract: the text after a fixed beginning.

Main statement: `afterPrefix?` answers what is left exactly if the text starts with the beginning.
-/

namespace FlatLiquid.Text

/-- What is left of a text after a beginning, if it starts with it. -/
def afterPrefix? : List Char → List Char → Option (List Char)
  | [], text => some text
  | _ :: _, [] => none
  | expected :: more, c :: rest => if expected = c then afterPrefix? more rest else none

theorem afterPrefix?_append (beginning rest : List Char) :
    afterPrefix? beginning (beginning ++ rest) = some rest := by
  induction beginning with
  | nil => rfl
  | cons c more inductionHypothesis => simp [afterPrefix?, inductionHypothesis]

/-- A text that starts with a beginning is the beginning and what is left. -/
theorem eq_append_of_afterPrefix? {beginning text rest : List Char}
    (found : afterPrefix? beginning text = some rest) : text = beginning ++ rest := by
  induction beginning generalizing text with
  | nil => simpa [afterPrefix?] using found
  | cons expected more inductionHypothesis =>
    cases text with
    | nil => simp [afterPrefix?] at found
    | cons c tail =>
      by_cases same : expected = c
      · subst same
        rw [afterPrefix?, if_pos rfl] at found
        rw [inductionHypothesis found, List.cons_append]
      · simp [afterPrefix?, same] at found

end FlatLiquid.Text
