import Mathlib.Data.List.TakeDrop
import Mathlib.Data.List.TakeWhile

/-!
# Texts cut at a mark

What is cut off at a mark is the part in front of the first mark, whatever follows it, and
everything if there is no mark.
-/

namespace RemoteCall.Text

variable {α : Type} [DecidableEq α] {mark : α} {front : List α}

theorem decide_ne_of_not_mem (absent : mark ∉ front) : ∀ b ∈ front, decide (b ≠ mark) = true := by
  intro b mem
  exact decide_eq_true (ne_of_mem_of_not_mem mem absent)

theorem takeWhile_ne_of_not_mem (absent : mark ∉ front) : front.takeWhile (· ≠ mark) = front :=
  List.takeWhile_eq_self_iff.2 (decide_ne_of_not_mem absent)

theorem takeWhile_ne_append_cons (absent : mark ∉ front) (rest : List α) :
    (front ++ mark :: rest).takeWhile (· ≠ mark) = front := by
  rw [List.takeWhile_append_of_pos (decide_ne_of_not_mem absent),
    List.takeWhile_cons_of_neg (by simp), List.append_nil]

/-- The part in front of the first mark, and what begins with that mark. -/
theorem span_ne_append_cons (absent : mark ∉ front) (rest : List α) :
    (front ++ mark :: rest).span (· ≠ mark) = (front, mark :: rest) := by
  rw [List.span_eq_takeWhile_dropWhile, takeWhile_ne_append_cons absent,
    List.dropWhile_append_of_pos (decide_ne_of_not_mem absent),
    List.dropWhile_cons_of_neg (by simp)]

end RemoteCall.Text
