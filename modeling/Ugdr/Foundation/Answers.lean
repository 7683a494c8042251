import Mathlib.Data.List.Nodup

/-! # Answers on their way

Questions wait for answers that arrive in a queue. Only the first answer to a waiting
question has an effect. This file is independent of what is asked.
-/

namespace Ugdr.Answers

universe u

variable {α : Type u} [DecidableEq α]

/-- The answers of the queue that will find their question waiting, in order. -/
def effective : List α → List α → List α
  | _, [] => []
  | waiting, answer :: answers =>
      if answer ∈ waiting then
        answer :: effective (waiting.erase answer) answers
      else
        effective waiting answers

@[simp] theorem effective_nil (waiting : List α) : effective waiting [] = [] :=
  rfl

theorem effective_cons_of_mem {waiting : List α} {answer : α} (waits : answer ∈ waiting)
    (answers : List α) :
    effective waiting (answer :: answers) =
      answer :: effective (waiting.erase answer) answers :=
  if_pos waits

theorem effective_cons_of_not_mem {waiting : List α} {answer : α} (absent : answer ∉ waiting)
    (answers : List α) :
    effective waiting (answer :: answers) = effective waiting answers :=
  if_neg absent

theorem mem_effective {waiting answers : List α} (distinct : waiting.Nodup) {answer : α} :
    answer ∈ effective waiting answers ↔ answer ∈ waiting ∧ answer ∈ answers := by
  induction answers generalizing waiting with
  | nil => simp
  | cons first answers induction =>
      by_cases waits : first ∈ waiting
      · rw [effective_cons_of_mem waits, List.mem_cons, induction (distinct.erase first),
          distinct.mem_erase_iff, List.mem_cons]
        by_cases same : answer = first
        · simp [same, waits]
        · simp [same]
      · rw [effective_cons_of_not_mem waits, induction distinct, List.mem_cons]
        by_cases same : answer = first
        · simp [same, waits]
        · simp [same]

/-- A further answer is effective if its question waits and no earlier answer is on its
way. -/
theorem effective_concat {waiting : List α} (distinct : waiting.Nodup) (answers : List α)
    (last : α) :
    effective waiting (answers ++ [last]) =
      effective waiting answers ++ if last ∈ waiting ∧ last ∉ answers then [last] else [] := by
  induction answers generalizing waiting with
  | nil =>
      by_cases waits : last ∈ waiting
      · simp [effective_cons_of_mem waits, waits]
      · simp [effective_cons_of_not_mem waits, waits]
  | cons first answers induction =>
      by_cases waits : first ∈ waiting
      · rw [List.cons_append, effective_cons_of_mem waits, effective_cons_of_mem waits,
          induction (distinct.erase first), List.cons_append]
        simp only [distinct.mem_erase_iff, List.mem_cons, not_or]
        congr 3
        rw [and_assoc, and_left_comm]
      · rw [List.cons_append, effective_cons_of_not_mem waits, effective_cons_of_not_mem waits,
          induction distinct]
        have different : last ∈ waiting → last ≠ first := by
          rintro member rfl
          exact waits member
        simp only [List.mem_cons, not_or]
        congr 2
        exact propext ⟨fun ⟨member, later⟩ => ⟨member, different member, later⟩,
          fun ⟨member, _, later⟩ => ⟨member, later⟩⟩

/-- A new question that no answer on its way is about changes nothing. -/
theorem effective_waiting_concat {answers : List α} {question : α}
    (unanswered : question ∉ answers) (waiting : List α) :
    effective (waiting ++ [question]) answers = effective waiting answers := by
  induction answers generalizing waiting with
  | nil => rfl
  | cons first answers induction =>
      obtain ⟨different, later⟩ := List.ne_and_not_mem_of_not_mem_cons unanswered
      by_cases waits : first ∈ waiting
      · rw [effective_cons_of_mem waits, effective_cons_of_mem (List.mem_append_left _ waits),
          List.erase_append_left _ waits, induction later]
      · have absent : first ∉ waiting ++ [question] := by
          simp [waits, Ne.symm different]
        rw [effective_cons_of_not_mem waits, effective_cons_of_not_mem absent, induction later]

end Ugdr.Answers
