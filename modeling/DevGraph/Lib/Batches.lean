import Mathlib.Data.List.Basic

/-!
# Batches of a list

A list cut into batches of a bounded length, in its order.
-/

namespace DevGraph.Lib

variable {α : Type}

/-- The batches of a list, each of at most one more than the given length. -/
def batches (n : Nat) (l : List α) : List (List α) :=
  if l = [] then [] else l.take (n + 1) :: batches n (l.drop (n + 1))
termination_by l.length
decreasing_by
  rename_i hne
  have hpos := List.length_pos_iff.2 hne
  rw [List.length_drop]
  omega

lemma flatten_batches (n : Nat) (l : List α) : (batches n l).flatten = l := by
  fun_induction batches n l with
  | case1 => rfl
  | case2 l hne ih => rw [List.flatten_cons, ih, List.take_append_drop]

lemma length_of_mem_batches {n : Nat} {l batch : List α} (h : batch ∈ batches n l) :
    batch ≠ [] ∧ batch.length ≤ n + 1 ∧ batch.Sublist l := by
  fun_induction batches n l with
  | case1 => cases h
  | case2 l hne ih =>
    obtain rfl | h := List.mem_cons.1 h
    · exact ⟨by simpa using hne, List.length_take_le _ _, List.take_sublist _ _⟩
    · obtain ⟨hbatch, hlength, hsub⟩ := ih h
      exact ⟨hbatch, hlength, hsub.trans (List.drop_sublist _ _)⟩

end DevGraph.Lib
