import Mathlib.Data.List.Perm.Basic

/-!
# Removal by the last element

An array without order gives up an element by moving its last one into the free place. As a
collection it loses that element only; of the positions, the one that is freed names another
element and the last one names none.
-/

namespace Libusby.Foundations

universe u

variable {α : Type u} {xs ys : List α} {x last : α} {i j : Nat}

def swapRemove (xs : List α) (i : Nat) : List α := (xs.getLast?.elim xs (xs.set i ·)).dropLast

theorem swapRemove_concat (h : i ≤ ys.length) : swapRemove (ys ++ [last]) i = ys.set i last := by
  rw [swapRemove, List.getLast?_concat, Option.elim_some]
  rcases Nat.lt_or_eq_of_le h with inside | rfl
  · rw [List.set_append_left _ _ inside, List.dropLast_concat]
  · rw [List.set_append_right _ _ (Nat.le_refl _), Nat.sub_self, List.set_cons_zero,
      List.dropLast_concat, List.set_eq_of_length_le (Nat.le_refl _)]

theorem length_swapRemove (xs : List α) (i : Nat) : (swapRemove xs i).length = xs.length - 1 := by
  unfold swapRemove
  cases xs.getLast? <;> simp

theorem exists_concat_of_getElem? (h : xs[i]? = some x) :
    ∃ ys last, xs = ys ++ [last] ∧ i ≤ ys.length := by
  obtain ⟨lt, -⟩ := List.getElem?_eq_some_iff.1 h
  rcases List.eq_nil_or_concat xs with rfl | ⟨ys, last, rfl⟩
  · cases lt
  · refine ⟨ys, last, List.concat_eq_append, ?_⟩
    rw [List.length_concat] at lt
    omega

/-- The element at the position is the only one that is lost. -/
theorem swapRemove_perm (h : xs[i]? = some x) : xs.Perm (x :: swapRemove xs i) := by
  obtain ⟨ys, last, rfl, le⟩ := exists_concat_of_getElem? h
  rw [swapRemove_concat le]
  rcases Nat.lt_or_eq_of_le le with inside | rfl
  · have moved := List.set_perm_cons_eraseIdx inside last
    rw [List.getElem?_append_left inside] at h
    obtain ⟨-, rfl⟩ := List.getElem?_eq_some_iff.1 h
    have whole := (List.getElem_cons_eraseIdx_perm inside).symm
    have front : (ys ++ [last]).Perm (last :: ys[i] :: ys.eraseIdx i) :=
      List.perm_append_comm.trans (whole.cons last)
    exact front.trans ((List.Perm.swap ..).trans (moved.symm.cons _))
  · rw [List.getElem?_concat_length] at h
    cases h
    rw [List.set_eq_of_length_le (Nat.le_refl _)]
    exact List.perm_append_comm

/-- The other positions that are left name the same elements. -/
theorem getElem?_swapRemove_of_ne (h : xs[i]? = some x) (hj : j + 1 < xs.length) (ne : j ≠ i) :
    (swapRemove xs i)[j]? = xs[j]? := by
  obtain ⟨ys, last, rfl, le⟩ := exists_concat_of_getElem? h
  rw [List.length_append, List.length_singleton] at hj
  have inside : j < ys.length := by omega
  rw [swapRemove_concat le, List.getElem?_set_ne ne.symm, List.getElem?_append_left inside]

/-- The position that was freed names the element that was the last. -/
theorem getElem?_swapRemove_self (h : xs[i]? = some x) (hi : i + 1 < xs.length) :
    (swapRemove xs i)[i]? = xs[xs.length - 1]? := by
  obtain ⟨ys, last, rfl, le⟩ := exists_concat_of_getElem? h
  rw [List.length_append, List.length_singleton] at hi ⊢
  have inside : i < ys.length := by omega
  rw [swapRemove_concat le, List.getElem?_set_self inside, Nat.add_sub_cancel,
    List.getElem?_concat_length]

end Libusby.Foundations
