/-
  YServerCore.Lib.SwapRemove — removal from a vector in constant time.

  `swapRemove l i` writes the last element over position `i` and drops the last position.  It
  keeps the elements of `l` but one: the one that stood at `i`, wherever the last one goes.
-/
import Mathlib.Data.List.Perm.Basic

namespace SwapRemove

variable {α : Type*}

/-- The last element is written over position `i`, then the last position is dropped. -/
def swapRemove (l : List α) (i : Nat) : List α :=
  match l.getLast? with
  | none => []
  | some x => (l.set i x).dropLast

theorem swapRemove_append_singleton (l : List α) (x : α) (i : Nat) :
    swapRemove (l ++ [x]) i = ((l ++ [x]).set i x).dropLast := by
  simp [swapRemove]

/-- **The removal drops the element at `i`** and keeps every other one. -/
theorem swapRemove_perm (l : List α) (i : Nat) (h : i < l.length) :
    (l[i] :: swapRemove l i).Perm l := by
  rcases List.eq_nil_or_concat l with rfl | ⟨init, x, rfl⟩
  · simp at h
  · simp only [List.concat_eq_append] at h ⊢
    rw [swapRemove_append_singleton]
    by_cases hi : i < init.length
    · -- the last element moves to position `i`
      rw [List.set_append_left i x hi, List.dropLast_concat, List.getElem_append_left hi]
      have hmoved : (init.set i x).Perm (x :: init.eraseIdx i) :=
        List.set_perm_cons_eraseIdx hi x
      have hback : (init[i] :: init.eraseIdx i).Perm init := List.getElem_cons_eraseIdx_perm hi
      exact (hmoved.cons _).trans ((List.Perm.swap _ _ _).trans ((hback.cons x).trans
        (List.perm_append_singleton x init).symm))
    · -- the removed position is the last one
      have hlast : i = init.length := by
        rw [List.length_append, List.length_singleton] at h
        omega
      subst hlast
      simp [List.perm_append_singleton x init |>.symm]

/-- How often an element occurs after the removal. -/
theorem count_swapRemove [DecidableEq α] (l : List α) (i : Nat) (h : i < l.length) (a : α) :
    l.count a = (swapRemove l i).count a + if l[i] = a then 1 else 0 := by
  rw [← (swapRemove_perm l i h).count_eq a, List.count_cons]
  simp only [beq_iff_eq]

/-- At the last position nothing moves. -/
theorem swapRemove_last {l : List α} {i : Nat} (h : i + 1 = l.length) : swapRemove l i = l.dropLast := by
  rcases List.eq_nil_or_concat l with rfl | ⟨init, x, rfl⟩
  · rfl
  · rw [List.concat_eq_append] at h ⊢
    rw [List.length_append, List.length_singleton] at h
    rw [swapRemove_append_singleton, List.set_append_right _ _ (by omega)]
    have hi : i - init.length = 0 := by omega
    rw [hi, List.set_cons_zero]

/-- In front of it, the last element stands at the freed position. -/
theorem getElem?_swapRemove {l : List α} {i : Nat} (h : i + 1 < l.length) :
    (swapRemove l i)[i]? = l.getLast? := by
  rcases List.eq_nil_or_concat l with rfl | ⟨init, x, rfl⟩
  · rfl
  · rw [List.concat_eq_append] at h ⊢
    rw [List.length_append, List.length_singleton] at h
    have hi : i < init.length := by omega
    rw [swapRemove_append_singleton, List.set_append_left i x hi, List.dropLast_concat,
      List.getElem?_set_self hi, List.getLast?_concat]

end SwapRemove
