/-
  YServerCore.Lib.LineInput — reading a text line by line, with a limit.

  A read takes letters up to and with the first newline, and at most as many as its limit; at the end
  of the input it takes nothing.  So a line longer than the limit comes in several pieces, and the
  last piece may have no newline.
  Nothing here refers to a particular system.

  Main results:
    * `read_append`, `reads_append` — what was read and what is left are the input.
    * `read_eq_whole_iff` — a read gives a short text without newline exactly when this text is all
      that is left.
    * `reads_rest_nil` — as many reads as there are letters take everything.
-/
import Mathlib.Data.List.Basic

namespace LineInput

variable {α : Type*} [DecidableEq α] (newline : α)

/-! ## §1. One read. -/

/-- What a read of at most `n` letters takes, and what it leaves. -/
def read : Nat → List α → List α × List α
  | 0, input => ([], input)
  | _ + 1, [] => ([], [])
  | n + 1, c :: cs => if c = newline then ([c], cs) else (c :: (read n cs).1, (read n cs).2)

@[simp] theorem read_nil (n : Nat) : read newline n [] = ([], []) := by
  cases n <;> rfl

/-- A read that comes to the newline. -/
theorem read_cons_newline (n : Nat) (cs : List α) : read newline (n + 1) (newline :: cs) = ([newline], cs) :=
  if_pos rfl

theorem read_cons_of_ne {c : α} (h : c ≠ newline) (n : Nat) (cs : List α) :
    read newline (n + 1) (c :: cs) = (c :: (read newline n cs).1, (read newline n cs).2) :=
  if_neg h

/-- **What was read and what is left** are the input. -/
theorem read_append (n : Nat) (input : List α) :
    (read newline n input).1 ++ (read newline n input).2 = input := by
  induction n generalizing input with
  | zero => rfl
  | succ n ih =>
      cases input with
      | nil => rfl
      | cons c cs =>
          by_cases hc : c = newline
          · subst hc
            rw [read_cons_newline]
            rfl
          · rw [read_cons_of_ne newline hc, List.cons_append, ih]

theorem length_read_le (n : Nat) (input : List α) : (read newline n input).1.length ≤ n := by
  induction n generalizing input with
  | zero => exact Nat.le_refl _
  | succ n ih =>
      cases input with
      | nil => exact Nat.zero_le _
      | cons c cs =>
          by_cases hc : c = newline
          · subst hc
            rw [read_cons_newline, List.length_singleton]
            omega
          · have hrest := ih cs
            rw [read_cons_of_ne newline hc, List.length_cons]
            omega

/-- A read with room takes something, if there is something. -/
theorem length_rest_lt {n : Nat} (hn : 0 < n) {input : List α} (hinput : input ≠ []) :
    (read newline n input).2.length < input.length := by
  cases n with
  | zero => omega
  | succ n =>
      cases input with
      | nil => exact absurd rfl hinput
      | cons c cs =>
          by_cases hc : c = newline
          · subst hc
            rw [read_cons_newline]
            exact Nat.lt_succ_self _
          · have happend := congrArg List.length (read_append newline n cs)
            rw [List.length_append] at happend
            rw [read_cons_of_ne newline hc, List.length_cons]
            show (read newline n cs).2.length < _
            omega

/-- A read that stops before its limit, and not at a newline, has come to the end. -/
theorem rest_nil_of_short {n : Nat} {input : List α} (hnone : newline ∉ (read newline n input).1)
    (hshort : (read newline n input).1.length < n) : (read newline n input).2 = [] := by
  induction n generalizing input with
  | zero => exact absurd hshort (Nat.not_lt_zero _)
  | succ n ih =>
      cases input with
      | nil => rfl
      | cons c cs =>
          by_cases hc : c = newline
          · subst hc
            rw [read_cons_newline] at hnone
            exact absurd List.mem_cons_self hnone
          · rw [read_cons_of_ne newline hc] at hnone hshort ⊢
            rw [List.length_cons] at hshort
            exact ih (fun hmem => hnone (List.mem_cons_of_mem _ hmem)) (by omega)

/-- A text without newline that fits is read as a whole. -/
theorem read_of_short {n : Nat} {input : List α} (hnone : newline ∉ input)
    (hshort : input.length ≤ n) : read newline n input = (input, []) := by
  induction n generalizing input with
  | zero =>
      have hnil : input = [] := List.eq_nil_of_length_eq_zero (Nat.le_zero.mp hshort)
      rw [hnil]
      rfl
  | succ n ih =>
      cases input with
      | nil => rfl
      | cons c cs =>
          have hc : c ≠ newline := fun heq => hnone (heq ▸ List.mem_cons_self)
          rw [List.length_cons] at hshort
          rw [read_cons_of_ne newline hc,
            ih (fun hmem => hnone (List.mem_cons_of_mem _ hmem)) (by omega)]

/-- **A read gives a short text without newline** exactly when this text is all that is left. -/
theorem read_eq_whole_iff {n : Nat} {text : List α} (hnone : newline ∉ text)
    (hshort : text.length < n) (input : List α) :
    (read newline n input).1 = text ↔ input = text := by
  constructor
  · intro hread
    subst hread
    have hrest := rest_nil_of_short newline hnone hshort
    have happend := read_append newline n input
    rw [hrest, List.append_nil] at happend
    exact happend.symm
  · intro hinput
    rw [hinput, read_of_short newline hnone (by omega)]

/-! ## §2. Reads one after another. -/

/-- What `k` reads take, and what they leave. -/
def reads (n : Nat) : Nat → List α → List (List α) × List α
  | 0, input => ([], input)
  | k + 1, input =>
      let r := read newline n input
      let q := reads n k r.2
      (r.1 :: q.1, q.2)

/-- The first read, and the others behind it. -/
theorem reads_succ (n k : Nat) (input : List α) : reads newline n (k + 1) input
    = ((read newline n input).1 :: (reads newline n k (read newline n input).2).1,
      (reads newline n k (read newline n input).2).2) := rfl

/-- **What all reads took and what is left** are the input. -/
theorem reads_append (n k : Nat) (input : List α) :
    (reads newline n k input).1.flatten ++ (reads newline n k input).2 = input := by
  induction k generalizing input with
  | zero => rfl
  | succ k ih =>
      rw [reads_succ, List.flatten_cons, List.append_assoc, ih]
      exact read_append newline n input

theorem length_reads (n k : Nat) (input : List α) : (reads newline n k input).1.length = k := by
  induction k generalizing input with
  | zero => rfl
  | succ k ih => rw [reads_succ, List.length_cons, ih]

/-- One read more takes from what the others have left. -/
theorem reads_snoc (n k : Nat) (input : List α) : reads newline n (k + 1) input
    = ((reads newline n k input).1 ++ [(read newline n (reads newline n k input).2).1],
      (read newline n (reads newline n k input).2).2) := by
  induction k generalizing input with
  | zero => rfl
  | succ k ih =>
      rw [reads_succ newline n (k + 1), ih, reads_succ newline n k]
      rfl

/-- As many reads as there are letters take everything. -/
theorem reads_rest_nil {n : Nat} (hn : 0 < n) {k : Nat} {input : List α} (hk : input.length ≤ k) :
    (reads newline n k input).2 = [] := by
  induction k generalizing input with
  | zero => exact List.eq_nil_of_length_eq_zero (Nat.le_zero.mp hk)
  | succ k ih =>
      rw [reads_succ]
      apply ih
      by_cases hinput : input = []
      · subst hinput
        rw [read_nil]
        exact Nat.zero_le _
      · have hless := length_rest_lt newline hn hinput
        omega

/-- A long line comes in two pieces, and the last line has no newline. -/
example : reads 0 3 4 [7, 8, 9, 5, 0, 4, 6] = ([[7, 8, 9], [5, 0], [4, 6], []], []) := by decide

end LineInput
