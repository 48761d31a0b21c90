/-
  YServerCore.Lib.KeyedLog — lists of entries with keys, and what they hold for one key.

  A log is a list of pairs of a key and a value.  `values k log` are the values of one key, in
  order: what one party has sent, is waiting for, or has got.  An entry may be taken out at any
  place; it is the oldest of its key if no entry before it has that key.
  Nothing here refers to a particular system.

  Main results:
    * `Merges.perm` — a log with the same values for every key has the same entries.
    * `values_eraseIdx_ne` — taking an entry out leaves the values of the other keys alone.
    * `oldest_iff_head` — an entry is the oldest of its key exactly when its value is the first.
-/
import Mathlib.Algebra.BigOperators.Group.Finset.Piecewise
import Mathlib.Data.Fintype.BigOperators
import Mathlib.Data.Fintype.Option
import Mathlib.Data.List.Basic
import Mathlib.Data.List.Count
import Mathlib.Data.List.Nodup

namespace KeyedLog

variable {κ β : Type*} [DecidableEq κ]

/-- The values of a key, in order. -/
def values (k : κ) (log : List (κ × β)) : List β := (log.filter (fun r => r.1 = k)).map Prod.snd

@[simp] theorem values_nil (k : κ) : values k ([] : List (κ × β)) = [] := rfl

@[simp] theorem values_append (k : κ) (log log' : List (κ × β)) :
    values k (log ++ log') = values k log ++ values k log' := by
  unfold values
  rw [List.filter_append, List.map_append]

theorem values_cons_self (k : κ) (b : β) (log : List (κ × β)) :
    values k ((k, b) :: log) = b :: values k log := by
  unfold values
  rw [List.filter_cons_of_pos (by simp), List.map_cons]

theorem values_cons_ne {k k' : κ} (h : k' ≠ k) (b : β) (log : List (κ × β)) :
    values k ((k', b) :: log) = values k log := by
  unfold values
  rw [List.filter_cons_of_neg (by simpa using h)]

theorem mem_values {k : κ} {b : β} {log : List (κ × β)} : b ∈ values k log ↔ (k, b) ∈ log := by
  unfold values
  simp

/-- A log whose entries all have one key. -/
theorem values_map_self (k : κ) (bs : List β) : values k (bs.map (fun b => (k, b))) = bs := by
  induction bs with
  | nil => rfl
  | cons b bs ih => rw [List.map_cons, values_cons_self, ih]

theorem values_map_ne {k k' : κ} (h : k' ≠ k) (bs : List β) :
    values k (bs.map (fun b => (k', b))) = [] := by
  induction bs with
  | nil => rfl
  | cons b bs ih => rw [List.map_cons, values_cons_ne h, ih]

/-- How often an entry stands in a log. -/
theorem count_values [DecidableEq β] (k : κ) (b : β) (log : List (κ × β)) :
    (values k log).count b = log.count (k, b) := by
  induction log with
  | nil => rfl
  | cons r log ih =>
      obtain ⟨k', b'⟩ := r
      by_cases hk : k' = k
      · subst hk
        rw [values_cons_self, List.count_cons, List.count_cons, ih]
        simp
      · rw [values_cons_ne hk, List.count_cons, ih]
        simp [hk]

/-- **A merge** of the values of all keys: the log has the same values for every key, in any order
between the keys. -/
def Merges (log log' : List (κ × β)) : Prop := ∀ k, values k log = values k log'

/-- A merge has every entry as often as the log it merges. -/
theorem Merges.perm {log log' : List (κ × β)} (h : Merges log log') : log.Perm log' := by
  classical
  rw [List.perm_iff_count]
  intro r
  obtain ⟨k, b⟩ := r
  rw [← count_values, ← count_values, h k]

omit [DecidableEq κ] in
/-- A log around one of its entries. -/
theorem split_at {log : List (κ × β)} {i : Nat} {r : κ × β} (h : log[i]? = some r) :
    ∃ front back, log = front ++ r :: back ∧ front.length = i
      ∧ log.eraseIdx i = front ++ back := by
  induction log generalizing i with
  | nil => exact absurd h (by simp)
  | cons x log ih =>
      cases i with
      | zero =>
          rw [List.getElem?_cons_zero, Option.some.injEq] at h
          exact ⟨[], log, by rw [h]; rfl, rfl, rfl⟩
      | succ i =>
          rw [List.getElem?_cons_succ] at h
          obtain ⟨front, back, hlog, hlen, herase⟩ := ih h
          refine ⟨x :: front, back, by rw [hlog]; rfl, by rw [List.length_cons, hlen], ?_⟩
          rw [List.eraseIdx_cons_succ, herase]
          rfl

/-- **Taking an entry out** leaves the other keys alone. -/
theorem values_eraseIdx_ne {log : List (κ × β)} {i : Nat} {r : κ × β} {k : κ}
    (h : log[i]? = some r) (hne : r.1 ≠ k) : values k (log.eraseIdx i) = values k log := by
  obtain ⟨front, back, hlog, -, herase⟩ := split_at h
  rw [herase, hlog, values_append, values_append]
  obtain ⟨k', b⟩ := r
  rw [values_cons_ne hne]

/-- **Taking the first of a key out.** -/
theorem values_eraseIdx_head {log : List (κ × β)} {i : Nat} {k : κ} {b : β} {bs : List β}
    (h : log[i]? = some (k, b)) (hnodup : (values k log).Nodup) (hhead : values k log = b :: bs) :
    values k (log.eraseIdx i) = bs := by
  obtain ⟨front, back, hlog, -, herase⟩ := split_at h
  have hsplit : values k log = values k front ++ b :: values k back := by
    rw [hlog, values_append, values_cons_self]
  have hfront : values k front = [] := by
    cases hvalues : values k front with
    | nil => rfl
    | cons c cs =>
        -- the first value would stand in the list twice
        rw [hsplit, hvalues, List.cons_append] at hhead
        have hc : c = b := (List.cons.inj hhead).1
        rw [hsplit, hvalues, hc, List.cons_append, List.nodup_cons] at hnodup
        exact absurd (List.mem_append_right cs List.mem_cons_self) hnodup.1
  rw [hsplit, hfront, List.nil_append] at hhead
  rw [herase, values_append, hfront, List.nil_append]
  exact (List.cons.inj hhead).2

/-- Every entry is a value of one key. -/
theorem length_eq_sum_values [Fintype κ] (log : List (κ × β)) :
    log.length = ∑ k, (values k log).length := by
  induction log with
  | nil => simp
  | cons r log ih =>
      obtain ⟨k, b⟩ := r
      have hone : ∀ j, (values j ((k, b) :: log)).length
          = (values j log).length + if j = k then 1 else 0 := by
        intro j
        by_cases hj : j = k
        · subst hj
          rw [values_cons_self, List.length_cons, if_pos rfl]
        · rw [values_cons_ne fun heq => hj heq.symm, if_neg hj, Nat.add_zero]
      simp only [hone]
      rw [Finset.sum_add_distrib, ← ih, Finset.sum_ite_eq' Finset.univ k, if_pos (Finset.mem_univ k),
        List.length_cons]

/-- **A merge in two parts**, of which the second has one key: its values are those of the key, and the
first has those of all the others. -/
theorem Merges.parts {ι : Type*} [Fintype ι] [DecidableEq ι] {log log' front back : List (Option ι × β)}
    (h : Merges log log') (hlog : log = front ++ back) (hfront : ∀ e ∈ front, e.1 ≠ none)
    (hback : ∀ e ∈ back, e.1 = none) :
    back.map Prod.snd = values none log' ∧ front.length = ∑ n, (values (some n) log').length
      ∧ ∀ b ∈ front.map Prod.snd, ∃ n, b ∈ values (some n) log' := by
  have hno : ∀ n : ι, values (some n) back = [] := by
    intro n
    apply List.eq_nil_iff_forall_not_mem.mpr
    intro b hb
    exact absurd (hback _ (mem_values.mp hb)) (by simp)
  have hno' : values none front = [] := by
    apply List.eq_nil_iff_forall_not_mem.mpr
    intro b hb
    exact hfront _ (mem_values.mp hb) rfl
  have hothers : ∀ n : ι, values (some n) front = values (some n) log' := by
    intro n
    rw [← h, hlog, values_append, hno, List.append_nil]
  refine ⟨?_, ?_, fun b hb => ?_⟩
  · have hall : back.filter (fun r => r.1 = none) = back :=
      List.filter_eq_self.mpr fun e he => by simpa using hback e he
    rw [← h, hlog, values_append, hno', List.nil_append]
    unfold values
    rw [hall]
  · rw [length_eq_sum_values, Fintype.sum_option, hno', List.length_nil, Nat.zero_add]
    exact Finset.sum_congr rfl fun n _ => by rw [hothers]
  · obtain ⟨e, he, rfl⟩ := List.mem_map.mp hb
    obtain ⟨t, b⟩ := e
    cases t with
    | none => exact absurd rfl (hfront _ he)
    | some n =>
        refine ⟨n, ?_⟩
        rw [← hothers]
        exact mem_values.mpr he

/-- The entry is the oldest of its key. -/
def Oldest (log : List (κ × β)) (i : Nat) : Prop :=
  ∀ r ∈ log[i]?, ∀ j < i, ∀ q ∈ log[j]?, q.1 ≠ r.1

instance (log : List (κ × β)) (i : Nat) : Decidable (Oldest log i) :=
  inferInstanceAs (Decidable (∀ r ∈ log[i]?, ∀ j < i, ∀ q ∈ log[j]?, q.1 ≠ r.1))

omit [DecidableEq κ] in
/-- Which entries are the oldest depends on the keys alone. -/
theorem oldest_map {β' : Type*} (f : β → β') (log : List (κ × β)) (i : Nat) :
    Oldest (log.map (fun r => (r.1, f r.2))) i ↔ Oldest log i := by
  unfold Oldest
  simp only [List.getElem?_map, Option.mem_def, Option.map_eq_some_iff, forall_exists_index, and_imp,
    forall_apply_eq_imp_iff₂]

/-- **The oldest is the first**, where no value stands twice. -/
theorem oldest_iff_head {log : List (κ × β)} {i : Nat} {k : κ} {b : β} (h : log[i]? = some (k, b))
    (hnodup : (values k log).Nodup) : Oldest log i ↔ (values k log).head? = some b := by
  obtain ⟨front, back, hlog, hlen, -⟩ := split_at h
  have hsplit : values k log = values k front ++ b :: values k back := by
    rw [hlog, values_append, values_cons_self]
  unfold Oldest
  rw [h]
  constructor
  · intro hold
    have hfront : values k front = [] := by
      apply List.eq_nil_iff_forall_not_mem.mpr
      intro c hc
      obtain ⟨j, hj, hget⟩ := List.getElem_of_mem (mem_values.mp hc)
      have hlogj : log[j]? = some (k, c) := by
        rw [hlog, List.getElem?_append_left hj, List.getElem?_eq_getElem hj, hget]
      exact hold (k, b) rfl j (by omega) (k, c) hlogj rfl
    rw [hsplit, hfront]
    rfl
  · intro hhead r hr j hj q hq hkey
    rw [← Option.some.inj hr] at hkey
    obtain ⟨k', c⟩ := q
    have hk : k' = k := hkey
    subst hk
    -- an entry in front would put another value in front
    have hmem : c ∈ values k' front := by
      rw [hlog, List.getElem?_append_left (by omega)] at hq
      exact mem_values.mpr (List.mem_of_getElem? hq)
    cases hvalues : values k' front with
    | nil =>
        rw [hvalues] at hmem
        exact absurd hmem (by simp)
    | cons d ds =>
        rw [hsplit, hvalues, List.cons_append, List.head?_cons, Option.some.injEq] at hhead
        rw [hsplit, hvalues, hhead, List.cons_append, List.nodup_cons] at hnodup
        exact hnodup.1 (List.mem_append_right ds List.mem_cons_self)

end KeyedLog
