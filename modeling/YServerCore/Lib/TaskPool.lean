/-
  YServerCore.Lib.TaskPool — jobs of several parties that are run in any order.

  A pool hands out jobs: every job is numbered among the jobs of its party when it is dispatched,
  then waits, and is run once, at any later moment and in any order.
  Nothing here refers to a particular system.

  Main results:
    * `Sound.dispatch`, `Sound.run` — every job that was dispatched waits or has been run, once.
    * `Sound.calls_eq_take` — jobs that were run in order are the first ones that were dispatched.
    * `inOrder_run_iff` — running a job keeps its party's order exactly when the job is the oldest
      one of the party that waits.
-/
import YServerCore.Lib.KeyedLog
import Mathlib.Data.List.Range
import Mathlib.Logic.Function.Basic

open KeyedLog (values Oldest)

/-- The jobs dispatched for every party, the ones that wait, and the ones that were run, each with
its number and with what it was run with. -/
structure TaskPool (κ β γ : Type*) where
  dispatched : κ → List β := fun _ => []
  waiting : List (κ × (Nat × β)) := []
  ran : κ → List (Nat × (β × γ)) := fun _ => []

namespace TaskPool

variable {κ β γ : Type*} [DecidableEq κ]

/-- One more job of a party. -/
def dispatch (p : TaskPool κ β γ) (k : κ) (b : β) : TaskPool κ β γ :=
  { p with
    dispatched := Function.update p.dispatched k (p.dispatched k ++ [b])
    waiting := p.waiting ++ [(k, ((p.dispatched k).length, b))] }

/-- The job at a position is run. -/
def run (p : TaskPool κ β γ) (i : Nat) (g : γ) : TaskPool κ β γ :=
  match p.waiting[i]? with
  | none => p
  | some (k, (n, b)) =>
      { p with
        waiting := p.waiting.eraseIdx i
        ran := Function.update p.ran k (p.ran k ++ [(n, (b, g))]) }

/-- The numbers of a party's jobs that were run, in that order. -/
def ranNumbers (p : TaskPool κ β γ) (k : κ) : List Nat := (p.ran k).map Prod.fst

/-- The numbers of a party's jobs that wait. -/
def waitingNumbers (p : TaskPool κ β γ) (k : κ) : List Nat := (values k p.waiting).map Prod.fst

/-- A party's jobs are run in the order they were dispatched. -/
def InOrder (p : TaskPool κ β γ) (k : κ) : Prop :=
  p.ranNumbers k = List.range (p.ran k).length

/-- Every job of a party has been run or waits, once, and stands under its number. -/
structure Sound (p : TaskPool κ β γ) (k : κ) : Prop where
  once : (p.ranNumbers k ++ p.waitingNumbers k).Perm (List.range (p.dispatched k).length)
  ran : ∀ r ∈ p.ran k, (p.dispatched k)[r.1]? = some r.2.1
  waiting : ∀ w ∈ values k p.waiting, (p.dispatched k)[w.1]? = some w.2

theorem sound_empty (k : κ) : Sound ({} : TaskPool κ β γ) k where
  once := List.Perm.nil
  ran := by
    intro r hr
    exact absurd hr (by simp)
  waiting := by
    intro w hw
    exact absurd hw (by simp)

/-! ## §1. Dispatching. -/

section

variable (p : TaskPool κ β γ)

theorem waitingNumbers_dispatch_self (k : κ) (b : β) :
    (p.dispatch k b).waitingNumbers k = p.waitingNumbers k ++ [(p.dispatched k).length] := by
  unfold waitingNumbers dispatch
  rw [KeyedLog.values_append, KeyedLog.values_cons_self, KeyedLog.values_nil, List.map_append]
  rfl

theorem values_dispatch_ne {k k' : κ} (h : k' ≠ k) (b : β) :
    values k (p.dispatch k' b).waiting = values k p.waiting := by
  unfold dispatch
  rw [KeyedLog.values_append, KeyedLog.values_cons_ne h, KeyedLog.values_nil, List.append_nil]

end

theorem Sound.dispatch {p : TaskPool κ β γ} {k : κ} (h : p.Sound k) (k' : κ) (b : β) :
    (p.dispatch k' b).Sound k := by
  by_cases hk : k' = k
  · subst hk
    have hjobs : (p.dispatch k' b).dispatched k' = p.dispatched k' ++ [b] :=
      Function.update_self k' _ _
    constructor
    · rw [waitingNumbers_dispatch_self, hjobs, List.length_append, List.length_singleton,
        List.range_succ, ← List.append_assoc]
      exact h.once.append_right _
    · intro r hr
      have hold := h.ran r hr
      rw [hjobs, List.getElem?_append_left (List.getElem?_eq_some_iff.mp hold).1]
      exact hold
    · intro w hw
      unfold TaskPool.dispatch at hw
      rw [KeyedLog.values_append, KeyedLog.values_cons_self, List.mem_append] at hw
      rw [hjobs]
      rcases hw with hold | hnew
      · have hjob := h.waiting w hold
        rw [List.getElem?_append_left (List.getElem?_eq_some_iff.mp hjob).1]
        exact hjob
      · -- the new job is the one behind all others
        rw [KeyedLog.values_nil, List.mem_singleton] at hnew
        subst hnew
        show (p.dispatched k' ++ [b])[(p.dispatched k').length]? = some b
        rw [List.getElem?_append_right (Nat.le_refl _), Nat.sub_self]
        rfl
  · have hjobs : (p.dispatch k' b).dispatched k = p.dispatched k :=
      Function.update_of_ne (Ne.symm hk) _ _
    have hvalues := values_dispatch_ne p hk b
    constructor
    · show (p.ranNumbers k ++ (values k (p.dispatch k' b).waiting).map Prod.fst).Perm _
      rw [hvalues, hjobs]
      exact h.once
    · rw [hjobs]
      exact h.ran
    · rw [hvalues, hjobs]
      exact h.waiting

/-! ## §2. Running a job. -/

section

variable {p : TaskPool κ β γ} {i : Nat} {k : κ} {n : Nat} {b : β}

theorem run_of_getElem? (h : p.waiting[i]? = some (k, (n, b))) (g : γ) :
    p.run i g = { p with
      waiting := p.waiting.eraseIdx i
      ran := Function.update p.ran k (p.ran k ++ [(n, (b, g))]) } := by
  unfold run
  rw [h]

theorem ran_run_self (h : p.waiting[i]? = some (k, (n, b))) (g : γ) :
    (p.run i g).ran k = p.ran k ++ [(n, (b, g))] := by
  rw [run_of_getElem? h]
  exact Function.update_self k _ _

theorem ranNumbers_run (h : p.waiting[i]? = some (k, (n, b))) (g : γ) :
    (p.run i g).ranNumbers k = p.ranNumbers k ++ [n] := by
  unfold ranNumbers
  rw [ran_run_self h, List.map_append]
  rfl

/-- The numbers that wait are those that waited, and the job's own. -/
theorem waitingNumbers_perm (h : p.waiting[i]? = some (k, (n, b))) (g : γ) :
    (p.waitingNumbers k).Perm (n :: (p.run i g).waitingNumbers k) := by
  obtain ⟨front, back, hlog, -, herase⟩ := KeyedLog.split_at h
  rw [run_of_getElem? h]
  unfold waitingNumbers
  rw [herase, hlog, KeyedLog.values_append, KeyedLog.values_append, KeyedLog.values_cons_self,
    List.map_append, List.map_append, List.map_cons]
  exact List.perm_middle

theorem values_run_ne {k' : κ} (h : p.waiting[i]? = some (k, (n, b))) (hk : k ≠ k') (g : γ) :
    values k' (p.run i g).waiting = values k' p.waiting := by
  rw [run_of_getElem? h]
  exact KeyedLog.values_eraseIdx_ne h hk

theorem ran_run_ne {k' : κ} (h : p.waiting[i]? = some (k, (n, b))) (hk : k ≠ k') (g : γ) :
    (p.run i g).ran k' = p.ran k' := by
  rw [run_of_getElem? h]
  exact Function.update_of_ne (Ne.symm hk) _ _

end

theorem dispatched_run (p : TaskPool κ β γ) (i : Nat) (g : γ) :
    (p.run i g).dispatched = p.dispatched := by
  unfold run
  split <;> rfl

theorem Sound.run {p : TaskPool κ β γ} {k : κ} (h : p.Sound k) (i : Nat) (g : γ) :
    (p.run i g).Sound k := by
  cases hget : p.waiting[i]? with
  | none =>
      unfold TaskPool.run
      rw [hget]
      exact h
  | some w =>
      obtain ⟨k', n, b⟩ := w
      by_cases hk : k' = k
      · subst hk
        constructor
        · rw [ranNumbers_run hget, dispatched_run, List.append_assoc, List.singleton_append]
          exact ((waitingNumbers_perm hget g).symm.append_left _).trans h.once
        · intro r hr
          rw [ran_run_self hget, List.mem_append, List.mem_singleton] at hr
          rw [dispatched_run]
          rcases hr with hold | rfl
          · exact h.ran r hold
          · exact h.waiting (n, b) (KeyedLog.mem_values.mpr (List.mem_of_getElem? hget))
        · intro w hw
          rw [run_of_getElem? hget] at hw ⊢
          apply h.waiting w
          exact KeyedLog.mem_values.mpr (List.mem_of_mem_eraseIdx (KeyedLog.mem_values.mp hw))
      · have hvalues := values_run_ne hget hk g
        have hran := ran_run_ne hget hk g
        constructor
        · unfold ranNumbers waitingNumbers
          rw [hvalues, hran, dispatched_run]
          exact h.once
        · rw [hran, dispatched_run]
          exact h.ran
        · rw [hvalues, dispatched_run]
          exact h.waiting

/-! ## §3. The order of a party's jobs. -/

/-- Jobs that were run in order are the first ones that were dispatched. -/
theorem Sound.calls_eq_take {p : TaskPool κ β γ} {k : κ} (h : p.Sound k) (horder : p.InOrder k) :
    (p.ran k).map (fun r => r.2.1) = (p.dispatched k).take (p.ran k).length := by
  apply List.ext_getElem?
  intro j
  rw [List.getElem?_map, List.getElem?_take]
  by_cases hj : j < (p.ran k).length
  · -- the job run at place `j` has the number `j`
    have hnumber : ((p.ran k).map Prod.fst)[j]? = some j := by
      show (p.ranNumbers k)[j]? = some j
      rw [horder, List.getElem?_range hj]
    rw [if_pos hj, List.getElem?_eq_getElem hj]
    rw [List.getElem?_map, List.getElem?_eq_getElem hj, Option.map_some, Option.some.injEq] at hnumber
    have hjob := h.ran (p.ran k)[j] (List.getElem_mem hj)
    rw [hnumber] at hjob
    rw [hjob]
    rfl
  · rw [if_neg hj, List.getElem?_eq_none (by omega)]
    rfl

/-- The jobs that were run, and behind them the jobs that wait, are all jobs in order. -/
def Queued (p : TaskPool κ β γ) (k : κ) : Prop :=
  p.ranNumbers k ++ p.waitingNumbers k = List.range (p.dispatched k).length

theorem Queued.dispatch {p : TaskPool κ β γ} {k : κ} (h : p.Queued k) (k' : κ) (b : β) :
    (p.dispatch k' b).Queued k := by
  by_cases hk : k' = k
  · subst hk
    have hjobs : (p.dispatch k' b).dispatched k' = p.dispatched k' ++ [b] :=
      Function.update_self k' _ _
    show p.ranNumbers k' ++ _ = _
    rw [waitingNumbers_dispatch_self, hjobs, List.length_append, List.length_singleton,
      List.range_succ, ← List.append_assoc, h]
  · have hjobs : (p.dispatch k' b).dispatched k = p.dispatched k :=
      Function.update_of_ne (Ne.symm hk) _ _
    show p.ranNumbers k ++ (values k (p.dispatch k' b).waiting).map Prod.fst = _
    rw [values_dispatch_ne p hk, hjobs]
    exact h

section

variable {p : TaskPool κ β γ} {i : Nat} {k : κ} {n : Nat} {b : β}

/-- The numbers of a queued party are those from the next one on. -/
theorem Queued.head (h : p.Queued k) (horder : p.InOrder k)
    (hget : p.waiting[i]? = some (k, (n, b))) :
    (p.waitingNumbers k).head? = some (p.ran k).length := by
  have hmem : n ∈ p.waitingNumbers k :=
    List.mem_map.mpr ⟨(n, b), KeyedLog.mem_values.mpr (List.mem_of_getElem? hget), rfl⟩
  unfold Queued at h
  rw [horder] at h
  cases hwait : p.waitingNumbers k with
  | nil =>
      rw [hwait] at hmem
      exact absurd hmem (by simp)
  | cons m ms =>
      -- place `length` of the whole range
      rw [hwait] at h
      have hlen := congrArg List.length h
      rw [List.length_append, List.length_range, List.length_cons, List.length_range] at hlen
      have hplace := congrArg (fun l => l[(p.ran k).length]?) h
      rw [List.getElem?_append_right (by rw [List.length_range]), List.length_range, Nat.sub_self,
        List.getElem?_range (by omega)] at hplace
      exact hplace

/-- The jobs of a queued party have different numbers. -/
theorem Queued.nodup (h : p.Queued k) : (p.waitingNumbers k).Nodup := by
  have hall : (p.ranNumbers k ++ p.waitingNumbers k).Nodup := h ▸ List.nodup_range
  exact (List.nodup_append.mp hall).2.1

/-- The oldest job of a party has the party's first number. -/
theorem oldest_iff (h : p.Queued k) (hget : p.waiting[i]? = some (k, (n, b))) :
    Oldest p.waiting i ↔ (p.waitingNumbers k).head? = some n := by
  rw [KeyedLog.oldest_iff_head hget (List.Nodup.of_map _ h.nodup)]
  unfold waitingNumbers
  rw [List.head?_map]
  constructor
  · intro hhead
    rw [hhead]
    rfl
  · intro hhead
    obtain ⟨w, hw, hwn⟩ := Option.map_eq_some_iff.mp hhead
    -- two jobs with one number are one job
    have hsame : w = (n, b) :=
      List.inj_on_of_nodup_map h.nodup (List.mem_of_mem_head? hw)
        (KeyedLog.mem_values.mpr (List.mem_of_getElem? hget)) hwn
    rw [hw, hsame]

/-- **Running a job** keeps its party's order exactly when it is the party's oldest that waits. -/
theorem inOrder_run_iff (h : p.Queued k) (horder : p.InOrder k)
    (hget : p.waiting[i]? = some (k, (n, b))) (g : γ) :
    (p.run i g).InOrder k ↔ Oldest p.waiting i := by
  have hlen : ((p.run i g).ran k).length = (p.ran k).length + 1 := by
    rw [ran_run_self hget, List.length_append]
    rfl
  rw [oldest_iff h hget, h.head horder hget, Option.some.injEq]
  unfold InOrder at horder ⊢
  rw [ranNumbers_run hget, hlen, List.range_succ, horder, List.append_cancel_left_eq,
    List.singleton_inj]
  exact eq_comm

/-- A party whose oldest job is run stays queued. -/
theorem Queued.run (h : p.Queued k) (hget : p.waiting[i]? = some (k, (n, b)))
    (hold : Oldest p.waiting i) (g : γ) : (p.run i g).Queued k := by
  have hnodup : (values k p.waiting).Nodup := List.Nodup.of_map _ h.nodup
  have hhead : (values k p.waiting).head? = some (n, b) :=
    (KeyedLog.oldest_iff_head hget hnodup).mp hold
  obtain ⟨ws, hws⟩ := List.head?_eq_some_iff.mp hhead
  have hrest : values k (p.run i g).waiting = ws := by
    rw [run_of_getElem? hget]
    exact KeyedLog.values_eraseIdx_head hget hnodup hws
  unfold Queued waitingNumbers at h ⊢
  rw [ranNumbers_run hget, dispatched_run, hrest, ← h, hws, List.append_assoc]
  rfl

end

end TaskPool
