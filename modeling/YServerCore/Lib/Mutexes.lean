/-
  YServerCore.Lib.Mutexes — threads at program points, and the shared mutexes they hold there.

  A program point says which mutexes its thread owns there, and which one, if any, the thread is
  waiting for.  The mutexes themselves are a set of holds; a mutex can be taken in shared mode
  while nobody holds it exclusively, and in exclusive mode while nobody holds it at all, the
  taker included: these mutexes are not recursive.  Nothing here refers to a particular program.

  Main results:
    * `Consistent.take`, `Consistent.drop`, `Consistent.stay` — the holds stay what the points own.
    * `noSelfWait_update` — after one thread's move nobody waits for its own mutex exactly when the
      point moved to does not.
    * `deadlocked_or_free` — a thread stands in a deadlock, or its waits lead to a thread that waits
      for nobody.
    * `Deadlocked.frame` — a deadlock outlives whatever the threads outside of it do.
-/
import Mathlib.Data.Finset.Basic
import Mathlib.Data.Set.Basic
import Mathlib.Logic.Function.Basic
import Mathlib.Logic.Relation

namespace Mutexes

variable {τ μ π : Type*}

/-- The mode of a hold. -/
inductive LockMode where
  | shared
  | exclusive
  deriving DecidableEq, Repr

/-- What a thread owns and waits for at its points. -/
structure Points (π μ : Type*) where
  owns : π → Finset (μ × LockMode)
  wants : π → Option (μ × LockMode)

/-- The holds of all threads. -/
abbrev Held (τ μ : Type*) := Finset (τ × μ × LockMode)

/-- The mutex can be taken in the mode. -/
def Available (held : Held τ μ) (m : μ) : LockMode → Prop
  | .shared => ∀ h ∈ held, h.2 ≠ (m, LockMode.exclusive)
  | .exclusive => ∀ h ∈ held, h.2.1 ≠ m

instance [DecidableEq μ] (held : Held τ μ) (m : μ) (mode : LockMode) :
    Decidable (Available held m mode) := by
  cases mode <;> unfold Available <;> infer_instance

/-! ## §1. The holds are what the points own. -/

/-- Every thread holds what its point owns. -/
def Consistent (P : Points π μ) (pc : τ → π) (held : Held τ μ) : Prop :=
  ∀ t h, (t, h) ∈ held ↔ h ∈ P.owns (pc t)

variable [DecidableEq τ] [DecidableEq μ] {P : Points π μ} {pc : τ → π} {held : Held τ μ}

/-- Taking a mutex on the way to a point that owns it too. -/
theorem Consistent.take (hc : Consistent P pc held) {t : τ} {p : π} {h : μ × LockMode}
    (hp : P.owns p = insert h (P.owns (pc t))) :
    Consistent P (Function.update pc t p) (insert (t, h) held) := by
  intro u g
  rw [Finset.mem_insert, Prod.mk.injEq]
  by_cases hut : u = t
  · subst hut
    rw [Function.update_self, hp, Finset.mem_insert, hc u g]
    simp
  · rw [Function.update_of_ne hut, hc u g]
    simp [hut]

/-- Giving a mutex back on the way to a point that does not own it. -/
theorem Consistent.drop (hc : Consistent P pc held) {t : τ} {p : π} {h : μ × LockMode}
    (hp : P.owns p = (P.owns (pc t)).erase h) :
    Consistent P (Function.update pc t p) (held.erase (t, h)) := by
  intro u g
  rw [Finset.mem_erase, ne_eq, Prod.mk.injEq]
  by_cases hut : u = t
  · subst hut
    rw [Function.update_self, hp, Finset.mem_erase, hc u g]
    simp
  · rw [Function.update_of_ne hut, hc u g]
    simp [hut]

omit [DecidableEq μ] in
/-- Moving to a point that owns the same mutexes. -/
theorem Consistent.stay (hc : Consistent P pc held) {t : τ} {p : π}
    (hp : P.owns p = P.owns (pc t)) : Consistent P (Function.update pc t p) held := by
  intro u g
  by_cases hut : u = t
  · subst hut
    rw [Function.update_self, hp, hc u g]
  · rw [Function.update_of_ne hut, hc u g]

/-! ## §2. Waiting for one's own mutex. -/

/-- A thread at the point waits for a mutex it owns there, in whatever mode. -/
def SelfWait (P : Points π μ) (p : π) : Prop :=
  ∃ m mode mode', P.wants p = some (m, mode) ∧ (m, mode') ∈ P.owns p

/-- No thread waits for a mutex it holds. -/
def NoSelfWait (P : Points π μ) (pc : τ → π) (held : Held τ μ) : Prop :=
  ∀ t m mode, P.wants (pc t) = some (m, mode) → ∀ mode', (t, m, mode') ∉ held

omit [DecidableEq τ] [DecidableEq μ] in
theorem noSelfWait_iff (hc : Consistent P pc held) :
    NoSelfWait P pc held ↔ ∀ t, ¬ SelfWait P (pc t) := by
  refine ⟨fun h t hself => ?_, fun h t m mode hwant mode' hmem => ?_⟩
  · obtain ⟨m, mode, mode', hwant, howns⟩ := hself
    exact h t m mode hwant mode' ((hc t (m, mode')).mpr howns)
  · exact h t ⟨m, mode, mode', hwant, (hc t (m, mode')).mp hmem⟩

omit [DecidableEq μ] in
/-- **One thread's move**: whether somebody waits for its own mutex afterwards is a matter of the point
moved to. -/
theorem noSelfWait_update (hc : Consistent P pc held) (hold : NoSelfWait P pc held) {t : τ} {p : π}
    {held' : Held τ μ} (hc' : Consistent P (Function.update pc t p) held') :
    NoSelfWait P (Function.update pc t p) held' ↔ ¬ SelfWait P p := by
  rw [noSelfWait_iff hc']
  rw [noSelfWait_iff hc] at hold
  refine ⟨fun h => ?_, fun h u => ?_⟩
  · have := h t
    rwa [Function.update_self] at this
  · by_cases hut : u = t
    · rw [hut, Function.update_self]
      exact h
    · rw [Function.update_of_ne hut]
      exact hold u

/-! ## §3. Who waits for whom. -/

/-- The first thread waits for a mutex the second one holds, one of the two exclusively. -/
def WaitsFor (P : Points π μ) (pc : τ → π) (held : Held τ μ) (t u : τ) : Prop :=
  ∃ m mode mode', P.wants (pc t) = some (m, mode) ∧ (u, m, mode') ∈ held
    ∧ (mode = .exclusive ∨ mode' = .exclusive)

omit [DecidableEq τ] [DecidableEq μ] in
/-- A mutex is not to be had exactly when its taker waits for somebody. -/
theorem not_available_iff {t : τ} {m : μ} {mode : LockMode} (hwant : P.wants (pc t) = some (m, mode)) :
    ¬ Available held m mode ↔ ∃ u, WaitsFor P pc held t u := by
  refine ⟨fun h => ?_, fun ⟨u, m', k, k', hwant', hmem, hmode⟩ havail => ?_⟩
  · cases mode with
    | shared =>
        simp only [Available, not_forall, not_not] at h
        obtain ⟨⟨u, h⟩, hmem, hmode⟩ := h
        change h = (m, .exclusive) at hmode
        subst hmode
        exact ⟨u, m, .shared, .exclusive, hwant, hmem, Or.inr rfl⟩
    | exclusive =>
        simp only [Available, not_forall, not_not] at h
        obtain ⟨⟨u, m', mode'⟩, hmem, hm⟩ := h
        change m' = m at hm
        subst hm
        exact ⟨u, m', .exclusive, mode', hwant, hmem, Or.inl rfl⟩
  · rw [hwant, Option.some.injEq, Prod.mk.injEq] at hwant'
    obtain ⟨rfl, rfl⟩ := hwant'
    cases mode with
    | shared => exact havail _ hmem (by rw [hmode.resolve_left (by simp)])
    | exclusive => exact havail _ hmem rfl

/-- Everybody in the set waits for somebody in the set. -/
def Deadlocked (P : Points π μ) (pc : τ → π) (held : Held τ μ) (T : Set τ) : Prop :=
  ∀ t ∈ T, ∃ u ∈ T, WaitsFor P pc held t u

omit [DecidableEq τ] [DecidableEq μ] in
/-- **A thread stands in a deadlock, or its waits lead to a thread that waits for nobody.** -/
theorem deadlocked_or_free (P : Points π μ) (pc : τ → π) (held : Held τ μ) (t : τ) :
    (∃ T, t ∈ T ∧ Deadlocked P pc held T)
      ∨ ∃ u, Relation.ReflTransGen (WaitsFor P pc held) t u ∧ ∀ v, ¬ WaitsFor P pc held u v := by
  by_cases hfree : ∃ u, Relation.ReflTransGen (WaitsFor P pc held) t u
      ∧ ∀ v, ¬ WaitsFor P pc held u v
  · exact Or.inr hfree
  · -- the threads its waits lead to are the deadlock
    refine Or.inl ⟨{u | Relation.ReflTransGen (WaitsFor P pc held) t u}, .refl, fun u hu => ?_⟩
    simp only [not_exists, not_and, not_forall, not_not] at hfree
    obtain ⟨v, hv⟩ := hfree u hu
    exact ⟨v, hu.tail hv, hv⟩

omit [DecidableEq τ] [DecidableEq μ] in
/-- **A deadlock outlives what the others do**: it needs only the points and the holds of its threads. -/
theorem Deadlocked.frame {T : Set τ} (hT : Deadlocked P pc held T) {pc' : τ → π} {held' : Held τ μ}
    (hpc : ∀ t ∈ T, pc' t = pc t) (hheld : ∀ t ∈ T, ∀ h, (t, h) ∈ held → (t, h) ∈ held') :
    Deadlocked P pc' held' T := by
  intro t ht
  obtain ⟨u, hu, m, mode, mode', hwant, hmem, hmode⟩ := hT t ht
  refine ⟨u, hu, m, mode, mode', ?_, hheld u hu _ hmem, hmode⟩
  rw [hpc t ht]
  exact hwant

/-! ## §4. Mutual exclusion. -/

/-- Who holds a mutex exclusively is the only one who holds it. -/
def Excluding (held : Held τ μ) : Prop :=
  ∀ t u m mode, (t, m, .exclusive) ∈ held → (u, m, mode) ∈ held → u = t ∧ mode = .exclusive

omit [DecidableEq τ] [DecidableEq μ] in
theorem Excluding.mono (h : Excluding held) {held' : Held τ μ} (hsub : held' ⊆ held) :
    Excluding held' :=
  fun t u m mode ht hu => h t u m mode (hsub ht) (hsub hu)

/-- Only an available mutex is taken. -/
theorem Excluding.take (h : Excluding held) {t : τ} {m : μ} {mode : LockMode}
    (havail : Available held m mode) : Excluding (insert (t, m, mode) held) := by
  intro u v m' mode' hu hv
  rw [Finset.mem_insert, Prod.mk.injEq, Prod.mk.injEq] at hu hv
  rcases hu with ⟨rfl, rfl, hmode⟩ | hu
  · -- the exclusive holder is the new one
    subst hmode
    rcases hv with ⟨rfl, -, rfl⟩ | hv
    · exact ⟨rfl, rfl⟩
    · exact absurd rfl (havail _ hv)
  · rcases hv with ⟨rfl, rfl, rfl⟩ | hv
    · cases mode' with
      | shared => exact absurd rfl (havail _ hu)
      | exclusive => exact absurd rfl (havail _ hu)
    · exact h u v m' mode' hu hv

end Mutexes
