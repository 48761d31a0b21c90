/-
  YServerCore.Lib.Monitor — threads around one mutex and one condition variable.

  Every thread is at a stage of its code.  At some stages it holds the mutex, at one it sleeps in
  the wait of the condition variable, and behind a notification (or a spurious wake-up) it is at
  another, where it has to take the mutex again.  `notify_one` wakes one of the threads that sleep,
  and nobody when nobody does.  Nothing here refers to a particular program.

  Main results:
    * `Locked.enter`, `Locked.leave`, `Locked.stay`, `Locked.notify` — whoever is inside holds the
      mutex.
    * `someAwake_of_notify` — behind a `notify_one` somebody is awake.
    * `someAwake_sleep_iff` — behind a thread that goes to sleep somebody else has to be.
-/
import Mathlib.Data.Fintype.Basic
import Mathlib.Logic.Function.Basic

namespace Monitor

/-- The stages that the mutex and the condition variable know of. -/
structure Stages (φ : Type*) where
  inside : φ → Bool
  asleep : φ
  woken : φ
  asleep_outside : inside asleep = false
  woken_outside : inside woken = false
  woken_awake : woken ≠ asleep

variable {τ φ : Type*} [DecidableEq τ] {S : Stages φ} {stage : τ → φ}

/-! ## §1. The mutex. -/

/-- A thread that is inside holds the mutex. -/
def Locked (S : Stages φ) (stage : τ → φ) (lock : Option τ) : Prop :=
  ∀ t, S.inside (stage t) = true → lock = some t

omit [DecidableEq τ] in
/-- Only one thread is inside. -/
theorem Locked.unique {lock : Option τ} (h : Locked S stage lock) {t u : τ}
    (ht : S.inside (stage t) = true) (hu : S.inside (stage u) = true) : t = u :=
  Option.some.inj ((h t ht).symm.trans (h u hu))

/-- Taking the mutex. -/
theorem Locked.enter (h : Locked S stage none) (t : τ) (p : φ) :
    Locked S (Function.update stage t p) (some t) := by
  intro u hu
  by_cases hut : u = t
  · rw [hut]
  · rw [Function.update_of_ne hut] at hu
    exact absurd (h u hu) (by simp)

/-- Giving it back. -/
theorem Locked.leave {lock : Option τ} (h : Locked S stage lock) {t : τ} {p : φ}
    (ht : S.inside (stage t) = true) (hp : S.inside p = false) :
    Locked S (Function.update stage t p) none := by
  intro u hu
  by_cases hut : u = t
  · rw [hut, Function.update_self, hp] at hu
    exact absurd hu (by simp)
  · rw [Function.update_of_ne hut] at hu
    exact absurd (h.unique hu ht) hut

/-- Moving on without it, or with it. -/
theorem Locked.stay {lock : Option τ} (h : Locked S stage lock) {t : τ} {p : φ}
    (hp : S.inside (stage t) = true ∨ S.inside p = false) :
    Locked S (Function.update stage t p) lock := by
  intro u hu
  by_cases hut : u = t
  · subst hut
    rw [Function.update_self] at hu
    rcases hp with hin | hout
    · exact h u hin
    · rw [hout] at hu
      exact absurd hu (by simp)
  · rw [Function.update_of_ne hut] at hu
    exact h u hu

/-! ## §2. The condition variable. -/

/-- `notify_one`: the thread it wakes is one of those that sleep; it wakes nobody when nobody
sleeps. -/
def notify_one [Fintype τ] [DecidableEq φ] (S : Stages φ) (stage : τ → φ) : Option τ → Option (τ → φ)
  | none => if ∀ t, stage t ≠ S.asleep then some stage else none
  | some t => if stage t = S.asleep then some (Function.update stage t S.woken) else none

/-- Somebody is awake. -/
def SomeAwake (S : Stages φ) (stage : τ → φ) : Prop := ∃ t, stage t ≠ S.asleep

/-- A thread that moves to a stage other than the wait is awake. -/
theorem someAwake_update {p : φ} (hp : p ≠ S.asleep) (t : τ) :
    SomeAwake S (Function.update stage t p) := by
  refine ⟨t, ?_⟩
  rw [Function.update_self]
  exact hp

/-- **Behind a thread that goes to sleep somebody is awake exactly when somebody else was.** -/
theorem someAwake_sleep_iff (t : τ) :
    SomeAwake S (Function.update stage t S.asleep) ↔ ∃ u, u ≠ t ∧ stage u ≠ S.asleep := by
  constructor
  · intro h
    obtain ⟨u, hu⟩ := h
    have hut : u ≠ t := by
      intro hut
      rw [hut, Function.update_self] at hu
      exact hu rfl
    rw [Function.update_of_ne hut] at hu
    exact ⟨u, hut, hu⟩
  · intro h
    obtain ⟨u, hut, hu⟩ := h
    refine ⟨u, ?_⟩
    rw [Function.update_of_ne hut]
    exact hu

section notify

variable [Fintype τ] [DecidableEq φ] {woken : Option τ} {stage' : τ → φ}

/-- **What `notify_one` can do**: nothing, when nobody sleeps, or wake a thread that does. -/
theorem notify_cases (h : notify_one S stage woken = some stage') :
    ((∀ t, stage t ≠ S.asleep) ∧ stage' = stage)
      ∨ ∃ t, stage t = S.asleep ∧ stage' = Function.update stage t S.woken := by
  cases woken with
  | none =>
      obtain ⟨hnobody, hsame⟩ := Option.ite_none_right_eq_some.mp h
      exact Or.inl ⟨hnobody, (Option.some.inj hsame).symm⟩
  | some t =>
      obtain ⟨hasleep, hmoved⟩ := Option.ite_none_right_eq_some.mp h
      exact Or.inr ⟨t, hasleep, (Option.some.inj hmoved).symm⟩

/-- **Behind a `notify_one` somebody is awake.** -/
theorem someAwake_of_notify [Nonempty τ] (h : notify_one S stage woken = some stage') :
    SomeAwake S stage' := by
  rcases notify_cases h with ⟨hnobody, rfl⟩ | ⟨t, -, rfl⟩
  · exact ⟨Classical.arbitrary τ, hnobody _⟩
  · exact someAwake_update S.woken_awake t

/-- A thread is where it was, or was woken. -/
theorem stage_of_notify (h : notify_one S stage woken = some stage') (u : τ) :
    stage' u = stage u ∨ (stage u = S.asleep ∧ stage' u = S.woken) := by
  rcases notify_cases h with ⟨-, rfl⟩ | ⟨t, hasleep, rfl⟩
  · exact Or.inl rfl
  · by_cases hut : u = t
    · subst hut
      exact Or.inr ⟨hasleep, Function.update_self _ _ _⟩
    · exact Or.inl (Function.update_of_ne hut _ _)

/-- Who is inside was inside: a notification does not give the mutex to anybody. -/
theorem Locked.notify {lock : Option τ} (hlocked : Locked S stage lock)
    (h : notify_one S stage woken = some stage') : Locked S stage' lock := by
  intro u hu
  rcases stage_of_notify h u with hsame | ⟨-, hwoken⟩
  · exact hlocked u (hsame ▸ hu)
  · rw [hwoken, S.woken_outside] at hu
    exact absurd hu (by simp)

end notify

end Monitor
