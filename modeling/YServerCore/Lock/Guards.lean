/-
  YServerCore.Lock.Guards — `WriteLockGuard` and `ReadLockGuard` on one `Lock`.

  Both guard classes construct with `TryReadLock` and destruct with `TryReadUnLock`.  A state is
  the lock and the guards that are alive; a step constructs a guard (once the lock operation
  succeeds) or destroys one, in any order.

  Main results:
    * `flag_eq_live` — the word only counts the live guards, of whatever kind and thread.
    * `step_live` — so the machine follows `lifetimes`, where a construction is refused for the
      number of guards alive and for nothing else, and never below 2^16 of them.
    * `guards_exclude_iff` — a live `WriteLockGuard` excludes the other threads' guards exactly in
      the lists whose threads keep out of each other's way by themselves.
-/
import YServerCore.Lock.Threads

namespace YServerCore

open RWLock (Mode Action Holds)

/-! ## §1. The two classes. -/

namespace WriteLockGuard

/-- `WriteLockGuard(Lock& lock)`. -/
def construct (LThreadId : UInt16) (lock : Lock) : Option Lock := lock.TryReadLock LThreadId

/-- `~WriteLockGuard()`. -/
def destruct (lock : Lock) : Lock := lock.TryReadUnLock

end WriteLockGuard

namespace ReadLockGuard

/-- `ReadLockGuard(Lock& lock)`. -/
def construct (LThreadId : UInt16) (lock : Lock) : Option Lock := lock.TryReadLock LThreadId

/-- `~ReadLockGuard()`. -/
def destruct (lock : Lock) : Lock := lock.TryReadUnLock

end ReadLockGuard

/-- The constructor of the guard for a mode. -/
def guardConstruct : Mode → UInt16 → Lock → Option Lock
  | .write => WriteLockGuard.construct
  | .read => ReadLockGuard.construct

/-- The destructor of the guard for a mode. -/
def guardDestruct : Mode → Lock → Lock
  | .write => WriteLockGuard.destruct
  | .read => ReadLockGuard.destruct

/-! ## §2. The machine. -/

/-- A lock and the guards alive on it, each with its thread and kind. -/
structure GuardRun (τ : Type*) where
  lock : Lock := {}
  live : Holds τ := []
  deriving DecidableEq, Repr

namespace GuardRun

variable {τ : Type*} [DecidableEq τ] (LThreadId : τ → UInt16)

/-- One guard constructed or destroyed. -/
def step (s : GuardRun τ) : Action τ → Option (GuardRun τ)
  | .acquire t m => (guardConstruct m (LThreadId t) s.lock).map (fun l => ⟨l, (t, m) :: s.live⟩)
  | .release t m =>
      if (t, m) ∈ s.live then some ⟨guardDestruct m s.lock, s.live.erase (t, m)⟩ else none

/-- A thread is given the lock while this many guards are alive: the upper half of the word, into
which their number carries, is 0 or the thread's own id. -/
def Given (live : Holds τ) (t : τ) : Prop :=
  live.length / 65536 % 65536 = 0 ∨ live.length / 65536 % 65536 = (LThreadId t).toNat

instance (live : Holds τ) (t : τ) : Decidable (Given LThreadId live t) := by
  unfold Given
  infer_instance

/-- The guards alive as objects, without a lock: a guard is destroyed while it is alive. -/
def lifetimes (live : Holds τ) : Action τ → Option (Holds τ)
  | .acquire t m => if Given LThreadId live t then some ((t, m) :: live) else none
  | .release t m => if (t, m) ∈ live then some (live.erase (t, m)) else none

/-- The caller keeps the exclusion by itself: a `WriteLockGuard` is constructed only while no other
thread has a live guard, and a `ReadLockGuard` only while no other thread has a live
`WriteLockGuard`.  A construction that is refused waits, and nothing is asked of it. -/
def KeepsOut (live : Holds τ) : Action τ → Prop
  | .acquire t m => Given LThreadId live t → RWLock.Admits live t m
  | .release _ _ => True

instance (live : Holds τ) : ∀ a : Action τ, Decidable (KeepsOut LThreadId live a)
  | .acquire t m => inferInstanceAs (Decidable (Given LThreadId live t → RWLock.Admits live t m))
  | .release _ _ => inferInstanceAs (Decidable True)

/-! ## §3. What the word knows of the guards. -/

theorem guardConstruct_eq (m : Mode) : guardConstruct m = Lock.TryReadLock := by
  cases m <;> rfl

theorem guardDestruct_eq (m : Mode) : guardDestruct m = Lock.TryReadUnLock := by
  cases m <;> rfl

/-- Whichever branch a read takes, the word goes up by one. -/
theorem flag_of_TryReadLock {l l' : Lock} {t : UInt16} (h : l.TryReadLock t = some l') :
    l'.LockFlag = l.LockFlag + 1 := by
  unfold Lock.TryReadLock at h
  split at h
  next =>
    injection h with h
    rw [← h]
  next =>
    simp only at h
    split at h
    next hexp =>
      injection h with h
      rw [← h]
      show _ = l.LockFlag + 1
      rw [← hexp]
    next => exact absurd h (by simp)

/-- A read is given exactly when the owner half is free or the caller's own. -/
theorem isSome_TryReadLock_iff (l : Lock) (t : UInt16) :
    (l.TryReadLock t).isSome ↔ l.ownerHalf = 0 ∨ l.ownerHalf = t.toNat := by
  rw [← Lock.flag_eq_readers_iff, ← Lock.owner_eq_iff]
  unfold Lock.TryReadLock
  by_cases howner : l.owner = t.toUInt32
  · rw [if_pos howner]
    exact iff_of_true rfl (Or.inr howner)
  · simp only [if_neg howner, or_iff_left howner]
    split
    next hexp => exact iff_of_true rfl hexp
    next hexp => exact iff_of_false Bool.false_ne_true hexp

/-- The word counts the live guards. -/
def Counted (s : GuardRun τ) : Prop := s.lock.LockFlag = UInt32.ofNat s.live.length

omit [DecidableEq τ] in
theorem Counted.ownerHalf {s : GuardRun τ} (h : Counted s) :
    s.lock.ownerHalf = s.live.length / 65536 % 65536 := by
  unfold Lock.ownerHalf
  rw [h, UInt32.toNat_ofNat']
  omega

theorem step_counted {s s' : GuardRun τ} {a : Action τ} (hs : Counted s)
    (hstep : step LThreadId s a = some s') : Counted s' := by
  cases a with
  | acquire t m =>
      simp only [step, guardConstruct_eq, Option.map_eq_some_iff] at hstep
      obtain ⟨l, hop, rfl⟩ := hstep
      show l.LockFlag = UInt32.ofNat (s.live.length + 1)
      rw [flag_of_TryReadLock hop, hs, UInt32.ofNat_add]
      rfl
  | release t m =>
      simp only [step, guardDestruct_eq, Option.ite_none_right_eq_some, Option.some.injEq] at hstep
      obtain ⟨hmem, rfl⟩ := hstep
      show s.lock.LockFlag - 1 = UInt32.ofNat (s.live.erase (t, m)).length
      have hlen : s.live.length = (s.live.erase (t, m)).length + 1 := by
        have := List.length_pos_of_mem hmem
        rw [List.length_erase_of_mem hmem]
        omega
      rw [hs, hlen, UInt32.ofNat_add]
      exact UInt32.add_sub_cancel _ 1

/-- **The word is the number of live guards** (modulo its width), whoever has them. -/
theorem flag_eq_live {as : List (Action τ)} {s : GuardRun τ}
    (hrun : StepMachine.run (step LThreadId) {} as = some s) :
    s.lock.LockFlag = UInt32.ofNat s.live.length :=
  StepMachine.run_invariant (P := Counted) (fun _ _ _ => step_counted LThreadId)
    (show Counted {} from rfl) hrun

/-- **The lock only counts**: a construction is taken or refused for the number of guards alive,
whatever their kinds and threads. -/
theorem step_live {s : GuardRun τ} (hs : Counted s) (a : Action τ) :
    (step LThreadId s a).map live = lifetimes LThreadId s.live a := by
  cases a with
  | acquire t m =>
      simp only [step, guardConstruct_eq, Option.map_map, lifetimes]
      have hgiven : (s.lock.TryReadLock (LThreadId t)).isSome ↔ Given LThreadId s.live t := by
        rw [isSome_TryReadLock_iff, hs.ownerHalf]
        exact Iff.rfl
      by_cases h : Given LThreadId s.live t
      · obtain ⟨l, hl⟩ := Option.isSome_iff_exists.mp (hgiven.mpr h)
        rw [hl, if_pos h]
        rfl
      · have hnone : s.lock.TryReadLock (LThreadId t) = none := by
          rw [← Option.not_isSome_iff_eq_none, hgiven]
          exact h
        rw [hnone, if_neg h]
        rfl
  | release t m =>
      simp only [step, lifetimes]
      split <;> rfl

omit [DecidableEq τ] in
/-- Below 2^16 live guards the upper half is 0. -/
theorem given_of_few {live : Holds τ} (hfew : live.length < 65536) (t : τ) :
    Given LThreadId live t := by
  left
  rw [Nat.div_eq_of_lt hfew]

/-- **No construction is refused**: with fewer than 2^16 guards alive, a guard of either kind is
constructed at once by any thread, whatever guards the other threads have. -/
theorem construct_of_few {as : List (Action τ)} {s : GuardRun τ}
    (hrun : StepMachine.run (step LThreadId) {} as = some s) (hfew : s.live.length < 65536)
    (t : τ) (m : Mode) : ∃ s', step LThreadId s (.acquire t m) = some s' := by
  have hlive := step_live LThreadId (flag_eq_live LThreadId hrun) (.acquire t m)
  rw [lifetimes, if_pos (given_of_few LThreadId hfew t), Option.map_eq_some_iff] at hlive
  obtain ⟨s', hs', -⟩ := hlive
  exact ⟨s', hs'⟩

/-! ## §4. When the guards exclude. -/

/-- One step keeps the exclusion exactly when the caller does. -/
theorem step_exclusive_iff {s : GuardRun τ} (hs : Counted s) (hex : RWLock.Exclusive s.live)
    (a : Action τ) : (∀ s', step LThreadId s a = some s' → RWLock.Exclusive s'.live)
      ↔ KeepsOut LThreadId s.live a := by
  have hlive : (∀ s', step LThreadId s a = some s' → RWLock.Exclusive s'.live)
      ↔ ∀ k, lifetimes LThreadId s.live a = some k → RWLock.Exclusive k := by
    rw [← step_live LThreadId hs a]
    cases step LThreadId s a <;> simp
  rw [hlive]
  cases a with
  | acquire t m =>
      simp only [lifetimes, Option.ite_none_right_eq_some, Option.some.injEq, and_imp,
        forall_apply_eq_imp_iff, RWLock.exclusive_cons_iff hex t m]
      exact Iff.rfl
  | release t m =>
      refine ⟨fun _ => trivial, fun _ k hk => ?_⟩
      simp only [lifetimes, Option.ite_none_right_eq_some, Option.some.injEq] at hk
      obtain ⟨-, rfl⟩ := hk
      exact RWLock.Exclusive.sublist List.erase_sublist hex

/-- **The guards exclude exactly where the threads keep out by themselves.**  For every list of
constructions and destructions: no state that is reached has a live `WriteLockGuard` of one thread
beside a guard of another one, if and only if each `WriteLockGuard` is constructed while no other
thread has a guard, and each `ReadLockGuard` while no other thread has a `WriteLockGuard`.  With
fewer than 2^16 guards alive the lock refuses no construction. -/
theorem guards_exclude_iff (ids : ThreadIds τ) (as : List (Action τ)) :
    ((∀ pre s, pre <+: as → StepMachine.run (step ids.LThreadId) {} pre = some s →
        ∀ t u m, (t, Mode.write) ∈ s.live → (u, m) ∈ s.live → u = t)
      ↔ StepMachine.Along (lifetimes ids.LThreadId) (KeepsOut ids.LThreadId) [] as)
    ∧ ∀ pre s, pre <+: as → StepMachine.run (step ids.LThreadId) {} pre = some s →
        s.live.length < 65536 → ∀ t m, ∃ s', step ids.LThreadId s (.acquire t m) = some s' := by
  refine ⟨?_, fun pre s _ hrun hfew t m => construct_of_few ids.LThreadId hrun hfew t m⟩
  have hinv : ∀ (s : GuardRun τ) (a : Action τ) (s' : GuardRun τ), Counted s →
      step ids.LThreadId s a = some s' → Counted s' :=
    fun _ _ _ => step_counted ids.LThreadId
  -- every state reached is exclusive exactly when every step taken keeps it so
  have hsteps : (∀ pre s, pre <+: as → StepMachine.run (step ids.LThreadId) {} pre = some s →
        RWLock.Exclusive s.live)
      ↔ StepMachine.Along (step ids.LThreadId) (fun s a => KeepsOut ids.LThreadId s.live a) {} as := by
    refine (StepMachine.forall_prefix_iff (P := fun s : GuardRun τ => RWLock.Exclusive s.live)).trans ?_
    rw [and_iff_right RWLock.exclusive_nil]
    refine StepMachine.along_congr (G := fun _ _ => True)
      (I := fun s => Counted s ∧ RWLock.Exclusive s.live) ?_
      (fun s a hI _ => step_exclusive_iff ids.LThreadId hI.1 hI.2 a)
      ⟨rfl, RWLock.exclusive_nil⟩ (StepMachine.along_of_forall (fun _ _ => trivial) _ _)
    intro s a s' hI _ hkeep hstep
    exact ⟨hinv s a s' hI.1 hstep,
      (step_exclusive_iff ids.LThreadId hI.1 hI.2 a).mpr hkeep s' hstep⟩
  exact hsteps.trans (StepMachine.along_follows (f := live) (C := KeepsOut ids.LThreadId)
    (I := Counted) hinv (fun s a hs => step_live ids.LThreadId hs a) (s := {}) rfl)

/-- A writer after a reader that is gone: the threads keep out, so the guards exclude. -/
theorem guards_exclude_in_turn :
    ∃ s : GuardRun Bool,
      StepMachine.run (step ThreadIds.two.LThreadId) {}
          [.acquire false .read, .release false .read, .acquire true .write] = some s
        ∧ s.live = [(true, Mode.write)]
        ∧ ∀ t u m, (t, Mode.write) ∈ s.live → (u, m) ∈ s.live → u = t :=
  ⟨⟨⟨1, 2⟩, [(true, .write)]⟩, by decide, rfl,
    (guards_exclude_iff ThreadIds.two
      [.acquire false .read, .release false .read, .acquire true .write]).1.mpr (by decide)
      _ _ List.prefix_rfl (by decide)⟩

/-- Two threads construct a `WriteLockGuard` each, one after the other, and both are alive. -/
theorem two_write_guards_alive :
    StepMachine.run (step ThreadIds.two.LThreadId) {}
        [.acquire false .write, .acquire true .write]
      = some ⟨⟨2, 2⟩, [(true, .write), (false, .write)]⟩
    ∧ ¬ (∀ t u m, (t, Mode.write) ∈ [(true, Mode.write), (false, .write)] →
        (u, m) ∈ [(true, Mode.write), (false, .write)] → u = t) := by
  refine ⟨by decide, fun h => ?_⟩
  exact absurd (h true false .write (by simp) (by simp)) (by decide)

end GuardRun

end YServerCore
