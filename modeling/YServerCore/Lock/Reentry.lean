/-
  YServerCore.Lock.Reentry — acquiring a lock that one holds already.

  Both acquisitions first ask whether the word has the caller's id in its upper half.  A thread
  with a write is the owner and passes that test.  A thread with a read is the owner, or the word
  has no owner; then the compare-and-exchange of `TryReadLock` expects just the word it finds.

  Main results:
    * `exists_TryWriteLock_iff`, `exists_TryReadLock_iff` — when a first try succeeds.
    * `reentry_succeeds` — in every reachable state the holders of a lock can take it again.
-/
import YServerCore.Lock.Threads

namespace YServerCore

open RWLock (Mode Action acquisitions)

/-! ## §1. First tries. -/

namespace Lock

/-- **A first try of `TryWriteLock` succeeds** for the owner, and on an empty word. -/
theorem exists_TryWriteLock_iff (l : Lock) (t : UInt16) :
    (∃ l', l.TryWriteLock t = some l')
      ↔ l.ownerHalf = t.toNat ∨ (l.ownerHalf = 0 ∧ l.readerHalf = 0) := by
  refine ⟨fun h => ?_, fun h => ?_⟩
  · obtain ⟨l', hop⟩ := h
    exact (TryWriteLock_owner hop).2.2.2
  · unfold TryWriteLock
    by_cases howner : l.owner = t.toUInt32
    · rw [if_pos howner]
      exact ⟨_, rfl⟩
    · rw [if_neg howner]
      rw [owner_eq_iff] at howner
      rcases h with hown | hempty
      · exact absurd hown howner
      · rw [if_pos ((flag_eq_empty_iff l).mpr hempty)]
        exact ⟨_, rfl⟩

/-- **A first try of `TryReadLock` succeeds** for the owner, and on a word without owner. -/
theorem exists_TryReadLock_iff (l : Lock) (t : UInt16) :
    (∃ l', l.TryReadLock t = some l') ↔ l.ownerHalf = t.toNat ∨ l.ownerHalf = 0 := by
  unfold TryReadLock
  by_cases howner : l.owner = t.toUInt32
  · rw [if_pos howner]
    rw [owner_eq_iff] at howner
    exact ⟨fun _ => Or.inl howner, fun _ => ⟨_, rfl⟩⟩
  · rw [if_neg howner]
    rw [owner_eq_iff] at howner
    -- the expectation is the word without its upper half
    by_cases hfree : l.LockFlag = l.LockFlag &&& LockFlag.ReadLockCountMask
    · simp only [if_pos hfree]
      exact ⟨fun _ => Or.inr ((flag_eq_readers_iff l).mp hfree), fun _ => ⟨_, rfl⟩⟩
    · simp only [if_neg hfree]
      rw [flag_eq_readers_iff] at hfree
      refine ⟨fun h => absurd h (by simp), fun h => ?_⟩
      rcases h with hown | hzero
      · exact absurd hown howner
      · exact absurd hzero hfree

end Lock

/-! ## §2. Holders. -/

namespace LockRun

variable {τ : Type*} {ids : ThreadIds τ} {n leaks : Nat} {s : LockRun τ}

/-- The holder of a write takes either mode again. -/
theorem Accounts.write_reenters (h : Accounts ids.LThreadId n leaks s) {t : τ}
    (hw : (t, Mode.write) ∈ s.holds) (m : Mode) :
    ∃ l, s.lock.tryLock m (ids.LThreadId t) = some l := by
  have howner := h.owner_of_write hw
  cases m with
  | write => exact (s.lock.exists_TryWriteLock_iff _).mpr (Or.inl howner)
  | read => exact (s.lock.exists_TryReadLock_iff _).mpr (Or.inl howner)

/-- The holder of a read takes it again: under an owner it is the owner itself. -/
theorem Accounts.read_reenters (h : Accounts ids.LThreadId n leaks s) {t : τ}
    (hr : (t, Mode.read) ∈ s.holds) :
    ∃ l, s.lock.TryReadLock (ids.LThreadId t) = some l := by
  apply (s.lock.exists_TryReadLock_iff _).mpr
  by_cases hfree : s.lock.ownerHalf = 0
  · exact Or.inr hfree
  · exact Or.inl (h.owned hfree _ hr).symm

variable [DecidableEq τ]

/-- **Acquiring again never blocks the holder.**  After every run of any threads with fewer than 2^16
acquisitions, whatever other threads did in between: a thread with an unreleased write finds both
modes free to take at its first try, one with an unreleased read finds the read. -/
theorem reentry_succeeds (ids : ThreadIds τ) (as : List (Action τ)) (s : LockRun τ)
    (hrun : StepMachine.run (step ids.LThreadId) {} as = some s)
    (hfew : acquisitions as < 2 ^ 16) (t : τ) :
    ((t, Mode.write) ∈ s.holds →
      (∃ l, s.lock.TryWriteLock (ids.LThreadId t) = some l)
        ∧ ∃ l, s.lock.TryReadLock (ids.LThreadId t) = some l)
      ∧ ((t, Mode.read) ∈ s.holds → ∃ l, s.lock.TryReadLock (ids.LThreadId t) = some l) := by
  obtain ⟨⟨leaks, hacc, -⟩, -⟩ := run_accounts hrun hfew
  refine ⟨fun hw => ⟨?_, ?_⟩, fun hr => hacc.read_reenters hr⟩
  · exact hacc.write_reenters hw .write
  · exact hacc.write_reenters hw .read

/-- Two threads read, and the first one, whose id the word does not have, takes the read again. -/
theorem reentry_succeeds_readers :
    ∃ l, (⟨2, 2⟩ : Lock).TryReadLock (ThreadIds.two.LThreadId false) = some l :=
  (reentry_succeeds ThreadIds.two [.acquire false .read, .acquire true .read]
    ⟨⟨2, 2⟩, [(true, .read), (false, .read)]⟩ (by decide) (by decide) false).2 (by decide)

end LockRun

end YServerCore
