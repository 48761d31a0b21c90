/-
  YServerCore.Lock.Misuse — unlocks that the code's own checks call invalid.

  `TryWriteUnLock` looks at the reader half of the word and `TryReadUnLock` at the reader half it
  has just taken one from, and each gives a string literal to `assert` when it finds a misuse.  A
  literal is never null, so the call goes on: the write unlock counts down, and empties the word
  with all of its readers when it was the last; the read unlock of no reader borrows from the
  owner half.

  Calls come in any order here, by any threads, whether they hold anything or not.

  Main results:
    * `TryWriteUnLock_invalid`, `TryReadUnLock_invalid` — what is left of the word.
    * `invalid_unlock_damages` — in no run does an invalid unlock leave the lock as it was.
-/
import YServerCore.Lib.StepMachine
import YServerCore.Lock.Lock

namespace YServerCore

/-! ## §1. Calls in any order. -/

/-- A call of one of the four operations; an acquisition is made by the thread with this id. -/
inductive LockCall where
  | TryWriteLock (LThreadId : UInt16)
  | TryReadLock (LThreadId : UInt16)
  | TryWriteUnLock
  | TryReadUnLock
  deriving DecidableEq, Repr

namespace Lock

/-- The lock after a call; `none` while the call spins. -/
def call (l : Lock) : LockCall → Option Lock
  | .TryWriteLock LThreadId => l.TryWriteLock LThreadId
  | .TryReadLock LThreadId => l.TryReadLock LThreadId
  | .TryWriteUnLock => some l.TryWriteUnLock
  | .TryReadUnLock => some l.TryReadUnLock

/-- The condition under which the call comes to its `assert`. -/
def Invalid (l : Lock) : LockCall → Prop
  | .TryWriteUnLock => l.LockFlag &&& LockFlag.ReadLockCountMask ≠ 0
  | .TryReadUnLock => l.LockFlag &&& LockFlag.ReadLockCountMask = 0
  | _ => False

instance (l : Lock) (c : LockCall) : Decidable (l.Invalid c) := by
  cases c <;> unfold Invalid <;> infer_instance

/-- The reader half, as the checks look at it. -/
theorem and_readMask_eq_zero_iff (l : Lock) :
    l.LockFlag &&& LockFlag.ReadLockCountMask = 0 ↔ l.readerHalf = 0 := by
  rw [← UInt32.toNat_inj, LockFlag.toNat_and_readMask]
  rfl

/-! ## §2. What an invalid call leaves. -/

/-- **A write unlock over readers** counts down, and drops all of the readers when it was the last. -/
theorem TryWriteUnLock_invalid {l : Lock} (h : l.Invalid .TryWriteUnLock) :
    l.TryWriteUnLock.LockCount = l.LockCount - 1 ∧ 0 < l.readerHalf
      ∧ l.TryWriteUnLock.readerHalf = (if l.LockCount = 1 then 0 else l.readerHalf) := by
  have hreaders : l.readerHalf ≠ 0 := fun hzero => h ((and_readMask_eq_zero_iff l).mpr hzero)
  unfold TryWriteUnLock
  simp only [count_pred_eq_zero_iff]
  by_cases hone : l.LockCount = 1
  · rw [if_pos hone, if_pos hone]
    exact ⟨rfl, Nat.pos_of_ne_zero hreaders, rfl⟩
  · rw [if_neg hone, if_neg hone]
    exact ⟨rfl, Nat.pos_of_ne_zero hreaders, rfl⟩

/-- **A read unlock without readers** leaves 65535 of them and takes one from the owner half. -/
theorem TryReadUnLock_invalid {l : Lock} (h : l.Invalid .TryReadUnLock) :
    l.TryReadUnLock.LockCount = l.LockCount ∧ l.TryReadUnLock.readerHalf = 65535
      ∧ (l.TryReadUnLock.ownerHalf + 1) % 65536 = l.ownerHalf := by
  have hreaders : l.readerHalf = 0 := (and_readMask_eq_zero_iff l).mp h
  have hflag := l.toNat_flag
  have ho := l.ownerHalf_lt
  -- the word goes down by one modulo 2^32
  have hword : l.TryReadUnLock.LockFlag.toNat = (4294967296 - 1 + l.LockFlag.toNat) % 4294967296 := by
    show (l.LockFlag - 1).toNat = _
    rw [UInt32.toNat_sub]
    rfl
  refine ⟨rfl, ?_, ?_⟩
  · unfold readerHalf
    omega
  · show (l.TryReadUnLock.LockFlag.toNat / 65536 + 1) % 65536 = _
    omega

/-! ## §3. Whole runs. -/

/-- What the two misuses make of a lock: the write unlock has counted down, and has dropped the readers
if it counted to 0; the read unlock has left 65535 readers and another owner half. -/
def Damaged (l l' : Lock) : LockCall → Prop
  | .TryWriteUnLock => l'.LockCount = l.LockCount - 1 ∧ 0 < l.readerHalf
      ∧ l'.readerHalf = (if l.LockCount = 1 then 0 else l.readerHalf)
  | .TryReadUnLock => l'.LockCount = l.LockCount ∧ l.readerHalf = 0 ∧ l'.readerHalf = 65535
      ∧ (l'.ownerHalf + 1) % 65536 = l.ownerHalf
  | _ => False

/-- **An invalid call** returns, and leaves another lock. -/
theorem call_invalid {l : Lock} {c : LockCall} (h : l.Invalid c) :
    ∃ l', l.call c = some l' ∧ l' ≠ l ∧ l.Damaged l' c := by
  cases c with
  | TryWriteLock LThreadId => exact absurd h id
  | TryReadLock LThreadId => exact absurd h id
  | TryWriteUnLock =>
      have hleft := TryWriteUnLock_invalid h
      refine ⟨l.TryWriteUnLock, rfl, fun hsame => ?_, hleft⟩
      -- the counter has moved
      have hcount := hleft.1
      rw [hsame] at hcount
      have hnat := congrArg UInt16.toNat hcount
      rw [UInt16.toNat_sub] at hnat
      have hlt := l.LockCount.toNat_lt
      have hone : (1 : UInt16).toNat = 1 := rfl
      omega
  | TryReadUnLock =>
      obtain ⟨hcount, hmany, howner⟩ := TryReadUnLock_invalid h
      have hreaders : l.readerHalf = 0 := (and_readMask_eq_zero_iff l).mp h
      refine ⟨l.TryReadUnLock, rfl, fun hsame => ?_, hcount, hreaders, hmany, howner⟩
      -- the readers have come from nowhere
      rw [hsame] at hmany
      omega

/-- **No invalid unlock is harmless**: in every run of calls, by any threads and in any order, every
call that comes to its `assert` returns and leaves the lock damaged. -/
theorem invalid_unlock_damages (calls : List LockCall) :
    StepMachine.Along call
      (fun l c => l.Invalid c → ∃ l', l.call c = some l' ∧ l' ≠ l ∧ l.Damaged l' c) {} calls := by
  apply StepMachine.along_of_forall
  intro l c h
  exact call_invalid h

/-- **Two misuses**: a write unlock while the first thread reads drops its read, and a read unlock of a
free lock underflows the whole word. -/
theorem misuse_changes_lock :
    StepMachine.run call {} [.TryReadLock 1] = some ⟨1, 1⟩
      ∧ (⟨1, 1⟩ : Lock).Invalid .TryWriteUnLock
      ∧ (⟨1, 1⟩ : Lock).call .TryWriteUnLock = some ⟨0, 0⟩
      ∧ ({} : Lock).Invalid .TryReadUnLock
      ∧ ({} : Lock).call .TryReadUnLock = some ⟨0xffffffff, 0⟩ := by
  decide

end Lock

end YServerCore
