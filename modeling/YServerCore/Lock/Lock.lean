/-
  YServerCore.Lock.Lock — the `Lock` class: one packed word and one counter.

  `LockFlag` keeps the owner's thread id in its upper 16 bits and the number of readers in its
  lower 16 bits; `LockCount` is a separate 16-bit counter.  The two are shared between the write
  path and the read path, and nothing but the four operations below changes them.

  Each operation is the atomic step it makes once it succeeds: `none` is an attempt that spins.
  The tick counting and the log line of the spin loop change no state, and every `assert` of the
  class is given a string literal, which is never null, so none of them does anything.

  Main results: one specification lemma per operation, in terms of the two halves of the word
  as natural numbers (`TryWriteLock_spec`, `TryReadLock_spec`, `TryWriteUnLock_spec`,
  `TryReadUnLock_spec`).
-/
import Mathlib.Data.Nat.Bitwise

namespace YServerCore

/-! ## §1. The word's masks. -/

namespace LockFlag

def WriteLockThreadMask : UInt32 := 0xffff0000
def ReadLockCountMask : UInt32 := 0x0000ffff
def Empty : UInt32 := 0

theorem toNat_and_readMask (w : UInt32) :
    (w &&& ReadLockCountMask).toNat = w.toNat % 65536 := by
  rw [UInt32.toNat_and]
  exact Nat.and_two_pow_sub_one_eq_mod w.toNat 16

theorem toNat_and_writeMask_shift (w : UInt32) :
    ((w &&& WriteLockThreadMask) >>> 16).toNat = w.toNat / 65536 := by
  have hw := w.toNat_lt
  rw [UInt32.toNat_shiftRight, UInt32.toNat_and]
  show (w.toNat &&& 0xffff0000) >>> 16 = _
  rw [Nat.shiftRight_and_distrib, Nat.shiftRight_eq_div_pow]
  show w.toNat / 65536 &&& (2 ^ 16 - 1) = _
  rw [Nat.and_two_pow_sub_one_eq_mod]
  omega

/-- A thread id moved to the upper half: the word of a fresh owner. -/
theorem toNat_shift_writeMask (t : UInt16) :
    ((t.toUInt32 <<< 16) &&& WriteLockThreadMask).toNat = 65536 * t.toNat := by
  have ht := t.toNat_lt
  have hshift : (t.toUInt32 <<< 16).toNat = t.toNat <<< 16 := by
    rw [UInt32.toNat_shiftLeft, UInt16.toNat_toUInt32]
    show t.toNat <<< 16 % 4294967296 = _
    rw [Nat.shiftLeft_eq, Nat.mod_eq_of_lt (by omega)]
  rw [UInt32.toNat_and, hshift, show WriteLockThreadMask.toNat = (2 ^ 16 - 1) <<< 16 from rfl,
      ← Nat.shiftLeft_and_distrib, Nat.and_two_pow_sub_one_eq_mod, Nat.shiftLeft_eq,
      Nat.mod_eq_of_lt (by omega), Nat.mul_comm]

end LockFlag

/-! ## §2. The class. -/

/-- The two members the operations read and write. -/
structure Lock where
  LockFlag : UInt32 := LockFlag.Empty
  LockCount : UInt16 := 0
  deriving DecidableEq, Repr

namespace Lock

/-- The left side of the owner test at the head of both acquisitions. -/
def owner (l : Lock) : UInt32 := (l.LockFlag &&& LockFlag.WriteLockThreadMask) >>> 16

/-- `Lock::TryWriteLock` by the thread with this `LThreadId`. -/
def TryWriteLock (LThreadId : UInt16) (l : Lock) : Option Lock :=
  if l.owner = LThreadId.toUInt32 then
    some { l with LockCount := l.LockCount + 1 }
  else if l.LockFlag = LockFlag.Empty then
    -- the compare-and-exchange against `Empty` succeeds
    some { LockFlag := (LThreadId.toUInt32 <<< 16) &&& LockFlag.WriteLockThreadMask,
           LockCount := l.LockCount + 1 }
  else none

/-- `Lock::TryReadLock` by the thread with this `LThreadId`. -/
def TryReadLock (LThreadId : UInt16) (l : Lock) : Option Lock :=
  if l.owner = LThreadId.toUInt32 then
    some { l with LockFlag := l.LockFlag + 1 }
  else
    let Expected := l.LockFlag &&& LockFlag.ReadLockCountMask
    if l.LockFlag = Expected then
      some { LockFlag := Expected + 1, LockCount := l.LockCount + 1 }
    else none

/-- `Lock::TryWriteUnLock`. -/
def TryWriteUnLock (l : Lock) : Lock :=
  let LastLockCount := l.LockCount - 1
  if LastLockCount = 0 then { LockFlag := LockFlag.Empty, LockCount := LastLockCount }
  else { l with LockCount := LastLockCount }

/-- `Lock::TryReadUnLock`: the word goes down by one, `LockCount` stays. -/
def TryReadUnLock (l : Lock) : Lock := { l with LockFlag := l.LockFlag - 1 }

/-! ## §3. The operations on the halves of the word. -/

/-- The owner half as a number. -/
def ownerHalf (l : Lock) : Nat := l.LockFlag.toNat / 65536

/-- The reader half as a number. -/
def readerHalf (l : Lock) : Nat := l.LockFlag.toNat % 65536

theorem owner_eq_iff (l : Lock) (t : UInt16) :
    l.owner = t.toUInt32 ↔ l.ownerHalf = t.toNat := by
  rw [← UInt32.toNat_inj, UInt16.toNat_toUInt32]
  unfold owner
  rw [LockFlag.toNat_and_writeMask_shift]
  rfl

theorem flag_eq_empty_iff (l : Lock) :
    l.LockFlag = LockFlag.Empty ↔ l.ownerHalf = 0 ∧ l.readerHalf = 0 := by
  rw [← UInt32.toNat_inj]
  show l.LockFlag.toNat = 0 ↔ _
  unfold ownerHalf readerHalf
  omega

/-- The reader's compare-and-exchange succeeds exactly on a word without owner. -/
theorem flag_eq_readers_iff (l : Lock) :
    l.LockFlag = l.LockFlag &&& LockFlag.ReadLockCountMask ↔ l.ownerHalf = 0 := by
  rw [← UInt32.toNat_inj, LockFlag.toNat_and_readMask]
  unfold ownerHalf
  omega

theorem halves_of_toNat {l : Lock} {o r : Nat} (h : l.LockFlag.toNat = 65536 * o + r)
    (hr : r < 65536) : l.ownerHalf = o ∧ l.readerHalf = r := by
  unfold ownerHalf readerHalf
  omega

/-- The word put together from its halves. -/
theorem toNat_flag (l : Lock) : l.LockFlag.toNat = 65536 * l.ownerHalf + l.readerHalf := by
  unfold ownerHalf readerHalf
  omega

theorem ownerHalf_lt (l : Lock) : l.ownerHalf < 65536 := by
  have := l.LockFlag.toNat_lt
  unfold ownerHalf
  omega

theorem toNat_count_succ {c : UInt16} (hc : c.toNat + 1 < 65536) :
    (c + 1).toNat = c.toNat + 1 := by
  rw [UInt16.toNat_add]
  show (c.toNat + 1) % 65536 = _
  exact Nat.mod_eq_of_lt hc

theorem toNat_count_pred {c : UInt16} (hc : 0 < c.toNat) : (c - 1).toNat = c.toNat - 1 := by
  refine UInt16.toNat_sub_of_le c 1 ?_
  rw [UInt16.le_iff_toNat_le]
  exact hc

/-- **`TryWriteLock` on the word**: a re-entry by the owner, or a first entry into an empty word. -/
theorem TryWriteLock_owner {l l' : Lock} {t : UInt16} (h : l.TryWriteLock t = some l') :
    l'.ownerHalf = t.toNat ∧ l'.readerHalf = l.readerHalf ∧ l'.LockCount = l.LockCount + 1
      ∧ (l.ownerHalf = t.toNat ∨ (l.ownerHalf = 0 ∧ l.readerHalf = 0)) := by
  unfold TryWriteLock at h
  split at h
  next howner =>
    -- a re-entry: only the counter moves
    rw [owner_eq_iff] at howner
    injection h with h
    subst h
    exact ⟨howner, rfl, rfl, Or.inl howner⟩
  next =>
    split at h
    next hempty =>
      -- a first entry: the word becomes the caller's id in the upper half
      rw [flag_eq_empty_iff] at hempty
      injection h with h
      subst h
      have hhalves : ∀ c, (Lock.mk ((t.toUInt32 <<< 16) &&& LockFlag.WriteLockThreadMask) c).ownerHalf
          = t.toNat ∧ (Lock.mk ((t.toUInt32 <<< 16) &&& LockFlag.WriteLockThreadMask) c).readerHalf
          = 0 := fun c =>
        halves_of_toNat (by rw [LockFlag.toNat_shift_writeMask, Nat.add_zero]) (by omega)
      refine ⟨(hhalves _).1, ?_, rfl, Or.inr hempty⟩
      rw [(hhalves _).2, hempty.2]
    next => exact absurd h (by simp)

/-- **`TryWriteLock`**, while the counter does not wrap. -/
theorem TryWriteLock_spec {l l' : Lock} {t : UInt16} (h : l.TryWriteLock t = some l')
    (hc : l.LockCount.toNat + 1 < 65536) :
    l'.LockCount.toNat = l.LockCount.toNat + 1
      ∧ l'.ownerHalf = t.toNat ∧ l'.readerHalf = l.readerHalf
      ∧ (l.ownerHalf = t.toNat ∨ (l.ownerHalf = 0 ∧ l.readerHalf = 0)) := by
  obtain ⟨howner, hreaders, hcount, hcase⟩ := TryWriteLock_owner h
  refine ⟨?_, howner, hreaders, hcase⟩
  rw [hcount]
  exact toNat_count_succ hc

/-- **`TryReadLock` on the word**: nested in the caller's own write (the counter stays), or into a
word without owner (the counter goes up). -/
theorem TryReadLock_owner {l l' : Lock} {t : UInt16} (h : l.TryReadLock t = some l')
    (hr : l.readerHalf + 1 < 65536) :
    l'.readerHalf = l.readerHalf + 1 ∧ l'.ownerHalf = l.ownerHalf
      ∧ ((l.ownerHalf = t.toNat ∧ l'.LockCount = l.LockCount)
        ∨ (l.ownerHalf ≠ t.toNat ∧ l.ownerHalf = 0 ∧ l'.LockCount = l.LockCount + 1)) := by
  have hflag := l.toNat_flag
  have ho := l.ownerHalf_lt
  unfold TryReadLock at h
  split at h
  next howner =>
    rw [owner_eq_iff] at howner
    injection h with h
    subst h
    -- below 2^16 readers nothing is carried into the owner half
    have hword : (l.LockFlag + 1).toNat = 65536 * l.ownerHalf + (l.readerHalf + 1) := by
      rw [UInt32.toNat_add]
      show (l.LockFlag.toNat + 1) % 4294967296 = _
      omega
    obtain ⟨h₁, h₂⟩ := halves_of_toNat (l := { l with LockFlag := l.LockFlag + 1 }) hword hr
    exact ⟨h₂, h₁, Or.inl ⟨howner, rfl⟩⟩
  next howner =>
    rw [owner_eq_iff] at howner
    simp only at h
    split at h
    next hreaders =>
      rw [flag_eq_readers_iff] at hreaders
      injection h with h
      subst h
      have hword : ((l.LockFlag &&& LockFlag.ReadLockCountMask) + 1).toNat
          = 65536 * l.ownerHalf + (l.readerHalf + 1) := by
        rw [UInt32.toNat_add, LockFlag.toNat_and_readMask]
        show (l.LockFlag.toNat % 65536 + 1) % 4294967296 = _
        omega
      obtain ⟨h₁, h₂⟩ := halves_of_toNat
        (l := ⟨(l.LockFlag &&& LockFlag.ReadLockCountMask) + 1, l.LockCount + 1⟩) hword hr
      exact ⟨h₂, h₁, Or.inr ⟨howner, hreaders, rfl⟩⟩
    next => exact absurd h (by simp)

/-- **`TryReadLock`**, while neither counter wraps. -/
theorem TryReadLock_spec {l l' : Lock} {t : UInt16} (h : l.TryReadLock t = some l')
    (hc : l.LockCount.toNat + 1 < 65536) (hr : l.readerHalf + 1 < 65536) :
    l'.readerHalf = l.readerHalf + 1 ∧ l'.ownerHalf = l.ownerHalf
      ∧ ((l.ownerHalf = t.toNat ∧ l'.LockCount.toNat = l.LockCount.toNat)
        ∨ (l.ownerHalf ≠ t.toNat ∧ l.ownerHalf = 0
            ∧ l'.LockCount.toNat = l.LockCount.toNat + 1)) := by
  obtain ⟨hreaders, howner, hcase⟩ := TryReadLock_owner h hr
  refine ⟨hreaders, howner, ?_⟩
  rcases hcase with ⟨hown, hcount⟩ | ⟨hother, hfree, hcount⟩
  · exact Or.inl ⟨hown, by rw [hcount]⟩
  · refine Or.inr ⟨hother, hfree, ?_⟩
    rw [hcount]
    exact toNat_count_succ hc

/-- The counter reaches 0 from 1 alone. -/
theorem count_pred_eq_zero_iff (l : Lock) : l.LockCount - 1 = 0 ↔ l.LockCount = 1 := by
  rw [UInt16.sub_eq_iff_eq_add]
  rfl

/-- **`TryWriteUnLock` on the word**: it is emptied when the counter reaches 0, and stays otherwise. -/
theorem TryWriteUnLock_owner (l : Lock) :
    l.TryWriteUnLock.ownerHalf = if l.LockCount = 1 then 0 else l.ownerHalf := by
  unfold TryWriteUnLock
  simp only [count_pred_eq_zero_iff]
  by_cases hone : l.LockCount = 1
  · rw [if_pos hone, if_pos hone]
    exact (halves_of_toNat (l := ⟨LockFlag.Empty, l.LockCount - 1⟩) (o := 0) (r := 0) rfl
      (by omega)).1
  · rw [if_neg hone, if_neg hone]
    rfl

/-- **`TryWriteUnLock`**: the counter goes down, and the word is emptied when it reaches 0. -/
theorem TryWriteUnLock_spec {l : Lock} (hc : 0 < l.LockCount.toNat) :
    l.TryWriteUnLock.LockCount.toNat = l.LockCount.toNat - 1
      ∧ ((l.LockCount.toNat = 1 ∧ l.TryWriteUnLock.ownerHalf = 0
            ∧ l.TryWriteUnLock.readerHalf = 0)
        ∨ (1 < l.LockCount.toNat ∧ l.TryWriteUnLock.ownerHalf = l.ownerHalf
            ∧ l.TryWriteUnLock.readerHalf = l.readerHalf)) := by
  have hpred := toNat_count_pred hc
  have hzero : l.LockCount - 1 = 0 ↔ l.LockCount.toNat = 1 := by
    rw [← UInt16.toNat_inj, hpred]
    show l.LockCount.toNat - 1 = 0 ↔ _
    omega
  unfold TryWriteUnLock
  simp only
  split
  next h =>
    obtain ⟨h₁, h₂⟩ := halves_of_toNat (l := ⟨LockFlag.Empty, l.LockCount - 1⟩) (o := 0) (r := 0)
      rfl (by omega)
    exact ⟨hpred, Or.inl ⟨hzero.mp h, h₁, h₂⟩⟩
  next h =>
    have hne : l.LockCount.toNat ≠ 1 := fun h' => h (hzero.mpr h')
    exact ⟨hpred, Or.inr ⟨by omega, rfl, rfl⟩⟩

/-- The last write unlock empties the word, whatever it was. -/
theorem TryWriteUnLock_one (w : UInt32) : (Lock.mk w 1).TryWriteUnLock = {} := by
  simp [TryWriteUnLock]

/-- **`TryReadUnLock`**: with a reader counted, only the reader half goes down. -/
theorem TryReadUnLock_spec {l : Lock} (hr : 0 < l.readerHalf) :
    l.TryReadUnLock.readerHalf = l.readerHalf - 1
      ∧ l.TryReadUnLock.ownerHalf = l.ownerHalf
      ∧ l.TryReadUnLock.LockCount = l.LockCount := by
  have hflag := l.toNat_flag
  have hlt : l.readerHalf < 65536 := Nat.mod_lt _ (by omega)
  -- with a reader counted nothing is borrowed from the owner half
  have hword : (l.LockFlag - 1).toNat = 65536 * l.ownerHalf + (l.readerHalf - 1) := by
    rw [UInt32.toNat_sub_of_le]
    · show l.LockFlag.toNat - 1 = _
      omega
    · rw [UInt32.le_iff_toNat_le]
      show 1 ≤ l.LockFlag.toNat
      omega
  obtain ⟨h₁, h₂⟩ := halves_of_toNat (l := l.TryReadUnLock) hword (by omega)
  exact ⟨h₂, h₁, rfl⟩

end Lock

end YServerCore
