/-
  YServerCore.Lib.ByteMemory — bytes by address, with block reads and writes.

  A memory gives a byte for every address.  `read m off len` is the block of `len` bytes from
  `off` on, `write m off bs` the memory with `bs` put there, and `word32 m off` the little-endian
  32-bit number at `off`.  Nothing here refers to a particular program.

  Main results: a block is the concatenation of its parts (`read_add`), what was written is read
  back (`read_write_self`), and a write leaves the blocks before it alone (`read_write_before`).
-/
import Mathlib.Data.List.Basic

namespace ByteMemory

/-- A byte for every address. -/
abbrev Mem := Nat → UInt8

/-! ## §1. Blocks. -/

/-- The `len` bytes from `off` on. -/
def read (m : Mem) (off len : Nat) : List UInt8 := (List.range len).map (fun i => m (off + i))

/-- The memory with `bs` written from `off` on. -/
def write (m : Mem) (off : Nat) (bs : List UInt8) : Mem := fun i =>
  if off ≤ i then (bs[i - off]?).getD (m i) else m i

@[simp] theorem length_read (m : Mem) (off len : Nat) : (read m off len).length = len := by
  simp [read]

theorem getElem_read (m : Mem) (off len i : Nat) (h : i < (read m off len).length) :
    (read m off len)[i] = m (off + i) := by
  simp [read]

/-- Two memories with the same bytes in a range have the same block there. -/
theorem read_congr {m m' : Mem} {off off' len : Nat}
    (h : ∀ i, i < len → m (off + i) = m' (off' + i)) : read m off len = read m' off' len := by
  unfold read
  apply List.map_congr_left
  intro i hi
  exact h i (List.mem_range.mp hi)

/-- Equal blocks have equal bytes. -/
theorem apply_of_read_eq {m m' : Mem} {off off' len i : Nat}
    (h : read m off len = read m' off' len) (hi : i < len) : m (off + i) = m' (off' + i) := by
  have hget := congrArg (fun bs : List UInt8 => bs[i]?) h
  simpa [read, hi] using hget

theorem read_eq_iff {m m' : Mem} {len : Nat} :
    read m 0 len = read m' 0 len ↔ ∀ i < len, m i = m' i := by
  constructor
  · intro h i hi
    have hbyte := apply_of_read_eq h hi
    rwa [Nat.zero_add] at hbyte
  · intro h
    apply read_congr
    intro i hi
    rw [Nat.zero_add]
    exact h i hi

/-- A block is a first part followed by the rest. -/
theorem read_add (m : Mem) (off a b : Nat) :
    read m off (a + b) = read m off a ++ read m (off + a) b := by
  unfold read
  rw [List.range_add, List.map_append, List.map_map]
  congr 1
  apply List.map_congr_left
  intro i _
  show m (off + (a + i)) = m (off + a + i)
  rw [Nat.add_assoc]

theorem take_read (m : Mem) (off : Nat) {k len : Nat} (h : k ≤ len) :
    (read m off len).take k = read m off k := by
  obtain ⟨b, rfl⟩ := Nat.exists_eq_add_of_le h
  rw [read_add, List.take_left' (length_read m off k)]

theorem drop_read (m : Mem) (off : Nat) {k len : Nat} (h : k ≤ len) :
    (read m off len).drop k = read m (off + k) (len - k) := by
  obtain ⟨b, rfl⟩ := Nat.exists_eq_add_of_le h
  rw [read_add, List.drop_left' (length_read m off k), Nat.add_sub_cancel_left]

/-! ## §2. Reading around a write. -/

theorem write_apply_of_lt {m : Mem} {off i : Nat} (bs : List UInt8) (h : i < off) :
    write m off bs i = m i := by
  unfold write
  rw [if_neg (by omega)]

theorem write_apply_add {m : Mem} (off : Nat) {i : Nat} {bs : List UInt8} (h : i < bs.length) :
    write m off bs (off + i) = bs[i] := by
  unfold write
  rw [if_pos (by omega), Nat.add_sub_cancel_left, List.getElem?_eq_getElem h, Option.getD_some]

theorem write_apply_behind {m : Mem} {off i : Nat} (bs : List UInt8) (h : off + bs.length ≤ i) :
    write m off bs i = m i := by
  unfold write
  rw [if_pos (by omega), List.getElem?_eq_none (by omega), Option.getD_none]

/-- A byte of the written range does not depend on the memory. -/
theorem write_apply_congr {m m' : Mem} {off i : Nat} (bs : List UInt8)
    (h : i < off ∨ off + bs.length ≤ i → m i = m' i) : write m off bs i = write m' off bs i := by
  by_cases hlt : i < off
  · rw [write_apply_of_lt bs hlt, write_apply_of_lt bs hlt, h (Or.inl hlt)]
  · by_cases hbehind : off + bs.length ≤ i
    · rw [write_apply_behind bs hbehind, write_apply_behind bs hbehind, h (Or.inr hbehind)]
    · obtain ⟨k, rfl⟩ := Nat.exists_eq_add_of_le (Nat.le_of_not_lt hlt)
      rw [write_apply_add off (by omega), write_apply_add off (by omega)]

/-- Writing nothing changes nothing. -/
theorem write_nil (m : Mem) (off : Nat) : write m off [] = m := by
  funext i
  unfold write
  split <;> rfl

/-- **What was written is read back.** -/
theorem read_write_self (m : Mem) (off : Nat) (bs : List UInt8) :
    read (write m off bs) off bs.length = bs := by
  apply List.ext_getElem (length_read _ _ _)
  intro i h₁ h₂
  rw [getElem_read, write_apply_add off h₂]

/-- A block before the written range is unchanged. -/
theorem read_write_before (m : Mem) {off p len : Nat} (bs : List UInt8) (h : p + len ≤ off) :
    read (write m off bs) p len = read m p len := by
  apply read_congr
  intro i hi
  exact write_apply_of_lt bs (by omega)

/-- A block behind the written range is unchanged. -/
theorem read_write_behind (m : Mem) {off p len : Nat} (bs : List UInt8) (h : off + bs.length ≤ p) :
    read (write m off bs) p len = read m p len := by
  apply read_congr
  intro i _
  unfold write
  rw [if_pos (by omega), List.getElem?_eq_none (by omega)]
  rfl

/-- A block that starts with the written range: what was written, and what lies behind it. -/
theorem read_write_take (m : Mem) (off k : Nat) (bs : List UInt8) :
    read (write m off bs) off k = bs.take k ++ read m (off + bs.length) (k - bs.length) := by
  by_cases h : k ≤ bs.length
  · have hself := congrArg (List.take k) (read_write_self m off bs)
    rw [take_read _ _ h] at hself
    rw [hself, Nat.sub_eq_zero_of_le h]
    show bs.take k = bs.take k ++ []
    rw [List.append_nil]
  · obtain ⟨b, rfl⟩ := Nat.exists_eq_add_of_le (Nat.le_of_not_le h)
    rw [read_add, read_write_self, read_write_behind m bs (Nat.le_refl _),
      List.take_of_length_le (Nat.le_add_right _ _), Nat.add_sub_cancel_left]

/-- **Two writes of equal length at one place**: a block up to `n` is the same exactly when what was
written below `n` is. -/
theorem read_write_eq_iff (m : Mem) (off n : Nat) {bs bs' : List UInt8}
    (hlen : bs'.length = bs.length) :
    read (write m off bs) 0 n = read (write m off bs') 0 n
      ↔ bs.take (n - off) = bs'.take (n - off) := by
  by_cases h : off ≤ n
  · obtain ⟨k, rfl⟩ := Nat.exists_eq_add_of_le h
    rw [Nat.add_sub_cancel_left, read_add, read_add, read_write_before m bs (by omega),
      read_write_before m bs' (by omega), Nat.zero_add, read_write_take, read_write_take, hlen]
    constructor
    · intro heq
      have hrest := List.append_cancel_left heq
      exact List.append_cancel_right hrest
    · intro heq
      rw [heq]
  · have hzero : n - off = 0 := by omega
    rw [hzero, read_write_before m bs (by omega), read_write_before m bs' (by omega)]
    exact ⟨fun _ => rfl, fun _ => rfl⟩

/-- Appending to a block by a write behind it. -/
theorem read_write_append (m : Mem) (off n : Nat) (bs : List UInt8) :
    read (write m (off + n) bs) off (n + bs.length) = read m off n ++ bs := by
  rw [read_add, read_write_before m bs (Nat.le_refl _), read_write_self]

/-! ## §3. Little-endian numbers. -/

/-- The number whose little-endian bytes these are. -/
def leNat : List UInt8 → Nat
  | [] => 0
  | b :: bs => b.toNat + 256 * leNat bs

/-- The 32-bit number at `off`. -/
def word32 (m : Mem) (off : Nat) : Nat := leNat (read m off 4)

/-- A 32-bit number inside a block, from the block's bytes. -/
theorem word32_of_read (m : Mem) (off : Nat) {k len : Nat} (h : k + 4 ≤ len) :
    word32 m (off + k) = leNat (((read m off len).drop k).take 4) := by
  rw [drop_read m off (by omega), take_read m (off + k) (by omega)]
  rfl

/-- The little-endian bytes of a 32-bit number. -/
def le32 (w : UInt32) : List UInt8 :=
  [UInt8.ofNat w.toNat, UInt8.ofNat (w.toNat / 256), UInt8.ofNat (w.toNat / 65536),
    UInt8.ofNat (w.toNat / 16777216)]

@[simp] theorem length_le32 (w : UInt32) : (le32 w).length = 4 := rfl

theorem leNat_le32 (w : UInt32) : leNat (le32 w) = w.toNat := by
  have hlt : w.toNat < 4294967296 := w.toNat_lt
  simp only [le32, leNat, UInt8.toNat_ofNat']
  omega

end ByteMemory
