/-
  YServerCore.Lib.ByteCopy — copying a range of a memory in any order.

  `memcpy` moves the bytes of one range into another and promises no order; its contract is that
  the two ranges do not overlap.  Here a copy moves its bytes one at a time, in an order that a
  `CopyOrder` gives for every length, and reads each byte when its turn comes.  Nothing here
  refers to a particular program.

  Main results:
    * `memcpy_of_disjoint` — between ranges that do not overlap every order writes the source's bytes.
    * `memcpy_ascending` — downwards the ascending order does so too, whatever the ranges.
    * `memcpy_descending_repeats` — over an overlap the descending order repeats bytes.
-/
import YServerCore.Lib.ByteMemory

namespace ByteMemory

/-! ## §1. Orders. -/

/-- The order in which the bytes of a copy are moved: every index once, whatever the length. -/
structure CopyOrder where
  indices : Nat → List Nat
  perm : ∀ len, (indices len).Perm (List.range len)

namespace CopyOrder

/-- From the first byte to the last. -/
def ascending : CopyOrder where
  indices := List.range
  perm _ := List.Perm.refl _

/-- From the last byte to the first. -/
def descending : CopyOrder where
  indices len := (List.range len).reverse
  perm _ := List.reverse_perm _

theorem mem_indices (order : CopyOrder) {len i : Nat} : i ∈ order.indices len ↔ i < len := by
  rw [(order.perm len).mem_iff, List.mem_range]

end CopyOrder

/-! ## §2. Copies. -/

/-- The bytes at these indices are moved from `src` to `dst`, one after the other. -/
def copyBytes (dst src : Nat) : List Nat → Mem → Mem
  | [], m => m
  | i :: is, m => copyBytes dst src is (Function.update m (dst + i) (m (src + i)))

/-- `len` bytes are moved from `src` to `dst`. -/
def memcpy (order : CopyOrder) (m : Mem) (dst src len : Nat) : Mem :=
  copyBytes dst src (order.indices len) m

/-- The two ranges have no byte in common. -/
def DisjointRanges (dst src len : Nat) : Prop := dst + len ≤ src ∨ src + len ≤ dst

instance (dst src len : Nat) : Decidable (DisjointRanges dst src len) :=
  inferInstanceAs (Decidable (_ ∨ _))

theorem copyBytes_append (dst src : Nat) (is js : List Nat) (m : Mem) :
    copyBytes dst src (is ++ js) m = copyBytes dst src js (copyBytes dst src is m) := by
  induction is generalizing m with
  | nil => rfl
  | cons i is ih => exact ih _

/-- A byte that is not at one of the indices stays. -/
theorem copyBytes_apply_of_ne {dst src a : Nat} {is : List Nat} (m : Mem)
    (h : ∀ i ∈ is, a ≠ dst + i) : copyBytes dst src is m a = m a := by
  induction is generalizing m with
  | nil => rfl
  | cons i is ih =>
      show copyBytes dst src is (Function.update m (dst + i) (m (src + i))) a = m a
      rw [ih _ (fun j hj => h j (List.mem_cons_of_mem _ hj))]
      exact Function.update_of_ne (h i List.mem_cons_self) _ _

/-- **A byte is what its source was when its turn came**, when it is moved once. -/
theorem copyBytes_apply_at {dst src k : Nat} {is js : List Nat} (m : Mem) (hk : k ∉ js) :
    copyBytes dst src (is ++ k :: js) m (dst + k) = copyBytes dst src is m (src + k) := by
  rw [copyBytes_append]
  generalize copyBytes dst src is m = mid
  show copyBytes dst src js (Function.update mid (dst + k) (mid (src + k))) (dst + k) = _
  rw [copyBytes_apply_of_ne]
  · exact Function.update_self _ _ _
  · intro i hi heq
    have hik : k = i := by omega
    exact hk (hik ▸ hi)

/-- **A byte whose source is left alone until its turn** is its source's. -/
theorem copyBytes_apply_of_untouched {dst src k : Nat} {order : List Nat} (m : Mem)
    (hnodup : order.Nodup) (hk : k ∈ order)
    (h : ∀ is js, order = is ++ k :: js → ∀ i ∈ is, src + k ≠ dst + i) :
    copyBytes dst src order m (dst + k) = m (src + k) := by
  obtain ⟨is, js, rfl⟩ := List.append_of_mem hk
  have hkjs : k ∉ js := (List.nodup_cons.mp (List.nodup_append.mp hnodup).2.1).1
  rw [copyBytes_apply_at m hkjs]
  exact copyBytes_apply_of_ne m (h is js rfl)

theorem CopyOrder.nodup (order : CopyOrder) (len : Nat) : (order.indices len).Nodup :=
  (order.perm len).nodup_iff.mpr List.nodup_range

/-- A copy that gives every byte of the destination its source's writes the source's block. -/
theorem memcpy_eq_write {order : CopyOrder} {m : Mem} {dst src len : Nat}
    (h : ∀ k < len, memcpy order m dst src len (dst + k) = m (src + k)) :
    memcpy order m dst src len = write m dst (read m src len) := by
  funext a
  by_cases hin : dst ≤ a ∧ a < dst + len
  · obtain ⟨k, rfl⟩ := Nat.exists_eq_add_of_le hin.1
    have hk : k < len := by omega
    rw [h k hk, write_apply_add dst (by rw [length_read]; exact hk), getElem_read]
  · have hout : ∀ i ∈ order.indices len, a ≠ dst + i := by
      intro i hi
      have := order.mem_indices.mp hi
      omega
    have hsame : memcpy order m dst src len a = m a := copyBytes_apply_of_ne m hout
    rw [hsame]
    unfold write
    by_cases hge : dst ≤ a
    · rw [if_pos hge, List.getElem?_eq_none (by rw [length_read]; omega)]
      rfl
    · rw [if_neg hge]

/-- **Between ranges that do not overlap every order writes the source's bytes.** -/
theorem memcpy_of_disjoint (order : CopyOrder) (m : Mem) {dst src len : Nat}
    (h : DisjointRanges dst src len) : memcpy order m dst src len = write m dst (read m src len) := by
  apply memcpy_eq_write
  intro k hk
  apply copyBytes_apply_of_untouched m (order.nodup len) (order.mem_indices.mpr hk)
  intro is js hsplit i hi
  -- the source is nowhere in the destination
  have hlt : i < len := by
    apply order.mem_indices.mp
    rw [hsplit]
    exact List.mem_append_left _ hi
  unfold DisjointRanges at h
  omega

/-- **Downwards the ascending order writes the source's bytes**, whether the ranges overlap or not. -/
theorem memcpy_ascending (m : Mem) {dst src : Nat} (len : Nat) (h : dst ≤ src) :
    memcpy .ascending m dst src len = write m dst (read m src len) := by
  apply memcpy_eq_write
  intro k hk
  apply copyBytes_apply_of_untouched m (CopyOrder.ascending.nodup len)
    (CopyOrder.ascending.mem_indices.mpr hk)
  intro is js hsplit i hi
  -- what was moved before has a smaller index
  have hsorted : (is ++ k :: js).Pairwise (· < ·) := by
    rw [← hsplit]
    exact List.pairwise_lt_range
  have hlt : i < k := (List.pairwise_append.mp hsorted).2.2 i hi k List.mem_cons_self
  omega

/-- **Over an overlap the descending order repeats bytes**: a byte whose source has been written over is
the byte that was written there. -/
theorem memcpy_descending_repeats (m : Mem) {dst d len k : Nat} (hd : 0 < d) (hk : k + d < len) :
    memcpy .descending m dst (dst + d) len (dst + k)
      = memcpy .descending m dst (dst + d) len (dst + (k + d)) := by
  -- the indices behind `k`, then `k`, then those before it
  obtain ⟨r, rfl⟩ := Nat.exists_eq_add_of_le (show k + 1 ≤ len by omega)
  have hsplit : CopyOrder.descending.indices (k + 1 + r)
      = ((List.range r).map (k + 1 + ·)).reverse ++ k :: (List.range k).reverse := by
    show (List.range (k + 1 + r)).reverse = _
    rw [List.range_add, List.reverse_append, List.range_succ, List.reverse_append]
    rfl
  have hbefore : k ∉ (List.range k).reverse := by simp
  unfold memcpy
  rw [hsplit, copyBytes_apply_at m hbefore, copyBytes_append]
  generalize copyBytes dst (dst + d) ((List.range r).map (k + 1 + ·)).reverse m = mid
  have hsource : dst + d + k = dst + (k + d) := by omega
  rw [hsource]
  -- neither `k` nor an index before it writes there
  symm
  apply copyBytes_apply_of_ne
  intro i hi
  rcases List.mem_cons.mp hi with rfl | hi
  · omega
  · have hlt : i < k := List.mem_range.mp (List.mem_reverse.mp hi)
    omega

end ByteMemory
