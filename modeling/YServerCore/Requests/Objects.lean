/-
  YServerCore.Requests.Objects — packet objects in memory.

  `store` puts the members of a struct at their offsets; the padding behind the header's text, and
  whatever lies behind the object, stay as the memory has them.  A pointer to the object is the
  memory from its first byte on, which is what `SendPacket` is given.

  Main results:
    * `ST_UserInfo.ofBytes_store`, `ST_ChatMessage.ofBytes_store`, `ST_MoveInfo.ofBytes_store` — the
      bytes of a stored object read back as the object.
    * `ServerPacket.word32_store` — `SendPacket` finds the header's `Size` where it looks for it.
    * `ServerPacket.read_store_eq_iff` — two objects in two memories have the same bytes exactly when
      their members and the memories' uncovered bytes agree, as far as is read.
-/
import YServerCore.Requests.Handlers

namespace YServerCore

open ByteMemory (Mem read write leNat le32 word32)

/-! ## §1. The members. -/

/-- The header's members. -/
def ST_IOHeader.store (m : Mem) (h : ST_IOHeader) : Mem :=
  write (write (write (write m 0 (le32 h.IOType)) 4 (le32 h.Size)) 8 [if h.Success then 1 else 0])
    9 h.IOResultInfo.toList

def ST_UserInfo.store (m : Mem) (u : ST_UserInfo) : Mem :=
  write (write (u.Header.store m) ST_IOHeader.sizeof u.Id.toList)
    (ST_IOHeader.sizeof + MAX_ID_LEN) u.Pw.toList

def ST_ChatMessage.store (m : Mem) (p : ST_ChatMessage) : Mem :=
  write (write (p.Header.store m) ST_IOHeader.sizeof p.Id.toList)
    (ST_IOHeader.sizeof + MAX_ID_LEN) p.Message.toList

def ST_MoveInfo.store (m : Mem) (p : ST_MoveInfo) : Mem :=
  write (write (write (write (p.Header.store m) ST_IOHeader.sizeof p.Id.toList)
    (ST_IOHeader.sizeof + MAX_ID_LEN) (le32 p.x))
    (ST_IOHeader.sizeof + MAX_ID_LEN + 4) (le32 p.y))
    (ST_IOHeader.sizeof + MAX_ID_LEN + 8) (le32 p.z)

/-- A packet object in memory. -/
def ServerPacket.store (m : Mem) : ServerPacket → Mem
  | .userInfo Packet => Packet.store m
  | .moveInfo Packet => Packet.store m

/-! ## §2. Reading members back. -/

/-- An array that was written is read back. -/
theorem CharArray.read_write {n : Nat} (m : Mem) (off : Nat) (a : CharArray n) :
    read (write m off a.toList) off n = a.toList := by
  have hself := ByteMemory.read_write_self m off a.toList
  rwa [Vector.length_toList] at hself

/-- An array that stands in a block. -/
theorem CharArray.ofBytes_read {n off len : Nat} {m : Mem} {a : CharArray n} (h : off + n ≤ len)
    (hread : read m off n = a.toList) : CharArray.ofBytes n (read m 0 len) off = a := by
  apply Vector.ext
  intro i hi
  have hin : off + i < (read m 0 len).length := by
    rw [ByteMemory.length_read]
    omega
  have hleft : (CharArray.ofBytes n (read m 0 len) off)[i] = m (off + i) := by
    unfold CharArray.ofBytes
    rw [Vector.getElem_ofFn]
    show (read m 0 len).getD (off + i) 0 = _
    rw [List.getD_eq_getElem?_getD, List.getElem?_eq_getElem hin, ByteMemory.getElem_read,
      Nat.zero_add]
    rfl
  have hright : a[i] = m (off + i) := by
    rw [← Vector.getElem_toList (by rwa [Vector.length_toList])]
    simp only [← hread, ByteMemory.getElem_read]
  rw [hleft, hright]

/-- A word that stands in a block. -/
theorem wordAt_read {off len : Nat} {m : Mem} {w : UInt32} (h : off + 4 ≤ len)
    (hread : read m off 4 = le32 w) : wordAt (read m 0 len) off = w := by
  unfold wordAt
  rw [ByteMemory.drop_read m 0 (by omega), Nat.zero_add, ByteMemory.take_read _ _ (by omega), hread,
    ByteMemory.leNat_le32]
  exact UInt32.ofNat_toNat

/-- What a memory must hold for a header to be read from it. -/
structure ST_IOHeader.StoredAt (m : Mem) (h : ST_IOHeader) : Prop where
  IOType : read m 0 4 = le32 h.IOType
  Size : read m 4 4 = le32 h.Size
  Success : read m 8 1 = [if h.Success then 1 else 0]
  IOResultInfo : read m 9 MAX_RESULT_MSG_LEN = h.IOResultInfo.toList

namespace ST_IOHeader

theorem storedAt_store (m : Mem) (h : ST_IOHeader) : StoredAt (h.store m) h := by
  refine ⟨?_, ?_, ?_, ?_⟩
  · unfold store
    rw [ByteMemory.read_write_before _ _ (by omega), ByteMemory.read_write_before _ _ (by omega),
      ByteMemory.read_write_before _ _ (by omega)]
    exact ByteMemory.read_write_self m 0 (le32 h.IOType)
  · unfold store
    rw [ByteMemory.read_write_before _ _ (by omega), ByteMemory.read_write_before _ _ (by omega)]
    exact ByteMemory.read_write_self _ 4 (le32 h.Size)
  · unfold store
    rw [ByteMemory.read_write_before _ _ (by omega)]
    exact ByteMemory.read_write_self _ 8 [if h.Success then 1 else 0]
  · unfold store
    exact CharArray.read_write _ 9 h.IOResultInfo

/-- A write behind the header leaves it there. -/
theorem StoredAt.write {m : Mem} {h : ST_IOHeader} (hm : StoredAt m h) {off : Nat} (bs : List UInt8)
    (hoff : ST_IOHeader.sizeof ≤ off) : StoredAt (write m off bs) h := by
  have hsz : ST_IOHeader.sizeof = 44 := rfl
  have hmax : MAX_RESULT_MSG_LEN = 32 := rfl
  refine ⟨?_, ?_, ?_, ?_⟩
  · rw [ByteMemory.read_write_before _ _ (by omega)]
    exact hm.IOType
  · rw [ByteMemory.read_write_before _ _ (by omega)]
    exact hm.Size
  · rw [ByteMemory.read_write_before _ _ (by omega)]
    exact hm.Success
  · rw [ByteMemory.read_write_before _ _ (by omega)]
    exact hm.IOResultInfo

/-- The words of a stored header. -/
theorem StoredAt.word_IOType {m : Mem} {h : ST_IOHeader} (hm : StoredAt m h) :
    word32 m 0 = h.IOType.toNat := by
  unfold word32
  rw [hm.IOType, ByteMemory.leNat_le32]

theorem StoredAt.word_Size {m : Mem} {h : ST_IOHeader} (hm : StoredAt m h) :
    word32 m 4 = h.Size.toNat := by
  unfold word32
  rw [hm.Size, ByteMemory.leNat_le32]

/-- **A stored header is read back.** -/
theorem StoredAt.ofBytes {m : Mem} {h : ST_IOHeader} (hm : StoredAt m h) {len : Nat}
    (hlen : ST_IOHeader.sizeof ≤ len) : ST_IOHeader.ofBytes (read m 0 len) = h := by
  have hsz : ST_IOHeader.sizeof = 44 := rfl
  have hmax : MAX_RESULT_MSG_LEN = 32 := rfl
  have htype : wordAt (read m 0 len) 0 = h.IOType := wordAt_read (by omega) hm.IOType
  have hsize : wordAt (read m 0 len) 4 = h.Size := wordAt_read (by omega) hm.Size
  have hinfo : CharArray.ofBytes MAX_RESULT_MSG_LEN (read m 0 len) 9 = h.IOResultInfo :=
    CharArray.ofBytes_read (by omega) hm.IOResultInfo
  have hbyte : (read m 0 len).getD 8 0 = if h.Success then 1 else 0 := by
    have hin : 8 < (read m 0 len).length := by
      rw [ByteMemory.length_read]
      omega
    rw [List.getD_eq_getElem?_getD, List.getElem?_eq_getElem hin, ByteMemory.getElem_read]
    exact (List.cons.inj hm.Success).1
  unfold ST_IOHeader.ofBytes
  rw [htype, hsize, hinfo, hbyte]
  cases h with
  | mk IOType Size Success IOResultInfo => cases Success <;> rfl

end ST_IOHeader

/-! ## §3. Reading objects back. -/

theorem ST_UserInfo.storedAt_store (m : Mem) (u : ST_UserInfo) :
    ST_IOHeader.StoredAt (u.store m) u.Header := by
  unfold store
  exact ((ST_IOHeader.storedAt_store m u.Header).write _ (Nat.le_refl _)).write _
    (Nat.le_add_right _ _)

/-- The strings of a stored `ST_UserInfo`. -/
theorem ST_UserInfo.read_store (m : Mem) (u : ST_UserInfo) :
    read (u.store m) ST_IOHeader.sizeof MAX_ID_LEN = u.Id.toList
      ∧ read (u.store m) (ST_IOHeader.sizeof + MAX_ID_LEN) MAX_PW_LEN = u.Pw.toList := by
  unfold store
  rw [ByteMemory.read_write_before _ _ (Nat.le_refl _)]
  exact ⟨CharArray.read_write _ _ u.Id, CharArray.read_write _ _ u.Pw⟩

/-- **A stored `ST_UserInfo` is read back.** -/
theorem ST_UserInfo.ofBytes_store (m : Mem) (u : ST_UserInfo) :
    ST_UserInfo.ofBytes (read (u.store m) 0 ST_UserInfo.sizeof) = u := by
  have hheader := (u.storedAt_store m).ofBytes (show ST_IOHeader.sizeof ≤ ST_UserInfo.sizeof by decide)
  obtain ⟨hid, hpw⟩ := u.read_store m
  unfold ofBytes
  rw [hheader, CharArray.ofBytes_read (by decide) hid, CharArray.ofBytes_read (by decide) hpw]

theorem ST_ChatMessage.storedAt_store (m : Mem) (p : ST_ChatMessage) :
    ST_IOHeader.StoredAt (p.store m) p.Header := by
  unfold store
  exact ((ST_IOHeader.storedAt_store m p.Header).write _ (Nat.le_refl _)).write _
    (Nat.le_add_right _ _)

/-- **A stored `ST_ChatMessage` is read back.** -/
theorem ST_ChatMessage.ofBytes_store (m : Mem) (p : ST_ChatMessage) :
    ST_ChatMessage.ofBytes (read (p.store m) 0 ST_ChatMessage.sizeof) = p := by
  have hheader := (p.storedAt_store m).ofBytes (show ST_IOHeader.sizeof ≤ ST_ChatMessage.sizeof by decide)
  have hid : read (p.store m) ST_IOHeader.sizeof MAX_ID_LEN = p.Id.toList := by
    unfold store
    rw [ByteMemory.read_write_before _ _ (Nat.le_refl _)]
    exact CharArray.read_write _ _ p.Id
  have hmessage : read (p.store m) (ST_IOHeader.sizeof + MAX_ID_LEN) MAX_CHAT_SIZE
      = p.Message.toList := by
    unfold store
    exact CharArray.read_write _ _ p.Message
  unfold ofBytes
  rw [hheader, CharArray.ofBytes_read (by decide) hid, CharArray.ofBytes_read (by decide) hmessage]

theorem ST_MoveInfo.storedAt_store (m : Mem) (p : ST_MoveInfo) :
    ST_IOHeader.StoredAt (p.store m) p.Header := by
  unfold store
  exact ((((ST_IOHeader.storedAt_store m p.Header).write _ (Nat.le_refl _)).write _
    (by decide)).write _ (by decide)).write _ (by decide)

/-- **A stored `ST_MoveInfo` is read back.** -/
theorem ST_MoveInfo.ofBytes_store (m : Mem) (p : ST_MoveInfo) :
    ST_MoveInfo.ofBytes (read (p.store m) 0 ST_MoveInfo.sizeof) = p := by
  have hheader := (p.storedAt_store m).ofBytes (show ST_IOHeader.sizeof ≤ ST_MoveInfo.sizeof by decide)
  have hid : read (p.store m) ST_IOHeader.sizeof MAX_ID_LEN = p.Id.toList := by
    unfold store
    rw [ByteMemory.read_write_before _ _ (by decide), ByteMemory.read_write_before _ _ (by decide),
      ByteMemory.read_write_before _ _ (by decide)]
    exact CharArray.read_write _ _ p.Id
  have hx : read (p.store m) (ST_IOHeader.sizeof + MAX_ID_LEN) 4 = le32 p.x := by
    unfold store
    rw [ByteMemory.read_write_before _ _ (by decide), ByteMemory.read_write_before _ _ (by decide)]
    exact ByteMemory.read_write_self _ _ (le32 p.x)
  have hy : read (p.store m) (ST_IOHeader.sizeof + MAX_ID_LEN + 4) 4 = le32 p.y := by
    unfold store
    rw [ByteMemory.read_write_before _ _ (by decide)]
    exact ByteMemory.read_write_self _ _ (le32 p.y)
  have hz : read (p.store m) (ST_IOHeader.sizeof + MAX_ID_LEN + 8) 4 = le32 p.z :=
    ByteMemory.read_write_self _ _ (le32 p.z)
  unfold ofBytes
  rw [hheader, CharArray.ofBytes_read (by decide) hid, wordAt_read (by decide) hx,
    wordAt_read (by decide) hy, wordAt_read (by decide) hz]

/-- **The size `SendPacket` reads** is the header's. -/
theorem ServerPacket.word32_store (m : Mem) (p : ServerPacket) :
    word32 (p.store m) 4 = p.Header.Size.toNat := by
  have hstored : ST_IOHeader.StoredAt (p.store m) p.Header := by
    cases p with
    | userInfo Packet => exact Packet.storedAt_store m
    | moveInfo Packet => exact Packet.storedAt_store m
  exact hstored.word_Size

/-! ## §4. Bytes that no member covers. -/

/-- A byte of the padding behind the header's text, or one behind an object of this size. -/
def Uncovered (sizeof i : Nat) : Prop :=
  (9 + MAX_RESULT_MSG_LEN ≤ i ∧ i < ST_IOHeader.sizeof) ∨ sizeof ≤ i

theorem ST_IOHeader.store_apply_behind (m : Mem) (h : ST_IOHeader) {i : Nat}
    (hi : 9 + MAX_RESULT_MSG_LEN ≤ i) : h.store m i = m i := by
  have hmax : MAX_RESULT_MSG_LEN = 32 := rfl
  unfold store
  rw [ByteMemory.write_apply_behind _ (by rw [Vector.length_toList]; exact hi),
    ByteMemory.write_apply_behind _ (by rw [List.length_singleton]; omega),
    ByteMemory.write_apply_behind _ (by rw [ByteMemory.length_le32]; omega),
    ByteMemory.write_apply_behind _ (by rw [ByteMemory.length_le32]; omega)]

theorem ST_IOHeader.store_apply_congr (m m' : Mem) (h : ST_IOHeader) {i : Nat}
    (hi : i < 9 + MAX_RESULT_MSG_LEN) : h.store m i = h.store m' i := by
  have hmax : MAX_RESULT_MSG_LEN = 32 := rfl
  unfold store
  -- one of the four members covers the byte
  apply ByteMemory.write_apply_congr
  rw [Vector.length_toList]
  intro h₁
  apply ByteMemory.write_apply_congr
  rw [List.length_singleton]
  intro h₂
  apply ByteMemory.write_apply_congr
  rw [ByteMemory.length_le32]
  intro h₃
  apply ByteMemory.write_apply_congr
  rw [ByteMemory.length_le32]
  intro h₄
  omega

namespace ServerPacket

/-- An uncovered byte is the memory's. -/
theorem store_apply_uncovered (m : Mem) (p : ServerPacket) {i : Nat} (hi : Uncovered p.sizeof i) :
    p.store m i = m i := by
  have hmax : MAX_RESULT_MSG_LEN = 32 := rfl
  have hid : MAX_ID_LEN = 24 := rfl
  have hpw : MAX_PW_LEN = 24 := rfl
  have hsz : ST_IOHeader.sizeof = 44 := rfl
  cases p with
  | userInfo Packet =>
      have hi' : (9 + MAX_RESULT_MSG_LEN ≤ i ∧ i < ST_IOHeader.sizeof) ∨ 92 ≤ i := hi
      show Packet.store m i = m i
      unfold ST_UserInfo.store
      rcases hi' with hpad | hbehind
      · rw [ByteMemory.write_apply_of_lt _ (by omega), ByteMemory.write_apply_of_lt _ hpad.2,
          ST_IOHeader.store_apply_behind m _ hpad.1]
      · rw [ByteMemory.write_apply_behind _ (by rw [Vector.length_toList]; omega),
          ByteMemory.write_apply_behind _ (by rw [Vector.length_toList]; omega),
          ST_IOHeader.store_apply_behind m _ (by omega)]
  | moveInfo Packet =>
      have hi' : (9 + MAX_RESULT_MSG_LEN ≤ i ∧ i < ST_IOHeader.sizeof) ∨ 80 ≤ i := hi
      show Packet.store m i = m i
      unfold ST_MoveInfo.store
      rcases hi' with hpad | hbehind
      · rw [ByteMemory.write_apply_of_lt _ (by omega), ByteMemory.write_apply_of_lt _ (by omega),
          ByteMemory.write_apply_of_lt _ (by omega), ByteMemory.write_apply_of_lt _ hpad.2,
          ST_IOHeader.store_apply_behind m _ hpad.1]
      · rw [ByteMemory.write_apply_behind _ (by rw [ByteMemory.length_le32]; omega),
          ByteMemory.write_apply_behind _ (by rw [ByteMemory.length_le32]; omega),
          ByteMemory.write_apply_behind _ (by rw [ByteMemory.length_le32]; omega),
          ByteMemory.write_apply_behind _ (by rw [Vector.length_toList]; omega),
          ST_IOHeader.store_apply_behind m _ (by omega)]

/-- A covered byte is the member's, whatever the memory. -/
theorem store_apply_covered (m m' : Mem) (p : ServerPacket) {i : Nat} (hi : ¬ Uncovered p.sizeof i) :
    p.store m i = p.store m' i := by
  have hmax : MAX_RESULT_MSG_LEN = 32 := rfl
  have hid : MAX_ID_LEN = 24 := rfl
  have hpw : MAX_PW_LEN = 24 := rfl
  have hsz : ST_IOHeader.sizeof = 44 := rfl
  cases p with
  | userInfo Packet =>
      have hi' : ¬ ((9 + MAX_RESULT_MSG_LEN ≤ i ∧ i < ST_IOHeader.sizeof) ∨ 92 ≤ i) := hi
      show Packet.store m i = Packet.store m' i
      unfold ST_UserInfo.store
      apply ByteMemory.write_apply_congr
      rw [Vector.length_toList]
      intro h₁
      apply ByteMemory.write_apply_congr
      rw [Vector.length_toList]
      intro h₂
      exact ST_IOHeader.store_apply_congr m m' _ (by omega)
  | moveInfo Packet =>
      have hi' : ¬ ((9 + MAX_RESULT_MSG_LEN ≤ i ∧ i < ST_IOHeader.sizeof) ∨ 80 ≤ i) := hi
      show Packet.store m i = Packet.store m' i
      unfold ST_MoveInfo.store
      apply ByteMemory.write_apply_congr
      rw [ByteMemory.length_le32]
      intro h₁
      apply ByteMemory.write_apply_congr
      rw [ByteMemory.length_le32]
      intro h₂
      apply ByteMemory.write_apply_congr
      rw [ByteMemory.length_le32]
      intro h₃
      apply ByteMemory.write_apply_congr
      rw [Vector.length_toList]
      intro h₄
      exact ST_IOHeader.store_apply_congr m m' _ (by omega)

/-- **Two objects of one size in two memories** have the same bytes exactly when they have in one
memory, and the memories have the same uncovered bytes, as far as is read. -/
theorem read_store_eq_iff {p p' : ServerPacket} (hsize : p'.sizeof = p.sizeof) (m m' : Mem) (n : Nat) :
    read (p.store m) 0 n = read (p'.store m') 0 n
      ↔ read (p.store m) 0 n = read (p'.store m) 0 n
        ∧ ∀ i < n, Uncovered p.sizeof i → m i = m' i := by
  have huncovered : ∀ {i}, Uncovered p.sizeof i → Uncovered p'.sizeof i := fun hi => hsize ▸ hi
  have hcovered : ∀ {i}, ¬ Uncovered p.sizeof i → ¬ Uncovered p'.sizeof i := fun hi => hsize ▸ hi
  simp only [ByteMemory.read_eq_iff]
  constructor
  · intro h
    constructor
    · intro i hi
      by_cases hu : Uncovered p.sizeof i
      · rw [store_apply_uncovered m p hu, store_apply_uncovered m p' (huncovered hu)]
      · rw [h i hi, store_apply_covered m m' p' (hcovered hu)]
    · intro i hi hu
      rw [← store_apply_uncovered m p hu, h i hi, store_apply_uncovered m' p' (huncovered hu)]
  · intro h i hi
    by_cases hu : Uncovered p.sizeof i
    · rw [store_apply_uncovered m p hu, store_apply_uncovered m' p' (huncovered hu), h.2 i hi hu]
    · rw [h.1 i hi, store_apply_covered m m' p' (hcovered hu)]

end ServerPacket

end YServerCore
