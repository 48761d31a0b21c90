/-
  YServerCore.Packet.PacketDataStructure — the packet structs and the constants they use.

  A `char` array is a vector of bytes of its declared length, a wire number is a `UInt32` and a
  coordinate is the 32-bit word of its float.  `ofBytes` reads a struct out of its bytes at the
  offsets of its members; the three bytes behind `IOResultInfo` are padding and belong to no
  member.  `strcpy_s` ends the process when the text does not fit, which is `none` here.
-/
import Mathlib.Data.List.TakeWhile
import YServerCore.Lib.ByteMemory

namespace YServerCore

open ByteMemory (leNat)

/-! ## §1. Definition.h. -/

def BUF_SIZE : Nat := 4096
def MAX_CHAT_SIZE : Nat := 512
def MAX_ID_LEN : Nat := 24
def MAX_PW_LEN : Nat := 24
def MAX_RESULT_MSG_LEN : Nat := 32

/-- The packet types, in the order of their numbers on the wire. -/
inductive E_IOType where
  | None
  | C_CreateAccount
  | S_CreateAccount
  | C_Login
  | S_Login
  | C_Chat
  | S_Chat
  | C_Move
  | S_Move
  deriving DecidableEq, Repr

/-- The number of an enumerator. -/
def E_IOType.code (t : E_IOType) : Nat := t.ctorIdx

/-! ## §2. Bytes of members. -/

/-- A `char` array of `n` bytes. -/
abbrev CharArray (n : Nat) := Vector UInt8 n

/-- The array at an offset of an object's bytes. -/
def CharArray.ofBytes (n : Nat) (bs : List UInt8) (off : Nat) : CharArray n :=
  Vector.ofFn (fun i => bs.getD (off + i) 0)

/-- The 32-bit member at an offset of an object's bytes. -/
def wordAt (bs : List UInt8) (off : Nat) : UInt32 := UInt32.ofNat (leNat ((bs.drop off).take 4))

/-- The text a read of a `char` array as a string gives: what stands before its first NUL; without a
NUL the read goes on to the text behind the array. -/
def CharArray.text {n : Nat} (a : CharArray n) (behind : List UInt8) : List UInt8 :=
  if 0 ∈ a.toList then a.toList.takeWhile (· ≠ 0) else a.toList ++ behind

/-- `strcpy_s(dst, src)`: the text and its NUL over the front of the array, the rest as it was;
`none` (the process ends) when the text and its NUL do not fit. -/
def strcpy_s {n : Nat} (dst : CharArray n) (src : List UInt8) : Option (CharArray n) :=
  let text := src.takeWhile (· ≠ 0)
  if text.length < n then
    some (Vector.ofFn (fun i =>
      if (i : Nat) < text.length then text.getD i 0 else if (i : Nat) = text.length then 0
      else dst.get i))
  else none

/-- With a NUL in the array the text ends inside it. -/
theorem CharArray.text_of_mem {n : Nat} {a : CharArray n} (h : 0 ∈ a.toList) (behind : List UInt8) :
    a.text behind = a.toList.takeWhile (· ≠ 0) := by
  unfold CharArray.text
  rw [if_pos h]

/-- The text of an array with a NUL is shorter than the array. -/
theorem CharArray.length_text_lt {n : Nat} {a : CharArray n} (h : 0 ∈ a.toList) (behind : List UInt8) :
    (a.text behind).length < n := by
  have hprefix := List.takeWhile_prefix (l := a.toList) (fun x => decide (x ≠ 0))
  have hle := hprefix.length_le
  rw [Vector.length_toList] at hle
  rw [CharArray.text_of_mem h]
  refine Nat.lt_of_le_of_ne hle fun heq => ?_
  -- a text of the whole array would have no NUL in it
  have hall := hprefix.eq_of_length (by rw [heq, Vector.length_toList])
  have hzero := List.takeWhile_eq_self_iff.mp hall 0 h
  exact absurd hzero (by decide)

/-- What `strcpy_s` leaves: the text, its NUL, and the rest of the array. -/
theorem strcpy_s_eq_some {n : Nat} {dst a : CharArray n} {src : List UInt8} :
    strcpy_s dst src = some a ↔ (src.takeWhile (· ≠ 0)).length < n
      ∧ a.toList = src.takeWhile (· ≠ 0)
        ++ 0 :: dst.toList.drop ((src.takeWhile (· ≠ 0)).length + 1) := by
  unfold strcpy_s
  generalize src.takeWhile (· ≠ 0) = text
  by_cases hfit : text.length < n
  · rw [if_pos hfit, Option.some.injEq]
    have hlist : (Vector.ofFn (n := n) (fun i =>
        if (i : Nat) < text.length then text.getD i 0 else if (i : Nat) = text.length then 0
        else dst.get i)).toList = text ++ 0 :: dst.toList.drop (text.length + 1) := by
      apply List.ext_getElem
      · simp
        omega
      · intro i h₁ h₂
        have hi : i < n := by simpa using h₁
        rw [Vector.getElem_toList, Vector.getElem_ofFn]
        show (if i < text.length then text.getD i 0 else if i = text.length then 0
          else dst[i]) = _
        rcases Nat.lt_trichotomy i text.length with hlt | rfl | hgt
        · rw [if_pos hlt, List.getElem_append_left hlt]
          simp [hlt]
        · rw [if_neg (by omega), if_pos rfl, List.getElem_append_right (by omega)]
          simp
        · obtain ⟨k, rfl⟩ := Nat.exists_eq_add_of_lt hgt
          rw [if_neg (by omega), if_neg (by omega), List.getElem_append_right (by omega)]
          have hk : text.length + k + 1 - text.length = k + 1 := by omega
          have hk' : text.length + 1 + k = text.length + k + 1 := by omega
          simp [hk, hk']
    rw [← hlist]
    exact ⟨fun h => ⟨hfit, by rw [h]⟩, fun h => (Vector.toList_inj.mp h.2).symm⟩
  · rw [if_neg hfit]
    exact ⟨fun h => absurd h (by simp), fun h => absurd h.1 hfit⟩

/-- A text that is shorter than the array is copied. -/
theorem exists_strcpy_s {n : Nat} (dst : CharArray n) {src : List UInt8} (h : src.length < n) :
    ∃ a, strcpy_s dst src = some a := by
  have hfit : (src.takeWhile (· ≠ 0)).length < n :=
    Nat.lt_of_le_of_lt (List.takeWhile_sublist _).length_le h
  unfold strcpy_s
  exact ⟨_, if_pos hfit⟩

/-- The text a successful `strcpy_s` leaves. -/
theorem text_of_strcpy_s {n : Nat} {dst a : CharArray n} {src : List UInt8}
    (h : strcpy_s dst src = some a) (behind : List UInt8) :
    0 ∈ a.toList ∧ a.text behind = src.takeWhile (· ≠ 0) := by
  obtain ⟨-, hlist⟩ := strcpy_s_eq_some.mp h
  have hmem : 0 ∈ a.toList := by
    rw [hlist]
    exact List.mem_append_right _ List.mem_cons_self
  refine ⟨hmem, ?_⟩
  rw [CharArray.text_of_mem hmem, hlist, List.takeWhile_append_of_pos]
  · rw [List.takeWhile_cons_of_neg (by simp), List.append_nil]
  · intro b hb
    exact List.mem_takeWhile_imp (p := fun x => decide (x ≠ 0)) hb

/-- An array without a NUL holds no text that fits an array of its size. -/
theorem strcpy_s_of_not_mem {n : Nat} {src : CharArray n} (h : 0 ∉ src.toList) (dst : CharArray n)
    (behind : List UInt8) : strcpy_s dst (src.text behind) = none := by
  have hlong : n ≤ ((src.text behind).takeWhile (· ≠ 0)).length := by
    unfold CharArray.text
    rw [if_neg h, List.takeWhile_append_of_pos, List.length_append, Vector.length_toList]
    · exact Nat.le_add_right _ _
    · intro b hb
      have hne : b ≠ 0 := fun hzero => h (hzero ▸ hb)
      simpa using hne
  unfold strcpy_s
  exact if_neg (Nat.not_lt.mpr hlong)

/-- **Copying an array's text**: it works only with a NUL in the source, and gives the same text,
whatever stands behind the two arrays. -/
theorem strcpy_s_text {n : Nat} {src dst a : CharArray n} {behind : List UInt8}
    (h : strcpy_s dst (src.text behind) = some a) (t t' : List UInt8) :
    a.text t = src.text t' := by
  by_cases hmem : 0 ∈ src.toList
  · rw [(text_of_strcpy_s h t).2, CharArray.text_of_mem hmem, CharArray.text_of_mem hmem,
      List.takeWhile_idem]
  · rw [strcpy_s_of_not_mem hmem] at h
    exact absurd h (by simp)

/-- What is copied does not depend on what stands behind the source. -/
theorem strcpy_s_text_congr {n : Nat} (src dst : CharArray n) (behind behind' : List UInt8) :
    strcpy_s dst (src.text behind) = strcpy_s dst (src.text behind') := by
  by_cases hmem : 0 ∈ src.toList
  · rw [CharArray.text_of_mem hmem, CharArray.text_of_mem hmem]
  · rw [strcpy_s_of_not_mem hmem, strcpy_s_of_not_mem hmem]

/-- The text of an array is copied into one of its size exactly when the array holds a NUL. -/
theorem strcpy_s_text_isSome_iff {n : Nat} (src dst : CharArray n) (behind : List UInt8) :
    (strcpy_s dst (src.text behind)).isSome = true ↔ 0 ∈ src.toList := by
  constructor
  · intro hsome
    by_contra hmem
    rw [strcpy_s_of_not_mem hmem] at hsome
    exact absurd hsome (by simp)
  · intro hmem
    obtain ⟨a, hcopy⟩ := exists_strcpy_s dst (CharArray.length_text_lt hmem behind)
    rw [hcopy]
    rfl

/-! ## §3. The header. -/

/-- Two words, a `bool` and the text, and three bytes of padding up to the alignment of 4. -/
def ST_IOHeader.sizeof : Nat := 4 + 4 + 1 + MAX_RESULT_MSG_LEN + 3

structure ST_IOHeader where
  IOType : UInt32 := UInt32.ofNat E_IOType.None.code
  Size : UInt32 := UInt32.ofNat ST_IOHeader.sizeof
  Success : Bool := false
  IOResultInfo : CharArray MAX_RESULT_MSG_LEN := Vector.replicate MAX_RESULT_MSG_LEN 0
  deriving DecidableEq, Repr

namespace ST_IOHeader

/-- The header in the first bytes of a packet. -/
def ofBytes (bs : List UInt8) : ST_IOHeader where
  IOType := wordAt bs 0
  Size := wordAt bs 4
  Success := bs.getD 8 0 ≠ 0
  IOResultInfo := CharArray.ofBytes MAX_RESULT_MSG_LEN bs 9

/-- `SetHeader(E_IOType iotype)`. -/
def SetHeader_IOType (h : ST_IOHeader) (iotype : E_IOType) : ST_IOHeader :=
  { h with IOType := UInt32.ofNat iotype.code }

/-- `SetHeader(bool val)`. -/
def SetHeader_bool (h : ST_IOHeader) (val : Bool) : ST_IOHeader := { h with Success := val }

/-- `SetHeader(string resultmsg)`. -/
def SetHeader_string (h : ST_IOHeader) (resultmsg : List UInt8) : Option ST_IOHeader :=
  (strcpy_s h.IOResultInfo resultmsg).map (fun info => { h with IOResultInfo := info })

/-- `SetHeader(E_IOType iotype, bool val, string resultmsg)`. -/
def SetHeader (h : ST_IOHeader) (iotype : E_IOType) (val : Bool) (resultmsg : List UInt8) :
    Option ST_IOHeader :=
  ((h.SetHeader_IOType iotype).SetHeader_string resultmsg).map (·.SetHeader_bool val)

/-- None of the setters touches `Size`. -/
theorem SetHeader_Size {h h' : ST_IOHeader} {iotype : E_IOType} {val : Bool}
    {resultmsg : List UInt8} (hset : h.SetHeader iotype val resultmsg = some h') :
    h'.Size = h.Size := by
  unfold SetHeader SetHeader_string at hset
  simp only [Option.map_map, Option.map_eq_some_iff] at hset
  obtain ⟨info, -, rfl⟩ := hset
  rfl

end ST_IOHeader

/-! ## §4. The packets. -/

structure ST_UserInfo where
  Header : ST_IOHeader
  Id : CharArray MAX_ID_LEN
  Pw : CharArray MAX_PW_LEN
  deriving DecidableEq, Repr

structure ST_ChatMessage where
  Header : ST_IOHeader
  Id : CharArray MAX_ID_LEN
  Message : CharArray MAX_CHAT_SIZE
  deriving DecidableEq, Repr

structure ST_MoveInfo where
  Header : ST_IOHeader
  Id : CharArray MAX_ID_LEN
  x : UInt32
  y : UInt32
  z : UInt32
  deriving DecidableEq, Repr

namespace ST_UserInfo

def sizeof : Nat := ST_IOHeader.sizeof + MAX_ID_LEN + MAX_PW_LEN

def ofBytes (bs : List UInt8) : ST_UserInfo where
  Header := ST_IOHeader.ofBytes bs
  Id := CharArray.ofBytes MAX_ID_LEN bs ST_IOHeader.sizeof
  Pw := CharArray.ofBytes MAX_PW_LEN bs (ST_IOHeader.sizeof + MAX_ID_LEN)

/-- A fresh object: the header has its initialiser, the two arrays keep what the memory held. -/
def fresh (Id : CharArray MAX_ID_LEN) (Pw : CharArray MAX_PW_LEN) : ST_UserInfo where
  Header := { IOType := UInt32.ofNat E_IOType.S_Login.code, Size := UInt32.ofNat sizeof }
  Id := Id
  Pw := Pw

/-- The initialiser gives the header the size of its object. -/
theorem fresh_Size (Id : CharArray MAX_ID_LEN) (Pw : CharArray MAX_PW_LEN) :
    (fresh Id Pw).Header.Size.toNat = sizeof := rfl

/-- `SetInfo(string id, string pw)`. -/
def SetInfo (u : ST_UserInfo) (id pw : List UInt8) : Option ST_UserInfo :=
  (strcpy_s u.Id id).bind (fun Id => (strcpy_s u.Pw pw).map (fun Pw => { u with Id := Id, Pw := Pw }))

/-- `Id` read as a string; `Pw` stands behind it. -/
def IdText (u : ST_UserInfo) (behind : List UInt8) : List UInt8 := u.Id.text (u.Pw.text behind)

end ST_UserInfo

namespace ST_ChatMessage

def sizeof : Nat := ST_IOHeader.sizeof + MAX_ID_LEN + MAX_CHAT_SIZE

def ofBytes (bs : List UInt8) : ST_ChatMessage where
  Header := ST_IOHeader.ofBytes bs
  Id := CharArray.ofBytes MAX_ID_LEN bs ST_IOHeader.sizeof
  Message := CharArray.ofBytes MAX_CHAT_SIZE bs (ST_IOHeader.sizeof + MAX_ID_LEN)

/-- A fresh object: the header has its initialiser, the two arrays keep what the memory held. -/
def fresh (Id : CharArray MAX_ID_LEN) (Message : CharArray MAX_CHAT_SIZE) : ST_ChatMessage where
  Header := { Size := UInt32.ofNat sizeof }
  Id := Id
  Message := Message

/-- `SetMessage(string id, string Msg)`. -/
def SetMessage (p : ST_ChatMessage) (id Msg : List UInt8) : Option ST_ChatMessage :=
  (strcpy_s p.Id id).bind
    (fun Id => (strcpy_s p.Message Msg).map (fun Message => { p with Id := Id, Message := Message }))

end ST_ChatMessage

namespace ST_MoveInfo

def sizeof : Nat := ST_IOHeader.sizeof + MAX_ID_LEN + 4 + 4 + 4

def ofBytes (bs : List UInt8) : ST_MoveInfo where
  Header := ST_IOHeader.ofBytes bs
  Id := CharArray.ofBytes MAX_ID_LEN bs ST_IOHeader.sizeof
  x := wordAt bs (ST_IOHeader.sizeof + MAX_ID_LEN)
  y := wordAt bs (ST_IOHeader.sizeof + MAX_ID_LEN + 4)
  z := wordAt bs (ST_IOHeader.sizeof + MAX_ID_LEN + 8)

/-- A fresh object: `Id` keeps what the memory held, the coordinates are 0.0, the word 0. -/
def fresh (Id : CharArray MAX_ID_LEN) : ST_MoveInfo where
  Header := { Size := UInt32.ofNat sizeof }
  Id := Id
  x := 0
  y := 0
  z := 0

/-- `SetVector(float X, float Y, float Z)`. -/
def SetVector (p : ST_MoveInfo) (X Y Z : UInt32) : ST_MoveInfo := { p with x := X, y := Y, z := Z }

/-- `SetID(string id)`. -/
def SetID (p : ST_MoveInfo) (id : List UInt8) : Option ST_MoveInfo :=
  (strcpy_s p.Id id).map (fun Id => { p with Id := Id })

end ST_MoveInfo

end YServerCore
