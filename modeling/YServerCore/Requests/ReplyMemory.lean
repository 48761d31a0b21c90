/-
  YServerCore.Requests.ReplyMemory — what the memory a reply is built in tells the client.

  `RecvCreateAccountRequest` constructs its reply on the stack.  The initialiser of the header and
  the assignments on the three paths of the handler write the header, and nothing writes `Id` and
  `Pw`: the reply is sent with the bytes that stood there before.

  Main results:
    * `replyFields_eq` — the field bytes of the reply: a header that depends on nothing, and the
      48 bytes behind it as the memory has them.
    * `replies_same_iff` — two replies to one request are the same exactly when the memories they
      are built in are the same at `Id` and `Pw`.
-/
import YServerCore.Requests.Objects
import YServerCore.Requests.Replies
import YServerCore.Send.SendPacket

namespace YServerCore

open ByteMemory (Mem read write le32 word32)

/-! ## §1. The reply in its memory. -/

/-- The environment, where the reply is constructed at the first byte of `memory`. -/
def Environment.replyAt (env : Environment) (memory : Mem) : Environment :=
  { env with
    Id := CharArray.ofBytes MAX_ID_LEN (read memory 0 ST_UserInfo.sizeof) ST_IOHeader.sizeof
    Pw := CharArray.ofBytes MAX_PW_LEN (read memory 0 ST_UserInfo.sizeof)
      (ST_IOHeader.sizeof + MAX_ID_LEN) }

/-- The bytes of a packet without the padding behind the header's text. -/
def fieldBytes (bytes : List UInt8) : List UInt8 :=
  bytes.take (9 + MAX_RESULT_MSG_LEN) ++ bytes.drop ST_IOHeader.sizeof

/-- The field bytes of what `RecvCreateAccountRequest` passes to `SendPacket`. -/
def replyFields (env : Environment) (session : SessionInfo) (userinfo : ST_UserInfo)
    (memory : Mem) : Option (List UInt8) :=
  (RecvCreateAccountRequest (env.replyAt memory) session userinfo).map
    (fun r => (r.2.map (fun out => fieldBytes (packetBytes (out.packet.store memory)))).flatten)

/-- What the database says to a request: the id is taken, or it is not and the account is created or
not. -/
inductive DatabaseOutcome where
  | taken
  | created (result : Bool)
  deriving DecidableEq, Repr

/-- The environment in which the database says this. -/
def Environment.saying (env : Environment) (outcome : DatabaseOutcome) : Environment :=
  { env with
    IsValidID := fun _ => some (outcome = .taken)
    CreateAccount := fun _ => some (outcome = .created true) }

/-! ## §2. The bytes of the reply. -/

/-- An array that is cast out of memory has the memory's bytes. -/
theorem CharArray.toList_ofBytes_read {n off len : Nat} (m : Mem) (h : off + n ≤ len) :
    (CharArray.ofBytes n (read m 0 len) off).toList = read m off n := by
  -- the array with these bytes is the one the cast gives
  have hcast : CharArray.ofBytes n (read m 0 len) off
      = (⟨(read m off n).toArray, by simp⟩ : CharArray n) :=
    CharArray.ofBytes_read h rfl
  rw [hcast]
  rfl

/-- The bytes of an object's members, without the padding. -/
theorem ST_UserInfo.fieldBytes_store (m : Mem) (u : ST_UserInfo) :
    fieldBytes (read (u.store m) 0 ST_UserInfo.sizeof)
      = read (u.store m) 0 (9 + MAX_RESULT_MSG_LEN) ++ (u.Id.toList ++ u.Pw.toList) := by
  obtain ⟨hid, hpw⟩ := u.read_store m
  unfold fieldBytes
  rw [ByteMemory.take_read _ _ (by decide), ByteMemory.drop_read _ _ (by decide), ← hid, ← hpw]
  have hrest : read (u.store m) (0 + ST_IOHeader.sizeof) (ST_UserInfo.sizeof - ST_IOHeader.sizeof)
      = read (u.store m) ST_IOHeader.sizeof MAX_ID_LEN
        ++ read (u.store m) (ST_IOHeader.sizeof + MAX_ID_LEN) MAX_PW_LEN := by
    rw [Nat.zero_add]
    exact ByteMemory.read_add (u.store m) ST_IOHeader.sizeof MAX_ID_LEN MAX_PW_LEN
  rw [hrest]

/-- The bytes of a header's members. -/
def ST_IOHeader.fields (h : ST_IOHeader) : List UInt8 :=
  le32 h.IOType ++ (le32 h.Size ++ ([if h.Success then 1 else 0] ++ h.IOResultInfo.toList))

/-- Up to the padding, a stored header is its members. -/
theorem ST_IOHeader.StoredAt.read_fields {m : Mem} {h : ST_IOHeader} (hm : StoredAt m h) :
    read m 0 (9 + MAX_RESULT_MSG_LEN) = h.fields := by
  have hsplit : 9 + MAX_RESULT_MSG_LEN = 4 + (4 + (1 + MAX_RESULT_MSG_LEN)) := rfl
  rw [hsplit, ByteMemory.read_add, ByteMemory.read_add, ByteMemory.read_add]
  unfold fields
  rw [← hm.IOType, ← hm.Size, ← hm.Success, ← hm.IOResultInfo]

/-- The header of every reply: the initialiser's, with the flag that the `bool` overload sets. -/
def replyHeader : ST_IOHeader where
  IOType := UInt32.ofNat E_IOType.S_Login.code
  Size := UInt32.ofNat ST_UserInfo.sizeof
  Success := true

/-- The one packet of the three paths. -/
theorem RecvCreateAccountRequest_saying (env : Environment) (outcome : DatabaseOutcome)
    (session : SessionInfo) (userinfo : ST_UserInfo) :
    RecvCreateAccountRequest (env.saying outcome) session userinfo
      = some (session, [.SendPacket (.userInfo ⟨replyHeader, env.Id, env.Pw⟩)]) := by
  cases outcome with
  | taken => rfl
  | created result => cases result <;> rfl

/-- The field bytes of a reply that `SendPacket` copies. -/
theorem fieldBytes_reply (u : ST_UserInfo) (memory : Mem) (hheader : u.Header = replyHeader) :
    fieldBytes (packetBytes (u.store memory))
      = replyHeader.fields ++ (u.Id.toList ++ u.Pw.toList) := by
  have hstored := u.storedAt_store memory
  -- `SendPacket` takes the bytes of the whole struct
  have hclaim : word32 (u.store memory) 4 = ST_UserInfo.sizeof := by
    rw [hstored.word_Size, hheader]
    rfl
  unfold packetBytes
  rw [hclaim, ST_UserInfo.fieldBytes_store, hstored.read_fields, hheader]

/-- **The field bytes of a reply**: its header, and the bytes its memory has behind it. -/
theorem replyFields_eq (env : Environment) (outcome : DatabaseOutcome) (session : SessionInfo)
    (userinfo : ST_UserInfo) (memory : Mem) :
    replyFields (env.saying outcome) session userinfo memory
      = some (replyHeader.fields ++ read memory ST_IOHeader.sizeof (MAX_ID_LEN + MAX_PW_LEN)) := by
  have hreply := RecvCreateAccountRequest_saying (env.replyAt memory) outcome session userinfo
  -- `Id` and `Pw` are the bytes that stood there
  have hid : (env.replyAt memory).Id.toList = read memory ST_IOHeader.sizeof MAX_ID_LEN :=
    CharArray.toList_ofBytes_read memory (by decide)
  have hpw : (env.replyAt memory).Pw.toList
      = read memory (ST_IOHeader.sizeof + MAX_ID_LEN) MAX_PW_LEN :=
    CharArray.toList_ofBytes_read memory (by decide)
  unfold replyFields
  rw [show (env.saying outcome).replyAt memory = (env.replyAt memory).saying outcome from rfl,
    hreply, Option.map_some, List.map_cons, List.map_nil, List.flatten_cons, List.flatten_nil,
    List.append_nil]
  have hbytes := fieldBytes_reply ⟨replyHeader, (env.replyAt memory).Id, (env.replyAt memory).Pw⟩
    memory rfl
  rw [ByteMemory.read_add, ← hid, ← hpw]
  exact congrArg some hbytes

/-! ## §3. Two memories. -/

/-- **Two replies to one request are the same exactly when the memories they are built in are**, at the
bytes of `Id` and `Pw`: for every session, every request and everything the database may say. -/
theorem replies_same_iff (env : Environment) (outcome : DatabaseOutcome) (session : SessionInfo)
    (userinfo : ST_UserInfo) (memory memory' : Mem) :
    replyFields (env.saying outcome) session userinfo memory
        = replyFields (env.saying outcome) session userinfo memory'
      ↔ read memory ST_IOHeader.sizeof (MAX_ID_LEN + MAX_PW_LEN)
        = read memory' ST_IOHeader.sizeof (MAX_ID_LEN + MAX_PW_LEN) := by
  rw [replyFields_eq, replyFields_eq, Option.some.injEq]
  exact List.append_right_inj _

/-- A memory with an `A` where the first byte of the reply's `Pw` is built. -/
def oldPassword : Mem := fun i => if i = ST_IOHeader.sizeof + MAX_ID_LEN then 65 else 0

/-- **A reply that tells what was in memory**: the same request, for an id that is taken, is answered
with other bytes where an old password stood. -/
theorem reply_tells_memory :
    replyFields (Server.refusing.saying .taken) { UserInfo := AccountRequest.alice }
        AccountRequest.alice (fun _ => 0)
      ≠ replyFields (Server.refusing.saying .taken) { UserInfo := AccountRequest.alice }
        AccountRequest.alice oldPassword := by
  rw [replyFields_eq, replyFields_eq]
  decide

end YServerCore
