/-
  YServerCore.Requests.Wire — packet objects across the wire.

  A packet object stands in memory, `SendPacket` copies as many bytes as its header says, and the
  other side's `HandleData` casts the bytes at its `DataPointer` to the packet type.  The arrays
  of a fresh object hold whatever the memory held, `strcpy_s` writes the front of them, and all of
  their bytes travel.

  Main results:
    * `PacketStruct.survives` — an object whose header has the size of its struct arrives as it is.
    * `Built.size` of each packet type — whatever setters were called, the header has that size.
    * `packet_fields_survive` — every field reads back what the setters put there.
-/
import YServerCore.Requests.Objects
import YServerCore.Requests.Replies
import YServerCore.Send.SendPacket

namespace YServerCore

open ByteMemory (Mem read write word32)

/-! ## §1. Structs that travel. -/

/-- A packet type: the size of its struct, its bytes in memory, and the cast of bytes to it. -/
structure PacketStruct (P : Type) where
  sizeof : Nat
  Header : P → ST_IOHeader
  store : Mem → P → Mem
  ofBytes : List UInt8 → P
  /-- The bytes of an object, all members at their offsets, are cast back to it. -/
  ofBytes_store : ∀ m p, ofBytes (read (store m p) 0 sizeof) = p
  storedAt : ∀ m p, ST_IOHeader.StoredAt (store m p) (Header p)

def ST_UserInfo.struct : PacketStruct ST_UserInfo where
  sizeof := ST_UserInfo.sizeof
  Header := ST_UserInfo.Header
  store := ST_UserInfo.store
  ofBytes := ST_UserInfo.ofBytes
  ofBytes_store := ST_UserInfo.ofBytes_store
  storedAt := ST_UserInfo.storedAt_store

def ST_ChatMessage.struct : PacketStruct ST_ChatMessage where
  sizeof := ST_ChatMessage.sizeof
  Header := ST_ChatMessage.Header
  store := ST_ChatMessage.store
  ofBytes := ST_ChatMessage.ofBytes
  ofBytes_store := ST_ChatMessage.ofBytes_store
  storedAt := ST_ChatMessage.storedAt_store

def ST_MoveInfo.struct : PacketStruct ST_MoveInfo where
  sizeof := ST_MoveInfo.sizeof
  Header := ST_MoveInfo.Header
  store := ST_MoveInfo.store
  ofBytes := ST_MoveInfo.ofBytes
  ofBytes_store := ST_MoveInfo.ofBytes_store
  storedAt := ST_MoveInfo.storedAt_store

namespace PacketStruct

variable {P : Type} (S : PacketStruct P)

/-- The other side's read buffer, with the bytes `SendPacket` takes of an object at its `DataPointer`. -/
def arrived (memory Data : Mem) (pos : Nat) (p : P) : ST_IOData :=
  { Usage := .Read
    CurBytes := pos + word32 (S.store memory p) 4
    DataPointer := pos
    Data := write Data pos (packetBytes (S.store memory p)) }

/-- The packet a handler of this type is called with. -/
def handed (io : ST_IOData) : P :=
  S.ofBytes (io.HandleData (fun _ : Unit => S.sizeof) () (io.headerSize io.DataPointer)).1.packet

/-- **The object survives the wire**: its header has the size of its struct, and from any memory it
stands in, into any read buffer and at any place there, it arrives as it is. -/
def Survives (p : P) : Prop :=
  (S.Header p).Size.toNat = S.sizeof
    ∧ ∀ (memory Data : Mem) (pos : Nat), S.handed (S.arrived memory Data pos p) = p

/-- **An object whose header has the size of its struct survives.** -/
theorem survives {p : P} (hsize : (S.Header p).Size.toNat = S.sizeof) : S.Survives p := by
  refine ⟨hsize, fun memory Data pos => ?_⟩
  have hclaim : word32 (S.store memory p) 4 = S.sizeof :=
    (S.storedAt memory p).word_Size.trans hsize
  -- as many bytes arrive as the cast looks at
  have hbytes : read (write Data pos (packetBytes (S.store memory p))) pos S.sizeof
      = read (S.store memory p) 0 S.sizeof := by
    have hself := ByteMemory.read_write_self Data pos (packetBytes (S.store memory p))
    rw [length_packetBytes, hclaim] at hself
    rw [hself]
    show read (S.store memory p) 0 (word32 (S.store memory p) 4) = _
    rw [hclaim]
  show S.ofBytes (read (write Data pos (packetBytes (S.store memory p))) pos S.sizeof) = p
  rw [hbytes]
  exact S.ofBytes_store memory p

end PacketStruct

/-! ## §2. Objects the setters build. -/

/-- One call of an overload of `SetHeader`. -/
inductive ST_IOHeader.SetBy : ST_IOHeader → ST_IOHeader → Prop where
  | IOType {h : ST_IOHeader} (iotype : E_IOType) : SetBy h (h.SetHeader_IOType iotype)
  | bool {h : ST_IOHeader} (val : Bool) : SetBy h (h.SetHeader_bool val)
  | string {h h' : ST_IOHeader} (resultmsg : List UInt8) :
      h.SetHeader_string resultmsg = some h' → SetBy h h'
  | all {h h' : ST_IOHeader} (iotype : E_IOType) (val : Bool) (resultmsg : List UInt8) :
      h.SetHeader iotype val resultmsg = some h' → SetBy h h'

/-- No overload touches `Size`. -/
theorem ST_IOHeader.SetBy.size {h h' : ST_IOHeader} (hset : SetBy h h') : h'.Size = h.Size := by
  cases hset with
  | IOType iotype => rfl
  | bool val => rfl
  | string resultmsg hsome =>
      unfold SetHeader_string at hsome
      obtain ⟨info, -, rfl⟩ := Option.map_eq_some_iff.mp hsome
      rfl
  | all iotype val resultmsg hsome => exact SetHeader_Size hsome

/-- An object on which setters were called, in any order, after it was constructed in memory that held
anything. -/
inductive ST_UserInfo.Built : ST_UserInfo → Prop where
  | fresh (Id : CharArray MAX_ID_LEN) (Pw : CharArray MAX_PW_LEN) : Built (fresh Id Pw)
  | SetHeader {u : ST_UserInfo} {Header : ST_IOHeader} :
      Built u → u.Header.SetBy Header → Built { u with Header := Header }
  | SetInfo {u u' : ST_UserInfo} (id pw : List UInt8) :
      Built u → u.SetInfo id pw = some u' → Built u'

/-- An object on which setters were called. -/
inductive ST_ChatMessage.Built : ST_ChatMessage → Prop where
  | fresh (Id : CharArray MAX_ID_LEN) (Message : CharArray MAX_CHAT_SIZE) : Built (fresh Id Message)
  | SetHeader {p : ST_ChatMessage} {Header : ST_IOHeader} :
      Built p → p.Header.SetBy Header → Built { p with Header := Header }
  | SetMessage {p p' : ST_ChatMessage} (id Msg : List UInt8) :
      Built p → p.SetMessage id Msg = some p' → Built p'

/-- An object on which setters were called. -/
inductive ST_MoveInfo.Built : ST_MoveInfo → Prop where
  | fresh (Id : CharArray MAX_ID_LEN) : Built (fresh Id)
  | SetHeader {p : ST_MoveInfo} {Header : ST_IOHeader} :
      Built p → p.Header.SetBy Header → Built { p with Header := Header }
  | SetVector {p : ST_MoveInfo} (X Y Z : UInt32) : Built p → Built (p.SetVector X Y Z)
  | SetID {p p' : ST_MoveInfo} (id : List UInt8) : Built p → p.SetID id = some p' → Built p'

/-- Two copies, one after the other, into arrays of one object. -/
theorem strcpy_s_pair_eq_some {P : Type} {n k : Nat} {a : CharArray n} {b : CharArray k}
    {x y : List UInt8} {f : CharArray n → CharArray k → P} {p : P} :
    (strcpy_s a x).bind (fun A => (strcpy_s b y).map (f A)) = some p
      ↔ ∃ A B, strcpy_s a x = some A ∧ strcpy_s b y = some B ∧ p = f A B := by
  rw [Option.bind_eq_some_iff]
  apply exists_congr
  intro A
  rw [Option.map_eq_some_iff]
  constructor
  · intro h
    obtain ⟨hfirst, B, hsecond, heq⟩ := h
    exact ⟨B, hfirst, hsecond, heq.symm⟩
  · intro h
    obtain ⟨B, hfirst, hsecond, heq⟩ := h
    exact ⟨hfirst, B, hsecond, heq.symm⟩

/-- What `SetInfo` writes: the two texts. -/
theorem ST_UserInfo.SetInfo_eq_some {u u' : ST_UserInfo} {id pw : List UInt8} :
    u.SetInfo id pw = some u' ↔ ∃ Id Pw, strcpy_s u.Id id = some Id ∧ strcpy_s u.Pw pw = some Pw
      ∧ u' = { u with Id := Id, Pw := Pw } := by
  unfold SetInfo
  exact strcpy_s_pair_eq_some

/-- What `SetMessage` writes: the two texts. -/
theorem ST_ChatMessage.SetMessage_eq_some {p p' : ST_ChatMessage} {id Msg : List UInt8} :
    p.SetMessage id Msg = some p' ↔ ∃ Id Message, strcpy_s p.Id id = some Id
      ∧ strcpy_s p.Message Msg = some Message ∧ p' = { p with Id := Id, Message := Message } := by
  unfold SetMessage
  exact strcpy_s_pair_eq_some

/-- What `SetID` writes: the text. -/
theorem ST_MoveInfo.SetID_eq_some {p p' : ST_MoveInfo} {id : List UInt8} :
    p.SetID id = some p' ↔ ∃ Id, strcpy_s p.Id id = some Id ∧ p' = { p with Id := Id } := by
  unfold SetID
  rw [Option.map_eq_some_iff]
  apply exists_congr
  intro Id
  rw [eq_comm (a := p')]

/-- **Setters keep the size the initialiser gave the header.** -/
theorem ST_UserInfo.Built.size {u : ST_UserInfo} (h : u.Built) :
    u.Header.Size.toNat = ST_UserInfo.sizeof := by
  induction h with
  | fresh Id Pw => rfl
  | SetHeader _ hset ih =>
      show (_ : ST_IOHeader).Size.toNat = _
      rw [hset.size]
      exact ih
  | SetInfo id pw _ hset ih =>
      obtain ⟨Id, Pw, -, -, rfl⟩ := SetInfo_eq_some.mp hset
      exact ih

theorem ST_ChatMessage.Built.size {p : ST_ChatMessage} (h : p.Built) :
    p.Header.Size.toNat = ST_ChatMessage.sizeof := by
  induction h with
  | fresh Id Message => rfl
  | SetHeader _ hset ih =>
      show (_ : ST_IOHeader).Size.toNat = _
      rw [hset.size]
      exact ih
  | SetMessage id Msg _ hset ih =>
      obtain ⟨Id, Message, -, -, rfl⟩ := SetMessage_eq_some.mp hset
      exact ih

theorem ST_MoveInfo.Built.size {p : ST_MoveInfo} (h : p.Built) :
    p.Header.Size.toNat = ST_MoveInfo.sizeof := by
  induction h with
  | fresh Id => rfl
  | SetHeader _ hset ih =>
      show (_ : ST_IOHeader).Size.toNat = _
      rw [hset.size]
      exact ih
  | SetVector X Y Z _ ih => exact ih
  | SetID id _ hset ih =>
      obtain ⟨Id, -, rfl⟩ := SetID_eq_some.mp hset
      exact ih

/-! ## §3. What arrives. -/

/-- A text without NUL that fits an array of `n` bytes with its NUL. -/
abbrev FieldText (n : Nat) := {t : List UInt8 // t.length < n ∧ 0 ∉ t}

/-- **A field takes a text that fits and gives it back.** -/
theorem FieldText.copied {n : Nat} (t : FieldText n) (dst : CharArray n) :
    ∃ a, strcpy_s dst t.val = some a ∧ ∀ behind, a.text behind = t.val := by
  obtain ⟨a, hcopy⟩ := exists_strcpy_s dst t.property.1
  refine ⟨a, hcopy, fun behind => ?_⟩
  rw [(text_of_strcpy_s hcopy behind).2]
  -- no byte of the text ends it early
  apply List.takeWhile_eq_self_iff.mpr
  intro b hb
  have hne : b ≠ 0 := fun hzero => t.property.2 (hzero ▸ hb)
  simpa using hne

/-- The header has this type, this flag, and this text, as far as a C string goes. -/
def ST_IOHeader.Says (h : ST_IOHeader) (iotype : E_IOType) (val : Bool) (resultmsg : List UInt8) :
    Prop :=
  h.IOType.toNat = iotype.code ∧ h.Success = val
    ∧ ∀ behind, h.IOResultInfo.text behind = resultmsg.takeWhile (· ≠ 0)

/-- **A header takes a text that fits**, over whatever it said before. -/
theorem ST_IOHeader.exists_SetHeader (h : ST_IOHeader) (iotype : E_IOType) (val : Bool)
    (resultmsg : {t : List UInt8 // t.length < MAX_RESULT_MSG_LEN}) :
    ∃ h', h.SetHeader iotype val resultmsg.val = some h' ∧ h'.Says iotype val resultmsg.val := by
  obtain ⟨info, hcopy⟩ :=
    exists_strcpy_s (h.SetHeader_IOType iotype).IOResultInfo resultmsg.property
  have hset : ∃ h', h.SetHeader iotype val resultmsg.val = some h' := by
    unfold SetHeader SetHeader_string
    rw [hcopy]
    exact ⟨_, rfl⟩
  obtain ⟨h', hset⟩ := hset
  obtain ⟨htype, hsuccess, htext⟩ := SetHeader_spec hset
  refine ⟨h', hset, ?_, hsuccess, htext⟩
  rw [htype]
  cases iotype <;> rfl

/-- The setters of each packet type, over whatever the object held. -/
theorem ST_UserInfo.Built.set {u : ST_UserInfo} (h : u.Built) (iotype : E_IOType) (val : Bool)
    (resultmsg : {t : List UInt8 // t.length < MAX_RESULT_MSG_LEN}) (id : FieldText MAX_ID_LEN)
    (pw : FieldText MAX_PW_LEN) :
    ∃ Header u', u.Header.SetHeader iotype val resultmsg.val = some Header
      ∧ { u with Header := Header }.SetInfo id.val pw.val = some u' ∧ u'.Built
      ∧ u'.Header.Says iotype val resultmsg.val
      ∧ (∀ behind, u'.Id.text behind = id.val) ∧ ∀ behind, u'.Pw.text behind = pw.val := by
  obtain ⟨Header, hset, hsays⟩ := u.Header.exists_SetHeader iotype val resultmsg
  obtain ⟨Id, hid, hidText⟩ := id.copied u.Id
  obtain ⟨Pw, hpw, hpwText⟩ := pw.copied u.Pw
  have hinfo : { u with Header := Header }.SetInfo id.val pw.val
      = some { u with Header := Header, Id := Id, Pw := Pw } :=
    ST_UserInfo.SetInfo_eq_some.mpr ⟨Id, Pw, hid, hpw, rfl⟩
  have hbuilt := (h.SetHeader (.all iotype val resultmsg.val hset)).SetInfo id.val pw.val hinfo
  exact ⟨Header, _, hset, hinfo, hbuilt, hsays, hidText, hpwText⟩

theorem ST_ChatMessage.Built.set {p : ST_ChatMessage} (h : p.Built) (iotype : E_IOType) (val : Bool)
    (resultmsg : {t : List UInt8 // t.length < MAX_RESULT_MSG_LEN}) (id : FieldText MAX_ID_LEN)
    (Msg : FieldText MAX_CHAT_SIZE) :
    ∃ Header p', p.Header.SetHeader iotype val resultmsg.val = some Header
      ∧ { p with Header := Header }.SetMessage id.val Msg.val = some p' ∧ p'.Built
      ∧ p'.Header.Says iotype val resultmsg.val
      ∧ (∀ behind, p'.Id.text behind = id.val) ∧ ∀ behind, p'.Message.text behind = Msg.val := by
  obtain ⟨Header, hset, hsays⟩ := p.Header.exists_SetHeader iotype val resultmsg
  obtain ⟨Id, hid, hidText⟩ := id.copied p.Id
  obtain ⟨Message, hmsg, hmsgText⟩ := Msg.copied p.Message
  have hmessage : { p with Header := Header }.SetMessage id.val Msg.val
      = some { p with Header := Header, Id := Id, Message := Message } :=
    ST_ChatMessage.SetMessage_eq_some.mpr ⟨Id, Message, hid, hmsg, rfl⟩
  have hbuilt :=
    (h.SetHeader (.all iotype val resultmsg.val hset)).SetMessage id.val Msg.val hmessage
  exact ⟨Header, _, hset, hmessage, hbuilt, hsays, hidText, hmsgText⟩

theorem ST_MoveInfo.Built.set {p : ST_MoveInfo} (h : p.Built) (iotype : E_IOType) (val : Bool)
    (resultmsg : {t : List UInt8 // t.length < MAX_RESULT_MSG_LEN}) (id : FieldText MAX_ID_LEN)
    (X Y Z : UInt32) :
    ∃ Header p', p.Header.SetHeader iotype val resultmsg.val = some Header
      ∧ ({ p with Header := Header }.SetVector X Y Z).SetID id.val = some p' ∧ p'.Built
      ∧ p'.Header.Says iotype val resultmsg.val
      ∧ (∀ behind, p'.Id.text behind = id.val) ∧ p'.x = X ∧ p'.y = Y ∧ p'.z = Z := by
  obtain ⟨Header, hset, hsays⟩ := p.Header.exists_SetHeader iotype val resultmsg
  obtain ⟨Id, hid, hidText⟩ := id.copied p.Id
  have hcopied : ({ p with Header := Header }.SetVector X Y Z).SetID id.val
      = some { p with Header := Header, Id := Id, x := X, y := Y, z := Z } :=
    ST_MoveInfo.SetID_eq_some.mpr ⟨Id, hid, rfl⟩
  have hbuilt := ((h.SetHeader (.all iotype val resultmsg.val hset)).SetVector X Y Z).SetID
    id.val hcopied
  exact ⟨Header, _, hset, hcopied, hbuilt, hsays, hidText, rfl, rfl, rfl⟩

/-- **Packet fields survive the wire.**  Whatever setters were called on a packet object, its header has
the size of its struct and the other side's cast gives the same object.  And over whatever an
object held, a header set with any type, any flag and any text that fits, and fields set from
texts and coordinates, read back on the other side as they were set. -/
theorem packet_fields_survive :
    (∀ u : ST_UserInfo, u.Built → ST_UserInfo.struct.Survives u)
    ∧ (∀ p : ST_ChatMessage, p.Built → ST_ChatMessage.struct.Survives p)
    ∧ (∀ p : ST_MoveInfo, p.Built → ST_MoveInfo.struct.Survives p)
    ∧ ∀ (iotype : E_IOType) (val : Bool)
        (resultmsg : {t : List UInt8 // t.length < MAX_RESULT_MSG_LEN})
        (memory Data : Mem) (pos : Nat),
      (∀ u : ST_UserInfo, u.Built → ∀ (id : FieldText MAX_ID_LEN) (pw : FieldText MAX_PW_LEN),
        ∃ Header u', u.Header.SetHeader iotype val resultmsg.val = some Header
          ∧ { u with Header := Header }.SetInfo id.val pw.val = some u'
          ∧ (let v := ST_UserInfo.struct.handed (ST_UserInfo.struct.arrived memory Data pos u')
            v.Header.Says iotype val resultmsg.val
              ∧ (∀ behind, v.Id.text behind = id.val) ∧ ∀ behind, v.Pw.text behind = pw.val))
      ∧ (∀ p : ST_ChatMessage, p.Built → ∀ (id : FieldText MAX_ID_LEN) (Msg : FieldText MAX_CHAT_SIZE),
        ∃ Header p', p.Header.SetHeader iotype val resultmsg.val = some Header
          ∧ { p with Header := Header }.SetMessage id.val Msg.val = some p'
          ∧ (let q := ST_ChatMessage.struct.handed (ST_ChatMessage.struct.arrived memory Data pos p')
            q.Header.Says iotype val resultmsg.val
              ∧ (∀ behind, q.Id.text behind = id.val) ∧ ∀ behind, q.Message.text behind = Msg.val))
      ∧ ∀ p : ST_MoveInfo, p.Built → ∀ (id : FieldText MAX_ID_LEN) (X Y Z : UInt32),
        ∃ Header p', p.Header.SetHeader iotype val resultmsg.val = some Header
          ∧ ({ p with Header := Header }.SetVector X Y Z).SetID id.val = some p'
          ∧ (let q := ST_MoveInfo.struct.handed (ST_MoveInfo.struct.arrived memory Data pos p')
            q.Header.Says iotype val resultmsg.val
              ∧ (∀ behind, q.Id.text behind = id.val) ∧ q.x = X ∧ q.y = Y ∧ q.z = Z) := by
  have huser : ∀ u : ST_UserInfo, u.Built → ST_UserInfo.struct.Survives u :=
    fun u hu => ST_UserInfo.struct.survives hu.size
  have hchat : ∀ p : ST_ChatMessage, p.Built → ST_ChatMessage.struct.Survives p :=
    fun p hp => ST_ChatMessage.struct.survives hp.size
  have hmove : ∀ p : ST_MoveInfo, p.Built → ST_MoveInfo.struct.Survives p :=
    fun p hp => ST_MoveInfo.struct.survives hp.size
  refine ⟨huser, hchat, hmove, fun iotype val resultmsg memory Data pos => ⟨?_, ?_, ?_⟩⟩
  · intro u hu id pw
    obtain ⟨Header, u', hset, hinfo, hbuilt, hsaid⟩ := hu.set iotype val resultmsg id pw
    refine ⟨Header, u', hset, hinfo, ?_⟩
    rw [(huser u' hbuilt).2 memory Data pos]
    exact hsaid
  · intro p hp id Msg
    obtain ⟨Header, p', hset, hmessage, hbuilt, hsaid⟩ := hp.set iotype val resultmsg id Msg
    refine ⟨Header, p', hset, hmessage, ?_⟩
    rw [(hchat p' hbuilt).2 memory Data pos]
    exact hsaid
  · intro p hp id X Y Z
    obtain ⟨Header, p', hset, hcopied, hbuilt, hsaid⟩ := hp.set iotype val resultmsg id X Y Z
    refine ⟨Header, p', hset, hcopied, ?_⟩
    rw [(hmove p' hbuilt).2 memory Data pos]
    exact hsaid

/-- A fresh object in a memory full of sevens, with a header, an id and a password set. -/
theorem packet_fields_survive_login :
    ∃ Header u', (ST_UserInfo.fresh (Vector.replicate MAX_ID_LEN 7)
          (Vector.replicate MAX_PW_LEN 7)).Header.SetHeader .S_Login true (ascii "welcome") = some Header
      ∧ { ST_UserInfo.fresh (Vector.replicate MAX_ID_LEN 7) (Vector.replicate MAX_PW_LEN 7) with
          Header := Header }.SetInfo (ascii "alice") (ascii "secret") = some u'
      ∧ (let v := ST_UserInfo.struct.handed (ST_UserInfo.struct.arrived (fun _ => 7) (fun _ => 9) 80 u')
        v.Header.Says .S_Login true (ascii "welcome")
          ∧ (∀ behind, v.Id.text behind = ascii "alice")
          ∧ ∀ behind, v.Pw.text behind = ascii "secret") :=
  (packet_fields_survive.2.2.2 .S_Login true ⟨ascii "welcome", by decide⟩ (fun _ => 7) (fun _ => 9)
    80).1 _ (.fresh _ _) ⟨ascii "alice", by decide⟩ ⟨ascii "secret", by decide⟩

/-- A text of 23 bytes fits an `Id`, one of 24 does not. -/
example : (strcpy_s (Vector.replicate MAX_ID_LEN 7) (List.replicate 23 65)).isSome = true
    ∧ (strcpy_s (Vector.replicate MAX_ID_LEN 7) (List.replicate 24 65)).isSome = false := by
  decide

end YServerCore
