/-
  YServerCore.Client.SendToServer — what the client gives to its socket.

  An operation builds a packet object in memory that holds whatever it held, and gives a number of
  bytes, from the object's first byte on, to the socket.  `SendToServer` takes the number from the
  object's header; `SendUserInfo` takes `BUF_SIZE`, for an object of 92 bytes whose type is the one of
  a server packet.

  Main results:
    * `SendToServer_chat` — a chat built as in `main` is given to the socket as one frame.
    * `step_frame` — a session that keeps nothing dispatches just the frame it receives.
    * `parsed_iff` — the server parses what the client sends exactly when no operation is
      `SendUserInfo`.
-/
import YServerCore.Receive.Framing
import YServerCore.Requests.Objects

namespace YServerCore

open ByteMemory (Mem read write leNat le32 word32)
open RequestHandler (packetSize)
open PacketProcess (Handler)

/-! ## §1. The operations. -/

/-- A call of `send` or `WSASend`: the object it points to, and the number of bytes it is given. -/
structure SocketWrite where
  object : Mem
  sizeof : Nat
  len : Nat

/-- The bytes the socket gets. -/
def SocketWrite.bytes (w : SocketWrite) : List UInt8 := read w.object 0 w.len

/-- A send operation of the client, with the memory its packet object is built in and the bytes the
object's arrays have there. -/
inductive ClientOperation where
  | SendUserInfo (memory : Mem) (Id : CharArray MAX_ID_LEN) (Pw : CharArray MAX_PW_LEN)
  | SendToServer (memory : Mem) (Id : CharArray MAX_ID_LEN) (Message : CharArray MAX_CHAT_SIZE)
      (id : {t : List UInt8 // t.length < MAX_ID_LEN})
      (Msg : {t : List UInt8 // t.length < MAX_CHAT_SIZE})

namespace Client

/-- `"YuChoongHo"`. -/
def Name : List UInt8 :=
  ['Y', 'u', 'C', 'h', 'o', 'o', 'n', 'g', 'H', 'o'].map (fun c => UInt8.ofNat c.toNat)

/-- `Client::SendUserInfo`. -/
def SendUserInfo (memory : Mem) (Id : CharArray MAX_ID_LEN) (Pw : CharArray MAX_PW_LEN) :
    Option SocketWrite :=
  ((ST_UserInfo.fresh Id Pw).SetInfo Name Name).map
    (fun Info => ⟨Info.store memory, ST_UserInfo.sizeof, BUF_SIZE⟩)

/-- `Client::SendToServer` of an object of this size. -/
def SendToServer (data : Mem) (sizeof : Nat) : SocketWrite := ⟨data, sizeof, word32 data 4⟩

/-- The chat packet `main` builds. -/
def chatMessage (Id : CharArray MAX_ID_LEN) (Message : CharArray MAX_CHAT_SIZE)
    (id Msg : List UInt8) : Option ST_ChatMessage :=
  let Packet := ST_ChatMessage.fresh Id Message
  { Packet with Header := { Packet.Header.SetHeader_IOType .C_Chat with
      Size := UInt32.ofNat ST_ChatMessage.sizeof } }.SetMessage id Msg

end Client

namespace ClientOperation

/-- What an operation gives to the socket; `none` when a text does not fit its array. -/
def perform : ClientOperation → Option SocketWrite
  | SendUserInfo memory Id Pw => Client.SendUserInfo memory Id Pw
  | SendToServer memory Id Message id Msg =>
      (Client.chatMessage Id Message id.val Msg.val).map
        (fun Packet => Client.SendToServer (Packet.store memory) ST_ChatMessage.sizeof)

/-- The operation is `SendUserInfo`. -/
def isUserInfo : ClientOperation → Bool
  | SendUserInfo .. => true
  | SendToServer .. => false

end ClientOperation

/-! ## §2. Frames of the server. -/

/-- **Exactly one frame**: as many bytes as the header says, all inside the object, with a type the
server has a handler for. -/
structure SocketWrite.OneFrame (w : SocketWrite) : Prop where
  claimed : w.len = word32 w.object 4
  inside : w.len ≤ w.sizeof
  registered : ∃ func, Handler[word32 w.object 0]? = some (some func)

/-- A stored object whose header has the type of a handler and the size of the handler's packet
struct is a frame for it. -/
theorem ST_IOHeader.StoredAt.frameBytes {H : Type*} {packetSize : H → Nat} {table : HandlerTable H}
    {m : Mem} {h : ST_IOHeader} (hm : StoredAt m h) {func : H}
    (htype : table[h.IOType.toNat]? = some (some func)) (hsize : h.Size.toNat = packetSize func)
    (hhead : ST_IOHeader.sizeof ≤ packetSize func) :
    FrameBytes packetSize table func (read m 0 (packetSize func)) := by
  have hsz : ST_IOHeader.sizeof = 44 := rfl
  have hlen : (read m 0 (packetSize func)).length = packetSize func := ByteMemory.length_read _ _ _
  refine ⟨by omega, ?_, ?_, hlen.symm⟩
  · rw [hlen]
    exact (ByteMemory.word32_of_read m 0 (by omega)).symm.trans (hm.word_Size.trans hsize)
  · rw [ByteMemory.take_read m 0 (by omega)]
    show table[word32 m 0]? = _
    rw [hm.word_IOType]
    exact htype

namespace Client

/-- `main`'s chat packet, with an id and a text that fit. -/
theorem chatMessage_eq (Id : CharArray MAX_ID_LEN) (Message : CharArray MAX_CHAT_SIZE)
    (id : {t : List UInt8 // t.length < MAX_ID_LEN})
    (Msg : {t : List UInt8 // t.length < MAX_CHAT_SIZE}) :
    ∃ Packet : ST_ChatMessage, chatMessage Id Message id.val Msg.val = some Packet
      ∧ Packet.Header.IOType.toNat = E_IOType.C_Chat.code
      ∧ Packet.Header.Size.toNat = ST_ChatMessage.sizeof := by
  obtain ⟨Id', hid⟩ := exists_strcpy_s Id id.property
  obtain ⟨Message', hmsg⟩ := exists_strcpy_s Message Msg.property
  refine ⟨⟨{ IOType := UInt32.ofNat E_IOType.C_Chat.code,
             Size := UInt32.ofNat ST_ChatMessage.sizeof }, Id', Message'⟩, ?_, rfl, rfl⟩
  unfold chatMessage ST_ChatMessage.SetMessage
  show (strcpy_s Id id.val).bind (fun a => (strcpy_s Message Msg.val).map _) = _
  rw [hid, hmsg]
  rfl

/-- **A chat built as in `main`** is given to the socket as one frame, whatever the memory held. -/
theorem SendToServer_chat (memory : Mem) (Id : CharArray MAX_ID_LEN)
    (Message : CharArray MAX_CHAT_SIZE) (id : {t : List UInt8 // t.length < MAX_ID_LEN})
    (Msg : {t : List UInt8 // t.length < MAX_CHAT_SIZE}) :
    ∃ w, (ClientOperation.SendToServer memory Id Message id Msg).perform = some w ∧ w.OneFrame
      ∧ FrameBytes RequestHandler.packetSize PacketProcess.Handler .RecvChatMessage w.bytes := by
  obtain ⟨Packet, hbuilt, htype, hsize⟩ := chatMessage_eq Id Message id Msg
  have hstored := Packet.storedAt_store memory
  have hslot : PacketProcess.Handler[Packet.Header.IOType.toNat]? = some (some .RecvChatMessage) := by
    rw [htype]
    exact PacketProcess.Handler_ioType .RecvChatMessage
  -- `send` is given the size the header claims
  have hclaim : word32 (Packet.store memory) 4 = ST_ChatMessage.sizeof := hstored.word_Size.trans hsize
  refine ⟨SendToServer (Packet.store memory) ST_ChatMessage.sizeof, ?_, ⟨rfl, ?_, ?_⟩, ?_⟩
  · show (chatMessage Id Message id.val Msg.val).map _ = _
    rw [hbuilt]
    rfl
  · exact Nat.le_of_eq hclaim
  · refine ⟨.RecvChatMessage, ?_⟩
    show PacketProcess.Handler[word32 (Packet.store memory) 0]? = _
    rw [hstored.word_IOType]
    exact hslot
  · -- the bytes on the socket are the whole struct, header and all
    unfold SocketWrite.bytes
    show FrameBytes _ _ _ (read (Packet.store memory) 0 (word32 (Packet.store memory) 4))
    rw [hclaim]
    exact hstored.frameBytes hslot hsize (PacketProcess.header_le_packetSize .RecvChatMessage)

/-- `SendUserInfo` gives more to the socket than the object it has built. -/
theorem SendUserInfo_not_oneFrame {memory : Mem} {Id : CharArray MAX_ID_LEN}
    {Pw : CharArray MAX_PW_LEN} {w : SocketWrite} (h : SendUserInfo memory Id Pw = some w) :
    ¬ w.OneFrame := by
  unfold SendUserInfo at h
  rw [Option.map_eq_some_iff] at h
  obtain ⟨Info, -, rfl⟩ := h
  intro hframe
  exact absurd hframe.inside (show ¬ BUF_SIZE ≤ ST_UserInfo.sizeof by decide)

end Client

/-! ## §3. The server's side. -/

namespace Receiving

variable {H : Type*} {packetSize : H → Nat} {table : HandlerTable H} {s : Receiving H}

/-- **A receive that is one frame**, of a session that keeps nothing: the frame is dispatched, and
again nothing is kept. -/
theorem step_frame {func : H} {bytes : List UInt8} (hframe : FrameBytes packetSize table func bytes)
    (hidle : s.io.Idle) (hempty : s.io.CurBytes = 0) :
    ∃ s', step packetSize table s bytes = some s' ∧ s'.io.Idle ∧ s'.io.CurBytes = 0
      ∧ s'.calls.map Call.passed = s.calls.map Call.passed ++ [(func, bytes)] := by
  have hsz : ST_IOHeader.sizeof = 44 := rfl
  have hhead := hframe.header_le
  have hrec : s.io.received = [] := by
    rw [← List.length_eq_zero_iff, ST_IOData.length_received, hempty]
  have hunread : (ST_IOData.filled s.io bytes).unread
      = FrameStream.stream id [bytes] ++ [] := by
    have hall := ST_IOData.received_filled s.io bytes
    rw [hrec, List.nil_append] at hall
    rw [FrameStream.stream_cons, FrameStream.stream_nil, List.append_nil, List.append_nil]
    unfold ST_IOData.unread
    rw [show (ST_IOData.filled s.io bytes).DataPointer = 0 from hidle.1, Nat.sub_zero]
    exact hall
  have hone : ∀ f ∈ [bytes], FrameBytes packetSize table ((fun _ => func) f) (id f) := by
    intro f hf
    rw [List.mem_singleton] at hf
    exact hf ▸ hframe
  obtain ⟨n, hexit, hcalls, hconsumed⟩ :=
    ST_IOData.loop_handled hone (fun io hio => ST_IOData.pass_exit_of_unread_nil hio) _ hunread
  have hhandled := (ST_IOData.receive_eq_some packetSize table).mpr
    ⟨List.ne_nil_of_length_pos (by omega), n, hexit, rfl, rfl⟩
  obtain ⟨hidle', -, hkept, -⟩ := ST_IOData.receive_spec packetSize table hidle hhandled
  refine ⟨_, (step_eq_some packetSize table).mpr ⟨_, _, hhandled, rfl⟩, hidle', ?_, ?_⟩
  · rw [← ST_IOData.length_received, hkept, hrec, hconsumed]
    split
    · simp [FrameStream.stream]
    · rfl
  · rw [List.map_append, hcalls]
    rfl

end Receiving

/-! ## §4. Whole sequences. -/

namespace ClientOperation

/-- **The server parses what the client sends**: every operation gives exactly one frame to the socket,
and a session that receives these bytes, one operation per receive, takes every receive and
dispatches exactly one request per operation, with the operation's bytes. -/
def Parsed (behind : Mem) (ops : List ClientOperation) : Prop :=
  ∃ ws : List SocketWrite, ops.map perform = ws.map some ∧ (∀ w ∈ ws, w.OneFrame)
    ∧ StepMachine.Along (Receiving.step packetSize Handler) Receiving.Fits (Receiving.start behind)
      (ws.map SocketWrite.bytes)
    ∧ ∃ s, StepMachine.run (Receiving.step packetSize Handler) (Receiving.start behind)
        (ws.map SocketWrite.bytes) = some s
      ∧ s.calls.map Call.packet = ws.map SocketWrite.bytes

/-- Operations that are chats, each one frame. -/
theorem perform_chats {ops : List ClientOperation} (h : ∀ op ∈ ops, op.isUserInfo = false) :
    ∃ ws : List SocketWrite, ops.map perform = ws.map some
      ∧ ∀ w ∈ ws, w.OneFrame ∧ FrameBytes packetSize Handler .RecvChatMessage w.bytes := by
  induction ops with
  | nil => exact ⟨[], rfl, by simp⟩
  | cons op ops ih =>
      obtain ⟨ws, hws, hall⟩ := ih (fun o ho => h o (List.mem_cons_of_mem op ho))
      cases op with
      | SendUserInfo memory Id Pw =>
          have hchat := h _ List.mem_cons_self
          exact absurd hchat (by simp [isUserInfo])
      | SendToServer memory Id Message id Msg =>
          obtain ⟨w, hw, hframe⟩ := Client.SendToServer_chat memory Id Message id Msg
          refine ⟨w :: ws, ?_, ?_⟩
          · rw [List.map_cons, List.map_cons, hw, hws]
          · rw [List.forall_mem_cons]
            exact ⟨hframe, hall⟩

/-- A session that keeps nothing takes frame after frame, and dispatches each. -/
theorem run_frames {ws : List SocketWrite}
    (h : ∀ w ∈ ws, FrameBytes packetSize Handler .RecvChatMessage w.bytes)
    {s : Receiving RequestHandler} (hidle : s.io.Idle) (hempty : s.io.CurBytes = 0) :
    StepMachine.Along (Receiving.step packetSize Handler) Receiving.Fits s
        (ws.map SocketWrite.bytes)
      ∧ ∃ t, StepMachine.run (Receiving.step packetSize Handler) s (ws.map SocketWrite.bytes) = some t
        ∧ t.calls.map Call.packet = s.calls.map Call.packet ++ ws.map SocketWrite.bytes := by
  induction ws generalizing s with
  | nil => exact ⟨trivial, s, rfl, by simp⟩
  | cons w ws ih =>
      rw [List.forall_mem_cons] at h
      obtain ⟨hw, hws⟩ := h
      have hlen : w.bytes.length = ST_ChatMessage.sizeof := hw.whole.symm
      obtain ⟨s', hs', hidle', hempty', hcalls⟩ := Receiving.step_frame hw hidle hempty
      obtain ⟨hfits, t, ht, hrest⟩ := ih hws hidle' hempty'
      rw [List.map_cons]
      refine ⟨⟨?_, fun u hu => ?_⟩, t, StepMachine.run_cons_eq_some.mpr ⟨s', hs', ht⟩, ?_⟩
      · -- nothing is kept, so there is room for a chat
        unfold Receiving.Fits
        rw [hlen, hempty]
        decide
      · have hsame : s' = u := Option.some.inj (hs'.symm.trans hu)
        exact hsame ▸ hfits
      · have hpackets := congrArg (List.map Prod.snd) hcalls
        rw [List.map_append, List.map_map, List.map_map] at hpackets
        have hone : s'.calls.map Call.packet = s.calls.map Call.packet ++ [w.bytes] := hpackets
        rw [hrest, hone, List.append_assoc]
        rfl

/-- **The server parses what the client sends exactly when no operation is `SendUserInfo`.** -/
theorem parsed_iff (behind : Mem) (ops : List ClientOperation) :
    Parsed behind ops ↔ ∀ op ∈ ops, op.isUserInfo = false := by
  constructor
  · intro h
    obtain ⟨ws, hws, hframes, -⟩ := h
    intro op hop
    -- the write of every operation is one of the writes, so it is one frame
    have hmem : op.perform ∈ ws.map some := by
      rw [← hws]
      exact List.mem_map_of_mem hop
    obtain ⟨w, hw, hperform⟩ := List.mem_map.mp hmem
    cases op with
    | SendUserInfo memory Id Pw =>
        exact absurd (hframes w hw) (Client.SendUserInfo_not_oneFrame hperform.symm)
    | SendToServer memory Id Message id Msg => rfl
  · intro h
    obtain ⟨ws, hws, hall⟩ := perform_chats h
    obtain ⟨hfits, t, ht, hcalls⟩ := run_frames (fun w hw => (hall w hw).2)
      (ST_IOData.OnAccept_idle behind) (s := Receiving.start behind) rfl
    exact ⟨ws, hws, fun w hw => (hall w hw).1, hfits, t, ht, hcalls⟩

/-- **`SendUserInfo` is not parsed**: of the 4096 bytes it gives to the socket the first 92 are an object
of type `S_Login`; the session dispatches nothing, and has no room left. -/
theorem userInfo_not_parsed :
    ¬ Parsed (fun _ => 0) [.SendUserInfo (fun _ => 0) (Vector.replicate MAX_ID_LEN 0)
        (Vector.replicate MAX_PW_LEN 0)]
      ∧ (((ClientOperation.SendUserInfo (fun _ => 0) (Vector.replicate MAX_ID_LEN 0)
            (Vector.replicate MAX_PW_LEN 0)).perform.bind
          (fun w => Receiving.step packetSize Handler (Receiving.start (fun _ => 0)) w.bytes)).map
        (fun s => (s.calls.length, BUF_SIZE - s.io.CurBytes))) = some (0, 0) := by
  refine ⟨fun h => ?_, by decide +kernel⟩
  obtain ⟨ws, hws, hframes, -⟩ := h
  cases ws with
  | nil => exact absurd hws (by simp)
  | cons w ws =>
      rw [List.map_cons, List.map_cons, List.cons.injEq] at hws
      exact Client.SendUserInfo_not_oneFrame hws.1 (hframes w List.mem_cons_self)

end ClientOperation

end YServerCore
