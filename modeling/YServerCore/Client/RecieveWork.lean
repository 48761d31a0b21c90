/-
  YServerCore.Client.RecieveWork — the receive thread of the client.

  The client's loop is the server's, over a table of its own: ten entries, of which `SetHandler`
  fills the one of `S_Chat`.  A frame of any other type leaves the loop, and behind the loop a
  buffer that is not full is emptied: what stood behind that frame in the same receive is lost, or
  stays where it is in a full buffer, behind a frame that will never be dispatched.

  Main results:
    * `recieveWork_frames` — one turn of the thread on whole frames: the chats at the front are
      dispatched, and nothing behind them.
    * `delivered_step_iff` — a receive delivers its chats exactly when they stand in front.
    * `chats_delivered_iff` — the same for every sequence of receives.
-/
import YServerCore.Receive.Framing

namespace YServerCore

open ByteMemory (Mem read write leNat)
open FrameStream (stream)
open ST_IOData (loop filled settle pass)

/-! ## §1. The client. -/

/-- The functions the client hands messages to. -/
inductive ClientHandler where
  | PrintMsg
  deriving DecidableEq, Repr

/-- The size of the packet type its `HandleData` is instantiated with. -/
def ClientHandler.packetSize : ClientHandler → Nat
  | PrintMsg => ST_ChatMessage.sizeof

namespace Client

open ClientHandler (packetSize)

/-- `Client::SetHandler`. -/
def SetHandler (table : HandlerTable ClientHandler) : HandlerTable ClientHandler :=
  table.set E_IOType.S_Chat.code (some .PrintMsg)

/-- The client's `Handler`, ten entries, once `SetHandler` has run. -/
def Handler : HandlerTable ClientHandler := SetHandler (List.replicate 10 none)

/-- One turn of `Client::RecieveWork` whose `recv` has put these bytes into its range: the state it
leaves and the calls it makes; `none` when its loop does not end or reads past the table. -/
def RecieveWork (io : ST_IOData) (received : List UInt8) :
    Option (ST_IOData × List (Call ClientHandler)) :=
  let io := filled { io with Usage := .Read } received
  let e := loop packetSize Handler (io.CurBytes + 1) io
  if e.outcome = .exit then some (settle e.io, e.calls) else none

end Client

/-! ## §2. Server frames. -/

/-- The packets the server sends. -/
inductive ServerPacketType where
  | S_CreateAccount
  | S_Login
  | S_Chat
  | S_Move
  deriving DecidableEq, Repr

namespace ServerPacketType

def ioType : ServerPacketType → E_IOType
  | S_CreateAccount => .S_CreateAccount
  | S_Login => .S_Login
  | S_Chat => .S_Chat
  | S_Move => .S_Move

/-- The size of the struct a packet is sent as. -/
def sizeof : ServerPacketType → Nat
  | S_CreateAccount => ST_UserInfo.sizeof
  | S_Login => ST_UserInfo.sizeof
  | S_Chat => ST_ChatMessage.sizeof
  | S_Move => ST_MoveInfo.sizeof

/-- Every packet type has a whole header. -/
theorem header_le_sizeof (t : ServerPacketType) : ST_IOHeader.sizeof ≤ t.sizeof := by
  cases t <;> decide

end ServerPacketType

/-- A well-formed frame of the server: a type it sends, and the size of the type's struct. -/
structure ServerFrame where
  type : ServerPacketType
  bytes : List UInt8
  length_eq : bytes.length = type.sizeof
  ioType_eq : leNat (bytes.take 4) = type.ioType.code
  size_eq : leNat ((bytes.drop 4).take 4) = bytes.length

namespace ServerFrame

/-- The frame is a chat message. -/
def isChat (f : ServerFrame) : Bool := f.type = .S_Chat

theorem header_le (f : ServerFrame) : ST_IOHeader.sizeof ≤ f.bytes.length := by
  rw [f.length_eq]
  exact f.type.header_le_sizeof

/-- The client has a handler for chat messages, and for nothing else. -/
theorem handler_eq (f : ServerFrame) :
    Client.Handler[leNat (f.bytes.take 4)]? = some (if f.isChat then some .PrintMsg else none) := by
  rw [f.ioType_eq]
  unfold isChat
  cases f.type <;> decide

theorem frameBytes {f : ServerFrame} (h : f.isChat = true) :
    FrameBytes ClientHandler.packetSize Client.Handler .PrintMsg f.bytes where
  header_le := f.header_le
  size_eq := f.size_eq
  handler := by rw [f.handler_eq, if_pos h]
  whole := by
    have htype : f.type = .S_Chat := by simpa [isChat] using h
    rw [f.length_eq, htype]
    rfl

end ServerFrame

/-! ## §3. One turn on whole frames. -/

namespace Client

open ClientHandler (packetSize)

/-- The loop is left in front of a frame that is not a chat, and behind the last one. -/
theorem pass_exit_of_no_chat {rest : List ServerFrame} (hrest : ∀ g ∈ rest.head?, g.isChat = false)
    {io : ST_IOData} (hunread : io.unread = stream ServerFrame.bytes rest) :
    pass packetSize Handler io = .exit := by
  cases rest with
  | nil =>
      rw [FrameStream.stream_nil] at hunread
      exact ST_IOData.pass_exit_of_unread_nil hunread
  | cons g rest =>
      rw [FrameStream.stream_cons] at hunread
      obtain ⟨hready, htype, -⟩ := ST_IOData.frame_at_pointer hunread g.header_le g.size_eq
      apply ST_IOData.pass_exit_of_no_handler packetSize Handler hready
      rw [htype, g.handler_eq, hrest g rfl]
      rfl

/-- What follows the chats at the front starts with no chat. -/
theorem head?_dropWhile_isChat (fs : List ServerFrame) :
    ∀ g ∈ (fs.dropWhile ServerFrame.isChat).head?, g.isChat = false := by
  intro g hg
  have hhead := List.head?_dropWhile_not ServerFrame.isChat fs
  rw [hg] at hhead
  exact hhead

/-- **One turn of the thread on whole frames**: the chats at the front are dispatched.  What follows
them stays in a full buffer, and is forgotten in any other one. -/
theorem recieveWork_frames {io : ST_IOData} (hptr : io.DataPointer = 0) {received : List UInt8}
    {fs : List ServerFrame} (hfs : io.received ++ received = stream ServerFrame.bytes fs) :
    ∃ io' calls, RecieveWork io received = some (io', calls)
      ∧ calls.map Call.packet = (fs.takeWhile ServerFrame.isChat).map ServerFrame.bytes
      ∧ io'.DataPointer = 0
      ∧ io'.received = (if io.CurBytes + received.length = BUF_SIZE
          then stream ServerFrame.bytes (fs.dropWhile ServerFrame.isChat) else []) := by
  let start := filled { io with Usage := .Read } received
  have hstart : start.DataPointer = 0 := hptr
  have hrec : start.received = stream ServerFrame.bytes fs := by
    rw [← hfs]
    exact ST_IOData.received_filled { io with Usage := .Read } received
  have hsplit : stream ServerFrame.bytes fs
      = stream ServerFrame.bytes (fs.takeWhile ServerFrame.isChat)
        ++ stream ServerFrame.bytes (fs.dropWhile ServerFrame.isChat) := by
    rw [← FrameStream.stream_append, List.takeWhile_append_dropWhile]
  have hunread : start.unread = stream ServerFrame.bytes (fs.takeWhile ServerFrame.isChat)
      ++ stream ServerFrame.bytes (fs.dropWhile ServerFrame.isChat) := by
    rw [← hsplit, ← hrec]
    unfold ST_IOData.unread ST_IOData.received
    rw [hstart, Nat.sub_zero]
  obtain ⟨n, hexit, hcalls, hconsumed⟩ := ST_IOData.loop_handled
    (fun f hf => f.frameBytes (List.mem_takeWhile_imp hf))
    (fun io' hio' => pass_exit_of_no_chat (head?_dropWhile_isChat fs) hio') start hunread
  -- a turn that moves the pointer uses up a byte, so the turns of `RecieveWork` are enough
  have henough := ST_IOData.loop_enough packetSize Handler (n := n) (k := start.CurBytes + 1)
    (by rw [hexit]; simp) (by omega)
  have hspec := ST_IOData.loop_spec packetSize Handler n start
  generalize loop packetSize Handler n start = e at hexit hcalls hconsumed henough hspec
  refine ⟨settle e.io, e.calls, ?_, ?_, ?_⟩
  · show (if (loop packetSize Handler (start.CurBytes + 1) start).outcome = .exit then _ else none)
      = _
    rw [henough, if_pos hexit]
  · have hpackets := congrArg (List.map Prod.snd) hcalls
    rw [List.map_map, List.map_map] at hpackets
    exact hpackets
  · have hpointer : e.io.DataPointer
        = (stream ServerFrame.bytes (fs.takeWhile ServerFrame.isChat)).length := by
      rw [hspec.pointer, hstart, Nat.zero_add, hconsumed]
    have hin : e.io.DataPointer ≤ e.io.CurBytes := by
      rw [hspec.curBytes]
      exact hspec.inside (by rw [hstart]; exact Nat.zero_le _)
    have hrec' : e.io.received = stream ServerFrame.bytes fs := by
      rw [← hrec]
      unfold ST_IOData.received
      rw [hspec.data, hspec.curBytes]
    obtain ⟨hfront, hkept⟩ := ST_IOData.settle_spec hin
    refine ⟨hfront, ?_⟩
    rw [hkept, hspec.curBytes, hrec', hpointer, hsplit, List.drop_left' rfl]
    rfl

end Client

/-! ## §4. Whole sequences. -/

/-- The receive side of the client: its buffer, the frames that have arrived, and the calls made. -/
structure Recieving where
  io : ST_IOData
  arrived : List ServerFrame := []
  calls : List (Call ClientHandler) := []

namespace Recieving

/-- A client that has received nothing yet. -/
def start (Data : Mem) : Recieving where
  io := { Data := Data }

/-- One receive of whole frames. -/
def step (s : Recieving) (fs : List ServerFrame) : Option Recieving :=
  (Client.RecieveWork s.io (stream ServerFrame.bytes fs)).map
    (fun r => ⟨r.1, s.arrived ++ fs, s.calls ++ r.2⟩)

/-- **Every chat message is delivered**: the packets dispatched are the chat frames that have arrived,
in order and each once. -/
def Delivered (s : Recieving) : Prop :=
  s.calls.map Call.packet = (s.arrived.filter ServerFrame.isChat).map ServerFrame.bytes

/-- No chat of the receive stands behind a frame that is not a chat, be it of the same receive or one
that has stayed in the buffer. -/
def ChatsFirst (s : Recieving) (fs : List ServerFrame) : Prop :=
  (∀ g ∈ fs.dropWhile ServerFrame.isChat, g.isChat = false)
    ∧ (s.io.CurBytes ≠ 0 → ∀ g ∈ fs, g.isChat = false)

instance (s : Recieving) (fs : List ServerFrame) : Decidable (ChatsFirst s fs) :=
  inferInstanceAs (Decidable (_ ∧ _))

/-- What stays in the buffer between two receives: whole frames, of which the first is not a chat. -/
structure Keeps (kept : List ServerFrame) (s : Recieving) : Prop where
  pointer : s.io.DataPointer = 0
  received : s.io.received = stream ServerFrame.bytes kept
  head : ∀ g ∈ kept.head?, g.isChat = false

theorem keeps_start (Data : Mem) : Keeps [] (start Data) where
  pointer := rfl
  received := rfl
  head g hg := absurd hg (by simp)

/-- There is something in the buffer exactly when a frame is. -/
theorem Keeps.curBytes_ne_zero {kept : List ServerFrame} {s : Recieving} (h : Keeps kept s) :
    s.io.CurBytes ≠ 0 ↔ kept ≠ [] := by
  rw [← ST_IOData.length_received, h.received]
  cases kept with
  | nil => simp
  | cons k kept =>
      have hhead := k.header_le
      have hsz : ST_IOHeader.sizeof = 44 := rfl
      rw [FrameStream.stream_cons, List.length_append]
      simp only [ne_eq, reduceCtorEq, not_false_eq_true, iff_true]
      omega

/-- The chats at the front of some frames are all their chats exactly when no chat is behind them. -/
theorem takeWhile_eq_filter_iff (fs : List ServerFrame) :
    (fs.takeWhile ServerFrame.isChat).map ServerFrame.bytes
        = (fs.filter ServerFrame.isChat).map ServerFrame.bytes
      ↔ ∀ g ∈ fs.dropWhile ServerFrame.isChat, g.isChat = false := by
  have hfront : (fs.takeWhile ServerFrame.isChat).filter ServerFrame.isChat
      = fs.takeWhile ServerFrame.isChat := by
    rw [List.filter_eq_self]
    intro g hg
    exact List.mem_takeWhile_imp hg
  have hsplit : fs.filter ServerFrame.isChat = fs.takeWhile ServerFrame.isChat
      ++ (fs.dropWhile ServerFrame.isChat).filter ServerFrame.isChat := by
    conv_lhs => rw [← List.takeWhile_append_dropWhile (p := ServerFrame.isChat) (l := fs)]
    rw [List.filter_append, hfront]
  rw [hsplit, List.map_append, List.self_eq_append_right, List.map_eq_nil_iff, List.filter_eq_nil_iff]
  simp only [Bool.not_eq_true]

/-- **One receive** is handled, and delivers its chats exactly when they stand in front. -/
theorem delivered_step_iff {kept : List ServerFrame} {s : Recieving} (h : Keeps kept s)
    (hdel : Delivered s) (fs : List ServerFrame) :
    ∃ s', step s fs = some s' ∧ (∃ kept', Keeps kept' s') ∧ (Delivered s' ↔ ChatsFirst s fs) := by
  have hall : s.io.received ++ stream ServerFrame.bytes fs
      = stream ServerFrame.bytes (kept ++ fs) := by
    rw [h.received, FrameStream.stream_append]
  obtain ⟨io, calls, hwork, hcalls, hptr, hkept⟩ := Client.recieveWork_frames h.pointer hall
  refine ⟨⟨io, s.arrived ++ fs, s.calls ++ calls⟩, ?_, ?_, ?_⟩
  · unfold step
    rw [hwork]
    rfl
  · -- a full buffer keeps what the loop has left, any other one nothing
    split at hkept
    · exact ⟨_, hptr, hkept, Client.head?_dropWhile_isChat _⟩
    · exact ⟨[], hptr, hkept, by simp⟩
  · unfold Delivered at hdel ⊢
    show (s.calls ++ calls).map Call.packet
      = ((s.arrived ++ fs).filter ServerFrame.isChat).map ServerFrame.bytes ↔ _
    rw [List.map_append, List.filter_append, List.map_append, hdel, hcalls,
      List.append_cancel_left_eq]
    unfold ChatsFirst
    rw [h.curBytes_ne_zero]
    cases kept with
    | nil =>
        rw [List.nil_append, takeWhile_eq_filter_iff]
        exact ⟨fun hfront => ⟨hfront, fun hne => absurd rfl hne⟩, fun hboth => hboth.1⟩
    | cons k kept =>
        -- the first frame in the buffer is not a chat, so nothing is dispatched
        have hk : k.isChat = false := h.head k rfl
        rw [List.cons_append, List.takeWhile_cons_of_neg (by rw [hk]; simp), List.map_nil, eq_comm,
          List.map_eq_nil_iff, List.filter_eq_nil_iff]
        simp only [Bool.not_eq_true]
        constructor
        · intro hnone
          exact ⟨fun g hg => hnone g ((List.dropWhile_sublist _).subset hg), fun _ => hnone⟩
        · intro hboth
          exact hboth.2 (by simp)

/-- **The client delivers every chat exactly while chats come first.**  For every sequence of receives
of whole server frames: in every state the chat frames that have arrived have been dispatched, in
order and each once, if and only if in every receive no chat stands behind a frame of another type,
and none arrives while such a frame has stayed in the buffer. -/
theorem chats_delivered_iff (Data : Mem) (receives : List (List ServerFrame)) :
    StepMachine.Safe step Delivered (start Data) receives
      ↔ StepMachine.Along step ChatsFirst (start Data) receives := by
  apply StepMachine.safe_iff_along_of_total (P := Delivered) (I := fun s => ∃ kept, Keeps kept s) ?_
    ⟨[], keeps_start Data⟩ rfl
  intro s fs hkeeps hdel
  obtain ⟨kept, h⟩ := hkeeps
  exact delivered_step_iff h hdel fs

/-- A `S_Login` frame, zero behind its header's type and size. -/
def loginFrame : ServerFrame where
  type := .S_Login
  bytes := [4, 0, 0, 0, 92, 0, 0, 0] ++ List.replicate 84 0
  length_eq := by decide
  ioType_eq := by decide
  size_eq := by decide

/-- A `S_Chat` frame, zero behind its header's type and size. -/
def chatFrame : ServerFrame where
  type := .S_Chat
  bytes := [6, 0, 0, 0, 68, 2, 0, 0] ++ List.replicate 572 0
  length_eq := by decide +kernel
  ioType_eq := by decide
  size_eq := by decide +kernel

/-- **A chat is lost**: it arrives in one receive with the answer to a login in front of it. -/
theorem chat_lost :
    (stream ServerFrame.bytes [loginFrame, chatFrame]).length ≤ BUF_SIZE
      ∧ ∃ s, StepMachine.run step (start (fun _ => 0)) [[loginFrame, chatFrame]] = some s
        ∧ s.calls = [] ∧ s.io.CurBytes = 0 ∧ ¬ Delivered s := by
  refine ⟨by decide +kernel, ?_⟩
  have hend : (StepMachine.run step (start (fun _ => 0)) [[loginFrame, chatFrame]]).map
      (fun s => (s.calls, s.io.CurBytes, (s.arrived.filter ServerFrame.isChat).length))
      = some ([], 0, 1) := by
    decide +kernel
  obtain ⟨s, hs, hall⟩ := Option.map_eq_some_iff.mp hend
  simp only [Prod.mk.injEq] at hall
  obtain ⟨hcalls, hcur, hone⟩ := hall
  refine ⟨s, hs, hcalls, hcur, fun hdel => ?_⟩
  have hlen := congrArg List.length hdel
  rw [List.length_map, List.length_map, hcalls, hone] at hlen
  exact absurd hlen (by decide)

end Recieving

end YServerCore
