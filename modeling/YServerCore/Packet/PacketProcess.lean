/-
  YServerCore.Packet.PacketProcess — the handler table, and one dispatch out of the read buffer.

  A handler table is a list with one entry per index: `none` is an empty `std::function`, and an
  index outside the list is a read past the array.  The table and the dispatch are generic in
  the type of the handlers, since server and client have a table each; `SetHandler` is the
  server's.

  `HandleData` copies as many bytes as its packet type has, and moves `DataPointer` by the size
  the header claims.
-/
import YServerCore.Packet.PacketDataStructure

namespace YServerCore

open ByteMemory (Mem read write word32)

/-! ## §1. The server's handlers. -/

/-- The functions a request is handed to. -/
inductive RequestHandler where
  | RecvChatMessage
  | RecvCreateAccountRequest
  | RecvLoginRequest
  | RecvMoveRequest
  deriving DecidableEq, Repr

namespace RequestHandler

/-- The size of the packet type a handler's `HandleData` is instantiated with. -/
def packetSize : RequestHandler → Nat
  | RecvChatMessage => ST_ChatMessage.sizeof
  | RecvCreateAccountRequest => ST_UserInfo.sizeof
  | RecvLoginRequest => ST_UserInfo.sizeof
  | RecvMoveRequest => ST_MoveInfo.sizeof

/-- The type a handler is registered for. -/
def ioType : RequestHandler → E_IOType
  | RecvChatMessage => .C_Chat
  | RecvCreateAccountRequest => .C_CreateAccount
  | RecvLoginRequest => .C_Login
  | RecvMoveRequest => .C_Move

end RequestHandler

/-- A table of handlers by type number; `none` is an entry without a handler. -/
abbrev HandlerTable (H : Type*) := List (Option H)

namespace PacketProcess

/-- `PacketProcess::SetHandler`. -/
def SetHandler (table : HandlerTable RequestHandler) : HandlerTable RequestHandler :=
  (((table.set E_IOType.C_Chat.code (some .RecvChatMessage)).set
    E_IOType.C_CreateAccount.code (some .RecvCreateAccountRequest)).set
    E_IOType.C_Login.code (some .RecvLoginRequest)).set
    E_IOType.C_Move.code (some .RecvMoveRequest)

/-- `PacketProcess::Handler`, the 20 entries as the constructor leaves them. -/
def Handler : HandlerTable RequestHandler := SetHandler (List.replicate 20 none)

example : Handler.length = 20 := by decide

/-- Every request handler is registered for its type. -/
theorem Handler_ioType (h : RequestHandler) : Handler[h.ioType.code]? = some (some h) := by
  cases h <;> decide

/-- Every packet type has a whole header. -/
theorem header_le_packetSize (h : RequestHandler) : ST_IOHeader.sizeof ≤ h.packetSize := by
  cases h <;> decide

end PacketProcess

/-! ## §2. The read buffer and one dispatch. -/

/-- What the buffer of an overlapped operation is for. -/
inductive E_IOUsage where
  | Read
  | Write
  | Error
  deriving DecidableEq, Repr

/-- The members of `ST_IOData` the receive and send paths use.  `Data` is the memory from the
array's first byte on: the first `BUF_SIZE` bytes are the array, what follows is whatever lies
behind it. -/
structure ST_IOData where
  Usage : E_IOUsage := .Error
  CurBytes : Nat := 0
  DataPointer : Nat := 0
  Data : Mem := fun _ => 0

/-- One call of a handler: where its frame starts, the size its header claims, and the bytes of
the packet object that was copied for it. -/
structure Call (H : Type*) where
  handler : H
  pos : Nat
  size : Nat
  packet : List UInt8
  deriving DecidableEq, Repr

namespace ST_IOData

/-- `Header->IOType` of the header at an offset of the data. -/
def headerIOType (io : ST_IOData) (pos : Nat) : Nat := word32 io.Data pos

/-- `Header->Size` of the header at an offset of the data. -/
def headerSize (io : ST_IOData) (pos : Nat) : Nat := word32 io.Data (pos + 4)

/-- The received bytes, `Data[0..CurBytes)`. -/
def received (io : ST_IOData) : List UInt8 := read io.Data 0 io.CurBytes

/-- `PacketProcess::HandleData` for a packet type of `packetSize` bytes. -/
def HandleData {H : Type*} (packetSize : H → Nat) (func : H) (io : ST_IOData) (size : Nat) :
    Call H × ST_IOData :=
  (⟨func, io.DataPointer, size, read io.Data io.DataPointer (packetSize func)⟩,
    { io with DataPointer := io.DataPointer + size })

end ST_IOData

end YServerCore
