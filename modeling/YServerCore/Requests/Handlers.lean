/-
  YServerCore.Requests.Handlers — the functions requests are handed to.

  A handler gets its session and a copy of the packet, asks the database, changes the session and
  hands packets to `Session::SendPacket` or `SessionManager::AllMessage`.  What else it depends on
  is its environment: the answers of the database calls it makes, the memory an object is
  constructed in, and the text behind an array without a NUL.  `none` is an execution that does
  not return: a database call that does not, or a text that does not fit its array.

  Main results:
    * `handle_outgoing` — what a handler sends, and the size its packet's header claims: the size
      of the object in an account reply, the size the client claimed in all other packets.
-/
import YServerCore.Packet.PacketProcess

namespace YServerCore

/-! ## §1. Sessions, packets and environments. -/

inductive E_SessionState where
  | Wait
  | Connect
  | Login
  deriving DecidableEq, Repr

/-- The members of a session the handlers use. -/
structure SessionInfo where
  UserInfo : ST_UserInfo
  SessionState : E_SessionState := .Wait
  deriving DecidableEq, Repr

/-- A packet object of the server. -/
inductive ServerPacket where
  | userInfo (Packet : ST_UserInfo)
  | moveInfo (Packet : ST_MoveInfo)
  deriving DecidableEq, Repr

namespace ServerPacket

def Header : ServerPacket → ST_IOHeader
  | userInfo Packet => Packet.Header
  | moveInfo Packet => Packet.Header

/-- The size of the object. -/
def sizeof : ServerPacket → Nat
  | userInfo _ => ST_UserInfo.sizeof
  | moveInfo _ => ST_MoveInfo.sizeof

end ServerPacket

/-- A packet handed to the handler's session, or to all sessions. -/
inductive Outgoing where
  | SendPacket (Packet : ServerPacket)
  | AllMessage (Msg : ServerPacket)
  deriving DecidableEq, Repr

def Outgoing.packet : Outgoing → ServerPacket
  | SendPacket Packet => Packet
  | AllMessage Msg => Msg

/-- What one execution of a handler depends on beside its session and its packet. -/
structure Environment where
  /-- `Database::IsValidID`. -/
  IsValidID : List UInt8 → Option Bool
  /-- `Database::CreateAccount`. -/
  CreateAccount : ST_UserInfo → Option Bool
  /-- `Database::IsValidAccount`. -/
  IsValidAccount : ST_UserInfo → Option Bool
  /-- The bytes in the memory of a reply's `Id`. -/
  Id : CharArray MAX_ID_LEN
  /-- The bytes in the memory of a reply's `Pw`. -/
  Pw : CharArray MAX_PW_LEN
  /-- The text behind the packet object, up to the next NUL. -/
  behind : List UInt8
  /-- The text behind the session's `UserInfo`, up to the next NUL. -/
  behindUserInfo : List UInt8

/-! ## §2. The handlers. -/

/-- `"Unkwon Account"`. -/
def unkwonAccount : List UInt8 :=
  ['U', 'n', 'k', 'w', 'o', 'n', ' ', 'A', 'c', 'c', 'o', 'u', 'n', 't'].map
    (fun c => UInt8.ofNat c.toNat)

def RecvCreateAccountRequest (env : Environment) (session : SessionInfo) (userinfo : ST_UserInfo) :
    Option (SessionInfo × List Outgoing) :=
  let Packet := ST_UserInfo.fresh env.Id env.Pw
  -- a string literal converts to `bool` before it converts to `string`: `SetHeader("...")` is
  -- `SetHeader(true)`, and the text is not used
  let reply := fun (Success : Bool) =>
    [Outgoing.SendPacket (.userInfo
      { Packet with Header := { Packet.Header with Success := Success }.SetHeader_bool true })]
  match env.IsValidID (userinfo.IdText env.behind) with
  | none => none
  | some true => some (session, reply false)
  | some false => (env.CreateAccount userinfo).map (fun result => (session, reply result))

def RecvLoginRequest (env : Environment) (session : SessionInfo) (userinfo : ST_UserInfo) :
    Option (SessionInfo × List Outgoing) :=
  match env.IsValidAccount userinfo with
  | none => none
  | some result =>
      (userinfo.Header.SetHeader .S_Login result (if result then [] else unkwonAccount)).map
        (fun Header =>
          let userinfo := { userinfo with Header := Header }
          if result then
            ({ UserInfo := userinfo, SessionState := .Login }, [.AllMessage (.userInfo userinfo)])
          else (session, [.SendPacket (.userInfo userinfo)]))

/-- The message is only printed; its broadcast is commented out. -/
def RecvChatMessage (session : SessionInfo) (_msg : ST_ChatMessage) :
    Option (SessionInfo × List Outgoing) :=
  some (session, [])

def RecvMoveRequest (env : Environment) (session : SessionInfo) (moveinfo : ST_MoveInfo) :
    Option (SessionInfo × List Outgoing) :=
  let moveinfo := { moveinfo with Header := moveinfo.Header.SetHeader_IOType .S_Move }
  (moveinfo.SetID (session.UserInfo.IdText env.behindUserInfo)).map
    (fun moveinfo => (session, [.AllMessage (.moveInfo moveinfo)]))

/-- The task `HandleData` starts for a call: the handler on its packet object. -/
def handle (env : Environment) (session : SessionInfo) (c : Call RequestHandler) :
    Option (SessionInfo × List Outgoing) :=
  match c.handler with
  | .RecvChatMessage => RecvChatMessage session (ST_ChatMessage.ofBytes c.packet)
  | .RecvCreateAccountRequest => RecvCreateAccountRequest env session (ST_UserInfo.ofBytes c.packet)
  | .RecvLoginRequest => RecvLoginRequest env session (ST_UserInfo.ofBytes c.packet)
  | .RecvMoveRequest => RecvMoveRequest env session (ST_MoveInfo.ofBytes c.packet)

/-! ## §3. What is sent. -/

/-- The packet's header claims the size of the object it lives in. -/
def Outgoing.Whole (o : Outgoing) : Prop := o.packet.Header.Size.toNat = o.packet.sizeof

instance (o : Outgoing) : Decidable o.Whole := inferInstanceAs (Decidable (_ = _))

/-- The size a request's header claims. -/
def Call.claimed {H : Type*} (c : Call H) : Nat := (ST_IOHeader.ofBytes c.packet).Size.toNat

/-- The handlers that send their request's header back. -/
def RequestHandler.echoes : RequestHandler → Bool
  | RecvChatMessage => false
  | RecvCreateAccountRequest => false
  | RecvLoginRequest => true
  | RecvMoveRequest => true

/-- A request whose header is sent back claims the size of its packet struct. -/
def FairRequest (c : Call RequestHandler) : Prop :=
  c.handler.echoes = true → c.claimed = c.handler.packetSize

instance (c : Call RequestHandler) : Decidable (FairRequest c) :=
  inferInstanceAs (Decidable (_ → _))

/-- **A request for a new account**: the session stays, and its answer is the fresh object with the
flag that the `bool` overload sets. -/
theorem RecvCreateAccountRequest_spec {env : Environment} {session session' : SessionInfo}
    {userinfo : ST_UserInfo} {outs : List Outgoing}
    (h : RecvCreateAccountRequest env session userinfo = some (session', outs)) :
    session' = session ∧ ∃ Packet : ST_UserInfo, outs = [.SendPacket (.userInfo Packet)]
      ∧ Packet.Header = { (ST_UserInfo.fresh env.Id env.Pw).Header with Success := true } := by
  unfold RecvCreateAccountRequest at h
  cases hid : env.IsValidID (userinfo.IdText env.behind) with
  | none =>
      simp only [hid] at h
      exact absurd h (by simp)
  | some found =>
      cases found with
      | true =>
          simp only [hid, Option.some.injEq, Prod.mk.injEq] at h
          exact ⟨h.1.symm, _, h.2.symm, rfl⟩
      | false =>
          simp only [hid, Option.map_eq_some_iff, Prod.mk.injEq] at h
          obtain ⟨result, -, rfl, rfl⟩ := h
          exact ⟨rfl, _, rfl, rfl⟩

theorem RecvCreateAccountRequest_outgoing {env : Environment} {session session' : SessionInfo}
    {userinfo : ST_UserInfo} {outs : List Outgoing}
    (h : RecvCreateAccountRequest env session userinfo = some (session', outs)) :
    session' = session ∧ ∃ Packet : ST_UserInfo, outs = [.SendPacket (.userInfo Packet)]
      ∧ Packet.Header.Size.toNat = ST_UserInfo.sizeof := by
  obtain ⟨hsession, Packet, houts, hheader⟩ := RecvCreateAccountRequest_spec h
  refine ⟨hsession, Packet, houts, ?_⟩
  rw [hheader]
  exact ST_UserInfo.fresh_Size env.Id env.Pw

/-- The texts of `RecvLoginRequest` fit the header's array. -/
theorem SetHeader_login (h : ST_IOHeader) (result : Bool) :
    ∃ Header, h.SetHeader .S_Login result (if result then [] else unkwonAccount) = some Header := by
  have hfit : (if result then [] else unkwonAccount).length < MAX_RESULT_MSG_LEN := by
    cases result <;> decide
  obtain ⟨info, hcopy⟩ := exists_strcpy_s (h.SetHeader_IOType .S_Login).IOResultInfo hfit
  unfold ST_IOHeader.SetHeader ST_IOHeader.SetHeader_string
  rw [hcopy]
  exact ⟨_, rfl⟩

/-- A login is always answered. -/
theorem RecvLoginRequest_some {env : Environment} {userinfo : ST_UserInfo} {result : Bool}
    (hvalid : env.IsValidAccount userinfo = some result) (session : SessionInfo) :
    ∃ r, RecvLoginRequest env session userinfo = some r := by
  obtain ⟨Header, hset⟩ := SetHeader_login userinfo.Header result
  unfold RecvLoginRequest
  simp only [hvalid, hset]
  exact ⟨_, rfl⟩

/-- **A login**: with a valid account the request, under a new header, becomes the session's `UserInfo`
and goes to all sessions; without one it goes back to its session. -/
theorem RecvLoginRequest_spec {env : Environment} {session session' : SessionInfo}
    {userinfo : ST_UserInfo} {outs : List Outgoing}
    (h : RecvLoginRequest env session userinfo = some (session', outs)) :
    ∃ result Header, env.IsValidAccount userinfo = some result
      ∧ userinfo.Header.SetHeader .S_Login result (if result then [] else unkwonAccount)
        = some Header
      ∧ session' = (if result then ⟨{ userinfo with Header := Header }, .Login⟩ else session)
      ∧ outs = (if result then [.AllMessage (.userInfo { userinfo with Header := Header })]
        else [.SendPacket (.userInfo { userinfo with Header := Header })]) := by
  unfold RecvLoginRequest at h
  cases hvalid : env.IsValidAccount userinfo with
  | none =>
      simp only [hvalid] at h
      exact absurd h (by simp)
  | some result =>
      simp only [hvalid, Option.map_eq_some_iff] at h
      obtain ⟨Header, hset, h⟩ := h
      refine ⟨result, Header, rfl, hset, ?_⟩
      cases result with
      | true =>
          simp only [if_true, Prod.mk.injEq] at h
          exact ⟨h.1.symm, h.2.symm⟩
      | false =>
          simp only [Bool.false_eq_true, if_false, Prod.mk.injEq] at h
          exact ⟨h.1.symm, h.2.symm⟩

theorem RecvLoginRequest_outgoing {env : Environment} {session session' : SessionInfo}
    {userinfo : ST_UserInfo} {outs : List Outgoing}
    (h : RecvLoginRequest env session userinfo = some (session', outs)) :
    ∃ out Packet, outs = [out] ∧ out.packet = .userInfo Packet
      ∧ Packet.Header.Size = userinfo.Header.Size := by
  obtain ⟨result, Header, -, hset, -, rfl⟩ := RecvLoginRequest_spec h
  -- the header that goes out is the request's, with its `Size`
  have hsize := ST_IOHeader.SetHeader_Size hset
  cases result with
  | true => exact ⟨_, _, rfl, rfl, hsize⟩
  | false => exact ⟨_, _, rfl, rfl, hsize⟩

/-- **A move**: the request goes to all sessions, under a new header and with the `Id` of the
session's `UserInfo`, if that fits. -/
theorem RecvMoveRequest_eq_some {env : Environment} {session : SessionInfo} {moveinfo : ST_MoveInfo}
    {r : SessionInfo × List Outgoing} :
    RecvMoveRequest env session moveinfo = some r
      ↔ ∃ Id, strcpy_s moveinfo.Id (session.UserInfo.IdText env.behindUserInfo) = some Id
        ∧ r = (session, [.AllMessage (.moveInfo { moveinfo with
            Header := moveinfo.Header.SetHeader_IOType .S_Move, Id := Id })]) := by
  unfold RecvMoveRequest ST_MoveInfo.SetID
  simp only [Option.map_map, Option.map_eq_some_iff, Function.comp_apply]
  apply exists_congr
  intro Id
  apply and_congr_right
  intro _
  exact eq_comm

theorem RecvMoveRequest_outgoing {env : Environment} {session session' : SessionInfo}
    {moveinfo : ST_MoveInfo} {outs : List Outgoing}
    (h : RecvMoveRequest env session moveinfo = some (session', outs)) :
    ∃ Packet : ST_MoveInfo, outs = [.AllMessage (.moveInfo Packet)]
      ∧ Packet.Header.Size = moveinfo.Header.Size := by
  obtain ⟨Id, -, hr⟩ := RecvMoveRequest_eq_some.mp h
  rw [Prod.mk.injEq] at hr
  exact ⟨_, hr.2, rfl⟩

/-- **What a handler sends** has whole headers exactly when its request, if it is sent back, claims the
size of its packet struct. -/
theorem handle_outgoing {env : Environment} {session session' : SessionInfo}
    {c : Call RequestHandler} {outs : List Outgoing}
    (h : handle env session c = some (session', outs)) :
    (∀ o ∈ outs, o.Whole) ↔ FairRequest c := by
  obtain ⟨handler, pos, size, packet⟩ := c
  cases handler with
  | RecvChatMessage =>
      have hsome : some (session, []) = some (session', outs) := h
      rw [Option.some.injEq, Prod.mk.injEq] at hsome
      rw [← hsome.2]
      exact ⟨fun _ hechoes => absurd hechoes Bool.false_ne_true, fun _ o ho => absurd ho (by simp)⟩
  | RecvCreateAccountRequest =>
      obtain ⟨-, Packet, rfl, hsize⟩ := RecvCreateAccountRequest_outgoing h
      rw [List.forall_mem_singleton]
      exact ⟨fun _ hechoes => absurd hechoes Bool.false_ne_true, fun _ => hsize⟩
  | RecvLoginRequest =>
      obtain ⟨out, Packet, rfl, hpacket, hsize⟩ := RecvLoginRequest_outgoing h
      rw [List.forall_mem_singleton]
      unfold Outgoing.Whole
      rw [hpacket]
      show Packet.Header.Size.toNat = ST_UserInfo.sizeof ↔ _
      rw [hsize]
      exact ⟨fun hwhole _ => hwhole, fun hfair => hfair rfl⟩
  | RecvMoveRequest =>
      obtain ⟨Packet, rfl, hsize⟩ := RecvMoveRequest_outgoing h
      rw [List.forall_mem_singleton]
      show Packet.Header.Size.toNat = ST_MoveInfo.sizeof ↔ _
      rw [hsize]
      exact ⟨fun hwhole _ => hwhole, fun hfair => hfair rfl⟩

end YServerCore
