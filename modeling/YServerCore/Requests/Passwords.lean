/-
  YServerCore.Requests.Passwords — which sessions a login's password is sent to.

  `RecvLoginRequest` answers with the request object itself, `Pw` included, and a successful login is
  answered to every registered session.  Two runs whose requests differ only in the password of
  one login therefore send different bytes to other sessions, unless the size the client claimed
  cuts the packet off in front of the bytes that differ.  Every answer also takes bytes along that no
  member of its packet covers, and the reply to a `C_CreateAccount` an `Id` and a `Pw` that nothing
  was written to: where an old password may stand, so that the memories of the two runs differ.

  Main results:
    * `handle_congr` — nothing a handler sends depends on a stored password.
    * `handle_pair` — one request is answered with the same bytes in the two runs exactly when what
      the answer takes from the password and from the memory is the same.
    * `password_private_iff` — for any sessions and any requests around the login, the other
      sessions get the same bytes exactly when every answer they get is such a one.
-/
import YServerCore.Lib.KeyedLog
import YServerCore.Registry.SessionManager
import YServerCore.Requests.Identity
import YServerCore.Requests.Objects
import YServerCore.Send.SendPacket

namespace YServerCore

open ByteMemory (Mem read write)

/-! ## §1. What is passed to `SendPacket`. -/

/-- An execution of a handler with the registry at that time, and the memory its packet object stands
in: the padding, and what lies behind the object. -/
structure Handling (σ : Type*) extends Execution σ where
  manager : SessionManager σ
  memory : Mem

namespace Handling

variable {σ : Type*} [DecidableEq σ]

/-- The `SendPacket` calls for a packet: each with its session and the bytes the header claims. -/
def deliver (e : Handling σ) : Outgoing → List (σ × List UInt8)
  | .SendPacket Packet => [(e.session, packetBytes (Packet.store e.memory))]
  | .AllMessage Msg => e.manager.AllMessage (packetBytes (Msg.store e.memory))

/-- The `SendPacket` calls of a sequence of handlers, which ends with the process if one of them does
not return. -/
def sentBytes : (σ → SessionInfo) → List (Handling σ) → List (σ × List UInt8)
  | _, [] => []
  | info, e :: es =>
      match e.perform info with
      | none => []
      | some r => r.2.flatMap e.deliver ++ sentBytes r.1 es

/-- The sessions after a handler. -/
def step (info : σ → SessionInfo) (e : Handling σ) : Option (σ → SessionInfo) :=
  (e.perform info).map Prod.fst

/-- The bytes passed to a session's `SendPacket`, call by call. -/
def bytesTo (t : σ) (log : List (σ × List UInt8)) : List (List UInt8) := KeyedLog.values t log

/-- The login request of an execution. -/
def request (e : Handling σ) : ST_UserInfo := ST_UserInfo.ofBytes e.call.packet

/-- The bytes of the request's `Pw` that its claimed size covers. -/
def claimedPw (e : Handling σ) : List UInt8 :=
  e.request.Pw.toList.take (e.request.Header.Size.toNat - (ST_IOHeader.sizeof + MAX_ID_LEN))

/-- How many bytes of its packet object a handler passes on. -/
def sentSize (e : Handling σ) : Nat :=
  if e.call.handler.echoes then e.call.claimed else ST_UserInfo.sizeof

/-- The database answers a request alike in two executions. -/
structure SameVerdict (e e' : Handling σ) : Prop where
  found : e'.env.IsValidID (e'.request.IdText e'.env.behind)
    = e.env.IsValidID (e.request.IdText e.env.behind)
  created : e'.env.CreateAccount e'.request = e.env.CreateAccount e.request
  valid : e'.env.IsValidAccount e'.request = e.env.IsValidAccount e.request

/-- Two executions of one request, in memories that need not be the same. -/
structure SameRequest (e e' : Handling σ) : Prop where
  session : e'.session = e.session
  manager : e'.manager = e.manager
  call : e'.call = e.call
  verdict : SameVerdict e e'

/-- Two executions of a login that differ in the password, with the same answer of the database, in
memories that need not be the same. -/
structure OtherPassword (e e' : Handling σ) : Prop where
  session : e'.session = e.session
  manager : e'.manager = e.manager
  login : e.call.handler = .RecvLoginRequest
  login' : e'.call.handler = .RecvLoginRequest
  Header : e'.request.Header = e.request.Header
  Id : e'.request.Id = e.request.Id
  verdict : e'.env.IsValidAccount e'.request = e.env.IsValidAccount e.request

/-- **Two runs that differ in one password**: the requests of `before` and `after` are the same in both,
and the one between them is the login. -/
structure TwoRuns (before : List (Handling σ × Handling σ)) (login : Handling σ × Handling σ)
    (after : List (Handling σ × Handling σ)) : Prop where
  before : ∀ p ∈ before, SameRequest p.1 p.2
  login : OtherPassword login.1 login.2
  after : ∀ p ∈ after, SameRequest p.1 p.2

/-- **The password does not reach other sessions**: they get the same bytes in both runs. -/
def PasswordPrivate (info : σ → SessionInfo) (requester : σ) (runs : List (Handling σ × Handling σ)) :
    Prop :=
  ∀ t, t ≠ requester →
    bytesTo t (sentBytes info (runs.map Prod.fst)) = bytesTo t (sentBytes info (runs.map Prod.snd))

/-- The sessions a request is answered to. -/
def Hears (e : Handling σ) (t : σ) : Prop :=
  match e.call.handler with
  | .RecvChatMessage => False
  | .RecvCreateAccountRequest => t = e.session
  | .RecvLoginRequest =>
      if e.env.IsValidAccount e.request = some true then t ∈ e.manager.Sessions else t = e.session
  | .RecvMoveRequest => t ∈ e.manager.Sessions

/-- The database answers the request's statements, and the `Id` that a move is given has a NUL. -/
def Answered (e : Handling σ) (info : SessionInfo) : Prop :=
  match e.call.handler with
  | .RecvChatMessage => True
  | .RecvCreateAccountRequest =>
      e.env.IsValidID (e.request.IdText e.env.behind) ≠ none
        ∧ (e.env.IsValidID (e.request.IdText e.env.behind) = some false →
          e.env.CreateAccount e.request ≠ none)
  | .RecvLoginRequest => e.env.IsValidAccount e.request ≠ none
  | .RecvMoveRequest => 0 ∈ info.UserInfo.Id.toList

/-- What an answer takes from the password and from the memory is the same in two executions. -/
structure SameLeftovers (e e' : Handling σ) : Prop where
  /-- The password of a login, as far as the claimed size goes. -/
  Pw : e.call.handler = .RecvLoginRequest → e.claimedPw = e'.claimedPw
  /-- The `Id` and `Pw` that a reply to `C_CreateAccount` finds in its memory. -/
  reply : e.call.handler = .RecvCreateAccountRequest → e.env.Id = e'.env.Id ∧ e.env.Pw = e'.env.Pw
  /-- The padding, and what lies behind the packet, as far as it is sent. -/
  memory : ∀ i < e.sentSize, Uncovered e.call.handler.packetSize i → e.memory i = e'.memory i

/-- If a request is answered to a session beside the requester, the leftovers are the same. -/
def Covered (requester : σ) (info : σ → SessionInfo) (p : Handling σ × Handling σ) : Prop :=
  p.1.Answered (info p.1.session) → (∃ t, t ≠ requester ∧ p.1.Hears t) → SameLeftovers p.1 p.2

/-! ## §2. Stored passwords are not sent. -/

/-- What a handler sends, and the `Id` it leaves in the session, depend on the session's `Id` alone. -/
theorem handle_congr {info info' : SessionInfo} (h : info'.UserInfo.Id = info.UserInfo.Id)
    (env : Environment) (c : Call RequestHandler) :
    (handle env info c = none ∧ handle env info' c = none)
      ∨ ∃ next next' outs, handle env info c = some (next, outs)
        ∧ handle env info' c = some (next', outs) ∧ next'.UserInfo.Id = next.UserInfo.Id := by
  obtain ⟨handler, pos, size, packet⟩ := c
  cases handler with
  | RecvChatMessage => exact Or.inr ⟨info, info', [], rfl, rfl, h⟩
  | RecvCreateAccountRequest =>
      show (RecvCreateAccountRequest env info _ = none ∧ RecvCreateAccountRequest env info' _ = none)
        ∨ _
      unfold handle RecvCreateAccountRequest
      cases env.IsValidID ((ST_UserInfo.ofBytes packet).IdText env.behind) with
      | none => exact Or.inl ⟨rfl, rfl⟩
      | some found =>
          cases found with
          | true => exact Or.inr ⟨_, _, _, rfl, rfl, h⟩
          | false =>
              simp only
              cases env.CreateAccount (ST_UserInfo.ofBytes packet) with
              | none => exact Or.inl ⟨rfl, rfl⟩
              | some result => exact Or.inr ⟨_, _, _, rfl, rfl, h⟩
  | RecvLoginRequest =>
      unfold handle RecvLoginRequest
      simp only
      cases env.IsValidAccount (ST_UserInfo.ofBytes packet) with
      | none => exact Or.inl ⟨rfl, rfl⟩
      | some result =>
          obtain ⟨Header, hset⟩ := SetHeader_login (ST_UserInfo.ofBytes packet).Header result
          simp only [hset, Option.map_some]
          cases result with
          | true => exact Or.inr ⟨_, _, _, rfl, rfl, rfl⟩
          | false => exact Or.inr ⟨_, _, _, rfl, rfl, h⟩
  | RecvMoveRequest =>
      unfold handle RecvMoveRequest ST_MoveInfo.SetID ST_UserInfo.IdText
      simp only [h]
      -- the text of the `Id` runs on into `Pw` only where it is too long to be copied
      rw [strcpy_s_text_congr _ _ (info'.UserInfo.Pw.text _) (info.UserInfo.Pw.text env.behindUserInfo)]
      cases strcpy_s (ST_MoveInfo.ofBytes packet).Id
          (info.UserInfo.Id.text (info.UserInfo.Pw.text env.behindUserInfo)) with
      | none => exact Or.inl ⟨rfl, rfl⟩
      | some Id => exact Or.inr ⟨_, _, _, rfl, rfl, h⟩

omit [DecidableEq σ] in
/-- A handler returns exactly when its request is answered. -/
theorem handle_isSome_iff (e : Handling σ) (info : SessionInfo) :
    (handle e.env info e.call).isSome = true ↔ e.Answered info := by
  unfold handle Answered
  cases e.call.handler with
  | RecvChatMessage => exact iff_of_true rfl trivial
  | RecvCreateAccountRequest =>
      show (RecvCreateAccountRequest e.env info e.request).isSome = true ↔ _
      unfold RecvCreateAccountRequest
      simp only
      cases e.env.IsValidID (e.request.IdText e.env.behind) with
      | none => simp
      | some found =>
          cases found with
          | true => simp
          | false => simp [Option.isSome_iff_ne_none]
  | RecvLoginRequest =>
      show (RecvLoginRequest e.env info e.request).isSome = true ↔ _
      unfold RecvLoginRequest
      simp only
      cases e.env.IsValidAccount e.request with
      | none => simp
      | some result =>
          obtain ⟨Header, hset⟩ := SetHeader_login e.request.Header result
          simp [hset]
  | RecvMoveRequest =>
      show (RecvMoveRequest e.env info (ST_MoveInfo.ofBytes e.call.packet)).isSome = true ↔ _
      unfold RecvMoveRequest ST_MoveInfo.SetID ST_UserInfo.IdText
      simp only [Option.isSome_map]
      exact strcpy_s_text_isSome_iff _ _ _

/-! ## §3. One request in two memories. -/

omit [DecidableEq σ] in
/-- The same login request, whatever its password. -/
theorem SameRequest.otherPassword {e e' : Handling σ} (h : SameRequest e e')
    (hlogin : e.call.handler = .RecvLoginRequest) : OtherPassword e e' where
  session := h.session
  manager := h.manager
  login := hlogin
  login' := by rw [h.call, hlogin]
  Header := by rw [request, h.call, request]
  Id := by rw [request, h.call, request]
  verdict := h.verdict.valid

omit [DecidableEq σ] in
/-- Two executions that differ at most in the password of a login are the same if they are none. -/
theorem sameRequest_of_not_login {e e' : Handling σ} (h : SameRequest e e' ∨ OtherPassword e e')
    (hcall : e.call.handler ≠ .RecvLoginRequest) : SameRequest e e' :=
  h.resolve_right (fun hother => hcall hother.login)

/-- How often a packet is passed to the `SendPacket` of a session. -/
def copies (e : Handling σ) (t : σ) : Outgoing → Nat
  | .SendPacket _ => if e.session = t then 1 else 0
  | .AllMessage _ => e.manager.Sessions.count t

/-- The packet object of an outgoing packet, as the handler leaves it. -/
def object (e : Handling σ) (o : Outgoing) : Mem := o.packet.store e.memory

theorem bytesTo_append (t : σ) (log log' : List (σ × List UInt8)) :
    bytesTo t (log ++ log') = bytesTo t log ++ bytesTo t log' :=
  KeyedLog.values_append t log log'

/-- A broadcast reaches a session as often as it is registered. -/
theorem bytesTo_AllMessage (t : σ) (m : SessionManager σ) (bytes : List UInt8) :
    bytesTo t (m.AllMessage bytes) = List.replicate (m.Sessions.count t) bytes := by
  unfold bytesTo SessionManager.AllMessage
  induction m.Sessions with
  | nil => rfl
  | cons s ss ih =>
      rw [List.map_cons, List.count_cons]
      by_cases hs : s = t
      · subst hs
        rw [KeyedLog.values_cons_self, ih, if_pos (by simp), List.replicate_succ]
      · rw [KeyedLog.values_cons_ne hs, ih, if_neg (by simpa using hs), Nat.add_zero]

/-- What a packet is to a session: its bytes, as often as it is passed on. -/
theorem bytesTo_deliver (e : Handling σ) (t : σ) (o : Outgoing) :
    bytesTo t (e.deliver o) = List.replicate (e.copies t o) (packetBytes (e.object o)) := by
  cases o with
  | SendPacket Packet =>
      show KeyedLog.values t [(e.session, _)] = List.replicate (if e.session = t then 1 else 0) _
      by_cases ht : e.session = t
      · subst ht
        rw [KeyedLog.values_cons_self, if_pos rfl]
        rfl
      · rw [KeyedLog.values_cons_ne ht, if_neg ht]
        rfl
  | AllMessage Msg => exact bytesTo_AllMessage t e.manager _

/-- Two packets that are passed on alike are the same to other sessions exactly when their bytes are,
or no other session gets them. -/
theorem bytesTo_deliver_eq_iff {e e' : Handling σ} {o o' : Outgoing} (requester : σ)
    (hcopies : ∀ t, e'.copies t o' = e.copies t o) :
    (∀ t, t ≠ requester → bytesTo t (e.deliver o) = bytesTo t (e'.deliver o'))
      ↔ ((∃ t, t ≠ requester ∧ 0 < e.copies t o) →
          packetBytes (e.object o) = packetBytes (e'.object o')) := by
  simp only [bytesTo_deliver, hcopies]
  constructor
  · intro h hheard
    obtain ⟨t, hne, hpos⟩ := hheard
    obtain ⟨k, hk⟩ := Nat.exists_eq_add_of_lt hpos
    have ht := h t hne
    rw [hk, Nat.zero_add, List.replicate_succ, List.replicate_succ] at ht
    exact (List.cons.inj ht).1
  · intro h t hne
    by_cases hpos : 0 < e.copies t o
    · rw [h ⟨t, hne, hpos⟩]
    · rw [Nat.eq_zero_of_not_pos hpos, List.replicate_zero, List.replicate_zero]

/-- What two executions of a request, in the same session, pass on: the same packet in other bytes, to
the sessions that hear it. -/
def Answer (e e' : Handling σ) (o o' : Outgoing) : Prop :=
  (∀ t, e'.copies t o' = e.copies t o) ∧ (∀ t, 0 < e.copies t o ↔ e.Hears t)
    ∧ (packetBytes (e.object o) = packetBytes (e'.object o') ↔ SameLeftovers e e')

/-- The bytes of two packets of one struct and one claimed size. -/
theorem packetBytes_store_eq_iff (p p' : ServerPacket) (hsizeof : p'.sizeof = p.sizeof)
    (hSize : p'.Header.Size = p.Header.Size) (m m' : Mem) :
    packetBytes (p.store m) = packetBytes (p'.store m')
      ↔ read (p.store m) 0 p.Header.Size.toNat = read (p'.store m) 0 p.Header.Size.toNat
        ∧ ∀ i < p.Header.Size.toNat, Uncovered p.sizeof i → m i = m' i := by
  unfold packetBytes
  rw [ServerPacket.word32_store, ServerPacket.word32_store, hSize]
  exact ServerPacket.read_store_eq_iff hsizeof m m' _

/-- A reply to `C_CreateAccount`, constructed in two memories. -/
theorem answer_createAccount {e e' : Handling σ} (h : SameRequest e e')
    (hcall : e.call.handler = .RecvCreateAccountRequest) {Header : ST_IOHeader}
    (hSize : Header.Size.toNat = ST_UserInfo.sizeof) :
    Answer e e' (.SendPacket (.userInfo ⟨Header, e.env.Id, e.env.Pw⟩))
      (.SendPacket (.userInfo ⟨Header, e'.env.Id, e'.env.Pw⟩)) := by
  refine ⟨fun t => ?_, fun t => ?_, ?_⟩
  · show (if e'.session = t then 1 else 0) = if e.session = t then 1 else 0
    rw [h.session]
  · show (0 < if e.session = t then 1 else 0) ↔ e.Hears t
    unfold Hears
    rw [hcall]
    by_cases ht : e.session = t
    · simp [ht]
    · simp [ht, Ne.symm ht]
  · have hsent : e.sentSize = ST_UserInfo.sizeof := by
      unfold sentSize
      rw [hcall]
      rfl
    refine (packetBytes_store_eq_iff (.userInfo ⟨Header, e.env.Id, e.env.Pw⟩)
      (.userInfo ⟨Header, e'.env.Id, e'.env.Pw⟩) rfl rfl e.memory e'.memory).trans ?_
    show read (ST_UserInfo.store e.memory ⟨Header, e.env.Id, e.env.Pw⟩) 0 Header.Size.toNat
        = read (ST_UserInfo.store e.memory ⟨Header, e'.env.Id, e'.env.Pw⟩) 0 Header.Size.toNat
      ∧ (∀ i < Header.Size.toNat, Uncovered ST_UserInfo.sizeof i → e.memory i = e'.memory i) ↔ _
    rw [hSize]
    constructor
    · intro heq
      obtain ⟨hread, hmemory⟩ := heq
      -- all the members are sent
      have hobject := congrArg ST_UserInfo.ofBytes hread
      rw [ST_UserInfo.ofBytes_store, ST_UserInfo.ofBytes_store, ST_UserInfo.mk.injEq] at hobject
      refine ⟨fun hlogin => absurd (hcall.symm.trans hlogin) (by decide), fun _ => hobject.2, ?_⟩
      rw [hsent, hcall]
      exact hmemory
    · intro hsame
      obtain ⟨hid, hpw⟩ := hsame.reply hcall
      have hmemory := hsame.memory
      rw [hsent, hcall] at hmemory
      exact ⟨by rw [hid, hpw], hmemory⟩

/-- **Two objects that differ in the password** have the same bytes exactly when the passwords and the
memories agree as far as the claimed size goes. -/
theorem userInfo_bytes_eq_iff (u u' : ST_UserInfo) (hHeader : u'.Header = u.Header)
    (hId : u'.Id = u.Id) (m m' : Mem) :
    packetBytes ((ServerPacket.userInfo u).store m) = packetBytes ((ServerPacket.userInfo u').store m')
      ↔ u.Pw.toList.take (u.Header.Size.toNat - (ST_IOHeader.sizeof + MAX_ID_LEN))
          = u'.Pw.toList.take (u.Header.Size.toNat - (ST_IOHeader.sizeof + MAX_ID_LEN))
        ∧ ∀ i < u.Header.Size.toNat, Uncovered ST_UserInfo.sizeof i → m i = m' i := by
  have hSize : u'.Header.Size = u.Header.Size := by rw [hHeader]
  rw [packetBytes_store_eq_iff (.userInfo u) (.userInfo u') rfl hSize m m']
  apply and_congr_left'
  show read (u.store m) 0 u.Header.Size.toNat = read (u'.store m) 0 u.Header.Size.toNat ↔ _
  unfold ST_UserInfo.store
  rw [hHeader, hId]
  exact ByteMemory.read_write_eq_iff _ _ _ (by rw [Vector.length_toList, Vector.length_toList])

/-- A login that goes back under a new header, to its session or to all. -/
theorem answer_login {e e' : Handling σ} (h : OtherPassword e e') {Header : ST_IOHeader}
    (hSize : Header.Size = e.request.Header.Size) {o o' : Outgoing}
    (ho : o.packet = .userInfo { e.request with Header := Header })
    (ho' : o'.packet = .userInfo { e'.request with Header := Header })
    (hcopies : ∀ t, e'.copies t o' = e.copies t o) (hhears : ∀ t, 0 < e.copies t o ↔ e.Hears t) :
    Answer e e' o o' := by
  refine ⟨hcopies, hhears, ?_⟩
  have hsent : e.sentSize = Header.Size.toNat := by
    unfold sentSize
    rw [h.login, hSize]
    rfl
  have hbytes := userInfo_bytes_eq_iff { e.request with Header := Header }
    { e'.request with Header := Header } (show Header = Header from rfl) h.Id e.memory e'.memory
  unfold object
  rw [ho, ho', hbytes]
  simp only
  constructor
  · intro heq
    refine ⟨fun _ => ?_, fun hcreate => absurd (h.login.symm.trans hcreate) (by decide), ?_⟩
    · unfold claimedPw
      rw [h.Header, ← hSize]
      exact heq.1
    · rw [hsent, h.login]
      exact heq.2
  · intro hsame
    have hpw := hsame.Pw h.login
    have hmemory := hsame.memory
    unfold claimedPw at hpw
    rw [h.Header, ← hSize] at hpw
    rw [hsent, h.login] at hmemory
    exact ⟨hpw, hmemory⟩

/-- A move that goes out to all. -/
theorem answer_move {e e' : Handling σ} (h : SameRequest e e')
    (hcall : e.call.handler = .RecvMoveRequest) {Msg : ST_MoveInfo}
    (hSize : Msg.Header.Size.toNat = e.call.claimed) :
    Answer e e' (.AllMessage (.moveInfo Msg)) (.AllMessage (.moveInfo Msg)) := by
  refine ⟨fun t => ?_, fun t => ?_, ?_⟩
  · show e'.manager.Sessions.count t = e.manager.Sessions.count t
    rw [h.manager]
  · show 0 < e.manager.Sessions.count t ↔ e.Hears t
    unfold Hears
    rw [hcall]
    exact List.count_pos_iff
  · have hsent : e.sentSize = Msg.Header.Size.toNat := by
      unfold sentSize
      rw [hcall, hSize]
      rfl
    refine (packetBytes_store_eq_iff (.moveInfo Msg) (.moveInfo Msg) rfl rfl e.memory e'.memory).trans ?_
    refine (and_iff_right rfl).trans ?_
    constructor
    · intro hmemory
      refine ⟨fun hlogin => absurd (hcall.symm.trans hlogin) (by decide),
        fun hcreate => absurd (hcall.symm.trans hcreate) (by decide), ?_⟩
      rw [hsent, hcall]
      exact hmemory
    · intro hsame
      have hmemory := hsame.memory
      rw [hsent, hcall] at hmemory
      exact hmemory

/-- What two executions of a request come to: neither returns, or both leave the session the same `Id`
and send nothing, or one packet each. -/
inductive Answers (e e' : Handling σ) :
    Option (SessionInfo × List Outgoing) → Option (SessionInfo × List Outgoing) → Prop
  | lost : Answers e e' none none
  | silent {next next' : SessionInfo} (hid : next'.UserInfo.Id = next.UserInfo.Id)
      (hears : ∀ t, ¬ e.Hears t) : Answers e e' (some (next, [])) (some (next', []))
  | answer {next next' : SessionInfo} {o o' : Outgoing} (hid : next'.UserInfo.Id = next.UserInfo.Id)
      (h : Answer e e' o o') : Answers e e' (some (next, [o])) (some (next', [o']))

/-- The account handler in two memories. -/
theorem handle_pair_createAccount {e e' : Handling σ} (h : SameRequest e e')
    (hcall : e.call.handler = .RecvCreateAccountRequest) (info : SessionInfo) :
    Answers e e' (RecvCreateAccountRequest e.env info e.request)
      (RecvCreateAccountRequest e'.env info e'.request) := by
  -- the reply's header has the size of the object on every path
  have hanswer : ∀ Success : Bool, Answer e e'
      (.SendPacket (.userInfo { ST_UserInfo.fresh e.env.Id e.env.Pw with
        Header := { (ST_UserInfo.fresh e.env.Id e.env.Pw).Header with
          Success := Success }.SetHeader_bool true }))
      (.SendPacket (.userInfo { ST_UserInfo.fresh e'.env.Id e'.env.Pw with
        Header := { (ST_UserInfo.fresh e'.env.Id e'.env.Pw).Header with
          Success := Success }.SetHeader_bool true })) :=
    fun _ => answer_createAccount h hcall (ST_UserInfo.fresh_Size e.env.Id e.env.Pw)
  unfold RecvCreateAccountRequest
  rw [h.verdict.found]
  cases e.env.IsValidID (e.request.IdText e.env.behind) with
  | none => exact .lost
  | some found =>
      cases found with
      | true => exact .answer rfl (hanswer false)
      | false =>
          simp only [h.verdict.created]
          cases e.env.CreateAccount e.request with
          | none => exact .lost
          | some result => exact .answer rfl (hanswer result)

/-- The login handler with two passwords, in two memories. -/
theorem handle_pair_login {e e' : Handling σ} (h : OtherPassword e e') (info : SessionInfo) :
    Answers e e' (RecvLoginRequest e.env info e.request) (RecvLoginRequest e'.env info e'.request) := by
  unfold RecvLoginRequest
  rw [h.verdict, h.Header]
  cases hvalid : e.env.IsValidAccount e.request with
  | none => exact .lost
  | some result =>
      obtain ⟨Header, hset⟩ := SetHeader_login e.request.Header result
      have hSize := ST_IOHeader.SetHeader_Size hset
      simp only [hset, Option.map_some]
      cases result with
      | true =>
          refine .answer h.Id (answer_login h hSize rfl rfl (fun t => ?_) (fun t => ?_))
          · show e'.manager.Sessions.count t = e.manager.Sessions.count t
            rw [h.manager]
          · show 0 < e.manager.Sessions.count t ↔ e.Hears t
            unfold Hears
            rw [h.login, hvalid]
            exact List.count_pos_iff
      | false =>
          refine .answer rfl (answer_login h hSize rfl rfl (fun t => ?_) (fun t => ?_))
          · show (if e'.session = t then 1 else 0) = if e.session = t then 1 else 0
            rw [h.session]
          · show (0 < if e.session = t then 1 else 0) ↔ e.Hears t
            unfold Hears
            rw [h.login, hvalid]
            by_cases ht : e.session = t
            · simp [ht]
            · simp [ht, Ne.symm ht]

/-- The move handler in two memories. -/
theorem handle_pair_move {e e' : Handling σ} (h : SameRequest e e')
    (hcall : e.call.handler = .RecvMoveRequest) (info : SessionInfo) :
    Answers e e' (RecvMoveRequest e.env info (ST_MoveInfo.ofBytes e.call.packet))
      (RecvMoveRequest e'.env info (ST_MoveInfo.ofBytes e.call.packet)) := by
  unfold RecvMoveRequest ST_MoveInfo.SetID ST_UserInfo.IdText
  simp only
  -- what stands behind the `UserInfo` is read only where the text is too long to be copied
  rw [strcpy_s_text_congr _ _ (info.UserInfo.Pw.text e'.env.behindUserInfo)
    (info.UserInfo.Pw.text e.env.behindUserInfo)]
  cases strcpy_s (ST_MoveInfo.ofBytes e.call.packet).Id
      (info.UserInfo.Id.text (info.UserInfo.Pw.text e.env.behindUserInfo)) with
  | none => exact .lost
  | some Id => exact .answer rfl (answer_move h hcall rfl)

/-- **One request in two runs**, where the sessions' `Id`s are the same. -/
theorem handle_pair {e e' : Handling σ} (h : SameRequest e e' ∨ OtherPassword e e')
    {info info' : SessionInfo} (hid : info'.UserInfo.Id = info.UserInfo.Id) :
    Answers e e' (handle e.env info e.call) (handle e'.env info' e'.call) := by
  have hsame : Answers e e' (handle e.env info e.call) (handle e'.env info e'.call) := by
    cases hcall : e.call.handler with
    | RecvLoginRequest =>
        have hother := h.elim (fun hreq => hreq.otherPassword hcall) id
        unfold handle
        rw [hcall, hother.login']
        exact handle_pair_login hother info
    | RecvChatMessage =>
        have hreq := sameRequest_of_not_login h (by rw [hcall]; decide)
        unfold handle
        rw [hreq.call, hcall]
        refine .silent rfl (fun t hears => ?_)
        unfold Hears at hears
        rw [hcall] at hears
        exact hears
    | RecvCreateAccountRequest =>
        have hreq := sameRequest_of_not_login h (by rw [hcall]; decide)
        have hpair := handle_pair_createAccount hreq hcall info
        unfold handle
        unfold request at hpair
        rw [hreq.call] at hpair ⊢
        rw [hcall]
        exact hpair
    | RecvMoveRequest =>
        have hreq := sameRequest_of_not_login h (by rw [hcall]; decide)
        unfold handle
        rw [hreq.call, hcall]
        exact handle_pair_move hreq hcall info
  generalize handle e.env info e.call = r at hsame ⊢
  -- the second run's session differs in its stored password at most
  rcases handle_congr hid e'.env e'.call with
    ⟨hnone, hnone'⟩ | ⟨next, next', outs, hsome, hsome', hnext⟩
  · rw [hnone] at hsame
    rw [hnone']
    exact hsame
  · rw [hsome] at hsame
    rw [hsome']
    cases hsame with
    | silent hid' hears => exact .silent (hnext.trans hid') hears
    | answer hid' hanswer => exact .answer (hnext.trans hid') hanswer

/-! ## §4. Whole runs. -/

/-- A step that leaves the same `Id` in its session leaves the same ones in all. -/
theorem update_ids {info info' : σ → SessionInfo}
    (h : ∀ s, (info' s).UserInfo.Id = (info s).UserInfo.Id) (session : σ) {next next' : SessionInfo}
    (hnext : next'.UserInfo.Id = next.UserInfo.Id) (s : σ) :
    (Function.update info' session next' s).UserInfo.Id
      = (Function.update info session next s).UserInfo.Id := by
  by_cases hs : s = session
  · subst hs
    rw [Function.update_self, Function.update_self]
    exact hnext
  · rw [Function.update_of_ne hs, Function.update_of_ne hs]
    exact h s

/-- Logs of two parts are the same to a set of sessions exactly when their parts are, where the first
parts have as many packets for each. -/
theorem bytesTo_append_eq_iff {requester : σ} {log log' rest rest' : List (σ × List UInt8)}
    (hlen : ∀ t, (bytesTo t log).length = (bytesTo t log').length) :
    (∀ t, t ≠ requester → bytesTo t (log ++ rest) = bytesTo t (log' ++ rest'))
      ↔ (∀ t, t ≠ requester → bytesTo t log = bytesTo t log')
        ∧ ∀ t, t ≠ requester → bytesTo t rest = bytesTo t rest' := by
  simp only [bytesTo_append]
  constructor
  · intro h
    exact ⟨fun t hne => (List.append_inj (h t hne) (hlen t)).1,
      fun t hne => (List.append_inj (h t hne) (hlen t)).2⟩
  · intro h t hne
    rw [h.1 t hne, h.2 t hne]

/-- Two runs of requests that are the same, or differ in the password of a login. -/
theorem sentBytes_eq_iff (requester : σ) (runs : List (Handling σ × Handling σ))
    (hruns : ∀ p ∈ runs, SameRequest p.1 p.2 ∨ OtherPassword p.1 p.2) {info info' : σ → SessionInfo}
    (hinfo : ∀ s, (info' s).UserInfo.Id = (info s).UserInfo.Id) :
    (∀ t, t ≠ requester → bytesTo t (sentBytes info (runs.map Prod.fst))
        = bytesTo t (sentBytes info' (runs.map Prod.snd)))
      ↔ StepMachine.Along (fun info p => step info p.1) (Covered requester) info runs := by
  induction runs generalizing info info' with
  | nil => exact ⟨fun _ => trivial, fun _ _ _ => rfl⟩
  | cons p runs ih =>
      obtain ⟨e, e'⟩ := p
      have hpair : SameRequest e e' ∨ OtherPassword e e' := hruns (e, e') List.mem_cons_self
      have hsession : e'.session = e.session :=
        hpair.elim (fun hreq => hreq.session) (fun hother => hother.session)
      have hrest : ∀ p ∈ runs, SameRequest p.1 p.2 ∨ OtherPassword p.1 p.2 :=
        fun p hp => hruns p (List.mem_cons_of_mem _ hp)
      have hanswers := handle_pair hpair (hinfo e.session)
      have hstep : step info e = (handle e.env (info e.session) e.call).map
          (fun r => Function.update info e.session r.1) := by
        unfold step Execution.perform
        rw [Option.map_map]
        rfl
      rw [StepMachine.along_cons, List.map_cons, List.map_cons, sentBytes, sentBytes]
      show _ ↔ (e.Answered (info e.session) → (∃ t, t ≠ requester ∧ e.Hears t) → SameLeftovers e e')
        ∧ ∀ next, step info e = some next →
          StepMachine.Along (fun info p => step info p.1) (Covered requester) next runs
      rw [hstep, ← handle_isSome_iff]
      unfold Execution.perform
      rw [hsession]
      generalize handle e.env (info e.session) e.call = r at hanswers
      generalize handle e'.env (info' e.session) e'.call = r' at hanswers
      cases hanswers with
      | lost =>
          -- the process ends in both runs
          simp
      | silent hid hears =>
          have hnobody : ¬ ∃ t, t ≠ requester ∧ e.Hears t := fun ⟨t, _, ht⟩ => hears t ht
          simp only [Option.map_some, Option.isSome_some, true_implies, Option.some.injEq, forall_eq',
            List.flatMap_nil, List.nil_append]
          rw [ih hrest (update_ids hinfo e.session hid)]
          exact (and_iff_right (fun hheard => absurd hheard hnobody)).symm
      | answer hid h =>
          obtain ⟨hcopies, hhears, hbytes⟩ := h
          simp only [Option.map_some, Option.isSome_some, true_implies, Option.some.injEq, forall_eq',
            List.flatMap_cons, List.flatMap_nil, List.append_nil]
          rw [bytesTo_append_eq_iff
              (fun t => by rw [bytesTo_deliver, bytesTo_deliver, List.length_replicate,
                List.length_replicate, hcopies t]),
            ih hrest (update_ids hinfo e.session hid), bytesTo_deliver_eq_iff requester hcopies, hbytes]
          simp only [hhears]

/-- **A password stays private exactly when it is not broadcast.**  For any sessions, any handlers
before and after a login, two passwords the database answers alike, and any memory in either run:
every session but the one that logs in gets the same bytes in both runs, if and only if, whenever a
request is answered to such a session, the bytes of a login's `Pw` and of the memory that the
answer takes along are the same in both. -/
theorem password_private_iff (info : σ → SessionInfo) (before after : List (Handling σ × Handling σ))
    (login : Handling σ × Handling σ) (h : TwoRuns before login after) :
    PasswordPrivate info login.1.session (before ++ login :: after)
      ↔ StepMachine.Along (fun info p => step info p.1) (Covered login.1.session) info
        (before ++ login :: after) := by
  have hruns : ∀ p ∈ before ++ login :: after, SameRequest p.1 p.2 ∨ OtherPassword p.1 p.2 := by
    intro p hp
    rcases List.mem_append.mp hp with hbefore | hlogin
    · exact Or.inl (h.before p hbefore)
    · rcases List.mem_cons.mp hlogin with rfl | hafter
      · exact Or.inr h.login
      · exact Or.inl (h.after p hafter)
  exact sentBytes_eq_iff login.1.session _ hruns (fun _ => rfl)

/-- A login with this byte all over `Pw`, and this claimed size, while the sessions 1 and 2 are
registered. -/
def broadcastLogin (Size Pw : UInt8) (memory : Mem) : Handling Nat where
  session := 1
  call := ⟨.RecvLoginRequest, 0, 92, [3, 0, 0, 0, Size, 0, 0, 0] ++ List.replicate 36 0
    ++ (List.replicate 23 65 ++ [0] ++ List.replicate 23 Pw ++ [0])⟩
  env := Requests.accepting
  manager := { Sessions := [1, 2], SessionCount := 2 }
  memory := memory

/-- Two such logins with the same header and `Id` differ in the password alone. -/
theorem broadcastLogin_other {Size Pw Pw' : UInt8} (memory memory' : Mem)
    (hHeader : (broadcastLogin Size Pw' memory').request.Header
      = (broadcastLogin Size Pw memory).request.Header)
    (hId : (broadcastLogin Size Pw' memory').request.Id = (broadcastLogin Size Pw memory).request.Id) :
    OtherPassword (broadcastLogin Size Pw memory) (broadcastLogin Size Pw' memory') where
  session := rfl
  manager := rfl
  login := rfl
  login' := rfl
  Header := hHeader
  Id := hId
  verdict := rfl

/-- A `C_CreateAccount` request of a session, whose reply is built where this byte stands. -/
def accountHandling (session : Nat) (old : UInt8) : Handling Nat where
  session := session
  call := ⟨.RecvCreateAccountRequest, 0, 92, List.replicate 92 0⟩
  env := { Requests.accepting with Pw := Vector.replicate MAX_PW_LEN old }
  manager := { Sessions := [1, 2], SessionCount := 2 }
  memory := fun _ => old

theorem accountHandling_same (session : Nat) (old old' : UInt8) :
    SameRequest (accountHandling session old) (accountHandling session old') where
  session := rfl
  manager := rfl
  call := rfl
  verdict := ⟨rfl, rfl, rfl⟩

/-- A login that claims 68 bytes is cut off in front of its password, and a reply that is built where
the password stood goes to the session itself. -/
theorem password_private_cut :
    PasswordPrivate (fun _ => ⟨ST_UserInfo.fresh Requests.accepting.Id Requests.accepting.Pw, .Wait⟩) 1
      ([] ++ (broadcastLogin 68 66 (fun _ => 0), broadcastLogin 68 67 (fun i => if i < 68 then 0 else 1))
        :: [(accountHandling 1 66, accountHandling 1 67)]) := by
  refine (password_private_iff _ [] [(accountHandling 1 66, accountHandling 1 67)]
    (broadcastLogin 68 66 (fun _ => 0), broadcastLogin 68 67 (fun i => if i < 68 then 0 else 1))
    ⟨fun p hp => absurd hp List.not_mem_nil,
      broadcastLogin_other _ _ (by decide +kernel) (by decide +kernel),
      fun p hp => List.mem_singleton.mp hp ▸ accountHandling_same 1 66 67⟩).mpr
    ⟨?_, fun info _ => ⟨?_, fun _ _ => trivial⟩⟩
  · -- the bytes of `Pw` are not sent, and the memories are the same below 68
    intro _ _
    refine ⟨fun _ => by decide +kernel, fun hcreate => absurd hcreate (by decide), fun i hi _ => ?_⟩
    have hsent : (broadcastLogin 68 66 (fun _ => 0)).sentSize = 68 := by decide +kernel
    rw [hsent] at hi
    show (0 : UInt8) = if i < 68 then 0 else 1
    rw [if_pos hi]
  · -- nobody else hears the reply
    intro _ hheard
    obtain ⟨t, hne, hears⟩ := hheard
    exact absurd hears hne

/-- **A password is broadcast**: a login that claims its own size is accepted, and session 2 gets its
password. -/
theorem password_broadcast :
    TwoRuns [] (broadcastLogin 92 66 (fun _ => 0), broadcastLogin 92 67 (fun _ => 0)) []
      ∧ (bytesTo 2 (sentBytes
          (fun _ => ⟨ST_UserInfo.fresh Requests.accepting.Id Requests.accepting.Pw, .Wait⟩)
          [broadcastLogin 92 66 (fun _ => 0)])).map (List.drop 68) = [List.replicate 23 66 ++ [0]]
      ∧ ¬ PasswordPrivate
          (fun _ => ⟨ST_UserInfo.fresh Requests.accepting.Id Requests.accepting.Pw, .Wait⟩) 1
          [(broadcastLogin 92 66 (fun _ => 0), broadcastLogin 92 67 (fun _ => 0))] := by
  refine ⟨⟨fun p hp => absurd hp List.not_mem_nil,
      broadcastLogin_other _ _ (by decide +kernel) (by decide +kernel),
      fun p hp => absurd hp List.not_mem_nil⟩, by decide +kernel, fun hprivate => ?_⟩
  have hsame := hprivate 2 (by decide)
  exact absurd hsame (by decide +kernel)

end Handling

end YServerCore
