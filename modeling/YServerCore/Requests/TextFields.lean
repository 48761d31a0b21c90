/-
  YServerCore.Requests.TextFields — the texts the handlers read and copy.

  A `char` array of a packet becomes a string by a read up to its first NUL, wherever that is; its
  bytes come from the network, and the ones of a session's `UserInfo` from a login or from the
  memory the session was allocated in.  `strcpy_s` ends the process when its source does not fit.

  Main results:
    * `handle_returns` — a handler whose texts are all inside returns when the database does.
    * `inside_iff` — the texts of one handler are inside exactly when its arrays hold a NUL.
    * `texts_inside_iff` — the same for every sequence of requests from fresh sessions.
-/
import YServerCore.Requests.Identity

namespace YServerCore

/-! ## §1. The texts of a handler. -/

/-- A use of a text. -/
inductive TextUse where
  /-- An array is read as a C string. -/
  | read {n : Nat} (a : CharArray n)
  /-- `strcpy_s` into an array of `n` bytes. -/
  | copy (n : Nat) (src : List UInt8)

/-- The read ends inside the array, the copied text is shorter than its destination. -/
def TextUse.Inside : TextUse → Prop
  | read a => 0 ∈ a.toList
  | copy n src => (src.takeWhile (· ≠ 0)).length < n

instance : ∀ u : TextUse, Decidable u.Inside
  | .read a => inferInstanceAs (Decidable (0 ∈ a.toList))
  | .copy n src => inferInstanceAs (Decidable ((src.takeWhile (· ≠ 0)).length < n))

/-- A text is copied exactly when it is inside. -/
theorem strcpy_s_eq_none_iff {n : Nat} (dst : CharArray n) (src : List UInt8) :
    strcpy_s dst src = none ↔ ¬ (TextUse.copy n src).Inside := by
  unfold strcpy_s
  exact ite_eq_right_iff.trans (imp_congr Iff.rfl (by simp))

/-- The text of an array fits an array of the same size exactly when the array holds a NUL. -/
theorem copy_text_iff {n : Nat} (a : CharArray n) (behind : List UInt8) :
    (TextUse.copy n (a.text behind)).Inside ↔ 0 ∈ a.toList := by
  have hcopied := strcpy_s_text_isSome_iff a a behind
  rw [Option.isSome_iff_ne_none, Ne, strcpy_s_eq_none_iff, not_not] at hcopied
  exact hcopied

namespace Database

/-- `IsValidAccount`; an account that is not found is logged by its id. -/
def IsValidAccount_texts (valid : Option Bool) (userinfo : ST_UserInfo) : List TextUse :=
  [.read userinfo.Id, .read userinfo.Pw] ++ if valid = some false then [.read userinfo.Id] else []

/-- `CreateAccount`, with what its `IsValidAccount` returns. -/
def CreateAccount_texts (valid : Option Bool) (userinfo : ST_UserInfo) : List TextUse :=
  [.read userinfo.Id, .read userinfo.Pw] ++ IsValidAccount_texts valid userinfo

end Database

/-- `RecvCreateAccountRequest`; its `SetHeader` copies nothing. -/
def RecvCreateAccountRequest_texts (env : Environment) (userinfo : ST_UserInfo) : List TextUse :=
  .read userinfo.Id ::
    if env.IsValidID (userinfo.IdText env.behind) = some false then
      Database.CreateAccount_texts (env.CreateAccount userinfo) userinfo
    else []

/-- `RecvLoginRequest`. -/
def RecvLoginRequest_texts (env : Environment) (userinfo : ST_UserInfo) : List TextUse :=
  Database.IsValidAccount_texts (env.IsValidAccount userinfo) userinfo
    ++ (env.IsValidAccount userinfo).toList.map
      (fun result => .copy MAX_RESULT_MSG_LEN (if result then [] else unkwonAccount))

/-- `RecvChatMessage` prints both texts. -/
def RecvChatMessage_texts (msg : ST_ChatMessage) : List TextUse := [.read msg.Id, .read msg.Message]

/-- `RecvMoveRequest` passes the session's `Id` to `SetID`. -/
def RecvMoveRequest_texts (env : Environment) (session : SessionInfo) : List TextUse :=
  [.read session.UserInfo.Id, .copy MAX_ID_LEN (session.UserInfo.IdText env.behindUserInfo)]

/-- The texts a call's handler uses. -/
def texts (env : Environment) (session : SessionInfo) (c : Call RequestHandler) : List TextUse :=
  match c.handler with
  | .RecvChatMessage => RecvChatMessage_texts (ST_ChatMessage.ofBytes c.packet)
  | .RecvCreateAccountRequest => RecvCreateAccountRequest_texts env (ST_UserInfo.ofBytes c.packet)
  | .RecvLoginRequest => RecvLoginRequest_texts env (ST_UserInfo.ofBytes c.packet)
  | .RecvMoveRequest => RecvMoveRequest_texts env session

/-! ## §2. One handler. -/

/-- Every text of a call is inside. -/
def TextsInside (env : Environment) (session : SessionInfo) (c : Call RequestHandler) : Prop :=
  ∀ u ∈ texts env session c, u.Inside

instance (env : Environment) (session : SessionInfo) (c : Call RequestHandler) :
    Decidable (TextsInside env session c) :=
  inferInstanceAs (Decidable (∀ u ∈ texts env session c, u.Inside))

/-- The arrays a call reads hold a NUL; `Id` is the one of the session's `UserInfo`. -/
def HoldNul (env : Environment) (Id : CharArray MAX_ID_LEN) (c : Call RequestHandler) : Prop :=
  match c.handler with
  | .RecvChatMessage =>
      let msg := ST_ChatMessage.ofBytes c.packet
      0 ∈ msg.Id.toList ∧ 0 ∈ msg.Message.toList
  | .RecvCreateAccountRequest =>
      let userinfo := ST_UserInfo.ofBytes c.packet
      0 ∈ userinfo.Id.toList
        ∧ (env.IsValidID (userinfo.IdText env.behind) = some false → 0 ∈ userinfo.Pw.toList)
  | .RecvLoginRequest =>
      let userinfo := ST_UserInfo.ofBytes c.packet
      0 ∈ userinfo.Id.toList ∧ 0 ∈ userinfo.Pw.toList
  | .RecvMoveRequest => 0 ∈ Id.toList

/-- A call that is no move does not read the session's `Id`. -/
theorem holdNul_congr {c : Call RequestHandler} (h : c.handler ≠ .RecvMoveRequest) (env : Environment)
    (Id Id' : CharArray MAX_ID_LEN) : HoldNul env Id c ↔ HoldNul env Id' c := by
  obtain ⟨handler, pos, size, packet⟩ := c
  cases handler with
  | RecvChatMessage => exact Iff.rfl
  | RecvCreateAccountRequest => exact Iff.rfl
  | RecvLoginRequest => exact Iff.rfl
  | RecvMoveRequest => exact absurd rfl h

/-- The texts of `RecvLoginRequest` fit the header's array. -/
theorem login_text_inside (result : Bool) :
    (TextUse.copy MAX_RESULT_MSG_LEN (if result then [] else unkwonAccount)).Inside := by
  cases result <;> decide

theorem IsValidAccount_texts_inside (valid : Option Bool) (userinfo : ST_UserInfo) :
    (∀ u ∈ Database.IsValidAccount_texts valid userinfo, u.Inside)
      ↔ 0 ∈ userinfo.Id.toList ∧ 0 ∈ userinfo.Pw.toList := by
  unfold Database.IsValidAccount_texts
  rw [List.forall_mem_append, List.forall_mem_cons, List.forall_mem_singleton]
  constructor
  · intro h
    exact h.1
  · intro h
    refine ⟨h, fun u hu => ?_⟩
    -- the log reads the id once more
    split at hu
    · rw [List.mem_singleton] at hu
      exact hu ▸ h.1
    · exact absurd hu (by simp)

/-- **The texts of one handler** are inside exactly when the arrays it reads hold a NUL. -/
theorem inside_iff (env : Environment) (session : SessionInfo) (c : Call RequestHandler) :
    TextsInside env session c ↔ HoldNul env session.UserInfo.Id c := by
  obtain ⟨handler, pos, size, packet⟩ := c
  unfold TextsInside HoldNul texts
  cases handler with
  | RecvChatMessage =>
      show (∀ u ∈ RecvChatMessage_texts _, u.Inside) ↔ _
      unfold RecvChatMessage_texts
      rw [List.forall_mem_cons, List.forall_mem_singleton]
      exact Iff.rfl
  | RecvCreateAccountRequest =>
      show (∀ u ∈ RecvCreateAccountRequest_texts env _, u.Inside) ↔ _
      unfold RecvCreateAccountRequest_texts
      rw [List.forall_mem_cons]
      apply and_congr_right
      intro hid
      by_cases hfree : env.IsValidID ((ST_UserInfo.ofBytes packet).IdText env.behind) = some false
      · rw [if_pos hfree]
        unfold Database.CreateAccount_texts
        rw [List.forall_mem_append, IsValidAccount_texts_inside, List.forall_mem_cons,
          List.forall_mem_singleton]
        exact ⟨fun h _ => h.2.2, fun h => ⟨⟨hid, h hfree⟩, hid, h hfree⟩⟩
      · rw [if_neg hfree]
        exact ⟨fun _ h => absurd h hfree, fun _ u hu => absurd hu (by simp)⟩
  | RecvLoginRequest =>
      show (∀ u ∈ RecvLoginRequest_texts env _, u.Inside) ↔ _
      unfold RecvLoginRequest_texts
      rw [List.forall_mem_append, IsValidAccount_texts_inside]
      refine and_iff_left fun u hu => ?_
      obtain ⟨result, -, rfl⟩ := List.mem_map.mp hu
      exact login_text_inside result
  | RecvMoveRequest =>
      show (∀ u ∈ RecvMoveRequest_texts env session, u.Inside) ↔ _
      unfold RecvMoveRequest_texts
      rw [List.forall_mem_cons, List.forall_mem_singleton]
      unfold ST_UserInfo.IdText
      rw [copy_text_iff]
      exact and_self_iff

/-- **What a handler makes of its session**: a login that is accepted stores its packet, and nothing
else changes anything. -/
theorem handle_session {env : Environment} {session session' : SessionInfo}
    {c : Call RequestHandler} {outs : List Outgoing}
    (h : handle env session c = some (session', outs)) :
    session' = session ∨ c.handler = .RecvLoginRequest ∧ ∃ Header,
      session' = ⟨{ ST_UserInfo.ofBytes c.packet with Header := Header }, .Login⟩ := by
  obtain ⟨handler, pos, size, packet⟩ := c
  cases handler with
  | RecvChatMessage =>
      have hsome : some (session, []) = some (session', outs) := h
      rw [Option.some.injEq, Prod.mk.injEq] at hsome
      exact Or.inl hsome.1.symm
  | RecvCreateAccountRequest => exact Or.inl (RecvCreateAccountRequest_outgoing h).1
  | RecvLoginRequest =>
      obtain ⟨result, Header, -, -, hsession, -⟩ := RecvLoginRequest_spec h
      cases result with
      | true => exact Or.inr ⟨rfl, Header, hsession⟩
      | false => exact Or.inl hsession
  | RecvMoveRequest =>
      obtain ⟨Id, -, hr⟩ := RecvMoveRequest_eq_some.mp h
      exact Or.inl (congrArg Prod.fst hr)

/-- Every database call of an environment returns. -/
structure Environment.Answers (env : Environment) : Prop where
  IsValidID : ∀ id, ∃ b, env.IsValidID id = some b
  CreateAccount : ∀ userinfo, ∃ b, env.CreateAccount userinfo = some b
  IsValidAccount : ∀ userinfo, ∃ b, env.IsValidAccount userinfo = some b

/-- **A handler whose texts are all inside** returns when the database does. -/
theorem handle_returns {env : Environment} {session : SessionInfo} {c : Call RequestHandler}
    (hinside : TextsInside env session c) (hanswers : env.Answers) :
    ∃ r, handle env session c = some r := by
  obtain ⟨handler, pos, size, packet⟩ := c
  cases handler with
  | RecvChatMessage => exact ⟨_, rfl⟩
  | RecvCreateAccountRequest =>
      show ∃ r, RecvCreateAccountRequest env session (ST_UserInfo.ofBytes packet) = some r
      obtain ⟨found, hfound⟩ :=
        hanswers.IsValidID ((ST_UserInfo.ofBytes packet).IdText env.behind)
      obtain ⟨result, hresult⟩ := hanswers.CreateAccount (ST_UserInfo.ofBytes packet)
      unfold RecvCreateAccountRequest
      cases found with
      | true =>
          simp only [hfound]
          exact ⟨_, rfl⟩
      | false =>
          simp only [hfound, hresult]
          exact ⟨_, rfl⟩
  | RecvLoginRequest =>
      show ∃ r, RecvLoginRequest env session (ST_UserInfo.ofBytes packet) = some r
      obtain ⟨result, hresult⟩ := hanswers.IsValidAccount (ST_UserInfo.ofBytes packet)
      exact RecvLoginRequest_some hresult session
  | RecvMoveRequest =>
      -- the copied `Id` fits
      have hcopy := hinside (.copy MAX_ID_LEN (session.UserInfo.IdText env.behindUserInfo))
        (by simp [texts, RecvMoveRequest_texts])
      cases hId : strcpy_s (ST_MoveInfo.ofBytes packet).Id
          (session.UserInfo.IdText env.behindUserInfo) with
      | none => exact absurd hcopy ((strcpy_s_eq_none_iff _ _).mp hId)
      | some Id => exact ⟨_, RecvMoveRequest_eq_some.mpr ⟨Id, hId, rfl⟩⟩

/-! ## §3. Whole sequences. -/

namespace Execution

variable {σ : Type*} [DecidableEq σ]

/-- Freshly accepted sessions; what their `UserInfo` holds is whatever was in memory. -/
def start (UserInfo : σ → ST_UserInfo) : σ → SessionInfo := fun s => { UserInfo := UserInfo s }

/-- One execution of a handler. -/
def step (info : σ → SessionInfo) (e : Execution σ) : Option (σ → SessionInfo) :=
  (e.perform info).map Prod.fst

/-- **Every text is inside**: what the execution's handler reads ends in its array, and what it copies
fits. -/
def Inside (info : σ → SessionInfo) (e : Execution σ) : Prop :=
  TextsInside e.env (info e.session) e.call

/-- The arrays of the packet that the handler reads hold a NUL; a move is made by a session that has
logged in, or whose memory held a NUL in the place of its `Id`. -/
def Terminated (UserInfo : σ → ST_UserInfo) (info : σ → SessionInfo) (e : Execution σ) : Prop :=
  if e.call.handler = .RecvMoveRequest then
    (info e.session).SessionState = .Login ∨ 0 ∈ (UserInfo e.session).Id.toList
  else HoldNul e.env (UserInfo e.session).Id e.call

/-- What the members of a session say about its `Id`: a login has stored one with a NUL, and before it
is the one of the start. -/
structure Known (UserInfo : σ → ST_UserInfo) (info : σ → SessionInfo) (session : σ) : Prop where
  login : (info session).SessionState = .Login → 0 ∈ (info session).UserInfo.Id.toList
  fresh : (info session).SessionState ≠ .Login → (info session).UserInfo = UserInfo session

omit [DecidableEq σ] in
theorem known_start (UserInfo : σ → ST_UserInfo) (session : σ) :
    Known UserInfo (start UserInfo) session where
  login h := absurd h (by simp [start])
  fresh _ := rfl

/-- **One execution** keeps what is known of every session, if its packet's arrays hold a NUL. -/
theorem known_step {UserInfo : σ → ST_UserInfo} {info info' : σ → SessionInfo} {e : Execution σ}
    (h : ∀ session, Known UserInfo info session) (hnul : Terminated UserInfo info e)
    (hstep : step info e = some info') (session : σ) : Known UserInfo info' session := by
  obtain ⟨⟨info₁, outs⟩, hperform, rfl⟩ := Option.map_eq_some_iff.mp hstep
  obtain ⟨⟨session', outs'⟩, hhandle, hr⟩ := Option.map_eq_some_iff.mp hperform
  rw [Prod.mk.injEq] at hr
  obtain ⟨rfl, rfl⟩ := hr
  by_cases hsession : session = e.session
  · subst hsession
    rcases handle_session hhandle with rfl | ⟨hlogin, Header, rfl⟩
    · show Known UserInfo (Function.update info e.session (info e.session)) e.session
      rw [Function.update_eq_self]
      exact h e.session
    · -- the stored `Id` is the packet's, which holds a NUL
      unfold Terminated HoldNul at hnul
      rw [hlogin, if_neg (by simp)] at hnul
      constructor
      · intro _
        show 0 ∈ (Function.update info e.session _ e.session).UserInfo.Id.toList
        rw [Function.update_self]
        exact hnul.1
      · intro hstate
        have hstate' : (Function.update info e.session
          (⟨{ ST_UserInfo.ofBytes e.call.packet with Header := Header }, .Login⟩ : SessionInfo)
          e.session).SessionState ≠ .Login := hstate
        rw [Function.update_self] at hstate'
        exact absurd rfl hstate'
  · have hold := h session
    constructor
    · show (Function.update info e.session session' session).SessionState = _ →
        0 ∈ (Function.update info e.session session' session).UserInfo.Id.toList
      rw [Function.update_of_ne hsession]
      exact hold.login
    · show (Function.update info e.session session' session).SessionState ≠ _ →
        (Function.update info e.session session' session).UserInfo = _
      rw [Function.update_of_ne hsession]
      exact hold.fresh

omit [DecidableEq σ] in
/-- **One execution** has its texts inside exactly when the arrays hold a NUL. -/
theorem inside_step_iff {UserInfo : σ → ST_UserInfo} {info : σ → SessionInfo} {e : Execution σ}
    (h : ∀ session, Known UserInfo info session) : Inside info e ↔ Terminated UserInfo info e := by
  unfold Inside Terminated
  rw [inside_iff]
  by_cases hmove : e.call.handler = .RecvMoveRequest
  · rw [if_pos hmove]
    unfold HoldNul
    rw [hmove]
    by_cases hstate : (info e.session).SessionState = .Login
    · exact ⟨fun _ => Or.inl hstate, fun _ => (h e.session).login hstate⟩
    · show 0 ∈ (info e.session).UserInfo.Id.toList ↔ _
      rw [(h e.session).fresh hstate]
      exact ⟨Or.inr, fun hor => hor.resolve_left hstate⟩
  · rw [if_neg hmove]
    exact holdNul_congr hmove _ _ _

/-- **Texts are inside their arrays exactly while the arrays hold a NUL.**  For any sessions, freshly
accepted with arbitrary bytes in their `UserInfo`, and every sequence of handlers with any packets
and any answers of the database: every text a handler or the database reads ends inside its array
and every text copied by `strcpy_s` fits, if and only if every packet handled has a NUL in each of
the arrays its handler reads, and every move is made by a session that has logged in or whose
memory had one in the place of its `Id`. -/
theorem texts_inside_iff (UserInfo : σ → ST_UserInfo) (es : List (Execution σ)) :
    StepMachine.Along step Inside (start UserInfo) es
      ↔ StepMachine.Along step (Terminated UserInfo) (start UserInfo) es := by
  apply StepMachine.along_congr (I := fun info => ∀ session, Known UserInfo info session) ?_ ?_
    (known_start UserInfo) (StepMachine.along_of_forall (fun _ _ => trivial) _ _)
  · intro info e info' h _ hnul hstep
    exact known_step h hnul hstep
  · intro info e h _
    exact inside_step_iff h

/-- A chat of 580 bytes without a NUL behind its header. -/
def endlessChat (session : Unit) : Execution Unit where
  session := session
  call := ⟨.RecvChatMessage, 0, 580, [5, 0, 0, 0, 68, 2, 0, 0] ++ List.replicate 36 0
    ++ List.replicate 536 65⟩
  env := Requests.accepting

/-- A login with 24 bytes and no NUL in `Id`. -/
def endlessLogin (session : Unit) : Execution Unit where
  session := session
  call := ⟨.RecvLoginRequest, 0, 92, [3, 0, 0, 0, 92, 0, 0, 0] ++ List.replicate 36 0
    ++ (List.replicate 24 65 ++ List.replicate 24 0)⟩
  env := Requests.accepting

/-- **Texts that do not end**: the read of a chat's `Id` runs past the array; and the `Id` a login has
stored does not fit the packet of a move, so that `strcpy_s` ends the process. -/
theorem texts_run_over :
    ¬ StepMachine.Along step Inside
        (start (fun _ => ST_UserInfo.fresh Server.refusing.Id Server.refusing.Pw)) [endlessChat ()]
      ∧ ¬ StepMachine.Along step Inside
        (start (fun _ => ST_UserInfo.fresh Server.refusing.Id Server.refusing.Pw))
        [endlessLogin (), Requests.move ()]
      ∧ (StepMachine.run step
        (start (fun _ => ST_UserInfo.fresh Server.refusing.Id Server.refusing.Pw))
        [endlessLogin ()]).isSome
      ∧ (StepMachine.run step
        (start (fun _ => ST_UserInfo.fresh Server.refusing.Id Server.refusing.Pw))
        [endlessLogin (), Requests.move ()]).isNone := by
  refine ⟨fun h => ?_, fun h => ?_, by decide +kernel, by decide +kernel⟩
  · have hid : 0 ∈ (ST_ChatMessage.ofBytes (endlessChat ()).call.packet).Id.toList :=
      h.1 (.read _) List.mem_cons_self
    exact absurd hid (by decide +kernel)
  · have hid : 0 ∈ (ST_UserInfo.ofBytes (endlessLogin ()).call.packet).Id.toList :=
      h.1 (.read _) List.mem_cons_self
    exact absurd hid (by decide +kernel)

end Execution

end YServerCore
