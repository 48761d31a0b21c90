/-
  YServerCore.Requests.Identity — whose `Id` an `S_Move` broadcast carries.

  `RecvMoveRequest` writes the `Id` of the session's `UserInfo` over the one the client sent, and
  only `RecvLoginRequest` sets `UserInfo`, after the database has found the account.  What it does
  not do is look at `SessionState`: the `UserInfo` of a session that never logged in is whatever
  was in its memory, and is broadcast like any other.

  Main results:
    * `authentic_step_iff` — one handler keeps the log of logins and broadcasts authentic exactly
      when, if it is a move, its session has logged in.
    * `moves_authentic_iff` — the same for every sequence of handlers of any sessions.
-/
import YServerCore.Lib.EventLog
import YServerCore.Requests.Server

namespace YServerCore

open EventLog (Justified)

/-! ## §1. Executions of handlers. -/

/-- One execution of a handler: the session it is for, its packet object, and what else it depends
on. -/
structure Execution (σ : Type*) where
  session : σ
  call : Call RequestHandler
  env : Environment

namespace Execution

variable {σ : Type*} [DecidableEq σ]

/-- What an execution makes of the sessions, and what it sends. -/
def perform (info : σ → SessionInfo) (e : Execution σ) :
    Option ((σ → SessionInfo) × List Outgoing) :=
  (handle e.env (info e.session) e.call).map
    (fun r => (Function.update info e.session r.1, r.2))

/-- A task of the server is one execution. -/
theorem task_perform {s : Server σ} {i : Nat} {env : Environment} {session : σ}
    {c : Call RequestHandler} (htask : s.tasks[i]? = some (session, c)) :
    s.step (.task i env) = (perform s.info ⟨session, c, env⟩).map (fun r =>
      { s with
        info := r.1
        tasks := s.tasks.eraseIdx i
        sent := s.sent ++ r.2.map (fun o => (session, o)) }) := by
  unfold perform
  rw [Server.step, htask, Option.map_map]
  rfl

end Execution

/-! ## §2. The log of logins and moves. -/

/-- What a log records. -/
inductive RequestEvent (σ : Type*) where
  /-- The database found the account of a session's login request. -/
  | loggedIn (session : σ) (userinfo : ST_UserInfo)
  /-- A session's handler handed an `S_Move` packet to `AllMessage`. -/
  | moved (session : σ) (Msg : ST_MoveInfo)

/-- The packet of a broadcast position. -/
def Outgoing.broadcastMove : Outgoing → Option ST_MoveInfo
  | .AllMessage (.moveInfo Msg) => some Msg
  | .AllMessage (.userInfo _) => none
  | .SendPacket _ => none

/-- The text of a recorded move's `Id`. -/
def RequestEvent.moveText {σ : Type*} : RequestEvent σ → List UInt8
  | .loggedIn _ _ => []
  | .moved _ Msg => Msg.Id.text []

/-- The account a login request was accepted for. -/
def Execution.acceptedAccount {σ : Type*} (e : Execution σ) : Option ST_UserInfo :=
  if e.call.handler = .RecvLoginRequest
      ∧ e.env.IsValidAccount (ST_UserInfo.ofBytes e.call.packet) = some true then
    some (ST_UserInfo.ofBytes e.call.packet)
  else none

/-- The sessions, and the log. -/
structure Requests (σ : Type*) where
  info : σ → SessionInfo
  log : List (RequestEvent σ) := []

namespace Requests

variable {σ : Type*} [DecidableEq σ]

/-- Freshly accepted sessions; what their `UserInfo` holds is whatever was in memory. -/
def start (UserInfo : σ → ST_UserInfo) : Requests σ where
  info := fun s => { UserInfo := UserInfo s }

/-- One execution. -/
def step (s : Requests σ) (e : Execution σ) : Option (Requests σ) :=
  (e.perform s.info).map (fun r =>
    { info := r.1
      log := s.log ++ (e.acceptedAccount.toList.map (RequestEvent.loggedIn e.session)
        ++ (r.2.filterMap Outgoing.broadcastMove).map (RequestEvent.moved e.session)) })

/-- A broadcast is authentic behind a log in which its session has logged in with the `Id` it
carries. -/
def Follows (past : List (RequestEvent σ)) : RequestEvent σ → Prop
  | .loggedIn _ _ => True
  | .moved session Msg => ∃ userinfo, RequestEvent.loggedIn session userinfo ∈ past
      ∧ ∀ t t', Msg.Id.text t = userinfo.Id.text t'

/-- **Every broadcast position carries an authenticated `Id`.** -/
def Authentic (s : Requests σ) : Prop := Justified Follows s.log

/-- A move is made by a session that has logged in. -/
def LoggedIn (s : Requests σ) (e : Execution σ) : Prop :=
  e.call.handler = .RecvMoveRequest → (s.info e.session).SessionState = .Login

instance (s : Requests σ) (e : Execution σ) : Decidable (LoggedIn s e) :=
  inferInstanceAs (Decidable (_ → _))

/-- What the members of a session say about the log. -/
structure Recorded (s : Requests σ) (session : σ) : Prop where
  state : (s.info session).SessionState = .Login
    ↔ ∃ userinfo, RequestEvent.loggedIn session userinfo ∈ s.log
  account : (s.info session).SessionState = .Login →
    ∃ userinfo, RequestEvent.loggedIn session userinfo ∈ s.log
      ∧ (s.info session).UserInfo.Id = userinfo.Id

/-! ## §3. One execution. -/

/-- **What one execution does**: an accepted login, a broadcast move, or nothing that is recorded. -/
theorem step_cases {s s' : Requests σ} {e : Execution σ} (h : step s e = some s') :
    (∃ userinfo Header, e.call.handler = .RecvLoginRequest
        ∧ s' = ⟨Function.update s.info e.session ⟨{ userinfo with Header := Header }, .Login⟩,
          s.log ++ [.loggedIn e.session userinfo]⟩)
      ∨ (∃ Msg, e.call.handler = .RecvMoveRequest
        ∧ (∀ t t', Msg.Id.text t = (s.info e.session).UserInfo.Id.text t')
        ∧ s' = ⟨s.info, s.log ++ [.moved e.session Msg]⟩)
      ∨ (e.call.handler ≠ .RecvMoveRequest ∧ s' = s) := by
  obtain ⟨session, ⟨handler, pos, size, packet⟩, env⟩ := e
  unfold step Execution.perform at h
  simp only [Option.map_map, Option.map_eq_some_iff, Function.comp_apply] at h
  obtain ⟨⟨session', outs⟩, hhandle, rfl⟩ := h
  cases handler with
  | RecvChatMessage =>
      have hsome : some (s.info session, []) = some (session', outs) := hhandle
      rw [Option.some.injEq, Prod.mk.injEq] at hsome
      obtain ⟨rfl, rfl⟩ := hsome
      refine Or.inr (Or.inr ⟨by simp, ?_⟩)
      simp [Execution.acceptedAccount]
  | RecvCreateAccountRequest =>
      obtain ⟨rfl, Packet, rfl, -⟩ := RecvCreateAccountRequest_outgoing hhandle
      refine Or.inr (Or.inr ⟨by simp, ?_⟩)
      simp [Execution.acceptedAccount, Outgoing.broadcastMove, List.filterMap_cons]
  | RecvLoginRequest =>
      obtain ⟨result, Header, hvalid, -, rfl, rfl⟩ := RecvLoginRequest_spec hhandle
      dsimp only at hvalid
      cases result with
      | true =>
          refine Or.inl ⟨ST_UserInfo.ofBytes packet, Header, rfl, ?_⟩
          simp [Execution.acceptedAccount, hvalid, Outgoing.broadcastMove, List.filterMap_cons]
      | false =>
          refine Or.inr (Or.inr ⟨by simp, ?_⟩)
          simp [Execution.acceptedAccount, hvalid, Outgoing.broadcastMove, List.filterMap_cons]
  | RecvMoveRequest =>
      obtain ⟨Id, hcopy, hr⟩ := RecvMoveRequest_eq_some.mp hhandle
      rw [Prod.mk.injEq] at hr
      obtain ⟨rfl, rfl⟩ := hr
      refine Or.inr (Or.inl ⟨{ ST_MoveInfo.ofBytes packet with
        Header := (ST_MoveInfo.ofBytes packet).Header.SetHeader_IOType .S_Move, Id := Id },
        rfl, ?_, ?_⟩)
      · intro t t'
        exact strcpy_s_text hcopy t t'
      · simp [Execution.acceptedAccount, Outgoing.broadcastMove]

omit [DecidableEq σ] in
/-- A freshly accepted session has not logged in. -/
theorem recorded_start (UserInfo : σ → ST_UserInfo) (session : σ) :
    Recorded (start UserInfo) session := by
  constructor
  · constructor
    · intro h
      exact absurd h (by simp [start])
    · intro h
      obtain ⟨userinfo, hmem⟩ := h
      exact absurd hmem (by simp [start])
  · intro h
    exact absurd h (by simp [start])

/-- An execution keeps what the sessions' members say about the log. -/
theorem recorded_step {s s' : Requests σ} {e : Execution σ} (h : ∀ session, Recorded s session)
    (hstep : step s e = some s') (session : σ) : Recorded s' session := by
  rcases step_cases hstep with ⟨userinfo, Header, -, rfl⟩ | ⟨Msg, -, -, rfl⟩ | ⟨-, rfl⟩
  · by_cases hsession : session = e.session
    · -- the session that has just logged in
      subst hsession
      have hmem : RequestEvent.loggedIn e.session userinfo
          ∈ s.log ++ [RequestEvent.loggedIn e.session userinfo] :=
        List.mem_append_right _ (List.mem_singleton.mpr rfl)
      constructor
      · simp only [Function.update_self]
        exact ⟨fun _ => ⟨userinfo, hmem⟩, fun _ => trivial⟩
      · simp only [Function.update_self]
        exact fun _ => ⟨userinfo, hmem, rfl⟩
    · -- every other session keeps its members and its entries
      have hold := h session
      constructor
      · simp only [Function.update_of_ne hsession, hold.state, List.mem_append,
          List.mem_singleton, RequestEvent.loggedIn.injEq, hsession, false_and, or_false]
      · simp only [Function.update_of_ne hsession]
        intro hlogin
        obtain ⟨u, hu, hId⟩ := hold.account hlogin
        exact ⟨u, List.mem_append_left _ hu, hId⟩
  · have hold := h session
    constructor
    · simp only [hold.state, List.mem_append, List.mem_singleton, reduceCtorEq, or_false]
    · intro hlogin
      obtain ⟨u, hu, hId⟩ := hold.account hlogin
      exact ⟨u, List.mem_append_left _ hu, hId⟩
  · exact h session

/-- **One execution** keeps the log authentic exactly when, if it is a move, its session has logged
in. -/
theorem authentic_step_iff {s s' : Requests σ} {e : Execution σ}
    (h : ∀ session, Recorded s session) (hauth : Authentic s) (hstep : step s e = some s') :
    Authentic s' ↔ LoggedIn s e := by
  unfold LoggedIn
  rcases step_cases hstep with ⟨userinfo, Header, hfunc, rfl⟩ | ⟨Msg, hfunc, hId, rfl⟩ | ⟨hfunc, rfl⟩
  · unfold Authentic
    rw [EventLog.justified_snoc, hfunc]
    exact ⟨fun _ hmove => absurd hmove (by simp), fun _ => ⟨hauth, trivial⟩⟩
  · unfold Authentic
    rw [EventLog.justified_snoc]
    constructor
    · intro hnew _
      obtain ⟨-, userinfo, hmem, -⟩ := hnew
      exact (h e.session).state.mpr ⟨userinfo, hmem⟩
    · intro hlogin
      obtain ⟨userinfo, hmem, haccount⟩ := (h e.session).account (hlogin hfunc)
      refine ⟨hauth, userinfo, hmem, fun t t' => ?_⟩
      -- the packet carries the session's `Id`, which is the account's
      rw [hId t t', haccount]
  · exact ⟨fun _ hmove => absurd hmove hfunc, fun _ => hauth⟩

/-! ## §4. Whole sequences. -/

/-- **Broadcast positions are authenticated exactly while only logged-in sessions move.**  For any
sessions, freshly accepted with arbitrary bytes in their `UserInfo`, and every sequence of
handlers with any packets and any answers of the database: every `S_Move` packet broadcast carries
the `Id` of an account its session had logged in with before, if and only if every move request
handled is one of a session whose state is `Login`. -/
theorem moves_authentic_iff (UserInfo : σ → ST_UserInfo) (es : List (Execution σ)) (s : Requests σ)
    (hrun : StepMachine.run step (start UserInfo) es = some s) :
    StepMachine.Safe step Authentic (start UserInfo) es
      ↔ StepMachine.Along step LoggedIn (start UserInfo) es := by
  apply StepMachine.safe_iff_along_of_run (I := fun s => ∀ session, Recorded s session) ?_ ?_
    (recorded_start UserInfo) (EventLog.justified_nil _) hrun
  · intro s e s' hrec _ hstep _
    exact recorded_step hrec hstep
  · intro s e s' hrec hauth hstep
    exact authentic_step_iff hrec hauth hstep

/-- The database finds every account. -/
def accepting : Environment := { Server.refusing with IsValidAccount := fun _ => some true }

/-- A session's login with these bytes in `Id` and `Pw`. -/
def login (session : σ) (byte : UInt8) : Execution σ where
  session := session
  call := ⟨.RecvLoginRequest, 0, 92, [3, 0, 0, 0, 92, 0, 0, 0] ++ List.replicate 36 0
    ++ (List.replicate 23 byte ++ [0] ++ List.replicate 24 byte)⟩
  env := accepting

/-- A session's move. -/
def move (session : σ) : Execution σ where
  session := session
  call := ⟨.RecvMoveRequest, 0, 80, [7, 0, 0, 0, 80, 0, 0, 0] ++ List.replicate 72 0⟩
  env := accepting

/-- A move behind a login is authentic. -/
theorem moves_authentic_login :
    StepMachine.Safe step Authentic
      (start (fun _ => ST_UserInfo.fresh accepting.Id accepting.Pw) : Requests Unit)
      [login () 65, move ()] := by
  have hsome : (StepMachine.run step
      (start (fun _ => ST_UserInfo.fresh accepting.Id accepting.Pw) : Requests Unit)
      [login () 65, move ()]).isSome := by
    decide +kernel
  obtain ⟨s, hs⟩ := Option.isSome_iff_exists.mp hsome
  exact (moves_authentic_iff _ _ s hs).mpr (by decide +kernel)

/-- **A stranger moves**: a session that never logged in broadcasts a position under whatever name
its memory holds. -/
theorem stranger_moves :
    ∃ s : Requests Unit,
      StepMachine.run step (start (fun _ => ST_UserInfo.fresh (Vector.replicate 23 65 |>.push 0)
          accepting.Pw)) [move ()] = some s
        ∧ s.log.map RequestEvent.moveText = [List.replicate 23 65]
        ∧ ¬ Authentic s := by
  have hend : (StepMachine.run step
      (start (fun _ => ST_UserInfo.fresh (Vector.replicate 23 65 |>.push 0) accepting.Pw) :
        Requests Unit) [move ()]).map (fun s => s.log.map RequestEvent.moveText)
      = some [List.replicate 23 65] := by
    decide +kernel
  obtain ⟨s, hs, hlog⟩ := Option.map_eq_some_iff.mp hend
  refine ⟨s, hs, hlog, fun hauth => ?_⟩
  -- the log has one entry; a login would carry no text, so it is a move with nothing before it
  obtain ⟨e, he, htext⟩ := List.map_eq_singleton_iff.mp hlog
  cases e with
  | loggedIn session userinfo =>
      have hempty : ([] : List UInt8) = List.replicate 23 65 := htext
      exact absurd hempty (by decide)
  | moved session Msg =>
      obtain ⟨userinfo, hmem, -⟩ := hauth [] _ [] he
      exact absurd hmem (by simp)

end Requests

end YServerCore
