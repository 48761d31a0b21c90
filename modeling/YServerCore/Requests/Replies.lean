/-
  YServerCore.Requests.Replies — what the answers to account requests say.

  With queries that work, a handler learns what the server makes of the statements it is sent, which
  is what the table says where the strings are data in them.  A login is answered with the request
  under a new header, which `SetHeader` fills in whole.  The answer to a request for a new account is
  a fresh `ST_UserInfo`, whose initialiser has the type `S_Login`; the type is never set, and the
  result text selects the `bool` overload of `SetHeader`, which sets `Success` and no text.

  Main results:
    * `SetHeader_spec` — the header `SetHeader` fills in.
    * `truthful_login` — the answer to a login whose strings are data tells the truth.
    * `truthful_iff` — an answer tells the truth exactly when the request is a login, whatever the
      strings of a request for a new account.
-/
import YServerCore.Database.Accounts
import YServerCore.Requests.Server

namespace YServerCore

open Database (Table CreateRequest SqlEngine)

/-! ## §1. Requests and their answers. -/

/-- The requests about accounts. -/
inductive AccountRequest where
  | C_CreateAccount (userinfo : ST_UserInfo)
  | C_Login (userinfo : ST_UserInfo)

namespace AccountRequest

/-- The request is a login. -/
def isLogin : AccountRequest → Bool
  | C_CreateAccount _ => false
  | C_Login _ => true

/-- The server type that matches the request. -/
def replyType : AccountRequest → E_IOType
  | C_CreateAccount _ => .S_CreateAccount
  | C_Login _ => .S_Login

/-- The request's handler. -/
def recv (env : Environment) (session : SessionInfo) :
    AccountRequest → Option (SessionInfo × List Outgoing)
  | C_CreateAccount userinfo => RecvCreateAccountRequest env session userinfo
  | C_Login userinfo => RecvLoginRequest env session userinfo

end AccountRequest

/-- The strings of a packet. -/
def Environment.strings (env : Environment) (userinfo : ST_UserInfo) : CreateRequest where
  Id := userinfo.IdText env.behind
  Pw := userinfo.Pw.text env.behind

/-- The same environment, where a server with this table answers the statements the functions of
`Database` build. -/
def Environment.working (env : Environment) (engine : SqlEngine) (table : Table) : Environment :=
  { env with
    IsValidID := fun id => engine.found table (.IsValidID id)
    CreateAccount := fun userinfo =>
      let r := env.strings userinfo
      engine.found (engine.inserted table r) (.IsValidAccount r.Id r.Pw)
    IsValidAccount := fun userinfo =>
      let r := env.strings userinfo
      engine.found table (.IsValidAccount r.Id r.Pw) }

namespace AccountRequest

/-- The strings of a request are data in its statements. -/
def Data (env : Environment) : AccountRequest → Prop
  | C_CreateAccount userinfo => (env.strings userinfo).Data
  | C_Login userinfo => (env.strings userinfo).Data

/-- The request succeeds: no row had the id and the new one is there, or a row has the credentials. -/
def Succeeds (env : Environment) (engine : SqlEngine) (table : Table) : AccountRequest → Prop
  | C_CreateAccount userinfo =>
      let r := env.strings userinfo
      ¬ table.Has (.IsValidID r.Id) ∧ (engine.inserted table r).Has (.IsValidAccount r.Id r.Pw)
  | C_Login userinfo =>
      let r := env.strings userinfo
      table.Has (.IsValidAccount r.Id r.Pw)

instance (env : Environment) (engine : SqlEngine) (table : Table) :
    ∀ r, Decidable (Succeeds env engine table r)
  | C_CreateAccount _ => inferInstanceAs (Decidable (_ ∧ _))
  | C_Login userinfo => inferInstanceAs (Decidable (table.Has
      (.IsValidAccount (env.strings userinfo).Id (env.strings userinfo).Pw)))

/-- The text the handler chooses. -/
def resultText (env : Environment) (engine : SqlEngine) (table : Table) (r : AccountRequest) :
    List UInt8 :=
  match r with
  | C_CreateAccount userinfo =>
      if table.Has (.IsValidID (env.strings userinfo).Id) then ascii "Already Exist ID"
      else if r.Succeeds env engine table then ascii "Success" else ascii "Unknown Error"
  | C_Login _ => if r.Succeeds env engine table then [] else unkwonAccount

/-- **The answer tells the truth**: there is exactly one, of the type that matches the request; its
`Success` is true exactly when the request has succeeded, its text is the one the handler has
chosen, and it goes to the requester, or, for a login that succeeds, to all sessions. -/
def Truthful (env : Environment) (engine : SqlEngine) (table : Table) (session : SessionInfo)
    (r : AccountRequest) : Prop :=
  ∃ session' out, r.recv (env.working engine table) session = some (session', [out])
    ∧ out.packet.Header.IOType = UInt32.ofNat r.replyType.code
    ∧ (out.packet.Header.Success = true ↔ r.Succeeds env engine table)
    ∧ (∀ behind, out.packet.Header.IOResultInfo.text behind = r.resultText env engine table)
    ∧ out = (if r.isLogin = true ∧ r.Succeeds env engine table then .AllMessage out.packet
        else .SendPacket out.packet)

/-- **A task whose statements nobody comes between** finds what its handler is told. -/
theorem create_alone (env : Environment) (engine : SqlEngine) (table : Table) (userinfo : ST_UserInfo)
    {τ : Type*} [DecidableEq τ] (task : τ) {request : τ → CreateRequest}
    (hrequest : request task = env.strings userinfo) :
    ((env.working engine table).IsValidID (userinfo.IdText env.behind) = some true →
      ∃ s, StepMachine.run (Database.Creating.step request engine) { table := table } [.check task]
          = some s
        ∧ s.stage task = .refused)
    ∧ ∀ result, (env.working engine table).IsValidID (userinfo.IdText env.behind) = some false →
      (env.working engine table).CreateAccount userinfo = some result →
      ∃ s, StepMachine.run (Database.Creating.step request engine) { table := table }
          [.check task, .insert task, .verify task] = some s
        ∧ s.stage task = .returned result := by
  constructor
  · intro hfound
    apply Database.Creating.run_refused
    rw [hrequest]
    exact hfound
  · intro result hfound hcreate
    apply Database.Creating.run_created
    · rw [hrequest]
      exact hfound
    · rw [hrequest]
      exact hcreate

end AccountRequest

/-! ## §2. The header of a login's answer. -/

/-- **What `SetHeader` fills in**: the type, the flag, and a text that fits. -/
theorem ST_IOHeader.SetHeader_spec {h h' : ST_IOHeader} {iotype : E_IOType} {val : Bool}
    {resultmsg : List UInt8} (hset : h.SetHeader iotype val resultmsg = some h') :
    h'.IOType = UInt32.ofNat iotype.code ∧ h'.Success = val
      ∧ ∀ behind, h'.IOResultInfo.text behind = resultmsg.takeWhile (· ≠ 0) := by
  unfold SetHeader SetHeader_string at hset
  simp only [Option.map_map, Option.map_eq_some_iff, Function.comp_apply] at hset
  obtain ⟨info, hcopy, rfl⟩ := hset
  refine ⟨rfl, rfl, fun behind => ?_⟩
  exact (text_of_strcpy_s hcopy behind).2

namespace AccountRequest

/-- **The answer to a login tells the truth**, if its strings are data. -/
theorem truthful_login (env : Environment) {engine : SqlEngine} (hworks : engine.Works)
    (table : Table) (session : SessionInfo) (userinfo : ST_UserInfo)
    (hdata : (env.strings userinfo).Data) : Truthful env engine table session (C_Login userinfo) := by
  have hrequest : (Database.Request.IsValidAccount (env.strings userinfo).Id
      (env.strings userinfo).Pw).Data := hdata
  have hanswer : (env.working engine table).IsValidAccount userinfo = some (decide (table.Has
      (.IsValidAccount (env.strings userinfo).Id (env.strings userinfo).Pw))) :=
    SqlEngine.found_of_data hworks table hrequest
  obtain ⟨⟨session', outs⟩, hr⟩ := RecvLoginRequest_some hanswer session
  obtain ⟨result, Header, hvalid, hset, -, houts⟩ := RecvLoginRequest_spec hr
  have hresult : result = true ↔ (C_Login userinfo).Succeeds env engine table := by
    rw [← Option.some.inj (hanswer.symm.trans hvalid)]
    exact decide_eq_true_iff
  obtain ⟨htype, hsuccess, htext⟩ := ST_IOHeader.SetHeader_spec hset
  have hrecv : (C_Login userinfo).recv (env.working engine table) session = some (session', outs) := hr
  cases result with
  | true =>
      have hok : (C_Login userinfo).Succeeds env engine table := hresult.mp rfl
      rw [if_pos rfl] at houts htext
      rw [houts] at hrecv
      refine ⟨_, _, hrecv, htype, ?_, fun behind => ?_, ?_⟩
      · show Header.Success = true ↔ _
        rw [hsuccess]
        exact hresult
      · show Header.IOResultInfo.text behind = if _ then _ else _
        rw [htext behind, if_pos hok]
        rfl
      · rw [if_pos ⟨rfl, hok⟩]
        rfl
  | false =>
      have hno : ¬ (C_Login userinfo).Succeeds env engine table := fun h => absurd (hresult.mpr h) (by simp)
      rw [if_neg (by simp)] at houts htext
      rw [houts] at hrecv
      refine ⟨_, _, hrecv, htype, ?_, fun behind => ?_, ?_⟩
      · show Header.Success = true ↔ _
        rw [hsuccess]
        exact hresult
      · show Header.IOResultInfo.text behind = if _ then _ else _
        rw [htext behind, if_neg hno]
        decide
      · rw [if_neg fun h => hno h.2]
        rfl

/-! ## §3. The answer to a request for a new account. -/

/-- **Answers tell the truth exactly for logins.**  For every server that works, every content of the
table, every session and every request, with any bytes in the memory of the reply and, beside those
of a login, which are data, in its strings. -/
theorem truthful_iff (env : Environment) {engine : SqlEngine} (hworks : engine.Works) (table : Table)
    (session : SessionInfo) (r : AccountRequest) (hdata : r.isLogin = true → r.Data env) :
    Truthful env engine table session r ↔ r.isLogin = true := by
  cases r with
  | C_CreateAccount userinfo =>
      refine ⟨fun h => ?_, fun h => absurd h (by simp [isLogin])⟩
      obtain ⟨session', out, hrecv, htype, -⟩ := h
      obtain ⟨-, Packet, hout, hheader⟩ := RecvCreateAccountRequest_spec hrecv
      rw [List.cons.injEq] at hout
      rw [hout.1] at htype
      -- the initialiser's type is the one of a login's answer
      have hlogin : Packet.Header.IOType = UInt32.ofNat E_IOType.S_CreateAccount.code := htype
      rw [hheader] at hlogin
      exact absurd hlogin (show ¬ (UInt32.ofNat E_IOType.S_Login.code
        = UInt32.ofNat E_IOType.S_CreateAccount.code) by decide)
  | C_Login userinfo =>
      exact ⟨fun _ => rfl, fun _ => truthful_login env hworks table session userinfo (hdata rfl)⟩

/-- A request for the id `alice`. -/
def alice : ST_UserInfo where
  Header := {}
  Id := Vector.ofFn (fun i => (ascii "alice").getD i 0)
  Pw := Vector.replicate MAX_PW_LEN 0

/-- A login of `alice` without a password is answered as it is. -/
theorem truthful_iff_alice :
    Truthful Server.refusing .fixed Database.Queries.oneAccount { UserInfo := alice } (C_Login alice) :=
  (truthful_iff Server.refusing SqlEngine.works_fixed Database.Queries.oneAccount
    { UserInfo := alice } (C_Login alice) (fun _ => by
      show (Server.refusing.strings alice).Data
      decide +kernel)).mpr rfl

/-- **An id that is taken**: the request for it fails, and is answered with a packet of the type of a
login's answer, with `Success` set and no text. -/
theorem taken_id_success :
    ¬ (C_CreateAccount alice).Succeeds Server.refusing .fixed Database.Queries.oneAccount
      ∧ ((C_CreateAccount alice).recv (Server.refusing.working .fixed Database.Queries.oneAccount)
          { UserInfo := alice }).map
        (fun r => r.2.map (fun o => (o.packet.Header.IOType.toNat, o.packet.Header.Success,
          o.packet.Header.IOResultInfo.text [])))
        = some [(E_IOType.S_Login.code, true, [])]
      ∧ ¬ Truthful Server.refusing .fixed Database.Queries.oneAccount { UserInfo := alice }
        (C_CreateAccount alice) := by
  have hanswer : ((C_CreateAccount alice).recv
      (Server.refusing.working .fixed Database.Queries.oneAccount) { UserInfo := alice }).map
        (fun r => r.2.map (fun o => (o.packet.Header.IOType.toNat, o.packet.Header.Success,
          o.packet.Header.IOResultInfo.text [])))
      = some [(E_IOType.S_Login.code, true, [])] := by
    decide +kernel
  have hfails : ¬ (C_CreateAccount alice).Succeeds Server.refusing .fixed Database.Queries.oneAccount := by
    decide +kernel
  refine ⟨hfails, hanswer, fun h => ?_⟩
  -- the flag of the one answer is set
  obtain ⟨session', out, hrecv, -, hsuccess, -⟩ := h
  rw [hrecv, Option.map_some, Option.some.injEq, List.map_singleton, List.cons.injEq,
    Prod.mk.injEq, Prod.mk.injEq] at hanswer
  exact hfails (hsuccess.mp hanswer.1.2.1)

end AccountRequest

end YServerCore
