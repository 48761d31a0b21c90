/-
  YServerCore.Requests.FormatStrings — what account requests print.

  `Log::PrintLog` hands its first argument to `vprintf` as the format.  On the way of an account
  request it is called with literals, and with the id or the first field of a row as argument; but
  behind a statement that fails `Database::Query` calls it with the text of `mysql_error` alone,
  which may quote the statement, and the statement has the request's strings in it.

  The library is a function of all statements sent so far, so that an error text may depend on
  them in any way.

  Main results:
    * `run_recv` — a request is answered as on the connection that does not print.
    * `behindRun_eq` — the branches a request takes, and what it prints: the error texts of its
      statements that fail, then literals.
    * `formats_fixed_iff` — two requests print with the same formats, all matched, exactly when these
      error texts are the same and have no conversions.
    * `matched_of_no_percent` — strings without percent signs are harmless.
-/
import YServerCore.Lib.PrintfFormat
import YServerCore.Requests.Failures

namespace YServerCore

open PrintfFormat (ArgKind conversions)

/-! ## §1. The connection and its log. -/

/-- A call of `Log::PrintLog`: the format, and the `char` pointers behind it, each by the text it
points to. -/
structure LogCall where
  format : List UInt8
  args : List (Option (List UInt8)) := []
  deriving DecidableEq, Repr

/-- The conversions of the format take the arguments that are passed. -/
def LogCall.Matched (call : LogCall) : Prop :=
  conversions call.format = call.args.map (fun _ => ArgKind.text)

instance (call : LogCall) : Decidable call.Matched := inferInstanceAs (Decidable (_ = _))

namespace Database

/-- What the library answers to a statement: whether `mysql_query` fails, the text of `mysql_error`
then, and what `mysql_store_result` gives, the rows by their first fields. -/
structure LibraryAnswer where
  mysql_query : Bool
  mysql_error : List UInt8
  mysql_store_result : Option (List (Option (List UInt8)))
  deriving DecidableEq, Repr

/-- A branch the code has taken. -/
inductive Branch where
  /-- Whether `mysql_query` has failed. -/
  | result (failed : Bool)
  /-- Whether there are rows; `none` behind a null `Result`. -/
  | row_count (found : Option Bool)
  deriving DecidableEq, Repr

/-- The connection: the library's answer to a statement, given all that were sent up to it; the
statements sent so far; `Result`; the calls of `PrintLog`, and the branches taken. -/
structure LoggedConnection where
  library : List (List UInt8) → LibraryAnswer
  sent : List (List UInt8) := []
  Result : Option (List (Option (List UInt8))) := none
  log : List LogCall := []
  branches : List Branch := []

namespace LoggedConnection

/-- `Log::PrintLog`. -/
def PrintLog (c : LoggedConnection) (str : List UInt8) (args : List (Option (List UInt8))) :
    LoggedConnection :=
  { c with log := c.log ++ [⟨str, args⟩] }

def branch (c : LoggedConnection) (b : Branch) : LoggedConnection :=
  { c with branches := c.branches ++ [b] }

/-- The library's answer to the latest statement. -/
def answer (c : LoggedConnection) : LibraryAnswer := c.library c.sent

/-- `Database::Query`. -/
def Query (c : LoggedConnection) (query : List UInt8) : LoggedConnection :=
  let c := { c with sent := c.sent ++ [query] }
  let result := c.answer.mysql_query
  let c := c.branch (.result result)
  if result then (c.PrintLog (ascii "Faile to Query") []).PrintLog c.answer.mysql_error [] else c

/-- `Result = mysql_store_result(pConn)`. -/
def store_result (c : LoggedConnection) : LoggedConnection :=
  { c with Result := c.answer.mysql_store_result }

/-- `Database::IsValidID`; `none` is the read through a null `Result`. -/
def IsValidID (c : LoggedConnection) (id : List UInt8) : LoggedConnection × Option Bool :=
  let c := (c.Query (IsValidID_str id)).store_result
  let found := c.Result.map (fun rows => decide (0 < rows.length))
  (c.branch (.row_count found), found)

/-- `Database::IsValidAccount`. -/
def IsValidAccount (c : LoggedConnection) (userinfo : ST_UserInfo) (behind : List UInt8) :
    LoggedConnection × Option Bool :=
  let c := (c.Query (IsValidAccount_str userinfo behind)).store_result
  match c.Result with
  | none => (c.branch (.row_count none), none)
  | some (Row0 :: _) =>
      ((c.branch (.row_count (some true))).PrintLog (ascii "%s is Valid Account") [Row0], some true)
  | some [] =>
      ((c.branch (.row_count (some false))).PrintLog (ascii "%s is Not Valid Account")
        [some (userinfo.IdText behind)], some false)

/-- `Database::CreateAccount`. -/
def CreateAccount (c : LoggedConnection) (userinfo : ST_UserInfo) (behind : List UInt8) :
    LoggedConnection × Option Bool :=
  (c.Query (CreateAccount_str userinfo behind)).IsValidAccount userinfo behind

/-- What `Session::Send` prints, when `WSAGetLastError` gives `SOCKET_ERROR` behind its `WSASend`. -/
def Send (c : LoggedConnection) (error : Bool) : LoggedConnection :=
  if error then c.PrintLog (ascii "Session Send Error\n") [] else c

end LoggedConnection

end Database

open Database (LoggedConnection LibraryAnswer Branch StatementOutcome Connection IsValidID_str
  CreateAccount_str IsValidAccount_str)

/-- The sends of a request that fail: the one to its session, and those to all sessions. -/
structure SendErrors where
  own : Bool
  all : List Bool

namespace Database.LoggedConnection

/-- The packets of a handler are sent. -/
def sendAll (errors : SendErrors) : LoggedConnection → List Outgoing → LoggedConnection
  | c, [] => c
  | c, .SendPacket _ :: outs => sendAll errors (c.Send errors.own) outs
  | c, .AllMessage _ :: outs => sendAll errors (errors.all.foldl Send c) outs

end Database.LoggedConnection

namespace AccountRequest

/-- The same request with other strings. -/
def withCredentials (Id : CharArray MAX_ID_LEN) (Pw : CharArray MAX_PW_LEN) :
    AccountRequest → AccountRequest
  | C_CreateAccount userinfo => C_CreateAccount { userinfo with Id := Id, Pw := Pw }
  | C_Login userinfo => C_Login { userinfo with Id := Id, Pw := Pw }

/-- The request's handler on a connection: its database calls, and what they have returned. -/
def calls (env : Environment) (c : LoggedConnection) :
    AccountRequest → LoggedConnection × Environment
  | C_CreateAccount userinfo =>
      let (c, found) := c.IsValidID (userinfo.IdText env.behind)
      let (c, result) :=
        if found = some false then c.CreateAccount userinfo env.behind else (c, none)
      (c, { env with IsValidID := fun _ => found, CreateAccount := fun _ => result })
  | C_Login userinfo =>
      let (c, result) := c.IsValidAccount userinfo env.behind
      (c, { env with IsValidAccount := fun _ => result })

/-- The request is handled, and its packets are sent. -/
def run (env : Environment) (errors : SendErrors) (session : SessionInfo) (c : LoggedConnection)
    (r : AccountRequest) : LoggedConnection × Option (SessionInfo × List Outgoing) :=
  let called := r.calls env c
  match r.recv called.2 session with
  | none => (called.1, none)
  | some (session', outs) => (called.1.sendAll errors outs, some (session', outs))

end AccountRequest

/-! ## §2. What the database functions print. -/

namespace Database

namespace LibraryAnswer

/-- The error text, when the statement has failed. -/
def errors (a : LibraryAnswer) : List (List UInt8) := if a.mysql_query then [a.mysql_error] else []

/-- Whether there are rows; `none` behind a null `Result`. -/
def found (a : LibraryAnswer) : Option Bool :=
  a.mysql_store_result.map (fun rows => decide (0 < rows.length))

/-- What is printed behind the SELECT of `IsValidAccount`. -/
def verdictCalls (a : LibraryAnswer) (id : List UInt8) : List LogCall :=
  match a.mysql_store_result with
  | none => []
  | some (Row0 :: _) => [⟨ascii "%s is Valid Account", [Row0]⟩]
  | some [] => [⟨ascii "%s is Not Valid Account", [some id]⟩]

/-- The outcome of the statement on the connection that does not print. -/
def outcome (a : LibraryAnswer) : StatementOutcome :=
  match a.mysql_store_result with
  | none => .failed
  | some rows => .answered rows.length

theorem verdictCalls_matched (a : LibraryAnswer) (id : List UInt8) :
    ∀ call ∈ a.verdictCalls id, call.Matched := by
  intro call hcall
  unfold verdictCalls at hcall
  cases hrows : a.mysql_store_result with
  | none =>
      rw [hrows] at hcall
      exact absurd hcall List.not_mem_nil
  | some rows =>
      cases rows with
      | nil =>
          rw [hrows, List.mem_singleton] at hcall
          subst hcall
          show conversions (ascii "%s is Not Valid Account") = [ArgKind.text]
          decide
      | cons Row0 rows =>
          rw [hrows, List.mem_singleton] at hcall
          subst hcall
          show conversions (ascii "%s is Valid Account") = [ArgKind.text]
          decide

/-- The formats depend on whether there are rows alone. -/
theorem verdictCalls_formats {a a' : LibraryAnswer} (h : a.found = a'.found) (id id' : List UInt8) :
    (a.verdictCalls id).map LogCall.format = (a'.verdictCalls id').map LogCall.format := by
  have hformats : ∀ (b : LibraryAnswer) (text : List UInt8),
      (b.verdictCalls text).map LogCall.format
        = b.found.elim [] (fun found =>
          [if found then ascii "%s is Valid Account" else ascii "%s is Not Valid Account"]) := by
    intro b text
    unfold verdictCalls found
    cases b.mysql_store_result with
    | none => rfl
    | some rows => cases rows <;> rfl
  rw [hformats, hformats, h]

theorem verdict_outcome (a : LibraryAnswer) : a.outcome.verdict = a.found := by
  unfold outcome found
  cases a.mysql_store_result <;> rfl

end LibraryAnswer

/-- What `Query` prints for these error texts. -/
def queryCalls (errors : List (List UInt8)) : List LogCall :=
  errors.flatMap (fun error => [⟨ascii "Faile to Query", []⟩, ⟨error, []⟩])

theorem queryCalls_append (errors errors' : List (List UInt8)) :
    queryCalls (errors ++ errors') = queryCalls errors ++ queryCalls errors' :=
  List.flatMap_append

/-- They are matched exactly when the error texts have no conversions. -/
theorem queryCalls_matched_iff (errors : List (List UInt8)) :
    (∀ call ∈ queryCalls errors, call.Matched) ↔ ∀ error ∈ errors, conversions error = [] := by
  unfold queryCalls
  simp only [List.mem_flatMap, List.mem_cons, List.not_mem_nil, or_false]
  constructor
  · intro h error herror
    exact h ⟨error, []⟩ ⟨error, herror, Or.inr rfl⟩
  · intro h call hcall
    obtain ⟨error, herror, rfl | rfl⟩ := hcall
    · decide
    · exact h error herror

/-- Their formats give the error texts back. -/
theorem queryCalls_formats_inj {errors errors' : List (List UInt8)} :
    (queryCalls errors).map LogCall.format = (queryCalls errors').map LogCall.format
      ↔ errors = errors' := by
  constructor
  · intro h
    induction errors generalizing errors' with
    | nil =>
        cases errors' with
        | nil => rfl
        | cons error' errors' => exact absurd h (by simp [queryCalls])
    | cons error errors ih =>
        cases errors' with
        | nil => exact absurd h (by simp [queryCalls])
        | cons error' errors' =>
            have hcons : ∀ (e : List UInt8) (es : List (List UInt8)),
                (queryCalls (e :: es)).map LogCall.format
                  = ascii "Faile to Query" :: e :: (queryCalls es).map LogCall.format :=
              fun _ _ => rfl
            rw [hcons, hcons, List.cons.injEq, List.cons.injEq] at h
            rw [h.2.1, ih h.2.2]
  · intro h
    rw [h]

namespace LoggedConnection

/-- The library's answer to a statement behind those that were sent. -/
def next (c : LoggedConnection) (query : List UInt8) : LibraryAnswer := c.library (c.sent ++ [query])

/-- Its answer to the SELECT of `CreateAccount`. -/
def behindInsert (c : LoggedConnection) (userinfo : ST_UserInfo) (behind : List UInt8) :
    LibraryAnswer :=
  c.library (c.sent ++ [CreateAccount_str userinfo behind, IsValidAccount_str userinfo behind])

/-- **A statement**: it is sent, and when it fails its error text is printed. -/
theorem Query_eq (c : LoggedConnection) (query : List UInt8) :
    c.Query query = { c with
      sent := c.sent ++ [query]
      log := c.log ++ queryCalls (c.next query).errors
      branches := c.branches ++ [.result (c.next query).mysql_query] } := by
  unfold Query queryCalls LibraryAnswer.errors next
  cases hfailed : (c.library (c.sent ++ [query])).mysql_query with
  | true => simp [PrintLog, branch, answer, hfailed]
  | false => simp [branch, answer, hfailed]

/-- **An id check.** -/
theorem IsValidID_eq (c : LoggedConnection) (id : List UInt8) :
    c.IsValidID id = ({ c with
      sent := c.sent ++ [IsValidID_str id]
      Result := (c.next (IsValidID_str id)).mysql_store_result
      log := c.log ++ queryCalls (c.next (IsValidID_str id)).errors
      branches := c.branches ++ [.result (c.next (IsValidID_str id)).mysql_query,
        .row_count (c.next (IsValidID_str id)).found] }, (c.next (IsValidID_str id)).found) := by
  unfold IsValidID
  rw [Query_eq]
  simp [store_result, answer, branch, next, LibraryAnswer.found]

/-- **An account check.** -/
theorem IsValidAccount_eq (c : LoggedConnection) (userinfo : ST_UserInfo) (behind : List UInt8) :
    c.IsValidAccount userinfo behind = ({ c with
      sent := c.sent ++ [IsValidAccount_str userinfo behind]
      Result := (c.next (IsValidAccount_str userinfo behind)).mysql_store_result
      log := c.log ++ queryCalls (c.next (IsValidAccount_str userinfo behind)).errors
        ++ (c.next (IsValidAccount_str userinfo behind)).verdictCalls (userinfo.IdText behind)
      branches := c.branches ++ [.result (c.next (IsValidAccount_str userinfo behind)).mysql_query,
        .row_count (c.next (IsValidAccount_str userinfo behind)).found] },
      (c.next (IsValidAccount_str userinfo behind)).found) := by
  unfold IsValidAccount
  rw [Query_eq]
  unfold LibraryAnswer.verdictCalls LibraryAnswer.found next
  cases hrows : (c.library (c.sent ++ [IsValidAccount_str userinfo behind])).mysql_store_result with
  | none => simp [store_result, answer, branch, hrows]
  | some rows =>
      cases rows with
      | nil => simp [store_result, answer, branch, PrintLog, hrows]
      | cons Row0 rows => simp [store_result, answer, branch, PrintLog, hrows]

/-- **The two statements of `CreateAccount`.** -/
theorem CreateAccount_eq (c : LoggedConnection) (userinfo : ST_UserInfo) (behind : List UInt8) :
    c.CreateAccount userinfo behind = ({ c with
      sent := c.sent ++ [CreateAccount_str userinfo behind, IsValidAccount_str userinfo behind]
      Result := (c.behindInsert userinfo behind).mysql_store_result
      log := c.log ++ queryCalls ((c.next (CreateAccount_str userinfo behind)).errors
          ++ (c.behindInsert userinfo behind).errors)
        ++ (c.behindInsert userinfo behind).verdictCalls (userinfo.IdText behind)
      branches := c.branches ++ [.result (c.next (CreateAccount_str userinfo behind)).mysql_query,
        .result (c.behindInsert userinfo behind).mysql_query,
        .row_count (c.behindInsert userinfo behind).found] },
      (c.behindInsert userinfo behind).found) := by
  unfold CreateAccount
  rw [IsValidAccount_eq, Query_eq]
  simp [next, behindInsert, queryCalls]

/-- These calls are made. -/
def print (c : LoggedConnection) (calls : List LogCall) : LoggedConnection :=
  { c with log := c.log ++ calls }

theorem print_nil (c : LoggedConnection) : c.print [] = c := by
  unfold print
  rw [List.append_nil]

theorem print_print (c : LoggedConnection) (calls calls' : List LogCall) :
    (c.print calls).print calls' = c.print (calls ++ calls') := by
  unfold print
  rw [List.append_assoc]

/-- What is printed behind a send. -/
def sendCalls (error : Bool) : List LogCall :=
  if error then [⟨ascii "Session Send Error\n", []⟩] else []

theorem Send_eq (c : LoggedConnection) (error : Bool) : c.Send error = c.print (sendCalls error) := by
  cases error with
  | true => rfl
  | false => exact c.print_nil.symm

theorem foldl_Send (c : LoggedConnection) (errors : List Bool) :
    errors.foldl Send c = c.print (errors.flatMap sendCalls) := by
  induction errors generalizing c with
  | nil => exact c.print_nil.symm
  | cons error errors ih =>
      rw [List.foldl_cons, ih, Send_eq, print_print]
      rfl

/-- The connection that does not print. -/
def forget (c : LoggedConnection) : Connection where
  server sent := (c.library sent).outcome
  sent := c.sent
  Result := c.Result.map List.length

theorem IsValidID_forget (c : LoggedConnection) (id : List UInt8) :
    c.forget.IsValidID id
      = (c.IsValidID id).2.map (fun found => (found, (c.IsValidID id).1.forget)) := by
  rw [IsValidID_eq]
  unfold Connection.IsValidID Connection.mysql_store_result Connection.Query forget
    LibraryAnswer.outcome LibraryAnswer.found next
  cases hrows : (c.library (c.sent ++ [IsValidID_str id])).mysql_store_result with
  | none => simp [hrows]
  | some rows => simp [hrows]

theorem IsValidAccount_forget (c : LoggedConnection) (userinfo : ST_UserInfo) (behind : List UInt8) :
    (c.forget.IsValidAccount userinfo behind).map Prod.fst = (c.IsValidAccount userinfo behind).2 := by
  rw [IsValidAccount_eq, Connection.IsValidAccount_verdict]
  exact LibraryAnswer.verdict_outcome _

theorem CreateAccount_forget (c : LoggedConnection) (userinfo : ST_UserInfo) (behind : List UInt8) :
    (c.forget.CreateAccount userinfo behind).map Prod.fst = (c.CreateAccount userinfo behind).2 := by
  have hquery : (c.Query (CreateAccount_str userinfo behind)).forget
      = c.forget.Query (CreateAccount_str userinfo behind) := by
    rw [Query_eq]
    rfl
  unfold CreateAccount Connection.CreateAccount
  rw [← IsValidAccount_forget, hquery]

end LoggedConnection

end Database

/-! ## §3. What a request prints. -/

namespace AccountRequest

variable (env : Environment) (errors : SendErrors) (session : SessionInfo)

/-- **A request is answered as on the connection that does not print.** -/
theorem run_recv (c : LoggedConnection) (r : AccountRequest) :
    (r.run env errors session c).2 = r.recv (env.on c.forget) session := by
  have hrun : (r.run env errors session c).2 = r.recv (r.calls env c).2 session := by
    unfold run
    cases hrecv : r.recv (r.calls env c).2 session with
    | none => simp only [hrecv]
    | some sent => simp only [hrecv]
  rw [hrun]
  cases r with
  | C_Login userinfo =>
      show RecvLoginRequest _ session userinfo = RecvLoginRequest _ session userinfo
      have hvalid : (c.IsValidAccount userinfo env.behind).2
          = (env.on c.forget).IsValidAccount userinfo := (c.IsValidAccount_forget userinfo _).symm
      unfold RecvLoginRequest
      rw [← hvalid]
      rfl
  | C_CreateAccount userinfo =>
      show RecvCreateAccountRequest _ session userinfo = RecvCreateAccountRequest _ session userinfo
      have hid := c.IsValidID_forget (userinfo.IdText env.behind)
      have hfound : (env.on c.forget).IsValidID (userinfo.IdText env.behind)
          = (c.IsValidID (userinfo.IdText env.behind)).2 := by
        show (c.forget.IsValidID (userinfo.IdText env.behind)).map Prod.fst = _
        rw [hid, Option.map_map]
        exact Option.map_id'
      have hbehind : (env.on c.forget).behind = env.behind := rfl
      unfold RecvCreateAccountRequest
      simp only [calls, hbehind, hfound]
      cases hreturned : (c.IsValidID (userinfo.IdText env.behind)).2 with
      | none => rfl
      | some found =>
          cases found with
          | true => rfl
          | false =>
              -- `CreateAccount` is called on the connection the id check has left
              have hcreate : (env.on c.forget).CreateAccount userinfo
                  = ((c.IsValidID (userinfo.IdText env.behind)).1.CreateAccount userinfo
                    env.behind).2 := by
                rw [hreturned] at hid
                rw [← LoggedConnection.CreateAccount_forget]
                show (c.forget.IsValidID (userinfo.IdText env.behind)).bind _ = _
                rw [hid]
                rfl
              simp only [hcreate, if_true]
              rfl

variable {env} {session} in
theorem run_of_recv {c c' : LoggedConnection} {env' : Environment} {r : AccountRequest}
    (hcalls : r.calls env c = (c', env')) :
    (r.run env errors session c).1 = match r.recv env' session with
      | none => c'
      | some (_, outs) => c'.sendAll errors outs := by
  unfold run
  rw [hcalls]
  cases hrecv : r.recv env' session with
  | none => simp only [hrecv]
  | some sent => simp only [hrecv]

/-- The sends of an answer, by what has been found: a login that succeeds is answered to all
sessions, everything else to its own. -/
def sends (isLogin : Bool) : Option Bool → List LogCall
  | none => []
  | some found =>
      if isLogin && found then errors.all.flatMap LoggedConnection.sendCalls
      else LoggedConnection.sendCalls errors.own

/-- **A login on a connection**: the account check, then the sends of its answer. -/
theorem run_login (c : LoggedConnection) (userinfo : ST_UserInfo) :
    ((C_Login userinfo).run env errors session c).1
      = (c.IsValidAccount userinfo env.behind).1.print
          (sends errors true (c.IsValidAccount userinfo env.behind).2) := by
  cases hvalid : c.IsValidAccount userinfo env.behind with
  | mk c' result =>
      have hcalls : (C_Login userinfo).calls env c
          = (c', { env with IsValidAccount := fun _ => result }) := by
        simp only [calls, hvalid]
      rw [run_of_recv errors hcalls]
      cases result with
      | none => exact c'.print_nil.symm
      | some result =>
          have hanswer : ({ env with IsValidAccount := fun _ => some result } :
            Environment).IsValidAccount userinfo = some result := rfl
          obtain ⟨⟨session', outs⟩, hr⟩ := RecvLoginRequest_some hanswer session
          obtain ⟨result', Header, hresult', -, -, rfl⟩ := RecvLoginRequest_spec hr
          rw [hanswer, Option.some.injEq] at hresult'
          subst hresult'
          simp only [recv, hr]
          cases result with
          | true => exact LoggedConnection.foldl_Send c' errors.all
          | false => exact LoggedConnection.Send_eq c' errors.own

/-- **A request for a new account on a connection**: the id check, the two statements of
`CreateAccount` when it finds no row, and the send of the answer. -/
theorem run_create (c : LoggedConnection) (userinfo : ST_UserInfo) :
    ((C_CreateAccount userinfo).run env errors session c).1
      = let (c, found) := c.IsValidID (userinfo.IdText env.behind)
        if found = some false then
          (c.CreateAccount userinfo env.behind).1.print
            (sends errors false (c.CreateAccount userinfo env.behind).2)
        else c.print (sends errors false found) := by
  cases hid : c.IsValidID (userinfo.IdText env.behind) with
  | mk c' found =>
      have hcalls : (C_CreateAccount userinfo).calls env c
          = ((if found = some false then c'.CreateAccount userinfo env.behind else (c', none)).1,
            { env with
              IsValidID := fun _ => found
              CreateAccount := fun _ =>
                (if found = some false then c'.CreateAccount userinfo env.behind
                  else (c', none)).2 }) := by
        simp only [calls, hid]
      rw [run_of_recv errors hcalls]
      unfold recv RecvCreateAccountRequest
      cases found with
      | none => exact c'.print_nil.symm
      | some found =>
          cases found with
          | true => exact LoggedConnection.Send_eq c' errors.own
          | false =>
              cases hcreate : c'.CreateAccount userinfo env.behind with
              | mk c'' result =>
                  simp only [if_true, hcreate]
                  cases result with
                  | none => exact c''.print_nil.symm
                  | some result => exact LoggedConnection.Send_eq c'' errors.own

variable (library : List (List UInt8) → LibraryAnswer)

/-- The library's answer to the id check. -/
def idAnswer (userinfo : ST_UserInfo) : LibraryAnswer :=
  library [IsValidID_str (userinfo.IdText env.behind)]

/-- Its answer to the INSERT. -/
def insertAnswer (userinfo : ST_UserInfo) : LibraryAnswer :=
  library [IsValidID_str (userinfo.IdText env.behind), CreateAccount_str userinfo env.behind]

/-- Its answer to the last SELECT. -/
def lastAnswer (r : AccountRequest) : LibraryAnswer := library (r.statements env)

/-- The error texts of the statements that the request comes to and that fail. -/
def errorTexts : AccountRequest → List (List UInt8)
  | C_CreateAccount userinfo =>
      (idAnswer env library userinfo).errors
        ++ if (idAnswer env library userinfo).found = some false then
            (insertAnswer env library userinfo).errors
              ++ (lastAnswer env library (C_CreateAccount userinfo)).errors
          else []
  | C_Login userinfo => (lastAnswer env library (C_Login userinfo)).errors

/-- What the request prints behind its statements. -/
def closing : AccountRequest → List LogCall
  | C_CreateAccount userinfo =>
      if (idAnswer env library userinfo).found = some false then
        (lastAnswer env library (C_CreateAccount userinfo)).verdictCalls (userinfo.IdText env.behind)
          ++ sends errors false (lastAnswer env library (C_CreateAccount userinfo)).found
      else sends errors false (idAnswer env library userinfo).found
  | C_Login userinfo =>
      (lastAnswer env library (C_Login userinfo)).verdictCalls (userinfo.IdText env.behind)
        ++ sends errors true (lastAnswer env library (C_Login userinfo)).found

/-- The branches the request takes. -/
def taken : AccountRequest → List Branch
  | C_CreateAccount userinfo =>
      [.result (idAnswer env library userinfo).mysql_query,
        .row_count (idAnswer env library userinfo).found]
        ++ if (idAnswer env library userinfo).found = some false then
            [.result (insertAnswer env library userinfo).mysql_query,
              .result (lastAnswer env library (C_CreateAccount userinfo)).mysql_query,
              .row_count (lastAnswer env library (C_CreateAccount userinfo)).found]
          else []
  | C_Login userinfo =>
      [.result (lastAnswer env library (C_Login userinfo)).mysql_query,
        .row_count (lastAnswer env library (C_Login userinfo)).found]

/-- The connection behind the request. -/
def behindRun (r : AccountRequest) : LoggedConnection :=
  (r.run env errors session { library := library }).1

/-- **What a request does on its connection**: the branches it takes, and what it prints, which is its
error texts and then its closing. -/
theorem behindRun_eq (r : AccountRequest) :
    (behindRun env errors session library r).branches = taken env library r
      ∧ (behindRun env errors session library r).log
        = Database.queryCalls (errorTexts env library r) ++ closing env errors library r := by
  unfold behindRun
  cases r with
  | C_Login userinfo =>
      rw [run_login, LoggedConnection.IsValidAccount_eq]
      constructor
      · rfl
      · exact List.append_assoc _ _ _
  | C_CreateAccount userinfo =>
      rw [run_create, LoggedConnection.IsValidID_eq]
      have hnext : ({ library := library } : LoggedConnection).next
          (IsValidID_str (userinfo.IdText env.behind)) = idAnswer env library userinfo := rfl
      simp only [hnext, taken, errorTexts, closing]
      by_cases hfound : (idAnswer env library userinfo).found = some false
      · simp only [if_pos hfound, LoggedConnection.CreateAccount_eq]
        constructor
        · rfl
        · simp only [LoggedConnection.print, Database.queryCalls_append, List.append_assoc,
            List.nil_append]
          rfl
      · simp only [if_neg hfound, List.append_nil]
        exact ⟨rfl, rfl⟩

/-! ## §4. Formats. -/

/-- The formats a request hands to `vprintf`. -/
def formats (r : AccountRequest) : List (List UInt8) :=
  (behindRun env errors session library r).log.map LogCall.format

/-- **Formats are fixed**: both requests hand the same formats to `vprintf`, and every format's
conversions take the arguments passed with it. -/
structure FormatsFixed (r r' : AccountRequest) : Prop where
  same : formats env errors session library r = formats env errors session library r'
  matched : ∀ call ∈ (behindRun env errors session library r).log, call.Matched
  matched' : ∀ call ∈ (behindRun env errors session library r').log, call.Matched

/-- The error texts of the statements that fail are the same for both requests, and have no
conversions. -/
structure ErrorTextsFixed (r r' : AccountRequest) : Prop where
  same : errorTexts env library r = errorTexts env library r'
  plain : ∀ error ∈ errorTexts env library r, conversions error = []

theorem sends_matched (isLogin : Bool) (found : Option Bool) :
    ∀ call ∈ sends errors isLogin found, call.Matched := by
  have hsend : ∀ error, ∀ call ∈ LoggedConnection.sendCalls error, call.Matched := by
    decide
  intro call hcall
  cases found with
  | none => exact absurd hcall List.not_mem_nil
  | some found =>
      by_cases hall : (isLogin && found) = true
      · simp only [sends, if_pos hall] at hcall
        obtain ⟨error, -, herror⟩ := List.mem_flatMap.mp hcall
        exact hsend error call herror
      · simp only [sends, if_neg hall] at hcall
        exact hsend errors.own call hcall

/-- A request closes with literals, matched with what they print. -/
theorem closing_matched (r : AccountRequest) : ∀ call ∈ closing env errors library r, call.Matched := by
  intro call hcall
  cases r with
  | C_Login userinfo =>
      rcases List.mem_append.mp hcall with hverdict | hsent
      · exact LibraryAnswer.verdictCalls_matched _ _ call hverdict
      · exact sends_matched errors _ _ call hsent
  | C_CreateAccount userinfo =>
      by_cases hfound : (idAnswer env library userinfo).found = some false
      · simp only [closing, if_pos hfound] at hcall
        rcases List.mem_append.mp hcall with hverdict | hsent
        · exact LibraryAnswer.verdictCalls_matched _ _ call hverdict
        · exact sends_matched errors _ _ call hsent
      · simp only [closing, if_neg hfound] at hcall
        exact sends_matched errors _ _ call hcall

/-- A request that takes the same branches with other strings closes with the same formats. -/
theorem closing_formats {Id : CharArray MAX_ID_LEN} {Pw : CharArray MAX_PW_LEN} {r : AccountRequest}
    (htaken : taken env library r = taken env library (r.withCredentials Id Pw)) :
    (closing env errors library r).map LogCall.format
      = (closing env errors library (r.withCredentials Id Pw)).map LogCall.format := by
  cases r with
  | C_Login userinfo =>
      simp only [withCredentials, taken, List.cons.injEq, Branch.row_count.injEq] at htaken
      have hfound := htaken.2.1
      simp only [withCredentials, closing, List.map_append, hfound]
      rw [LibraryAnswer.verdictCalls_formats hfound]
  | C_CreateAccount userinfo =>
      simp only [withCredentials, taken, List.cons_append, List.nil_append, List.cons.injEq,
        Branch.row_count.injEq] at htaken
      obtain ⟨-, hid, hrest⟩ := htaken
      simp only [withCredentials, closing, hid]
      by_cases hfound : (idAnswer env library { userinfo with Id := Id, Pw := Pw }).found = some false
      · rw [if_pos (hid.trans hfound), if_pos hfound] at hrest
        simp only [List.cons.injEq, Branch.row_count.injEq] at hrest
        have hlast := hrest.2.2.1
        rw [if_pos hfound, if_pos hfound, List.map_append, List.map_append, hlast,
          LibraryAnswer.verdictCalls_formats hlast]
      · rw [if_neg hfound, if_neg hfound]

/-- What a request prints is matched exactly when its error texts have no conversions. -/
theorem matched_iff (r : AccountRequest) :
    (∀ call ∈ (behindRun env errors session library r).log, call.Matched)
      ↔ ∀ error ∈ errorTexts env library r, conversions error = [] := by
  rw [(behindRun_eq env errors session library r).2, ← Database.queryCalls_matched_iff]
  constructor
  · intro h call hcall
    exact h call (List.mem_append_left _ hcall)
  · intro h call hcall
    rcases List.mem_append.mp hcall with hquery | hclose
    · exact h call hquery
    · exact closing_matched env errors library r call hclose

/-- **Formats are fixed exactly when error texts are.**  For every request for an account or login,
any other strings in it, every behaviour of the library and every outcome of the sends: if the
request takes the same branches with both, it hands the same formats to `vprintf`, all of them
matched by the arguments, if and only if the error texts of the statements that fail are the
same and have no conversions. -/
theorem formats_fixed_iff (Id : CharArray MAX_ID_LEN) (Pw : CharArray MAX_PW_LEN) (r : AccountRequest)
    (hbranches : (behindRun env errors session library r).branches
      = (behindRun env errors session library (r.withCredentials Id Pw)).branches) :
    FormatsFixed env errors session library r (r.withCredentials Id Pw)
      ↔ ErrorTextsFixed env library r (r.withCredentials Id Pw) := by
  obtain ⟨htaken, hlog⟩ := behindRun_eq env errors session library r
  obtain ⟨htaken', hlog'⟩ := behindRun_eq env errors session library (r.withCredentials Id Pw)
  rw [htaken, htaken'] at hbranches
  -- both close with the same formats, so the error texts make the difference
  have hsame : formats env errors session library r
        = formats env errors session library (r.withCredentials Id Pw)
      ↔ errorTexts env library r = errorTexts env library (r.withCredentials Id Pw) := by
    unfold formats
    rw [hlog, hlog', List.map_append, List.map_append, closing_formats env errors library hbranches,
      List.append_left_inj]
    exact Database.queryCalls_formats_inj
  constructor
  · intro h
    exact ⟨hsame.mp h.same, (matched_iff env errors session library r).mp h.matched⟩
  · intro h
    refine ⟨hsame.mpr h.same, (matched_iff env errors session library r).mpr h.plain, ?_⟩
    apply (matched_iff env errors session library (r.withCredentials Id Pw)).mpr
    rw [← h.same]
    exact h.plain

/-- An id with a conversion that writes through its argument. -/
def writingId : CharArray MAX_ID_LEN := Vector.ofFn (fun i => (ascii "'%n").getD i 0)

/-- Every statement fails with the same text, which quotes nothing. -/
theorem formats_fixed_interrupted :
    FormatsFixed Server.refusing ⟨true, []⟩ { UserInfo := alice }
      (fun _ => ⟨true, ascii "Query execution was interrupted", none⟩) (C_Login alice)
      ((C_Login alice).withCredentials writingId alice.Pw) :=
  (formats_fixed_iff Server.refusing ⟨true, []⟩ { UserInfo := alice } _ writingId alice.Pw
    (C_Login alice) (by decide +kernel)).mpr ⟨by decide +kernel, by decide +kernel⟩

/-- A library that fails every statement and quotes the text behind the first string's opening
quote. -/
def quoting (sent : List (List UInt8)) : LibraryAnswer where
  mysql_query := true
  mysql_error := ascii "You have an error in your SQL syntax near '"
    ++ (sent.getLastD []).drop (ascii "SELECT * FROM users WHERE id='").length ++ ascii "'"
  mysql_store_result := none

/-- **A client's text as a format**: the error text of a login with the id `'%n` quotes it, and is the
format of a call without arguments; with another id the format is another one. -/
theorem id_as_format :
    (behindRun Server.refusing ⟨false, []⟩ { UserInfo := alice } quoting (C_Login alice)).branches
        = (behindRun Server.refusing ⟨false, []⟩ { UserInfo := alice } quoting
          ((C_Login alice).withCredentials writingId alice.Pw)).branches
      ∧ (behindRun Server.refusing ⟨false, []⟩ { UserInfo := alice } quoting
          ((C_Login alice).withCredentials writingId alice.Pw)).log.map
          (fun call => (conversions call.format, call.args.length)) = [([], 0), ([.count], 0)]
      ∧ formats Server.refusing ⟨false, []⟩ { UserInfo := alice } quoting (C_Login alice)
        ≠ formats Server.refusing ⟨false, []⟩ { UserInfo := alice } quoting
          ((C_Login alice).withCredentials writingId alice.Pw)
      ∧ ¬ FormatsFixed Server.refusing ⟨false, []⟩ { UserInfo := alice } quoting (C_Login alice)
          ((C_Login alice).withCredentials writingId alice.Pw) := by
  have hsplit : formats Server.refusing ⟨false, []⟩ { UserInfo := alice } quoting (C_Login alice)
      ≠ formats Server.refusing ⟨false, []⟩ { UserInfo := alice } quoting
        ((C_Login alice).withCredentials writingId alice.Pw) := by
    decide +kernel
  exact ⟨by decide +kernel, by decide +kernel, hsplit, fun h => hsplit h.same⟩

/-! ## §5. Strings without percent signs. -/

def userinfo : AccountRequest → ST_UserInfo
  | C_CreateAccount userinfo => userinfo
  | C_Login userinfo => userinfo

variable {env library} in
/-- An error text is the library's for some of the request's statements. -/
theorem errorTexts_statements {r : AccountRequest} {error : List UInt8}
    (h : error ∈ errorTexts env library r) :
    ∃ sent, (∀ query ∈ sent, query ∈ r.statements env) ∧ error = (library sent).mysql_error := by
  have hanswer : ∀ sent, error ∈ (library sent).errors → error = (library sent).mysql_error := by
    intro sent herror
    unfold LibraryAnswer.errors at herror
    cases hfailed : (library sent).mysql_query with
    | true => simpa [hfailed] using herror
    | false => simp [hfailed] at herror
  cases r with
  | C_Login userinfo => exact ⟨_, fun query hquery => hquery, hanswer _ h⟩
  | C_CreateAccount userinfo =>
      rcases List.mem_append.mp h with hid | hrest
      · refine ⟨_, ?_, hanswer _ hid⟩
        intro query hquery
        rw [List.mem_singleton] at hquery
        subst hquery
        exact List.mem_cons_self
      · by_cases hfound : (idAnswer env library userinfo).found = some false
        · rw [if_pos hfound] at hrest
          rcases List.mem_append.mp hrest with hinsert | hlast
          · refine ⟨_, ?_, hanswer _ hinsert⟩
            intro query hquery
            exact List.mem_append_left [_] hquery
          · exact ⟨_, fun query hquery => hquery, hanswer _ hlast⟩
        · rw [if_neg hfound] at hrest
          exact absurd hrest List.not_mem_nil

variable {env} in
/-- A statement has the percent signs of the request's strings and no others. -/
theorem percent_of_statements {r : AccountRequest} {query : List UInt8}
    (hquery : query ∈ r.statements env) (hpercent : 37 ∈ query) :
    37 ∈ r.userinfo.IdText env.behind ∨ 37 ∈ r.userinfo.Pw.text env.behind := by
  have hinsert : 37 ∉ ascii "INSERT INTO users VALUE ('" ∧ 37 ∉ ascii "','"
      ∧ 37 ∉ ascii "')" := by decide
  have hselect : 37 ∉ ascii "SELECT * FROM users WHERE id='" ∧ 37 ∉ ascii "' and pw='"
      ∧ 37 ∉ ascii "'" := by decide
  have hid : ∀ id, 37 ∈ IsValidID_str id → 37 ∈ id := by
    intro id h
    simpa [IsValidID_str, hselect] using h
  have haccount : ∀ u : ST_UserInfo, 37 ∈ IsValidAccount_str u env.behind →
      37 ∈ u.IdText env.behind ∨ 37 ∈ u.Pw.text env.behind := by
    intro u h
    simpa [IsValidAccount_str, hselect] using h
  have hcreate : ∀ u : ST_UserInfo, 37 ∈ CreateAccount_str u env.behind →
      37 ∈ u.IdText env.behind ∨ 37 ∈ u.Pw.text env.behind := by
    intro u h
    simpa [CreateAccount_str, hinsert] using h
  cases r with
  | C_Login u =>
      rw [show query = IsValidAccount_str u env.behind from List.mem_singleton.mp hquery] at hpercent
      exact haccount u hpercent
  | C_CreateAccount u =>
      have hone : query = IsValidID_str (u.IdText env.behind) ∨ query = CreateAccount_str u env.behind
          ∨ query = IsValidAccount_str u env.behind := by
        simpa [statements] using hquery
      rcases hone with rfl | rfl | rfl
      · exact Or.inl (hid _ hpercent)
      · exact hcreate u hpercent
      · exact haccount u hpercent

/-- **Strings without percent signs are harmless**: when the library's error texts have no percent
signs but those they quote from statements, such a request prints with matched formats alone. -/
theorem matched_of_no_percent
    (hquotes : ∀ sent, 37 ∈ (library sent).mysql_error → ∃ query ∈ sent, 37 ∈ query)
    {r : AccountRequest} (hId : 37 ∉ r.userinfo.IdText env.behind)
    (hPw : 37 ∉ r.userinfo.Pw.text env.behind) :
    ∀ call ∈ (behindRun env errors session library r).log, call.Matched := by
  apply (matched_iff env errors session library r).mpr
  intro error herror
  apply PrintfFormat.conversions_of_no_percent
  intro hpercent
  obtain ⟨sent, hsent, rfl⟩ := errorTexts_statements herror
  obtain ⟨query, hquery, hin⟩ := hquotes sent hpercent
  rcases percent_of_statements (hsent query hquery) hin with h | h
  · exact hId h
  · exact hPw h

end AccountRequest

end YServerCore
