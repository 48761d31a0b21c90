/-
  YServerCore.Database.Statements — the SQL text the database functions build.

  `Database` puts the strings of a request between single quotes and hands the text to
  `mysql_query`.  Nothing is escaped, so a quote in a string ends its literal, and a backslash
  changes the byte behind it, which may be the closing quote.

  Main results:
    * `scan_CreateAccount`, `scan_IsValidID`, `scan_IsValidAccount` — plain strings are the literals
      of their statements.
    * `valid_account_row` — with plain strings, an account is valid only if the table has its row.
    * `credentials_are_data_iff` — the strings are the literals of all three statements exactly when
      both are plain.
-/
import YServerCore.Lib.SqlText
import YServerCore.Packet.PacketDataStructure

namespace YServerCore

open SqlText (Token State scan tokens feed Plain)

/-- The bytes of an ASCII text. -/
def ascii (s : String) : List UInt8 := s.toList.map (fun c => UInt8.ofNat c.toNat)

namespace Database

/-! ## §1. The statements. -/

/-- `str` in `CreateAccount`. -/
def CreateAccount_str (userinfo : ST_UserInfo) (behind : List UInt8) : List UInt8 :=
  ascii "INSERT INTO users VALUE ('" ++ userinfo.IdText behind ++ ascii "','"
    ++ userinfo.Pw.text behind ++ ascii "')"

/-- `str` in `IsValidID`. -/
def IsValidID_str (id : List UInt8) : List UInt8 :=
  ascii "SELECT * FROM users WHERE id='" ++ id ++ ascii "'"

/-- `str` in `IsValidAccount`. -/
def IsValidAccount_str (userinfo : ST_UserInfo) (behind : List UInt8) : List UInt8 :=
  ascii "SELECT * FROM users WHERE id='" ++ userinfo.IdText behind ++ ascii "' and pw='"
    ++ userinfo.Pw.text behind ++ ascii "'"

/-- `INSERT INTO users VALUE (Id, Pw)`. -/
def insertAccount (Id Pw : List UInt8) : List Token :=
  [.word (ascii "INSERT"), .word (ascii "INTO"), .word (ascii "users"), .word (ascii "VALUE"),
    .symbol 40, .literal Id, .symbol 44, .literal Pw, .symbol 41]

/-- `SELECT * FROM users WHERE id=`. -/
def selectWhere : List Token :=
  [.word (ascii "SELECT"), .symbol 42, .word (ascii "FROM"), .word (ascii "users"),
    .word (ascii "WHERE"), .word (ascii "id"), .symbol 61]

/-- `SELECT * FROM users WHERE id=id`. -/
def selectID (id : List UInt8) : List Token := selectWhere ++ [.literal id]

/-- `SELECT * FROM users WHERE id=Id and pw=Pw`. -/
def selectAccount (Id Pw : List UInt8) : List Token :=
  selectWhere ++ [.literal Id, .word (ascii "and"), .word (ascii "pw"), .symbol 61, .literal Pw]

/-- The rows of `users`, and the server's comparison of strings. -/
structure Table where
  users : List (List UInt8 × List UInt8)
  same : List UInt8 → List UInt8 → Bool

namespace Table

def withID (table : Table) (id : List UInt8) : List (List UInt8 × List UInt8) :=
  table.users.filter (fun row => table.same row.1 id)

def withAccount (table : Table) (Id Pw : List UInt8) : List (List UInt8 × List UInt8) :=
  table.users.filter (fun row => table.same row.1 Id && table.same row.2 Pw)

end Table

/-- A MySQL server: the rows that answer a statement; `none` is a statement that has no result. -/
structure SqlServer extends Table where
  store_result : List Token → Option (List (List UInt8 × List UInt8))

/-- The server answers the fixed statements with the rows that match. -/
structure SqlServer.Selects (server : SqlServer) : Prop where
  id : ∀ id, server.store_result (selectID id) = some (server.withID id)
  account : ∀ Id Pw, server.store_result (selectAccount Id Pw) = some (server.withAccount Id Pw)

/-- `Database::IsValidAccount`; without a result it reads through a null pointer. -/
def IsValidAccount (server : SqlServer) (userinfo : ST_UserInfo) (behind : List UInt8) : Option Bool :=
  (server.store_result (scan (IsValidAccount_str userinfo behind))).map
    (fun Result => decide (0 < Result.length))

/-- **Credentials stay data**: the three statements are the fixed ones, with the strings as their
literals, and an account is valid only if the table has a row with both. -/
structure CredentialsAreData (userinfo : ST_UserInfo) (behind : List UInt8) : Prop where
  create : scan (CreateAccount_str userinfo behind)
    = insertAccount (userinfo.IdText behind) (userinfo.Pw.text behind)
  validID : scan (IsValidID_str (userinfo.IdText behind)) = selectID (userinfo.IdText behind)
  validAccount : scan (IsValidAccount_str userinfo behind)
    = selectAccount (userinfo.IdText behind) (userinfo.Pw.text behind)
  verdict : ∀ server : SqlServer, server.Selects →
    IsValidAccount server userinfo behind = some true →
    ∃ row ∈ server.users, server.same row.1 (userinfo.IdText behind) = true
      ∧ server.same row.2 (userinfo.Pw.text behind) = true

/-! ## §2. Up to the first string. -/

theorem scan_selectWhere (rest : List UInt8) :
    scan (ascii "SELECT * FROM users WHERE id='" ++ rest)
      = selectWhere ++ tokens (.literal 39 []) rest := by
  have hfeed : feed .between (ascii "SELECT * FROM users WHERE id='")
      = (.literal 39 [], selectWhere) := by
    decide
  unfold scan
  rw [SqlText.tokens_append, hfeed]

theorem scan_insert (rest : List UInt8) :
    scan (ascii "INSERT INTO users VALUE ('" ++ rest)
      = [.word (ascii "INSERT"), .word (ascii "INTO"), .word (ascii "users"), .word (ascii "VALUE"),
          .symbol 40] ++ tokens (.literal 39 []) rest := by
  have hfeed : feed .between (ascii "INSERT INTO users VALUE ('")
      = (.literal 39 [], [.word (ascii "INSERT"), .word (ascii "INTO"), .word (ascii "users"),
          .word (ascii "VALUE"), .symbol 40]) := by
    decide
  unfold scan
  rw [SqlText.tokens_append, hfeed]

/-! ## §3. Plain strings. -/

theorem scan_IsValidID {id : List UInt8} (h : Plain id) : scan (IsValidID_str id) = selectID id := by
  unfold IsValidID_str
  rw [List.append_assoc, scan_selectWhere, SqlText.tokens_literal h]
  rfl

/-- The INSERT of two plain strings. -/
theorem scan_insertAccount {Id Pw : List UInt8} (hId : Plain Id) (hPw : Plain Pw) :
    scan (ascii "INSERT INTO users VALUE ('" ++ Id ++ ascii "','" ++ Pw ++ ascii "')")
      = insertAccount Id Pw := by
  rw [List.append_assoc, List.append_assoc, List.append_assoc, scan_insert,
    SqlText.tokens_literal hId]
  show _ ++ ([Token.literal ([] ++ Id)] ++ ([Token.symbol 44]
    ++ tokens (.literal 39 []) (Pw ++ ascii "')"))) = _
  rw [SqlText.tokens_literal hPw]
  rfl

/-- The SELECT of two plain strings. -/
theorem scan_selectAccount {Id Pw : List UInt8} (hId : Plain Id) (hPw : Plain Pw) :
    scan (ascii "SELECT * FROM users WHERE id='" ++ Id ++ ascii "' and pw='" ++ Pw ++ ascii "'")
      = selectAccount Id Pw := by
  rw [List.append_assoc, List.append_assoc, List.append_assoc, scan_selectWhere,
    SqlText.tokens_literal hId]
  show _ ++ ([Token.literal ([] ++ Id)] ++ ([Token.word (ascii "and")]
    ++ ([Token.word (ascii "pw")] ++ ([Token.symbol 61]
    ++ tokens (.literal 39 []) (Pw ++ ascii "'"))))) = _
  rw [SqlText.tokens_literal hPw]
  rfl

theorem scan_CreateAccount {userinfo : ST_UserInfo} {behind : List UInt8}
    (hId : Plain (userinfo.IdText behind)) (hPw : Plain (userinfo.Pw.text behind)) :
    scan (CreateAccount_str userinfo behind)
      = insertAccount (userinfo.IdText behind) (userinfo.Pw.text behind) :=
  scan_insertAccount hId hPw

theorem scan_IsValidAccount {userinfo : ST_UserInfo} {behind : List UInt8}
    (hId : Plain (userinfo.IdText behind)) (hPw : Plain (userinfo.Pw.text behind)) :
    scan (IsValidAccount_str userinfo behind)
      = selectAccount (userinfo.IdText behind) (userinfo.Pw.text behind) :=
  scan_selectAccount hId hPw

/-- **A valid account has its row.** -/
theorem valid_account_row {server : SqlServer} {userinfo : ST_UserInfo} {behind : List UInt8}
    (hselects : server.Selects)
    (hscan : scan (IsValidAccount_str userinfo behind)
      = selectAccount (userinfo.IdText behind) (userinfo.Pw.text behind))
    (hvalid : IsValidAccount server userinfo behind = some true) :
    ∃ row ∈ server.users, server.same row.1 (userinfo.IdText behind) = true
      ∧ server.same row.2 (userinfo.Pw.text behind) = true := by
  unfold IsValidAccount at hvalid
  rw [hscan, hselects.account, Option.map_some, Option.some.injEq, decide_eq_true_eq] at hvalid
  obtain ⟨row, hrow⟩ := List.exists_mem_of_length_pos hvalid
  unfold Table.withAccount at hrow
  rw [List.mem_filter, Bool.and_eq_true] at hrow
  exact ⟨row, hrow.1, hrow.2⟩

/-! ## §4. All strings. -/

/-- **Credentials stay data exactly when they are plain.**  For every request, with arbitrary bytes in
its `Id` and `Pw`: the texts of `CreateAccount`, `IsValidID` and `IsValidAccount` are the fixed
statements with the two strings as their literals, and only accounts of the table are valid, if
and only if the strings contain no single quote, and no backslash but directly in front of `%` or
`_`. -/
theorem credentials_are_data_iff (userinfo : ST_UserInfo) (behind : List UInt8) :
    CredentialsAreData userinfo behind
      ↔ Plain (userinfo.IdText behind) ∧ Plain (userinfo.Pw.text behind) := by
  constructor
  · intro h
    have hId : Plain (userinfo.IdText behind) := by
      have hscan := h.validID
      unfold IsValidID_str at hscan
      rw [List.append_assoc, scan_selectWhere] at hscan
      have hone : tokens (.literal 39 []) (userinfo.IdText behind ++ 39 :: [])
          = .literal ([] ++ userinfo.IdText behind) :: [] := List.append_cancel_left hscan
      exact SqlText.plain_of_tokens hone (Nat.le_refl 0)
    refine ⟨hId, ?_⟩
    -- the first string is a literal, so the second one starts where it should
    have hscan := h.create
    unfold CreateAccount_str at hscan
    rw [List.append_assoc, List.append_assoc, List.append_assoc, scan_insert,
      SqlText.tokens_literal hId] at hscan
    have hrest : [Token.literal ([] ++ userinfo.IdText behind)] ++ ([Token.symbol 44]
        ++ tokens (.literal 39 []) (userinfo.Pw.text behind ++ ascii "')"))
        = [.literal (userinfo.IdText behind), .symbol 44, .literal (userinfo.Pw.text behind),
          .symbol 41] := List.append_cancel_left hscan
    have hlast : tokens (.literal 39 []) (userinfo.Pw.text behind ++ 39 :: [41])
        = .literal ([] ++ userinfo.Pw.text behind) :: [.symbol 41] :=
      (List.cons.inj (List.cons.inj hrest).2).2
    exact SqlText.plain_of_tokens hlast (Nat.le_refl 1)
  · intro h
    have hscan := scan_IsValidAccount h.1 h.2
    constructor
    · exact scan_CreateAccount h.1 h.2
    · exact scan_IsValidID h.1
    · exact hscan
    · intro server hselects hvalid
      exact valid_account_row hselects hscan hvalid

/-- A login as `a` whose password is `' or ''='`. -/
def injection : ST_UserInfo where
  Header := {}
  Id := Vector.ofFn (fun i => (ascii "a").getD i 0)
  Pw := Vector.ofFn (fun i => (ascii "' or ''='").getD i 0)

/-- **A password becomes SQL**: the statement has a condition more, which is true of every row. -/
theorem password_injection :
    scan (IsValidAccount_str injection [])
        = selectWhere ++ [.literal (ascii "a"), .word (ascii "and"), .word (ascii "pw"), .symbol 61,
          .literal [], .word (ascii "or"), .literal [], .symbol 61, .literal []]
      ∧ ¬ CredentialsAreData injection [] := by
  refine ⟨by decide +kernel, fun h => ?_⟩
  have hscan := h.validAccount
  exact absurd hscan (by decide +kernel)

end Database

end YServerCore
