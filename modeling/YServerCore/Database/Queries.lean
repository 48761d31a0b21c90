/-
  YServerCore.Database.Queries — the queries of concurrent tasks on one connection.

  A call of `IsValidID` or `IsValidAccount` makes three steps: `mysql_query` sends its statement,
  `mysql_store_result` puts the rows of the latest statement into `Result`, and the verdict is
  read from `Result->row_count`.  The connection and `Result` belong to the one `Database`, and
  the locks around the calls are commented out, so other tasks may come in between.

  The server answers the text it is sent, which is that of a call's own strings only if they are data
  in it.

  Main results:
    * `store_result_rows` — the rows of a call are what its statement selects.
    * `tracked_step` — in turn, `Result` holds the rows of the call that has stored last.
    * `own_verdicts_of_inTurn` — in every run whose calls store and read in turn, each verdict is the
      call's own; calls that do not overlap are in turn.
-/
import YServerCore.Database.Statements
import YServerCore.Lib.StepMachine
import Mathlib.Logic.Function.Basic

namespace YServerCore

open SqlText (scan Plain)

namespace Database

/-! ## §1. Calls and their rows. -/

/-- A call, by the strings of its statement. -/
inductive Request where
  | IsValidID (id : List UInt8)
  | IsValidAccount (Id Pw : List UInt8)
  deriving DecidableEq, Repr

namespace Request

/-- `str` in the call. -/
def str : Request → List UInt8
  | IsValidID id => IsValidID_str id
  | IsValidAccount Id Pw =>
      ascii "SELECT * FROM users WHERE id='" ++ Id ++ ascii "' and pw='" ++ Pw ++ ascii "'"

/-- The strings of a packet make the statement of `Database::IsValidAccount`. -/
theorem str_IsValidAccount (userinfo : ST_UserInfo) (behind : List UInt8) :
    (IsValidAccount (userinfo.IdText behind) (userinfo.Pw.text behind)).str
      = IsValidAccount_str userinfo behind := rfl

/-- The strings are data in the statement. -/
def Data : Request → Prop
  | IsValidID id => Plain id
  | IsValidAccount Id Pw => Plain Id ∧ Plain Pw

instance : ∀ r : Request, Decidable r.Data
  | IsValidID id => inferInstanceAs (Decidable (Plain id))
  | IsValidAccount Id Pw => inferInstanceAs (Decidable (Plain Id ∧ Plain Pw))

end Request

namespace Table

/-- A row matches a call's strings. -/
def Matches (table : Table) (row : List UInt8 × List UInt8) : Request → Bool
  | .IsValidID id => table.same row.1 id
  | .IsValidAccount Id Pw => table.same row.1 Id && table.same row.2 Pw

/-- The table has a row that matches a call's strings. -/
def Has (table : Table) (r : Request) : Prop := ∃ row ∈ table.users, table.Matches row r = true

instance (table : Table) (r : Request) : Decidable (table.Has r) :=
  inferInstanceAs (Decidable (∃ row ∈ table.users, table.Matches row r = true))

/-- The rows that match a call's strings. -/
def rows (table : Table) : Request → List (List UInt8 × List UInt8)
  | .IsValidID id => table.withID id
  | .IsValidAccount Id Pw => table.withAccount Id Pw

theorem rows_eq_filter (table : Table) (r : Request) :
    table.rows r = table.users.filter (fun row => table.Matches row r) := by
  cases r <;> rfl

/-- There are such rows exactly when the table has one. -/
theorem length_rows_pos_iff (table : Table) (r : Request) :
    0 < (table.rows r).length ↔ table.Has r := by
  unfold Has
  rw [rows_eq_filter, List.length_pos_iff_exists_mem]
  simp only [List.mem_filter]

end Table

/-- **The rows of a call** are what its statement selects, if its strings are data in it. -/
theorem store_result_rows {server : SqlServer} {r : Request} (hselects : server.Selects)
    (hdata : r.Data) : server.store_result (scan r.str) = some (server.rows r) := by
  cases r with
  | IsValidID id =>
      rw [Request.str, scan_IsValidID hdata]
      exact hselects.id id
  | IsValidAccount Id Pw =>
      rw [Request.str, scan_selectAccount hdata.1 hdata.2]
      exact hselects.account Id Pw

/-- A server that selects from this table, and answers no other statement. -/
def SqlServer.ofTable (table : Table) : SqlServer where
  toTable := table
  store_result := fun statement =>
    match statement.drop selectWhere.length with
    | [.literal id] => if statement = selectID id then some (table.withID id) else none
    | [.literal Id, _, _, _, .literal Pw] =>
        if statement = selectAccount Id Pw then some (table.withAccount Id Pw) else none
    | _ => none

theorem SqlServer.selects_ofTable (table : Table) : (SqlServer.ofTable table).Selects where
  id _ := if_pos rfl
  account _ _ := if_pos rfl

/-! ## §2. The steps of concurrent calls. -/

/-- What a call has done so far. -/
inductive Progress where
  | called
  | queried
  | stored
  deriving DecidableEq, Repr

/-- What the tasks do. -/
inductive QueryAction (τ : Type*) where
  | call (task : τ) (r : Request)
  /-- `Query(str)`. -/
  | query (task : τ)
  /-- `Result = mysql_store_result(pConn)`. -/
  | store (task : τ)
  /-- `Result->row_count > 0`, and the call returns. -/
  | read (task : τ)

/-- The call whose statement is the latest on the connection, the rows in `Result` and the call whose
statement they answer, the calls in progress, and the verdicts returned. -/
structure Queries (τ : Type*) where
  latest : Option (τ × Request) := none
  Result : Option (List (List UInt8 × List UInt8)) := none
  stored : Option (τ × Request) := none
  running : τ → Option (Request × Progress) := fun _ => none
  returned : List (Request × Bool) := []

namespace Queries

variable {τ : Type*} [DecidableEq τ]

/-- One step; reading through a null `Result` has no next state. -/
def step (server : SqlServer) (s : Queries τ) : QueryAction τ → Option (Queries τ)
  | .call task r =>
      match s.running task with
      | none => some { s with running := Function.update s.running task (some (r, .called)) }
      | some _ => none
  | .query task =>
      match s.running task with
      | some (r, .called) =>
          some { s with
            latest := some (task, r)
            running := Function.update s.running task (some (r, .queried)) }
      | _ => none
  | .store task =>
      match s.running task with
      | some (r, .queried) =>
          some { s with
            Result := s.latest.bind (fun c => server.store_result (scan c.2.str))
            stored := s.latest
            running := Function.update s.running task (some (r, .stored)) }
      | _ => none
  | .read task =>
      match s.running task with
      | some (r, .stored) =>
          s.Result.map (fun rows =>
            { s with
              running := Function.update s.running task none
              returned := s.returned ++ [(r, decide (0 < rows.length))] })
      | _ => none

/-- **Each call is decided by its own query.** -/
def OwnVerdicts (table : Table) (s : Queries τ) : Prop :=
  ∀ e ∈ s.returned, e.2 = true ↔ table.Has e.1

/-- The strings of a call are data; it stores the rows of its own query, and reads its verdict from the
rows it has stored. -/
def InTurn (s : Queries τ) : QueryAction τ → Prop
  | .call _ r => r.Data
  | .query _ => True
  | .store task => s.latest.map Prod.fst = some task
  | .read task => s.stored.map Prod.fst = some task

instance (s : Queries τ) : ∀ a : QueryAction τ, Decidable (InTurn s a)
  | .call _ r => inferInstanceAs (Decidable r.Data)
  | .query _ => inferInstanceAs (Decidable True)
  | .store task => inferInstanceAs (Decidable (s.latest.map Prod.fst = some task))
  | .read task => inferInstanceAs (Decidable (s.stored.map Prod.fst = some task))

/-- A task is between its query and its verdict. -/
def Busy (s : Queries τ) (task : τ) : Prop :=
  ∃ c, s.running task = some c ∧ c.2 ≠ .called

/-- The strings of a call are data, and it makes its query only while no other one is between its query
and its verdict. -/
def Exclusive (s : Queries τ) : QueryAction τ → Prop
  | .call _ r => r.Data
  | .query task => ∀ other, other ≠ task → ¬ s.Busy other
  | .store _ => True
  | .read _ => True

/-- **What one step does**, by what it does to the calls in progress. -/
theorem step_cases {server : SqlServer} {s s' : Queries τ} {a : QueryAction τ}
    (h : step server s a = some s') :
    (∃ task r, a = .call task r ∧ s.running task = none
        ∧ s' = { s with running := Function.update s.running task (some (r, .called)) })
      ∨ (∃ task r, a = .query task ∧ s.running task = some (r, .called)
        ∧ s' = { s with
            latest := some (task, r)
            running := Function.update s.running task (some (r, .queried)) })
      ∨ (∃ task r, a = .store task ∧ s.running task = some (r, .queried)
        ∧ s' = { s with
            Result := s.latest.bind (fun c => server.store_result (scan c.2.str))
            stored := s.latest
            running := Function.update s.running task (some (r, .stored)) })
      ∨ ∃ task r rows, a = .read task ∧ s.running task = some (r, .stored) ∧ s.Result = some rows
        ∧ s' = { s with
            running := Function.update s.running task none
            returned := s.returned ++ [(r, decide (0 < rows.length))] } := by
  cases a with
  | call task r =>
      simp only [step] at h
      split at h
      · next hidle => exact Or.inl ⟨task, r, rfl, hidle, (Option.some.inj h).symm⟩
      · exact absurd h (by simp)
  | query task =>
      simp only [step] at h
      split at h
      · next r hcalled => exact Or.inr (Or.inl ⟨task, r, rfl, hcalled, (Option.some.inj h).symm⟩)
      · exact absurd h (by simp)
  | store task =>
      simp only [step] at h
      split at h
      · next r hqueried =>
          exact Or.inr (Or.inr (Or.inl ⟨task, r, rfl, hqueried, (Option.some.inj h).symm⟩))
      · exact absurd h (by simp)
  | read task =>
      simp only [step] at h
      split at h
      · next r hstored =>
          obtain ⟨rows, hrows, rfl⟩ := Option.map_eq_some_iff.mp h
          exact Or.inr (Or.inr (Or.inr ⟨task, r, rows, rfl, hstored, hrows, rfl⟩))
      · exact absurd h (by simp)

/-! ## §3. One step. -/

/-- The calls' strings are data; the latest query and the stored rows are of the calls that are at that
point; and there are stored rows as soon as a call is to read them. -/
structure Tracked (server : SqlServer) (s : Queries τ) : Prop where
  data : ∀ t r p, s.running t = some (r, p) → r.Data
  latest : ∀ t r q, s.running t = some (r, .queried) → s.latest = some (t, q) → q = r
  stored : ∀ t r q, s.running t = some (r, .stored) → s.stored = some (t, q) → q = r
  rows : ∀ c, s.stored = some c → s.Result = some (server.rows c.2)
  isSome : ∀ t r, s.running t = some (r, .stored) → s.stored.isSome

omit [DecidableEq τ] in
theorem tracked_init (server : SqlServer) : Tracked server ({} : Queries τ) where
  data t r p h := by simp at h
  latest t r q h := by simp at h
  stored t r q h := by simp at h
  rows c h := by simp at h
  isSome t r h := by simp at h

omit [DecidableEq τ] in
/-- A call that reads in turn has its own rows in `Result`. -/
theorem Tracked.own_rows {server : SqlServer} {s : Queries τ} {task : τ} {r : Request}
    (h : Tracked server s) (hrunning : s.running task = some (r, .stored))
    (hturn : s.stored.map Prod.fst = some task) : s.Result = some (server.rows r) := by
  obtain ⟨⟨t, q⟩, hstored, rfl⟩ := Option.map_eq_some_iff.mp hturn
  rw [h.rows _ hstored, h.stored t r q hrunning hstored]

omit [DecidableEq τ] in
/-- A call that stores in turn stores its own rows. -/
theorem Tracked.own_query {server : SqlServer} {s : Queries τ} {task : τ} {r : Request}
    (h : Tracked server s) (hrunning : s.running task = some (r, .queried))
    (hturn : s.latest.map Prod.fst = some task) : s.latest = some (task, r) := by
  obtain ⟨⟨t, q⟩, hlatest, rfl⟩ := Option.map_eq_some_iff.mp hturn
  rw [hlatest, h.latest t r q hrunning hlatest]

/-- A task that comes to another point keeps the strings of the calls data. -/
theorem data_update {running : τ → Option (Request × Progress)} {task : τ}
    {c : Option (Request × Progress)} (hrunning : ∀ t r p, running t = some (r, p) → r.Data)
    (hc : ∀ r p, c = some (r, p) → r.Data) (t : τ) (r : Request) (p : Progress)
    (ht : Function.update running task c t = some (r, p)) : r.Data := by
  by_cases htask : t = task
  · subst htask
    rw [Function.update_self] at ht
    exact hc r p ht
  · rw [Function.update_of_ne htask] at ht
    exact hrunning t r p ht

/-- A task that comes to another point is found there, and the others where they were. -/
theorem running_update {running : τ → Option (Request × Progress)} {task t : τ}
    {c d : Option (Request × Progress)} (ht : Function.update running task c t = d) :
    (t = task ∧ c = d) ∨ (t ≠ task ∧ running t = d) := by
  by_cases htask : t = task
  · subst htask
    rw [Function.update_self] at ht
    exact Or.inl ⟨rfl, ht⟩
  · rw [Function.update_of_ne htask] at ht
    exact Or.inr ⟨htask, ht⟩

/-- **Steps in turn** keep track of whose the latest query and the stored rows are. -/
theorem tracked_step {server : SqlServer} (hselects : server.Selects) {s s' : Queries τ}
    {a : QueryAction τ} (h : Tracked server s) (hturn : InTurn s a)
    (hstep : step server s a = some s') : Tracked server s' := by
  rcases step_cases hstep with ⟨task, r, rfl, hidle, rfl⟩ | ⟨task, r, rfl, hcalled, rfl⟩ |
    ⟨task, r, rfl, hqueried, rfl⟩ | ⟨task, r, rows, rfl, hstored, -, rfl⟩
  · -- a new call is at no query and at no rows
    have hother : ∀ {t r' p}, p ≠ Progress.called →
        Function.update s.running task (some (r, .called)) t = some (r', p) →
        s.running t = some (r', p) := by
      intro t r' p hp ht
      rcases running_update ht with ⟨-, hc⟩ | ⟨-, ht⟩
      · simp only [Option.some.injEq, Prod.mk.injEq] at hc
        exact absurd hc.2.symm hp
      · exact ht
    refine ⟨data_update h.data ?_, ?_, ?_, h.rows, ?_⟩
    · rintro r' p ⟨⟩
      exact hturn
    · intro t r' q ht
      exact h.latest t r' q (hother (by simp) ht)
    · intro t r' q ht
      exact h.stored t r' q (hother (by simp) ht)
    · intro t r' ht
      exact h.isSome t r' (hother (by simp) ht)
  · -- the latest query is the task's
    have hother : ∀ {t r'},
        Function.update s.running task (some (r, .queried)) t = some (r', .stored) →
        s.running t = some (r', .stored) := by
      intro t r' ht
      rcases running_update ht with ⟨-, hc⟩ | ⟨-, ht⟩
      · simp at hc
      · exact ht
    refine ⟨data_update h.data ?_, ?_, ?_, h.rows, ?_⟩
    · rintro r' p ⟨⟩
      exact h.data task r _ hcalled
    · intro t r' q ht hlatest
      simp only [Option.some.injEq, Prod.mk.injEq] at hlatest
      rcases running_update ht with ⟨-, hc⟩ | ⟨hne, -⟩
      · simp only [Option.some.injEq, Prod.mk.injEq, and_true] at hc
        rw [← hc, hlatest.2]
      · exact absurd hlatest.1.symm hne
    · intro t r' q ht
      exact h.stored t r' q (hother ht)
    · intro t r' ht
      exact h.isSome t r' (hother ht)
  · -- the rows are those of the task's own query
    have hlatest : s.latest = some (task, r) := h.own_query hqueried hturn
    refine ⟨data_update h.data ?_, ?_, ?_, ?_, ?_⟩
    · rintro r' p ⟨⟩
      exact h.data task r _ hqueried
    · intro t r' q ht hq
      rcases running_update ht with ⟨-, hc⟩ | ⟨-, ht⟩
      · simp at hc
      · exact h.latest t r' q ht hq
    · intro t r' q ht hq
      have hq' : s.latest = some (t, q) := hq
      rw [hlatest, Option.some.injEq, Prod.mk.injEq] at hq'
      rcases running_update ht with ⟨-, hc⟩ | ⟨hne, -⟩
      · simp only [Option.some.injEq, Prod.mk.injEq, and_true] at hc
        rw [← hc, hq'.2]
      · exact absurd hq'.1.symm hne
    · intro c hc
      have hc' : s.latest = some c := hc
      rw [hlatest, Option.some.injEq] at hc'
      show s.latest.bind _ = some (server.rows c.2)
      rw [hlatest, Option.bind_some, ← hc']
      exact store_result_rows hselects (h.data task r _ hqueried)
    · intro t r' _
      show s.latest.isSome
      rw [hlatest]
      rfl
  · -- and who has read is nowhere
    have hother : ∀ {t d}, Function.update s.running task none t = some d → s.running t = some d := by
      intro t d ht
      rcases running_update ht with ⟨-, hc⟩ | ⟨-, ht⟩
      · simp at hc
      · exact ht
    refine ⟨?_, ?_, ?_, h.rows, ?_⟩
    · intro t r' p ht
      exact h.data t r' p (hother ht)
    · intro t r' q ht
      exact h.latest t r' q (hother ht)
    · intro t r' q ht
      exact h.stored t r' q (hother ht)
    · intro t r' ht
      exact h.isSome t r' (hother ht)

/-- **A step in turn** keeps every verdict a call's own. -/
theorem own_step {server : SqlServer} {s s' : Queries τ} {a : QueryAction τ}
    (h : Tracked server s) (hown : s.OwnVerdicts server.toTable) (hturn : InTurn s a)
    (hstep : step server s a = some s') : s'.OwnVerdicts server.toTable := by
  rcases step_cases hstep with ⟨task, r, rfl, -, rfl⟩ | ⟨task, r, rfl, -, rfl⟩ |
    ⟨task, r, rfl, -, rfl⟩ | ⟨task, r, rows, rfl, hrunning, hrows, rfl⟩
  · exact hown
  · exact hown
  · exact hown
  · -- the verdict is read from the call's own rows
    have hsame : rows = server.rows r :=
      Option.some.inj (hrows.symm.trans (h.own_rows hrunning hturn))
    intro e he
    rcases List.mem_append.mp he with hold | hnew
    · exact hown e hold
    · rw [List.mem_singleton.mp hnew]
      show decide (0 < rows.length) = true ↔ server.Has r
      rw [decide_eq_true_eq, hsame]
      exact server.length_rows_pos_iff r

/-- A call that has stored rows reads them through no null pointer. -/
theorem Tracked.read {server : SqlServer} {s : Queries τ} (h : Tracked server s) {task : τ}
    {r : Request} (hrunning : s.running task = some (r, .stored)) :
    ∃ s', step server s (.read task) = some s' := by
  obtain ⟨c, hc⟩ := Option.isSome_iff_exists.mp (h.isSome task r hrunning)
  simp only [step, hrunning, h.rows c hc, Option.map_some]
  exact ⟨_, rfl⟩

/-! ## §4. Calls one after another. -/

/-- At most one task is between its query and its verdict, and the connection is its own. -/
structure Owned (s : Queries τ) : Prop where
  alone : ∀ t u, s.Busy t → s.Busy u → t = u
  latest : ∀ t r, s.running t = some (r, .queried) → s.latest = some (t, r)
  stored : ∀ t r, s.running t = some (r, .stored) → s.stored = some (t, r)

omit [DecidableEq τ] in
theorem busy_queried {s : Queries τ} {t : τ} {r : Request}
    (h : s.running t = some (r, .queried)) : s.Busy t := ⟨_, h, by simp⟩

omit [DecidableEq τ] in
theorem busy_stored {s : Queries τ} {t : τ} {r : Request}
    (h : s.running t = some (r, .stored)) : s.Busy t := ⟨_, h, by simp⟩

/-- Another task's progress is not changed. -/
theorem busy_of_update {s s' : Queries τ} {task t : τ} {c : Option (Request × Progress)}
    (hrunning : s'.running = Function.update s.running task c) (hne : t ≠ task) (h : s'.Busy t) :
    s.Busy t := by
  obtain ⟨d, hd, hcalled⟩ := h
  rw [hrunning, Function.update_of_ne hne] at hd
  exact ⟨d, hd, hcalled⟩

/-- A task that is not at its query is not busy. -/
theorem not_busy_of_update {s s' : Queries τ} {task : τ} {c : Option (Request × Progress)}
    (hrunning : s'.running = Function.update s.running task c) (hc : ∀ d ∈ c, d.2 = .called) :
    ¬ s'.Busy task := by
  intro h
  obtain ⟨d, hd, hcalled⟩ := h
  rw [hrunning, Function.update_self] at hd
  exact hcalled (hc d hd)

omit [DecidableEq τ] in
/-- When nobody is at a query, everything is owned. -/
theorem owned_of_not_busy {s : Queries τ} (h : ∀ t, ¬ s.Busy t) : s.Owned where
  alone := by
    intro t u ht
    exact absurd ht (h t)
  latest := by
    intro t r ht
    exact absurd (busy_queried ht) (h t)
  stored := by
    intro t r ht
    exact absurd (busy_stored ht) (h t)

omit [DecidableEq τ] in
/-- When one task alone is at its query, it owns what is its own. -/
theorem owned_of_alone {s : Queries τ} (task : τ) (h : ∀ t, s.Busy t → t = task)
    (hlatest : ∀ r, s.running task = some (r, .queried) → s.latest = some (task, r))
    (hstored : ∀ r, s.running task = some (r, .stored) → s.stored = some (task, r)) : s.Owned where
  alone := by
    intro t u ht hu
    rw [h t ht, h u hu]
  latest := by
    intro t r ht
    obtain rfl : t = task := h t (busy_queried ht)
    exact hlatest r ht
  stored := by
    intro t r ht
    obtain rfl : t = task := h t (busy_stored ht)
    exact hstored r ht

/-- A task that is not at its query afterwards leaves the connection to its owner. -/
theorem Owned.of_update {s s' : Queries τ} {task : τ} {c : Option (Request × Progress)}
    (howned : s.Owned) (hrunning : s'.running = Function.update s.running task c)
    (hc : ∀ d ∈ c, d.2 = .called) (hlatest : s'.latest = s.latest)
    (hstored : s'.stored = s.stored) : s'.Owned := by
  have hnot : ¬ s'.Busy task := not_busy_of_update hrunning hc
  have hne : ∀ t, s'.Busy t → t ≠ task := fun t ht heq => hnot (heq ▸ ht)
  constructor
  · intro t u ht hu
    exact howned.alone t u (busy_of_update hrunning (hne t ht) ht)
      (busy_of_update hrunning (hne u hu) hu)
  · intro t r ht
    have htne := hne t (busy_queried ht)
    rw [hrunning, Function.update_of_ne htne] at ht
    rw [hlatest]
    exact howned.latest t r ht
  · intro t r ht
    have htne := hne t (busy_stored ht)
    rw [hrunning, Function.update_of_ne htne] at ht
    rw [hstored]
    exact howned.stored t r ht

/-- **Exclusive steps** keep the connection the own of whoever is at its query. -/
theorem owned_step {server : SqlServer} {s s' : Queries τ} {a : QueryAction τ} (howned : s.Owned)
    (hexclusive : s.Exclusive a) (h : step server s a = some s') : s'.Owned := by
  rcases step_cases h with ⟨task, r, rfl, hidle, rfl⟩ | ⟨task, r, rfl, -, rfl⟩ |
    ⟨task, r, rfl, hqueried, rfl⟩ | ⟨task, r, rows, rfl, -, -, rfl⟩
  · -- a new call is not at its query yet
    exact howned.of_update rfl (by simp) rfl rfl
  · -- nobody else is at its query
    apply owned_of_alone task
    · intro t ht
      by_contra hne
      exact hexclusive t hne (busy_of_update rfl hne ht)
    · intro r' hr'
      simp only [Function.update_self, Option.some.injEq, Prod.mk.injEq] at hr'
      rw [hr'.1]
    · intro r' hr'
      simp [Function.update_self] at hr'
  · -- the latest statement is the task's own
    apply owned_of_alone task
    · intro t ht
      by_contra hne
      exact hne (howned.alone t task (busy_of_update rfl hne ht) (busy_queried hqueried))
    · intro r' hr'
      simp [Function.update_self] at hr'
    · intro r' hr'
      simp only [Function.update_self, Option.some.injEq, Prod.mk.injEq] at hr'
      rw [← hr'.1]
      exact howned.latest task r hqueried
  · -- and one that has read its verdict no more
    exact howned.of_update rfl (by simp) rfl rfl

/-- A call that owns the connection is in turn. -/
theorem Owned.inTurn {server : SqlServer} {s : Queries τ} {a : QueryAction τ}
    (howned : s.Owned) (hexclusive : s.Exclusive a) (h : ∃ s', step server s a = some s') :
    InTurn s a := by
  obtain ⟨s', h⟩ := h
  rcases step_cases h with ⟨task, r, rfl, -, -⟩ | ⟨task, r, rfl, -, -⟩ |
    ⟨task, r, rfl, hqueried, -⟩ | ⟨task, r, rows, rfl, hstored, -, -⟩
  · exact hexclusive
  · trivial
  · show s.latest.map Prod.fst = some task
    rw [howned.latest task r hqueried]
    rfl
  · show s.stored.map Prod.fst = some task
    rw [howned.stored task r hstored]
    rfl

/-! ## §5. Whole runs. -/

/-- **Each call is decided by its own query while the calls are in turn.**  For every server that
answers the fixed statements, any number of concurrent calls and any interleaving of their steps:
if the strings of the calls are data, and every call stores the rows of its own query and reads
its verdict from the rows it has stored, then in every state that is reached each call that has
returned has returned true exactly when the table has a row that matches its strings, and each
that has stored rows can read them.  In particular this is so in every run where no call makes its
query between the query and the verdict of another. -/
theorem own_verdicts_of_inTurn {server : SqlServer} (hselects : server.Selects)
    (as : List (QueryAction τ)) :
    (StepMachine.Along (step server) InTurn {} as →
      ∀ pre s, pre <+: as → StepMachine.run (step server) {} pre = some s →
        OwnVerdicts server.toTable s
          ∧ ∀ task r, s.running task = some (r, .stored) →
            ∃ s', step server s (.read task) = some s')
      ∧ ∀ s, StepMachine.run (step server) {} as = some s →
        StepMachine.Along (step server) Exclusive {} as →
          StepMachine.Along (step server) InTurn {} as := by
  constructor
  · intro hturn
    refine StepMachine.forall_prefix_of_along
      (P := fun s => OwnVerdicts server.toTable s
        ∧ ∀ task r, s.running task = some (r, .stored) →
          ∃ s', step server s (.read task) = some s')
      (I := fun s => Tracked server s ∧ OwnVerdicts server.toTable s) ?_ ?_ ?_ hturn
    · intro s a s' hI hturn hstep
      exact ⟨tracked_step hselects hI.1 hturn hstep, own_step hI.1 hI.2 hturn hstep⟩
    · intro s hI
      exact ⟨hI.2, fun task r hrunning => hI.1.read hrunning⟩
    · exact ⟨tracked_init server, fun e he => absurd he List.not_mem_nil⟩
  · intro s hrun hexclusive
    have hboth := hexclusive.and (StepMachine.along_enabled_of_run hrun)
    apply StepMachine.along_of_invariant (I := Owned) ?_ ?_ ?_ hboth
    · intro s a s' howned hG hstep
      exact owned_step howned hG.1 hstep
    · intro s a howned hG
      exact howned.inTurn hG.1 hG.2
    · apply owned_of_not_busy
      intro t ht
      obtain ⟨c, hc, -⟩ := ht
      exact absurd hc (by simp)

/-- A table with one account, compared byte by byte. -/
def oneAccount : Table where
  users := [(ascii "alice", ascii "secret")]
  same := fun a b => a = b

/-- A wrong login of the task 1 and a right one of the task 2, in turn. -/
theorem own_verdicts_sequential :
    ∃ s : Queries Nat,
      StepMachine.run (step (.ofTable oneAccount)) {}
          [.call 1 (.IsValidAccount (ascii "alice") (ascii "guess")),
            .call 2 (.IsValidAccount (ascii "alice") (ascii "secret")),
            .query 1, .store 1, .read 1, .query 2, .store 2, .read 2] = some s
        ∧ s.returned = [(.IsValidAccount (ascii "alice") (ascii "guess"), false),
          (.IsValidAccount (ascii "alice") (ascii "secret"), true)]
        ∧ OwnVerdicts oneAccount s := by
  have hend : (StepMachine.run (step (.ofTable oneAccount)) ({} : Queries Nat)
      [.call 1 (.IsValidAccount (ascii "alice") (ascii "guess")),
        .call 2 (.IsValidAccount (ascii "alice") (ascii "secret")),
        .query 1, .store 1, .read 1, .query 2, .store 2, .read 2]).map Queries.returned
      = some [(.IsValidAccount (ascii "alice") (ascii "guess"), false),
        (.IsValidAccount (ascii "alice") (ascii "secret"), true)] := by
    decide +kernel
  obtain ⟨s, hs, hreturned⟩ := Option.map_eq_some_iff.mp hend
  have hturn := (own_verdicts_of_inTurn (SqlServer.selects_ofTable oneAccount) _).1
    (by decide +kernel) _ s List.prefix_rfl hs
  exact ⟨s, hs, hreturned, hturn.1⟩

/-- **A wrong password is accepted**: the right login of the task 2 makes its query in between. -/
theorem wrong_password_accepted :
    ∃ s : Queries Nat,
      StepMachine.run (step (.ofTable oneAccount)) {}
          [.call 1 (.IsValidAccount (ascii "alice") (ascii "guess")),
            .call 2 (.IsValidAccount (ascii "alice") (ascii "secret")),
            .query 1, .query 2, .store 1, .read 1] = some s
        ∧ s.returned = [(.IsValidAccount (ascii "alice") (ascii "guess"), true)]
        ∧ ¬ s.OwnVerdicts oneAccount := by
  have hend : (StepMachine.run (step (.ofTable oneAccount)) ({} : Queries Nat)
      [.call 1 (.IsValidAccount (ascii "alice") (ascii "guess")),
        .call 2 (.IsValidAccount (ascii "alice") (ascii "secret")),
        .query 1, .query 2, .store 1, .read 1]).map Queries.returned
      = some [(.IsValidAccount (ascii "alice") (ascii "guess"), true)] := by
    decide +kernel
  obtain ⟨s, hs, hreturned⟩ := Option.map_eq_some_iff.mp hend
  refine ⟨s, hs, hreturned, fun hown => ?_⟩
  have hhas := (hown (.IsValidAccount (ascii "alice") (ascii "guess"), true)
    (by rw [hreturned]; exact List.mem_singleton.mpr rfl)).mp rfl
  exact absurd hhas (by decide +kernel)

end Queries

end Database

end YServerCore
