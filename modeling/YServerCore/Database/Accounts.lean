/-
  YServerCore.Database.Accounts — concurrent requests for new accounts.

  `RecvCreateAccountRequest` asks whether a row has the id, and if none has, `CreateAccount` inserts
  one and asks whether a row has the id and the password.  Each statement is one step on the table;
  the requests are tasks of their own, so the statements of others may come in between.

  What a statement does is the server's matter, which is sent its text.  Where the strings are data in
  the texts, the statements do to the table what they are meant to (`tableStep`).

  Main results:
    * `step_eq_tableStep` — a request whose strings are data is a request to the table.
    * `insert_granted_iff` — an INSERT keeps every id granted once exactly when no row has its id.
    * `verify_granted` — of two requests for one id, not both find their row.
    * `granted_once_iff` — the same for every run of requests whose strings are data.
-/
import YServerCore.Database.Queries

namespace YServerCore

open SqlText (Token scan Plain)

namespace Database

/-! ## §1. The steps of a request. -/

/-- The strings of a request, read inside their arrays. -/
structure CreateRequest where
  Id : List UInt8
  Pw : List UInt8
  deriving DecidableEq, Repr

namespace CreateRequest

/-- `str` in `CreateAccount`. -/
def str (r : CreateRequest) : List UInt8 :=
  ascii "INSERT INTO users VALUE ('" ++ r.Id ++ ascii "','" ++ r.Pw ++ ascii "')"

/-- The strings of a packet make the statement of `Database::CreateAccount`. -/
theorem str_CreateAccount (userinfo : ST_UserInfo) (behind : List UInt8) :
    (CreateRequest.mk (userinfo.IdText behind) (userinfo.Pw.text behind)).str
      = CreateAccount_str userinfo behind := rfl

/-- The strings are data in the statements. -/
def Data (r : CreateRequest) : Prop := Plain r.Id ∧ Plain r.Pw

instance (r : CreateRequest) : Decidable r.Data := inferInstanceAs (Decidable (Plain r.Id ∧ Plain r.Pw))

end CreateRequest

/-- The table with one row more. -/
def Table.insert (table : Table) (r : CreateRequest) : Table :=
  { table with users := table.users ++ [(r.Id, r.Pw)] }

namespace Table

/-- The rows with an id, when a row has come. -/
theorem withID_insert (table : Table) (r : CreateRequest) (id : List UInt8) :
    ((table.insert r).withID id).length
      = (table.withID id).length + if table.same r.Id id = true then 1 else 0 := by
  show ((table.users ++ [(r.Id, r.Pw)]).filter (fun row => table.same row.1 id)).length = _
  rw [List.filter_append, List.length_append]
  simp only [List.filter_cons, List.filter_nil]
  by_cases h : table.same r.Id id = true
  · rw [if_pos h, if_pos h]
    rfl
  · rw [if_neg h, if_neg h]
    rfl

/-- No row has an id exactly when none is among the rows with it. -/
theorem not_has_iff (table : Table) (id : List UInt8) :
    ¬ table.Has (.IsValidID id) ↔ (table.withID id).length = 0 := by
  rw [← table.length_rows_pos_iff (.IsValidID id)]
  exact Nat.not_lt.trans Nat.le_zero

/-- Ids that are the same for the server have the same rows. -/
theorem withID_congr {table : Table} (hsame : Equivalence (fun a b => table.same a b = true))
    {id id' : List UInt8} (h : table.same id id' = true) : table.withID id = table.withID id' := by
  unfold withID
  apply List.filter_congr
  intro row _
  rw [Bool.eq_iff_iff]
  exact ⟨fun hrow => hsame.trans hrow h, fun hrow => hsame.trans hrow (hsame.symm h)⟩

end Table

/-- A MySQL server: the rows that answer a statement, where `none` is a statement that has no result, and
the table as a statement leaves it. -/
structure SqlEngine where
  store_result : Table → List Token → Option (List (List UInt8 × List UInt8))
  query : Table → List Token → Table

namespace SqlEngine

/-- The server, with this table. -/
def on (engine : SqlEngine) (table : Table) : SqlServer where
  toTable := table
  store_result := engine.store_result table

/-- The fixed statements select the rows that match, and insert their row. -/
structure Works (engine : SqlEngine) : Prop where
  selects : ∀ table, (engine.on table).Selects
  inserts : ∀ (table : Table) (r : CreateRequest),
    engine.query table (insertAccount r.Id r.Pw) = table.insert r

/-- `Result->row_count > 0` behind a SELECT of these strings. -/
def found (engine : SqlEngine) (table : Table) (r : Request) : Option Bool :=
  (engine.store_result table (scan r.str)).map (fun Result => decide (0 < Result.length))

/-- The table behind the INSERT of a request. -/
def inserted (engine : SqlEngine) (table : Table) (r : CreateRequest) : Table :=
  engine.query table (scan r.str)

theorem found_of_data {engine : SqlEngine} (hworks : engine.Works) (table : Table) {r : Request}
    (hdata : r.Data) : engine.found table r = some (decide (table.Has r)) := by
  have hrows := store_result_rows (hworks.selects table) hdata
  unfold found
  rw [show engine.store_result table (scan r.str) = some (table.rows r) from hrows, Option.map_some,
    decide_eq_decide.mpr (table.length_rows_pos_iff r)]

theorem inserted_of_data {engine : SqlEngine} (hworks : engine.Works) (table : Table)
    {r : CreateRequest} (hdata : r.Data) : engine.inserted table r = table.insert r := by
  unfold inserted
  rw [CreateRequest.str, scan_insertAccount hdata.1 hdata.2]
  exact hworks.inserts table r

/-- A server that knows the fixed statements and no other. -/
def fixed : SqlEngine where
  store_result table := (SqlServer.ofTable table).store_result
  query table statement :=
    match statement.drop 5 with
    | [.literal Id, _, .literal Pw, _] =>
        if statement = insertAccount Id Pw then table.insert ⟨Id, Pw⟩ else table
    | _ => table

theorem works_fixed : fixed.Works where
  selects table := SqlServer.selects_ofTable table
  inserts _ _ := if_pos rfl

end SqlEngine

/-- How far a request is. -/
inductive CreateStage where
  | received
  /-- `IsValidID` has returned true, and the request is refused. -/
  | refused
  /-- `IsValidID` has returned false. -/
  | checked
  /-- `CreateAccount` has inserted the row. -/
  | inserted
  /-- `CreateAccount` has returned what `IsValidAccount` says. -/
  | returned (result : Bool)
  deriving DecidableEq, Repr

/-- What the tasks do. -/
inductive CreateAction (τ : Type*) where
  /-- `IsValidID(userinfo.Id)`. -/
  | check (task : τ)
  /-- `INSERT INTO users VALUE (Id, Pw)`. -/
  | insert (task : τ)
  /-- `return IsValidAccount(userinfo)`. -/
  | verify (task : τ)

/-- The table, and the tasks. -/
structure Creating (τ : Type*) where
  table : Table
  stage : τ → CreateStage := fun _ => .received

namespace Creating

variable {τ : Type*} [DecidableEq τ] (request : τ → CreateRequest)

/-- One statement of one task; reading through a null `Result` has no next state. -/
def step (engine : SqlEngine) (s : Creating τ) : CreateAction τ → Option (Creating τ)
  | .check task =>
      if s.stage task = .received then
        (engine.found s.table (.IsValidID (request task).Id)).map (fun found =>
          { s with stage := Function.update s.stage task (if found then .refused else .checked) })
      else none
  | .insert task =>
      if s.stage task = .checked then
        some { table := engine.inserted s.table (request task)
               stage := Function.update s.stage task .inserted }
      else none
  | .verify task =>
      if s.stage task = .inserted then
        (engine.found s.table (.IsValidAccount (request task).Id (request task).Pw)).map (fun found =>
          { s with stage := Function.update s.stage task (.returned found) })
      else none

/-- What a statement is meant to do to the table. -/
def tableStep (s : Creating τ) : CreateAction τ → Option (Creating τ)
  | .check task =>
      if s.stage task = .received then
        some { s with
          stage := Function.update s.stage task
            (if s.table.Has (.IsValidID (request task).Id) then .refused else .checked) }
      else none
  | .insert task =>
      if s.stage task = .checked then
        some { table := s.table.insert (request task)
               stage := Function.update s.stage task .inserted }
      else none
  | .verify task =>
      if s.stage task = .inserted then
        some { s with
          stage := Function.update s.stage task (.returned
            (decide (s.table.Has (.IsValidAccount (request task).Id (request task).Pw)))) }
      else none

/-- **Requests whose strings are data** are requests to the table. -/
theorem step_eq_tableStep {engine : SqlEngine} (hworks : engine.Works)
    (hdata : ∀ task, (request task).Data) : step request engine = tableStep request := by
  funext s a
  cases a with
  | check task =>
      have hid : (Request.IsValidID (request task).Id).Data := (hdata task).1
      simp only [step, tableStep, SqlEngine.found_of_data hworks s.table hid, Option.map_some,
        decide_eq_true_eq]
  | insert task =>
      simp only [step, tableStep, SqlEngine.inserted_of_data hworks s.table (hdata task)]
  | verify task =>
      have haccount : (Request.IsValidAccount (request task).Id (request task).Pw).Data := hdata task
      simp only [step, tableStep, SqlEngine.found_of_data hworks s.table haccount, Option.map_some]

/-- **What one step does.** -/
theorem step_cases {s s' : Creating τ} {a : CreateAction τ} (h : tableStep request s a = some s') :
    (∃ task, a = .check task ∧ s.stage task = .received
        ∧ s' = { s with
            stage := Function.update s.stage task
              (if s.table.Has (.IsValidID (request task).Id) then .refused else .checked) })
      ∨ (∃ task, a = .insert task ∧ s.stage task = .checked
        ∧ s' = { table := s.table.insert (request task)
                 stage := Function.update s.stage task .inserted })
      ∨ ∃ task, a = .verify task ∧ s.stage task = .inserted
        ∧ s' = { s with
            stage := Function.update s.stage task (.returned
              (decide (s.table.Has (.IsValidAccount (request task).Id (request task).Pw)))) } := by
  cases a with
  | check task =>
      simp only [tableStep, Option.ite_none_right_eq_some, Option.some.injEq] at h
      exact Or.inl ⟨task, rfl, h.1, h.2.symm⟩
  | insert task =>
      simp only [tableStep, Option.ite_none_right_eq_some, Option.some.injEq] at h
      exact Or.inr (Or.inl ⟨task, rfl, h.1, h.2.symm⟩)
  | verify task =>
      simp only [tableStep, Option.ite_none_right_eq_some, Option.some.injEq] at h
      exact Or.inr (Or.inr ⟨task, rfl, h.1, h.2.symm⟩)

/-- A task whose statements nobody comes between, when a row is found for the id. -/
theorem run_refused {engine : SqlEngine} {table : Table} {task : τ}
    (h : engine.found table (.IsValidID (request task).Id) = some true) :
    ∃ s, StepMachine.run (step request engine) { table := table } [.check task] = some s
      ∧ s.stage task = .refused := by
  refine ⟨{ table := table, stage := Function.update (fun _ => .received) task .refused }, ?_, ?_⟩
  · simp [StepMachine.run, step, h]
  · simp

/-- A task whose statements nobody comes between, when no row is found for the id. -/
theorem run_created {engine : SqlEngine} {table : Table} {task : τ} {result : Bool}
    (h : engine.found table (.IsValidID (request task).Id) = some false)
    (hresult : engine.found (engine.inserted table (request task))
      (.IsValidAccount (request task).Id (request task).Pw) = some result) :
    ∃ s, StepMachine.run (step request engine) { table := table }
        [.check task, .insert task, .verify task] = some s
      ∧ s.stage task = .returned result := by
  refine ⟨{ table := engine.inserted table (request task)
            stage := Function.update (fun _ => .received) task (.returned result) }, ?_, ?_⟩
  · simp [StepMachine.run, step, h, hresult]
  · simp

/-! ## §2. Ids granted once. -/

/-- **Every id is granted once**: at most one row has an id that no row had at the start, and of the
requests for one id at most one has found its creation successful. -/
structure GrantedOnce (table : Table) (s : Creating τ) : Prop where
  rows : ∀ id, ¬ table.Has (.IsValidID id) → (s.table.withID id).length ≤ 1
  requests : ∀ t u, table.same (request t).Id (request u).Id = true →
    s.stage t = .returned true → s.stage u = .returned true → t = u

/-- If a row is inserted, no row has its id. -/
def IdFree (s : Creating τ) : CreateAction τ → Prop
  | .check _ => True
  | .insert task => ¬ s.table.Has (.IsValidID (request task).Id)
  | .verify _ => True

instance (s : Creating τ) : ∀ a, Decidable (IdFree request s a)
  | .check _ => isTrue trivial
  | .insert task => inferInstanceAs (Decidable (¬ s.table.Has (.IsValidID (request task).Id)))
  | .verify _ => isTrue trivial

/-- The rows behind those of the start are the ones `tasks` have inserted, and neither a task that has
inserted one nor one that will has found its id at the start. -/
structure Inserted (table : Table) (s : Creating τ) (tasks : List τ) : Prop where
  same : s.table.same = table.same
  users : s.table.users = table.users ++ tasks.map (fun t => ((request t).Id, (request t).Pw))
  mem : ∀ t, s.stage t = .inserted ∨ (∃ b, s.stage t = .returned b) → t ∈ tasks
  fresh : ∀ t, s.stage t = .checked ∨ t ∈ tasks → ¬ table.Has (.IsValidID (request t).Id)

omit [DecidableEq τ] in
theorem inserted_start (table : Table) : Inserted request table { table := table } [] where
  same := rfl
  users := (List.append_nil _).symm
  mem := by
    intro t ht
    exact absurd ht (by simp)
  fresh := by
    intro t ht
    exact absurd ht (by simp)

variable {request}

omit [DecidableEq τ] in
/-- An id that a row had at the start has a row ever since. -/
theorem Inserted.has {table : Table} {s : Creating τ} {tasks : List τ}
    (h : Inserted request table s tasks) {r : Request} (hhas : table.Has r) : s.table.Has r := by
  obtain ⟨row, hrow, hmatch⟩ := hhas
  refine ⟨row, ?_, ?_⟩
  · rw [h.users]
    exact List.mem_append_left _ hrow
  · unfold Table.Matches at hmatch ⊢
    rw [h.same]
    exact hmatch

omit [DecidableEq τ] in
/-- Two tasks that have inserted rows with an id are one, if there is at most one such row. -/
theorem Inserted.task_unique {table : Table} {s : Creating τ} {tasks : List τ}
    (h : Inserted request table s tasks) {id : List UInt8} (hone : (s.table.withID id).length ≤ 1)
    {t u : τ} (ht : t ∈ tasks) (hu : u ∈ tasks) (htid : table.same (request t).Id id = true)
    (huid : table.same (request u).Id id = true) : t = u := by
  have hrows : (tasks.filter (fun t => table.same (request t).Id id)).length ≤ 1 := by
    have hsplit : (s.table.withID id).length = (table.withID id).length
        + (tasks.filter (fun t => table.same (request t).Id id)).length := by
      unfold Table.withID
      rw [h.users, h.same, List.filter_append, List.length_append, List.filter_map, List.length_map]
      rfl
    omega
  have htmem : t ∈ tasks.filter (fun t => table.same (request t).Id id) :=
    List.mem_filter.mpr ⟨ht, htid⟩
  have humem : u ∈ tasks.filter (fun t => table.same (request t).Id id) :=
    List.mem_filter.mpr ⟨hu, huid⟩
  obtain ⟨i, hi, rfl⟩ := List.mem_iff_getElem.mp htmem
  obtain ⟨j, hj, rfl⟩ := List.mem_iff_getElem.mp humem
  have hij : i = j := by omega
  subst hij
  rfl

/-- A task that comes to another stage keeps what the rows are, if it has inserted its row when the
stage says so, and its id is new when the stage says so. -/
theorem Inserted.of_stage {table : Table} {s : Creating τ} {tasks : List τ}
    (h : Inserted request table s tasks) {task : τ} {stage : CreateStage}
    (hmem : stage = .inserted ∨ (∃ b, stage = .returned b) → task ∈ tasks)
    (hfresh : stage = .checked → ¬ table.Has (.IsValidID (request task).Id)) :
    Inserted request table { s with stage := Function.update s.stage task stage } tasks where
  same := h.same
  users := h.users
  mem := by
    intro t ht
    by_cases htask : t = task
    · subst htask
      simp only [Function.update_self] at ht
      exact hmem ht
    · simp only [Function.update_of_ne htask] at ht
      exact h.mem t ht
  fresh := by
    intro t ht
    by_cases htask : t = task
    · subst htask
      simp only [Function.update_self] at ht
      rcases ht with hchecked | htasks
      · exact hfresh hchecked
      · exact h.fresh t (Or.inr htasks)
    · simp only [Function.update_of_ne htask] at ht
      exact h.fresh t ht

omit [DecidableEq τ] in
/-- A row more, of a task that has found none with its id. -/
theorem Inserted.insert {table : Table} {s : Creating τ} {tasks : List τ}
    (h : Inserted request table s tasks) {task : τ} (hstage : s.stage task = .checked) :
    Inserted request table { s with table := s.table.insert (request task) } (tasks ++ [task]) where
  same := h.same
  users := by
    show s.table.users ++ _ = _
    rw [h.users, List.map_append, List.append_assoc]
    rfl
  mem := by
    intro t ht
    exact List.mem_append_left _ (h.mem t ht)
  fresh := by
    intro t ht
    rw [List.mem_append, List.mem_singleton] at ht
    rcases ht with hchecked | htasks | rfl
    · exact h.fresh t (Or.inl hchecked)
    · exact h.fresh t (Or.inr htasks)
    · exact h.fresh t (Or.inl hstage)

/-- **What the rows are** is kept by every statement. -/
theorem inserted_step {table : Table} {s s' : Creating τ} {a : CreateAction τ} {tasks : List τ}
    (h : Inserted request table s tasks) (hstep : tableStep request s a = some s') :
    ∃ tasks', Inserted request table s' tasks' := by
  rcases step_cases request hstep with ⟨task, rfl, hstage, rfl⟩ | ⟨task, rfl, hstage, rfl⟩ |
    ⟨task, rfl, hstage, rfl⟩
  · refine ⟨tasks, h.of_stage (fun hstage' => ?_) (fun hchecked hhas => ?_)⟩
    · split at hstage' <;> exact absurd hstage' (by simp)
    · -- the check has found no row, so there was none at the start
      rw [if_pos (h.has hhas)] at hchecked
      exact absurd hchecked (by simp)
  · refine ⟨tasks ++ [task], (h.insert hstage).of_stage (fun _ => ?_) (fun hchecked => ?_)⟩
    · exact List.mem_append_right _ (List.mem_singleton.mpr rfl)
    · exact absurd hchecked (by simp)
  · refine ⟨tasks, h.of_stage (fun _ => ?_) (fun hchecked => ?_)⟩
    · exact h.mem task (Or.inl hstage)
    · exact absurd hchecked (by simp)

/-! ## §3. One statement. -/

section Granted

variable {table : Table} (hsame : Equivalence (fun a b => table.same a b = true))

/-- A check grants nothing. -/
theorem check_granted {s : Creating τ} {task : τ} {stage : CreateStage}
    (h : GrantedOnce request table s) (hstage : stage ≠ .returned true) :
    GrantedOnce request table { s with stage := Function.update s.stage task stage } where
  rows := h.rows
  requests := by
    intro t u hid ht hu
    have htne : t ≠ task := by
      rintro rfl
      exact hstage (by simpa using ht)
    have hune : u ≠ task := by
      rintro rfl
      exact hstage (by simpa using hu)
    simp only [Function.update_of_ne htne] at ht
    simp only [Function.update_of_ne hune] at hu
    exact h.requests t u hid ht hu

include hsame

/-- **An INSERT** keeps every id granted once exactly when no row has its id. -/
theorem insert_granted_iff {s : Creating τ} {task : τ} {tasks : List τ}
    (hins : Inserted request table s tasks) (h : GrantedOnce request table s)
    (hstage : s.stage task = .checked) :
    GrantedOnce request table { table := s.table.insert (request task)
                                stage := Function.update s.stage task .inserted }
      ↔ ¬ s.table.Has (.IsValidID (request task).Id) := by
  have hsame' : Equivalence (fun a b => s.table.same a b = true) := by
    rw [hins.same]
    exact hsame
  have hfresh : ¬ table.Has (.IsValidID (request task).Id) := hins.fresh task (Or.inl hstage)
  constructor
  · intro hnext
    have hrows := hnext.rows (request task).Id hfresh
    rw [Table.withID_insert, if_pos (hsame'.refl _)] at hrows
    rw [Table.not_has_iff]
    omega
  · intro hfree
    have hone : GrantedOnce request table
        { s with stage := Function.update s.stage task .inserted } := check_granted h (by simp)
    refine ⟨fun id hid => ?_, hone.requests⟩
    show ((s.table.insert (request task)).withID id).length ≤ 1
    rw [Table.withID_insert]
    split
    · next hmatch =>
        -- the new row's id is this one, and no row had it
        rw [← Table.withID_congr hsame' hmatch, (Table.not_has_iff _ _).mp hfree]
    · exact h.rows id hid

/-- **A request that finds its row** is the only one for its id. -/
theorem verify_granted {s : Creating τ} {task : τ} {tasks : List τ} {result : Bool}
    (hins : Inserted request table s tasks) (h : GrantedOnce request table s)
    (hstage : s.stage task = .inserted) :
    GrantedOnce request table
      { s with stage := Function.update s.stage task (.returned result) } where
  rows := h.rows
  requests := by
    intro t u hid ht hu
    have hmem : ∀ v, Function.update s.stage task (.returned result) v = .returned true →
        v ∈ tasks := by
      intro v hv
      by_cases htask : v = task
      · exact htask ▸ hins.mem task (Or.inl hstage)
      · rw [Function.update_of_ne htask] at hv
        exact hins.mem v (Or.inr ⟨true, hv⟩)
    -- both have inserted a row with the id, which no row had at the start
    exact hins.task_unique (h.rows _ (hins.fresh u (Or.inr (hmem u hu)))) (hmem t ht) (hmem u hu)
      hid (hsame.refl _)

/-- **One statement** keeps every id granted once exactly when, if it inserts a row, no row has its
id. -/
theorem granted_step_iff {s s' : Creating τ} {a : CreateAction τ} {tasks : List τ}
    (hins : Inserted request table s tasks) (h : GrantedOnce request table s)
    (hstep : tableStep request s a = some s') : GrantedOnce request table s' ↔ IdFree request s a := by
  rcases step_cases request hstep with ⟨task, rfl, -, rfl⟩ | ⟨task, rfl, hstage, rfl⟩ |
    ⟨task, rfl, hstage, rfl⟩
  · refine ⟨fun _ => trivial, fun _ => check_granted h ?_⟩
    split <;> simp
  · exact insert_granted_iff hsame hins h hstage
  · exact ⟨fun _ => trivial, fun _ => verify_granted hsame hins h hstage⟩

end Granted

/-! ## §4. Whole runs. -/

/-- **Every id is granted once exactly while no INSERT finds a row with its id.**  For every server that
works, every table whose comparison of strings is an equivalence, any requests of any number of
concurrent tasks whose strings are data, and any interleaving of their statements: in every state
at most one row has an id that no row had at the start, and at most one of the requests for an id
has found its creation successful, if and only if no row is inserted while the table has one with
the same id. -/
theorem granted_once_iff {engine : SqlEngine} (hworks : engine.Works) {table : Table}
    (hsame : Equivalence (fun a b => table.same a b = true)) (request : τ → CreateRequest)
    (hdata : ∀ task, (request task).Data) (as : List (CreateAction τ)) (s : Creating τ)
    (hrun : StepMachine.run (step request engine) { table := table } as = some s) :
    StepMachine.Safe (step request engine) (GrantedOnce request table) { table := table } as
      ↔ StepMachine.Along (step request engine) (IdFree request) { table := table } as := by
  rw [step_eq_tableStep request hworks hdata] at hrun ⊢
  apply StepMachine.safe_iff_along_of_run
    (I := fun s => ∃ tasks, Inserted request table s tasks) ?_ ?_ ⟨[], inserted_start request table⟩
    ?_ hrun
  · intro s a s' hins _ hstep _
    obtain ⟨tasks, hins⟩ := hins
    exact inserted_step hins hstep
  · intro s a s' hins h hstep
    obtain ⟨tasks, hins⟩ := hins
    exact granted_step_iff hsame hins h hstep
  · refine ⟨fun id hid => ?_, fun t u _ ht => absurd ht (by simp)⟩
    rw [Table.not_has_iff] at hid
    show (table.withID id).length ≤ 1
    omega

/-- The requests of two tasks for one id. -/
def bobTwice : Nat → CreateRequest
  | 0 => ⟨ascii "bob", ascii "first"⟩
  | _ => ⟨ascii "bob", ascii "second"⟩

/-- Two requests for one id, one after the other: the second one is refused. -/
theorem granted_once_sequential :
    StepMachine.Safe (step bobTwice .fixed) (GrantedOnce bobTwice Queries.oneAccount)
      { table := Queries.oneAccount } [.check 0, .insert 0, .verify 0, .check 1] := by
  have hsome : (StepMachine.run (step bobTwice .fixed) { table := Queries.oneAccount }
      [.check 0, .insert 0, .verify 0, .check 1]).isSome := by
    decide +kernel
  obtain ⟨s, hs⟩ := Option.isSome_iff_exists.mp hsome
  have hsame : Equivalence (fun a b => Queries.oneAccount.same a b = true) := by
    refine ⟨fun a => ?_, fun hab => ?_, fun hab hbc => ?_⟩
    · exact decide_eq_true rfl
    · exact decide_eq_true (of_decide_eq_true hab).symm
    · exact decide_eq_true ((of_decide_eq_true hab).trans (of_decide_eq_true hbc))
  have hdata : ∀ task, (bobTwice task).Data := by
    intro task
    cases task with
    | zero => exact (by decide +kernel : (bobTwice 0).Data)
    | succ n => exact (by decide +kernel : (bobTwice 1).Data)
  exact (granted_once_iff SqlEngine.works_fixed hsame bobTwice hdata _ s hs).mpr (by decide +kernel)

/-- **An id is granted twice**: both requests make their check before either inserts its row. -/
theorem id_granted_twice :
    ∃ s : Creating Nat,
      StepMachine.run (step bobTwice .fixed) { table := Queries.oneAccount }
          [.check 0, .check 1, .insert 0, .verify 0, .insert 1, .verify 1] = some s
        ∧ (s.table.withID (ascii "bob")).length = 2
        ∧ s.stage 0 = .returned true ∧ s.stage 1 = .returned true
        ∧ ¬ GrantedOnce bobTwice Queries.oneAccount s := by
  have hend : (StepMachine.run (step bobTwice .fixed) { table := Queries.oneAccount }
      [.check 0, .check 1, .insert 0, .verify 0, .insert 1, .verify 1]).map
        (fun s => ((s.table.withID (ascii "bob")).length, s.stage 0, s.stage 1))
      = some (2, .returned true, .returned true) := by
    decide +kernel
  obtain ⟨s, hs, hall⟩ := Option.map_eq_some_iff.mp hend
  simp only [Prod.mk.injEq] at hall
  obtain ⟨hrows, hfirst, hsecond⟩ := hall
  refine ⟨s, hs, hrows, hfirst, hsecond, fun h => ?_⟩
  have hone := h.requests 0 1 (by decide +kernel) hfirst hsecond
  exact absurd hone (by decide)

end Creating

end Database

end YServerCore
