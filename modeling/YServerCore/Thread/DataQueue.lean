/-
  YServerCore.Thread.DataQueue — the items of `DataQ`.

  Producers put items in, workers take them out.  `AddData` notifies one worker, and so do `AddWork`
  and `AddWork2`, whose jobs no worker takes: a worker woken for one of these finds `DataQ` as it
  is and goes back to sleep when it is empty.

  Main results:
    * `account_step` — what one step does to the items processed and the items that wait.
    * `attended_step` — no step leaves an item behind with every worker asleep.
    * `items_handed_over` — the same for every run.
-/
import YServerCore.Thread.Thread

namespace YServerCore

namespace Thread

variable {τ α β δ : Type*} [DecidableEq τ] [Fintype τ]

/-! ## §1. The items. -/

/-- The item an action adds. -/
def Action.item : Action τ α β δ → Option δ
  | .AddData data _ => some data
  | _ => none

/-- The items added, in the order of the critical sections that add them. -/
def added (as : List (Action τ α β δ)) : List δ := as.filterMap Action.item

/-- The items processed, and behind them the ones that wait. -/
def account (s : Thread τ α β δ) : List δ := s.processed ++ s.DataQ

omit [DecidableEq τ] [Fintype τ] in
theorem added_snoc (as : List (Action τ α β δ)) (a : Action τ α β δ) :
    added (as ++ [a]) = added as ++ a.item.toList := by
  unfold added
  rw [List.filterMap_append]
  cases h : a.item with
  | none => simp [h]
  | some data => simp [h]

omit [Fintype τ] in
/-- A worker leaves the account as it is: what it takes is the first item that waits. -/
theorem account_turn {s s' : Thread τ α β δ} {w : τ} (hturn : Turn s w s') :
    s'.account = s.account := by
  cases hturn with
  | pop hat data rest hitem =>
      show (s.processed ++ [data]) ++ rest = s.processed ++ s.DataQ
      rw [hitem, List.append_assoc]
      rfl
  | _ => rfl

/-- **One step adds the item of its action to the account.** -/
theorem account_step {s s' : Thread τ α β δ} {a : Action τ α β δ} (hstep : step s a = some s') :
    s'.account = s.account ++ a.item.toList := by
  cases a with
  | AddWork func notified =>
      obtain ⟨-, Work, -, rfl⟩ := submit_eq_some.mp hstep
      exact (List.append_nil _).symm
  | AddWork2 func notified =>
      obtain ⟨-, Work, -, rfl⟩ := submit_eq_some.mp hstep
      exact (List.append_nil _).symm
  | AddData data notified =>
      obtain ⟨-, Work, -, rfl⟩ := submit_eq_some.mp hstep
      exact (List.append_assoc _ _ _).symm
  | CloseThread =>
      have hs' : s.CloseThread = s' := Option.some.inj hstep
      subst hs'
      exact (List.append_nil _).symm
  | wake w =>
      obtain ⟨-, hs'⟩ := Option.ite_none_right_eq_some.mp hstep
      rw [← Option.some.inj hs']
      exact (List.append_nil _).symm
  | work w =>
      rw [account_turn (turn_of_stepWork hstep)]
      exact (List.append_nil _).symm

/-- In every run the account is what was added. -/
theorem account_run {s : Thread τ α β δ} {as : List (Action τ α β δ)}
    (hrun : StepMachine.run step ({} : Thread τ α β δ) as = some s) : s.account = added as := by
  refine StepMachine.run_history (P := fun as s => s.account = added as) rfl ?_ hrun
  intro as s a s' _ hs hstep
  rw [account_step hstep, added_snoc, hs]

/-! ## §2. Somebody is awake. -/

/-- While items wait, some worker is not asleep. -/
def Attended (s : Thread τ α β δ) : Prop :=
  s.DataQ ≠ [] → Monitor.SomeAwake workStages s.Work

omit [Fintype τ] in
/-- A worker that moves to another stage than the wait is awake. -/
theorem attended_moveTo {s : Thread τ α β δ} {w : τ} {p : WorkStage} (hp : p ≠ .asleep)
    (lock : Option τ) : Attended { s.moveTo w p with Lock := lock } :=
  fun _ => Monitor.someAwake_update (S := workStages) hp w

omit [Fintype τ] in
/-- A worker goes to sleep only in front of an empty queue. -/
theorem attended_turn {s s' : Thread τ α β δ} {w : τ} (hturn : Turn s w s') : Attended s' := by
  cases hturn with
  | sleep hat hempty =>
      intro hitem
      exact absurd hempty hitem
  | pop hat data rest hitem =>
      intro _
      exact Monitor.someAwake_update (S := workStages) (by decide) w
  | test hat hrunning => exact attended_moveTo (by decide) s.Lock
  | leave hat hstopped => exact attended_moveTo (by decide) s.Lock
  | lock hat hfree => exact attended_moveTo (by decide) (some w)
  | found hat hitem => exact attended_moveTo (by decide) s.Lock
  | skip hat hempty => exact attended_moveTo (by decide) none
  | take hat hitem => exact attended_moveTo (by decide) s.Lock

/-- **No step leaves an item behind with every worker asleep.** -/
theorem attended_step [Nonempty τ] {s s' : Thread τ α β δ} {a : Action τ α β δ}
    (h : Attended s) (hstep : step s a = some s') : Attended s' := by
  have hsubmit : ∀ {JopQ : List α} {JopQ2 : List β} {DataQ : List δ} {notified : Option τ},
      s.submit JopQ JopQ2 DataQ notified = some s' → Attended s' := by
    intro JopQ JopQ2 DataQ notified hsub
    obtain ⟨-, Work, hnotify, rfl⟩ := submit_eq_some.mp hsub
    exact fun _ => Monitor.someAwake_of_notify hnotify
  cases a with
  | AddWork func notified => exact hsubmit hstep
  | AddWork2 func notified => exact hsubmit hstep
  | AddData data notified => exact hsubmit hstep
  | CloseThread =>
      have hs' : s.CloseThread = s' := Option.some.inj hstep
      subst hs'
      exact h
  | wake w =>
      obtain ⟨-, hs'⟩ := Option.ite_none_right_eq_some.mp hstep
      exact Option.some.inj hs' ▸ attended_moveTo (by decide) s.Lock
  | work w => exact attended_turn (turn_of_stepWork hstep)

/-- In every run, while items wait some worker is not asleep. -/
theorem attended_run [Nonempty τ] {s : Thread τ α β δ} {as : List (Action τ α β δ)}
    (hrun : StepMachine.run step ({} : Thread τ α β δ) as = some s) : Attended s :=
  StepMachine.run_invariant (fun _ _ _ h hstep => attended_step h hstep)
    (fun hitem => absurd rfl hitem) hrun

/-! ## §3. Every run. -/

/-- **Every item is handed over once, in order.**  For any positive number of workers, in every
state reached by submissions, steps of workers and wake-ups in any order: the items processed and
behind them the content of `DataQ` are the items added; no worker is about to take an item from
an empty queue; and while `bRunning` is true and items wait, some worker is in `Work` and not
asleep. -/
theorem items_handed_over [Nonempty τ] (as : List (Action τ α β δ)) (s : Thread τ α β δ)
    (hrun : StepMachine.run step ({} : Thread τ α β δ) as = some s) :
    s.processed ++ s.DataQ = added as
      ∧ (∀ w, s.Work w = .taking → s.DataQ ≠ [])
      ∧ (s.bRunning = true → s.DataQ ≠ [] → ∃ w, s.Work w ≠ .asleep ∧ s.Work w ≠ .returned) := by
  have hsound := sound_run hrun
  refine ⟨account_run hrun, ?_, ?_⟩
  · intro w hw
    exact hsound.found w (Or.inr hw)
  · intro hrunning hitem
    obtain ⟨w, hw⟩ := attended_run hrun hitem
    exact ⟨w, hw, hsound.running hrunning w⟩

/-- One of two workers is woken by an item, a job comes before it has the mutex again, and it takes
the item. -/
theorem item_and_job_handed_over :
    ∃ s, StepMachine.run step ({} : Thread (Fin 2) Nat Nat Nat)
        [.work 0, .work 0, .work 0, .AddData 5 (some 0), .AddWork 1 none, .work 0, .work 0, .work 0,
          .work 0] = some s
      ∧ s.processed ++ s.DataQ = [5]
      ∧ (∀ w, s.Work w = .taking → s.DataQ ≠ [])
      ∧ (s.bRunning = true → s.DataQ ≠ [] → ∃ w, s.Work w ≠ .asleep ∧ s.Work w ≠ .returned) := by
  have hsome : (StepMachine.run step ({} : Thread (Fin 2) Nat Nat Nat)
      [.work 0, .work 0, .work 0, .AddData 5 (some 0), .AddWork 1 none, .work 0, .work 0, .work 0,
        .work 0]).isSome := by
    decide
  obtain ⟨s, hs⟩ := Option.isSome_iff_exists.mp hsome
  exact ⟨s, hs, items_handed_over _ s hs⟩

end Thread

end YServerCore
