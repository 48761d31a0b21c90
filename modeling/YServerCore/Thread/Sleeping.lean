/-
  YServerCore.Thread.Sleeping — when the workers sleep.

  The wait of `Work` tests `DataQ` and nothing else, while `AddWork` and `AddWork2` notify as
  `AddData` does, and `CloseThread` notifies nobody.  So a worker that is woken for a job goes back
  to sleep, and a worker that sleeps when `bRunning` becomes false is not woken for it.

  Main results:
    * `sleepsIdle_step_iff` — what one step has to look out for.
    * `sleepsIdle_iff` — the same for every run.
    * `asleep_run` — nobody but a submission or chance wakes a worker.
-/
import YServerCore.Thread.Thread

namespace YServerCore

namespace Thread

variable {τ α β δ : Type*} [DecidableEq τ] [Fintype τ]

/-! ## §1. Sleeping workers. -/

/-- **Workers sleep only when there is nothing to do**: while `bRunning` is true they are all asleep
only when all queues are empty, and when it is false nobody is asleep. -/
structure SleepsIdle (s : Thread τ α β δ) : Prop where
  queues : s.bRunning = true → (∀ w, s.Work w = .asleep) → s.JopQ = [] ∧ s.JopQ2 = [] ∧ s.DataQ = []
  stopped : s.bRunning = false → ∀ w, s.Work w ≠ .asleep

/-- `CloseThread` is called while nobody is asleep, and a worker that finds `DataQ` empty in its
wait does so while `bRunning` is true, and either there are no jobs or another worker is awake. -/
def Heeded (s : Thread τ α β δ) : Action τ α β δ → Prop
  | .CloseThread => ∀ w, s.Work w ≠ .asleep
  | .work w => s.Work w = .waiting → s.DataQ = [] →
      s.bRunning = true ∧ ((s.JopQ = [] ∧ s.JopQ2 = []) ∨ ∃ u, u ≠ w ∧ s.Work u ≠ .asleep)
  | _ => True

omit [DecidableEq τ] [Fintype τ] in
theorem sleepsIdle_init [Nonempty τ] : SleepsIdle ({} : Thread τ α β δ) where
  queues _ _ := ⟨rfl, rfl, rfl⟩
  stopped h := nomatch h

omit [DecidableEq τ] [Fintype τ] in
/-- With a worker awake, only the state behind `CloseThread` is in question. -/
theorem sleepsIdle_of_awake {s : Thread τ α β δ} {w : τ} (hw : s.Work w ≠ .asleep)
    (hstopped : s.bRunning = false → ∀ u, s.Work u ≠ .asleep) : SleepsIdle s where
  queues _ hall := absurd (hall w) hw
  stopped := hstopped

omit [Fintype τ] in
/-- A worker that moves to another stage than the wait. -/
theorem SleepsIdle.moveTo {s : Thread τ α β δ} (h : SleepsIdle s) (w : τ) {p : WorkStage}
    (hp : p ≠ .asleep) (lock : Option τ) (DataQ processed : List δ) :
    SleepsIdle { s.moveTo w p with Lock := lock, DataQ := DataQ, processed := processed } := by
  have hmoved : Function.update s.Work w p w ≠ .asleep := by
    rw [Function.update_self]
    exact hp
  refine sleepsIdle_of_awake (w := w) hmoved ?_
  intro hstopped u
  show Function.update s.Work w p u ≠ .asleep
  by_cases huw : u = w
  · rw [huw]
    exact hmoved
  · rw [Function.update_of_ne huw]
    exact h.stopped hstopped u

omit [Fintype τ] in
/-- A worker that goes to sleep in front of an empty `DataQ`. -/
theorem sleepsIdle_sleep_iff {s : Thread τ α β δ} {w : τ} (hempty : s.DataQ = []) :
    SleepsIdle { s.moveTo w .asleep with Lock := none }
      ↔ s.bRunning = true ∧ ((s.JopQ = [] ∧ s.JopQ2 = []) ∨ ∃ u, u ≠ w ∧ s.Work u ≠ .asleep) := by
  have hawake : Monitor.SomeAwake workStages (Function.update s.Work w .asleep)
      ↔ ∃ u, u ≠ w ∧ s.Work u ≠ .asleep := Monitor.someAwake_sleep_iff w
  rw [← hawake]
  constructor
  · intro h
    have hrunning : s.bRunning = true := by
      by_contra hstopped
      exact h.stopped (Bool.eq_false_iff.mpr hstopped) w (Function.update_self _ _ _)
    refine ⟨hrunning, ?_⟩
    by_cases hall : ∀ u, Function.update s.Work w .asleep u = .asleep
    · obtain ⟨hJopQ, hJopQ2, -⟩ := h.queues hrunning hall
      exact Or.inl ⟨hJopQ, hJopQ2⟩
    · exact Or.inr (not_forall.mp hall)
  · intro h
    obtain ⟨hrunning, hjobs⟩ := h
    constructor
    · intro _ hall
      rcases hjobs with hnone | ⟨u, hu⟩
      · exact ⟨hnone.1, hnone.2, hempty⟩
      · exact absurd (hall u) hu
    · intro hstopped
      rw [show s.bRunning = false from hstopped] at hrunning
      exact absurd hrunning (by decide)

instance [DecidableEq α] [DecidableEq β] [DecidableEq δ] (s : Thread τ α β δ)
    (a : Action τ α β δ) : Decidable (Heeded s a) := by
  cases a <;> unfold Heeded <;> infer_instance

/-! ## §2. One step. -/

omit [DecidableEq τ] [Fintype τ] in
/-- Only a worker in front of the test of its wait has something to look out for. -/
theorem heeded_elsewhere {s : Thread τ α β δ} {w : τ} (h : s.Work w ≠ .waiting) :
    Heeded s (.work w) :=
  fun hat => absurd hat h

omit [Fintype τ] in
/-- A worker's step. -/
theorem sleepsIdle_turn_iff {s s' : Thread τ α β δ} {w : τ} (h : SleepsIdle s) (hturn : Turn s w s') :
    SleepsIdle s' ↔ Heeded s (.work w) := by
  cases hturn with
  | sleep hat hempty =>
      rw [sleepsIdle_sleep_iff hempty]
      constructor
      · intro hcond _ _
        exact hcond
      · intro hheeded
        exact hheeded hat hempty
  | found hat hitem =>
      have hheeded : Heeded s (.work w) := fun _ hempty => absurd hempty hitem
      exact iff_of_true (h.moveTo w (by decide) s.Lock s.DataQ s.processed) hheeded
  | test hat hrunning =>
      exact iff_of_true (h.moveTo w (by decide) s.Lock s.DataQ s.processed)
        (heeded_elsewhere (by simp [hat]))
  | leave hat hstopped =>
      exact iff_of_true (h.moveTo w (by decide) s.Lock s.DataQ s.processed)
        (heeded_elsewhere (by simp [hat]))
  | lock hat hfree =>
      have hstage : s.Work w ≠ .waiting := by
        rcases hat with hat | hat
        · simp [hat]
        · simp [hat]
      exact iff_of_true (h.moveTo w (by decide) (some w) s.DataQ s.processed)
        (heeded_elsewhere hstage)
  | skip hat hempty =>
      exact iff_of_true (h.moveTo w (by decide) none s.DataQ s.processed)
        (heeded_elsewhere (by simp [hat]))
  | take hat hitem =>
      exact iff_of_true (h.moveTo w (by decide) s.Lock s.DataQ s.processed)
        (heeded_elsewhere (by simp [hat]))
  | pop hat data rest hitem =>
      exact iff_of_true (h.moveTo w (by decide) none rest (s.processed ++ [data]))
        (heeded_elsewhere (by simp [hat]))

/-- A submission leaves somebody awake. -/
theorem sleepsIdle_submit [Nonempty τ] {s s' : Thread τ α β δ} {JopQ : List α} {JopQ2 : List β}
    {DataQ : List δ} {notified : Option τ} (h : SleepsIdle s)
    (hsubmit : s.submit JopQ JopQ2 DataQ notified = some s') : SleepsIdle s' := by
  obtain ⟨-, Work, hnotify, rfl⟩ := submit_eq_some.mp hsubmit
  obtain ⟨w, hw⟩ := Monitor.someAwake_of_notify hnotify
  refine sleepsIdle_of_awake (w := w) hw ?_
  intro hstopped u
  show Work u ≠ .asleep
  rcases Monitor.stage_of_notify hnotify u with hsame | ⟨-, hwoken⟩
  · rw [hsame]
    exact h.stopped hstopped u
  · rw [hwoken]
    decide

/-- **One step leaves workers asleep only when there is nothing to do exactly when it is heeded.** -/
theorem sleepsIdle_step_iff [Nonempty τ] {s s' : Thread τ α β δ} {a : Action τ α β δ}
    (h : SleepsIdle s) (hstep : step s a = some s') : SleepsIdle s' ↔ Heeded s a := by
  cases a with
  | AddWork func notified => exact iff_of_true (sleepsIdle_submit h hstep) trivial
  | AddWork2 func notified => exact iff_of_true (sleepsIdle_submit h hstep) trivial
  | AddData data notified => exact iff_of_true (sleepsIdle_submit h hstep) trivial
  | CloseThread =>
      have hs' : s.CloseThread = s' := Option.some.inj hstep
      subst hs'
      constructor
      · intro hclosed
        exact hclosed.stopped rfl
      · intro hawake
        exact sleepsIdle_of_awake (hawake (Classical.arbitrary τ)) (fun _ => hawake)
  | wake w =>
      obtain ⟨-, hs'⟩ := Option.ite_none_right_eq_some.mp hstep
      rw [← Option.some.inj hs']
      exact iff_of_true (h.moveTo w (by decide) s.Lock s.DataQ s.processed) trivial
  | work w => exact sleepsIdle_turn_iff h (turn_of_stepWork hstep)

/-! ## §3. Every run. -/

/-- **Workers sleep only when there is nothing to do exactly while every step is heeded.**  For any
positive number of workers and every run of submissions, `CloseThread`, steps of workers and
wake-ups in any order: in every state reached with `bRunning` true the workers are all asleep
only with all queues empty, and in every state reached behind `CloseThread` nobody is asleep, if
and only if `CloseThread` comes only while nobody is asleep, and a worker that finds `DataQ`
empty in its wait does so while `bRunning` is true and there are no jobs or another worker is
awake. -/
theorem sleepsIdle_iff [Nonempty τ] (as : List (Action τ α β δ)) (s : Thread τ α β δ)
    (hrun : StepMachine.run step ({} : Thread τ α β δ) as = some s) :
    StepMachine.Safe step SleepsIdle ({} : Thread τ α β δ) as
      ↔ StepMachine.Along step Heeded ({} : Thread τ α β δ) as := by
  refine StepMachine.safe_iff_along_of_run (I := fun _ => True) (fun _ _ _ _ _ _ _ => trivial) ?_
    trivial sleepsIdle_init hrun
  intro s a s' _ h hstep
  exact sleepsIdle_step_iff h hstep

/-- An item wakes the worker that sleeps, and `CloseThread` comes while both workers are awake. -/
theorem sleepsIdle_one_item :
    StepMachine.Safe step SleepsIdle ({} : Thread (Fin 2) Nat Nat Nat)
      [.work 0, .work 0, .work 0, .AddData 5 (some 0), .work 0, .work 0, .work 0, .work 0,
        .CloseThread, .work 0, .work 1] := by
  have hsome : (StepMachine.run step ({} : Thread (Fin 2) Nat Nat Nat)
      [.work 0, .work 0, .work 0, .AddData 5 (some 0), .work 0, .work 0, .work 0, .work 0,
        .CloseThread, .work 0, .work 1]).isSome := by
    decide
  obtain ⟨s, hs⟩ := Option.isSome_iff_exists.mp hsome
  exact (sleepsIdle_iff _ s hs).mpr (by decide)

/-- **A job slept over, and a stop slept over**: one worker is asleep.  In the first run it is woken
for a job and goes back to sleep; in the second `CloseThread` is called. -/
theorem slept_over :
    (∃ s, StepMachine.run step ({} : Thread (Fin 1) Nat Nat Nat)
        [.work 0, .work 0, .work 0, .AddWork 1 (some 0), .work 0, .work 0] = some s
      ∧ s.bRunning = true ∧ (∀ w, s.Work w = .asleep) ∧ s.JopQ = [1] ∧ ¬ SleepsIdle s)
    ∧ ∃ s, StepMachine.run step ({} : Thread (Fin 1) Nat Nat Nat)
        [.work 0, .work 0, .work 0, .CloseThread] = some s
      ∧ s.bRunning = false ∧ (∀ w, s.Work w = .asleep) ∧ ¬ SleepsIdle s := by
  constructor
  · refine ⟨_, rfl, rfl, by decide, rfl, ?_⟩
    intro h
    have hjob := (h.queues rfl (by decide)).1
    exact absurd hjob (by decide)
  · refine ⟨_, rfl, rfl, by decide, ?_⟩
    intro h
    exact h.stopped rfl 0 rfl

/-- Neither a submission, which may notify, nor a wake-up by chance. -/
def Action.Quiet : Action τ α β δ → Prop
  | .CloseThread => True
  | .work _ => True
  | _ => False

theorem asleep_step {s s' : Thread τ α β δ} {a : Action τ α β δ} {w : τ} (hstep : step s a = some s')
    (hquiet : a.Quiet) (hw : s.Work w = .asleep) : s'.Work w = .asleep := by
  cases a with
  | AddWork func notified => exact hquiet.elim
  | AddWork2 func notified => exact hquiet.elim
  | AddData data notified => exact hquiet.elim
  | wake u => exact hquiet.elim
  | CloseThread =>
      have hs' : s.CloseThread = s' := Option.some.inj hstep
      subst hs'
      exact hw
  | work u =>
      have hturn := turn_of_stepWork hstep
      have hne : w ≠ u := by
        intro hwu
        exact hturn.awake (hwu ▸ hw)
      rw [hturn.frame hne, hw]

/-- **A worker that sleeps goes on sleeping** until it is notified or wakes up by chance: behind
`CloseThread` alone it does not return, and whoever joins it waits. -/
theorem asleep_run {s t : Thread τ α β δ} {as : List (Action τ α β δ)} {w : τ}
    (hrun : StepMachine.run step s as = some t) (hquiet : ∀ a ∈ as, a.Quiet)
    (hw : s.Work w = .asleep) : t.Work w = .asleep := by
  induction as generalizing s with
  | nil =>
      rw [StepMachine.run_nil, Option.some.injEq] at hrun
      exact hrun ▸ hw
  | cons a as ih =>
      obtain ⟨s', hs', hrest⟩ := StepMachine.run_cons_eq_some.mp hrun
      have hw' := asleep_step hs' (hquiet a List.mem_cons_self) hw
      exact ih hrest (fun b hb => hquiet b (List.mem_cons_of_mem a hb)) hw'

end Thread

end YServerCore
