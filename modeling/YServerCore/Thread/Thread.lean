/-
  YServerCore.Thread.Thread — the class `Thread`: its queues, and the workers in `Work`.

  `AddWork`, `AddWork2` and `AddData` put something into one of three queues; each of them is one
  critical section of `Lock` that ends with a `notify_one` of `Condition`.  A worker in `Work`
  takes the mutex in every turn of its loop, waits on `Condition` until `DataQ` has an item, and
  processes it.  `CloseThread` sets `bRunning` to false, without the mutex and without a
  notification.

  Between two accesses to what is shared a worker is at a stage of `Work`, and any worker may make
  the next step; a worker that sleeps in the wait may wake up for no reason.

  Main results:
    * `turn_of_stepWork` — what one step of a worker does, stage by stage.
    * `sound_run` — in every run, a worker in its critical section holds the mutex, one behind its
      wait finds an item, and the loop is left only when `bRunning` is false.
-/
import YServerCore.Lib.Monitor
import YServerCore.Lib.StepMachine

namespace YServerCore

/-! ## §1. The class. -/

/-- Where a worker is in `Work`. -/
inductive WorkStage where
  /-- In front of the loop's test of `bRunning`. -/
  | loop
  /-- In front of `ULock(Lock)`. -/
  | enter
  /-- Inside `Condition.wait`, with the mutex, in front of the test of `DataQ`. -/
  | waiting
  /-- Inside `Condition.wait`, without the mutex, and not notified. -/
  | asleep
  /-- Inside `Condition.wait`, woken up, in front of taking the mutex again. -/
  | woken
  /-- Behind the wait, in front of the `if`. -/
  | ready
  /-- Inside the `if`, in front of `DataQ.front()`. -/
  | taking
  | returned
  deriving DecidableEq, Repr

/-- The stages at which a worker holds `Lock`. -/
def WorkStage.inside : WorkStage → Bool
  | .waiting | .ready | .taking => true
  | _ => false

/-- `Lock` and `Condition`, as the stages of `Work` use them. -/
def workStages : Monitor.Stages WorkStage where
  inside := WorkStage.inside
  asleep := .asleep
  woken := .woken
  asleep_outside := rfl
  woken_outside := rfl
  woken_awake := by decide

/-- The members `Work` and the functions that submit something read and write, the stage of every
worker, and the items processed so far. -/
structure Thread (τ α β δ : Type*) where
  JopQ : List α := []
  JopQ2 : List β := []
  DataQ : List δ := []
  bRunning : Bool := true
  Lock : Option τ := none
  Work : τ → WorkStage := fun _ => .loop
  processed : List δ := []

namespace Thread

variable {τ α β δ : Type*} [DecidableEq τ] [Fintype τ]

/-- What happens; a submission comes with the worker its `notify_one` wakes. -/
inductive Action (τ α β δ : Type*) where
  | AddWork (func : α) (notified : Option τ)
  | AddWork2 (func : β) (notified : Option τ)
  | AddData (data : δ) (notified : Option τ)
  | CloseThread
  /-- A worker in the wait wakes up without a notification. -/
  | wake (worker : τ)
  /-- A worker makes its next step. -/
  | work (worker : τ)
  deriving DecidableEq, Repr

/-- One critical section of a producer: the queues become these, and `notify_one`. -/
def submit (s : Thread τ α β δ) (JopQ : List α) (JopQ2 : List β) (DataQ : List δ)
    (notified : Option τ) : Option (Thread τ α β δ) :=
  if s.Lock = none then
    (Monitor.notify_one workStages s.Work notified).map
      (fun Work => { s with JopQ := JopQ, JopQ2 := JopQ2, DataQ := DataQ, Work := Work })
  else none

/-- `Thread::AddWork`. -/
def AddWork (s : Thread τ α β δ) (func : α) (notified : Option τ) : Option (Thread τ α β δ) :=
  s.submit (s.JopQ ++ [func]) s.JopQ2 s.DataQ notified

/-- `Thread::AddWork2`. -/
def AddWork2 (s : Thread τ α β δ) (func : β) (notified : Option τ) : Option (Thread τ α β δ) :=
  s.submit s.JopQ (s.JopQ2 ++ [func]) s.DataQ notified

/-- `Thread::AddData`. -/
def AddData (s : Thread τ α β δ) (data : δ) (notified : Option τ) : Option (Thread τ α β δ) :=
  s.submit s.JopQ s.JopQ2 (s.DataQ ++ [data]) notified

/-- `Thread::CloseThread`. -/
def CloseThread (s : Thread τ α β δ) : Thread τ α β δ := { s with bRunning := false }

/-- The worker is at this stage from now on. -/
def moveTo (s : Thread τ α β δ) (w : τ) (stage : WorkStage) : Thread τ α β δ :=
  { s with Work := Function.update s.Work w stage }

/-- `Thread::Work`: one step of a worker. -/
def stepWork (s : Thread τ α β δ) (w : τ) : Option (Thread τ α β δ) :=
  match s.Work w with
  | .loop => some (s.moveTo w (if s.bRunning then .enter else .returned))
  | .enter | .woken =>
      if s.Lock = none then some { s.moveTo w .waiting with Lock := some w } else none
  -- `Condition.wait` tests its predicate with the mutex, and gives it back when it goes to sleep
  | .waiting =>
      if s.DataQ.isEmpty then some { s.moveTo w .asleep with Lock := none }
      else some (s.moveTo w .ready)
  | .asleep => none
  -- `ULock` gives the mutex back at the end of the loop's body
  | .ready =>
      if s.DataQ.isEmpty then some { s.moveTo w .loop with Lock := none }
      else some (s.moveTo w .taking)
  -- `front` and `pop` of an empty queue are undefined
  | .taking =>
      match s.DataQ with
      | [] => none
      | data :: rest =>
          some { s.moveTo w .loop with
            DataQ := rest
            processed := s.processed ++ [data]
            Lock := none }
  | .returned => none

/-- One step of the system. -/
def step (s : Thread τ α β δ) : Action τ α β δ → Option (Thread τ α β δ)
  | .AddWork func notified => s.AddWork func notified
  | .AddWork2 func notified => s.AddWork2 func notified
  | .AddData data notified => s.AddData data notified
  | .CloseThread => some s.CloseThread
  | .wake w => if s.Work w = .asleep then some (s.moveTo w .woken) else none
  | .work w => s.stepWork w

/-! ## §2. What a step does. -/

/-- What a worker can do, stage by stage. -/
inductive Turn (s : Thread τ α β δ) (w : τ) : Thread τ α β δ → Prop where
  | test (hat : s.Work w = .loop) (hrunning : s.bRunning = true) : Turn s w (s.moveTo w .enter)
  | leave (hat : s.Work w = .loop) (hstopped : s.bRunning = false) :
      Turn s w (s.moveTo w .returned)
  | lock (hat : s.Work w = .enter ∨ s.Work w = .woken) (hfree : s.Lock = none) :
      Turn s w { s.moveTo w .waiting with Lock := some w }
  | sleep (hat : s.Work w = .waiting) (hempty : s.DataQ = []) :
      Turn s w { s.moveTo w .asleep with Lock := none }
  | found (hat : s.Work w = .waiting) (hitem : s.DataQ ≠ []) : Turn s w (s.moveTo w .ready)
  | skip (hat : s.Work w = .ready) (hempty : s.DataQ = []) :
      Turn s w { s.moveTo w .loop with Lock := none }
  | take (hat : s.Work w = .ready) (hitem : s.DataQ ≠ []) : Turn s w (s.moveTo w .taking)
  | pop (hat : s.Work w = .taking) (data : δ) (rest : List δ) (hitem : s.DataQ = data :: rest) :
      Turn s w { s.moveTo w .loop with
        DataQ := rest
        processed := s.processed ++ [data]
        Lock := none }

omit [Fintype τ] in
/-- **One step of a worker, stage by stage.** -/
theorem turn_of_stepWork {s s' : Thread τ α β δ} {w : τ} (h : s.stepWork w = some s') :
    Turn s w s' := by
  unfold stepWork at h
  cases hat : s.Work w with
  | loop =>
      rw [hat] at h
      have hs' := Option.some.inj h
      subst hs'
      cases hrunning : s.bRunning with
      | true => exact Turn.test hat hrunning
      | false => exact Turn.leave hat hrunning
  | enter =>
      rw [hat] at h
      obtain ⟨hfree, hs'⟩ := Option.ite_none_right_eq_some.mp h
      exact Option.some.inj hs' ▸ Turn.lock (Or.inl hat) hfree
  | waiting =>
      rw [hat] at h
      cases hitems : s.DataQ with
      | nil =>
          simp only [hitems, List.isEmpty_nil, if_true, Option.some.injEq] at h
          exact h ▸ Turn.sleep hat hitems
      | cons data rest =>
          simp only [hitems, List.isEmpty_cons, Bool.false_eq_true, if_false, Option.some.injEq] at h
          exact h ▸ Turn.found hat (by simp [hitems])
  | asleep => rw [hat] at h; exact absurd h (by simp)
  | woken =>
      rw [hat] at h
      obtain ⟨hfree, hs'⟩ := Option.ite_none_right_eq_some.mp h
      exact Option.some.inj hs' ▸ Turn.lock (Or.inr hat) hfree
  | ready =>
      rw [hat] at h
      cases hitems : s.DataQ with
      | nil =>
          simp only [hitems, List.isEmpty_nil, if_true, Option.some.injEq] at h
          exact h ▸ Turn.skip hat hitems
      | cons data rest =>
          simp only [hitems, List.isEmpty_cons, Bool.false_eq_true, if_false, Option.some.injEq] at h
          exact h ▸ Turn.take hat (by simp [hitems])
  | taking =>
      rw [hat] at h
      cases hitems : s.DataQ with
      | nil => simp only [hitems, reduceCtorEq] at h
      | cons data rest =>
          simp only [hitems, Option.some.injEq] at h
          exact h ▸ Turn.pop hat data rest hitems
  | returned => rw [hat] at h; exact absurd h (by simp)

omit [Fintype τ] in
/-- A worker that sleeps makes no step. -/
theorem Turn.awake {s s' : Thread τ α β δ} {w : τ} (h : Turn s w s') : s.Work w ≠ .asleep := by
  cases h with
  | lock hat hfree =>
      rcases hat with hat | hat
      · simp [hat]
      · simp [hat]
  | test hat => simp [hat]
  | leave hat => simp [hat]
  | sleep hat => simp [hat]
  | found hat => simp [hat]
  | skip hat => simp [hat]
  | take hat => simp [hat]
  | pop hat => simp [hat]

omit [Fintype τ] in
/-- A worker's step leaves the other workers where they are. -/
theorem Turn.frame {s s' : Thread τ α β δ} {w u : τ} (h : Turn s w s') (hne : u ≠ w) :
    s'.Work u = s.Work u := by
  cases h with
  | _ => exact Function.update_of_ne hne _ _

/-- What a producer's critical section does. -/
theorem submit_eq_some {s s' : Thread τ α β δ} {JopQ : List α} {JopQ2 : List β} {DataQ : List δ}
    {notified : Option τ} : s.submit JopQ JopQ2 DataQ notified = some s' ↔ s.Lock = none
      ∧ ∃ Work, Monitor.notify_one workStages s.Work notified = some Work
        ∧ { s with JopQ := JopQ, JopQ2 := JopQ2, DataQ := DataQ, Work := Work } = s' := by
  unfold submit
  rw [Option.ite_none_right_eq_some, Option.map_eq_some_iff]

/-! ## §3. What holds in every run. -/

/-- A worker in its critical section holds the mutex, one behind its wait finds an item, and none
has returned while `bRunning` is true. -/
structure Sound (s : Thread τ α β δ) : Prop where
  locked : Monitor.Locked workStages s.Work s.Lock
  found : ∀ w, s.Work w = .ready ∨ s.Work w = .taking → s.DataQ ≠ []
  running : s.bRunning = true → ∀ w, s.Work w ≠ .returned

omit [DecidableEq τ] [Fintype τ] in
theorem sound_init : Sound ({} : Thread τ α β δ) where
  locked _ hw := absurd hw Bool.false_ne_true
  found _ hw := hw.elim (fun h => nomatch h) (fun h => nomatch h)
  running _ _ := fun h => nomatch h

omit [Fintype τ] in
/-- A worker moves to a stage, and takes or gives back the mutex as the stage says. -/
theorem Sound.moveTo {s : Thread τ α β δ} (h : Sound s) {w : τ} {p : WorkStage}
    {lock : Option τ} (hlocked : Monitor.Locked workStages (Function.update s.Work w p) lock)
    (hfound : s.DataQ ≠ [] ∨ (p ≠ .ready ∧ p ≠ .taking))
    (hrunning : s.bRunning = false ∨ p ≠ .returned) :
    Sound { s.moveTo w p with Lock := lock } := by
  refine ⟨hlocked, ?_, ?_⟩
  · intro u hu
    have hu' : Function.update s.Work w p u = .ready
      ∨ Function.update s.Work w p u = .taking := hu
    by_cases huw : u = w
    · rw [huw, Function.update_self] at hu'
      rcases hfound with hitem | hstage
      · exact hitem
      · exact absurd hu' (not_or.mpr hstage)
    · rw [Function.update_of_ne huw] at hu'
      exact h.found u hu'
  · intro hrun u
    show Function.update s.Work w p u ≠ .returned
    by_cases huw : u = w
    · rw [huw, Function.update_self]
      rcases hrunning with hstopped | hstage
      · rw [show s.bRunning = true from hrun] at hstopped
        exact absurd hstopped (by decide)
      · exact hstage
    · rw [Function.update_of_ne huw]
      exact h.running hrun u

omit [Fintype τ] in
/-- A worker's step. -/
theorem sound_turn {s s' : Thread τ α β δ} {w : τ} (h : Sound s) (hturn : Turn s w s') : Sound s' := by
  have hinside : ∀ stage, s.Work w = stage → stage.inside = true →
      workStages.inside (s.Work w) = true := by
    intro stage hat hin
    rw [hat]
    exact hin
  cases hturn with
  | test hat hrunning =>
      exact h.moveTo (h.locked.stay (Or.inr rfl)) (Or.inr (by decide)) (Or.inr (by decide))
  | leave hat hstopped =>
      exact h.moveTo (h.locked.stay (Or.inr rfl)) (Or.inr (by decide)) (Or.inl hstopped)
  | lock hat hfree =>
      have hlocked := h.locked
      rw [hfree] at hlocked
      exact h.moveTo (hlocked.enter w _) (Or.inr (by decide)) (Or.inr (by decide))
  | sleep hat hempty =>
      have hlocked := h.locked.leave (hinside _ hat rfl) (p := .asleep) rfl
      exact h.moveTo hlocked (Or.inr (by decide)) (Or.inr (by decide))
  | found hat hitem =>
      have hlocked := h.locked.stay (Or.inl (hinside _ hat rfl)) (p := .ready)
      exact h.moveTo hlocked (Or.inl hitem) (Or.inr (by decide))
  | skip hat hempty =>
      have hlocked := h.locked.leave (hinside _ hat rfl) (p := .loop) rfl
      exact h.moveTo hlocked (Or.inr (by decide)) (Or.inr (by decide))
  | take hat hitem =>
      have hlocked := h.locked.stay (Or.inl (hinside _ hat rfl)) (p := .taking)
      exact h.moveTo hlocked (Or.inl hitem) (Or.inr (by decide))
  | pop hat data rest hitem =>
      have hlocked := h.locked.leave (hinside _ hat rfl) (p := .loop) rfl
      have hmoved : Sound { s.moveTo w .loop with Lock := none } :=
        h.moveTo hlocked (Or.inr (by decide)) (Or.inr (by decide))
      refine ⟨hmoved.locked, ?_, hmoved.running⟩
      intro u hu
      -- nobody is behind its wait any more: the mutex is free
      have hlock : (none : Option τ) = some u := by
        apply hmoved.locked u
        rcases hu with hu | hu
        · exact congrArg WorkStage.inside hu
        · exact congrArg WorkStage.inside hu
      exact absurd hlock (by simp)

/-- A producer's critical section. -/
theorem sound_submit {s s' : Thread τ α β δ} {JopQ : List α} {JopQ2 : List β} {DataQ : List δ}
    {notified : Option τ} (h : Sound s) (hitems : s.DataQ ≠ [] → DataQ ≠ [])
    (hsubmit : s.submit JopQ JopQ2 DataQ notified = some s') : Sound s' := by
  obtain ⟨-, Work, hnotify, rfl⟩ := submit_eq_some.mp hsubmit
  refine ⟨h.locked.notify hnotify, ?_, ?_⟩
  · intro u hu
    apply hitems
    rcases Monitor.stage_of_notify hnotify u with hsame | ⟨-, hwoken⟩
    · apply h.found u
      rw [← hsame]
      exact hu
    · have hu' : Work u = .ready ∨ Work u = .taking := hu
      rw [hwoken] at hu'
      exact absurd hu' (by decide)
  · intro hrunning u
    show Work u ≠ .returned
    rcases Monitor.stage_of_notify hnotify u with hsame | ⟨-, hwoken⟩
    · rw [hsame]
      exact h.running hrunning u
    · rw [hwoken]
      decide

/-- Every step keeps it. -/
theorem sound_step {s s' : Thread τ α β δ} {a : Action τ α β δ} (h : Sound s)
    (hstep : step s a = some s') : Sound s' := by
  cases a with
  | AddWork func notified => exact sound_submit h id hstep
  | AddWork2 func notified => exact sound_submit h id hstep
  | AddData data notified => exact sound_submit h (fun _ => by simp) hstep
  | CloseThread =>
      have hs' : s.CloseThread = s' := Option.some.inj hstep
      subst hs'
      exact ⟨h.locked, h.found, fun hrunning => absurd hrunning Bool.false_ne_true⟩
  | wake w =>
      obtain ⟨hasleep, hs'⟩ := Option.ite_none_right_eq_some.mp hstep
      have hmoved := h.moveTo (p := .woken) (h.locked.stay (t := w) (Or.inr rfl))
        (Or.inr (by decide)) (Or.inr (by decide))
      exact Option.some.inj hs' ▸ hmoved
  | work w => exact sound_turn h (turn_of_stepWork hstep)

/-- **In every run** a worker in its critical section holds the mutex, and one behind its wait finds
an item. -/
theorem sound_run {s : Thread τ α β δ} {as : List (Action τ α β δ)}
    (hrun : StepMachine.run step ({} : Thread τ α β δ) as = some s) : Sound s :=
  StepMachine.run_invariant (fun _ _ _ h hstep => sound_step h hstep) sound_init hrun

end Thread

end YServerCore
