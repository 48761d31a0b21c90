/-
  YServerCore.Lib.StepMachine — runs of a partial, labelled step function.

  A system is given by a function `step : σ → α → Option σ`: `step s a` is the state after the
  action `a`, and `none` when `a` cannot be taken in `s` (it is not enabled, or it faults).
  Nothing here refers to a particular system.

  Main definitions:
    * `run`    — the state after a whole list of actions, if every one of them can be taken.
    * `Along`  — a condition on (state, action) holds at every step a run comes to.
    * `Safe`   — every action of a run can be taken, and a property holds in every state reached.

  Main results:
    * `run_history` — the invariant rule, for invariants that may mention the actions so far.
    * `safe_iff_along` — the exactness rule: a property that one step keeps exactly when a
      condition holds before the step is kept by a whole run exactly when the condition holds
      along the whole run.
    * `along_congr`, `safe_of_along` — the same in two halves, where the property is a condition on
      the steps, and where it follows from an invariant of the steps meeting the condition.
    * `forall_prefix_iff`, `along_follows` — a property of every state reached as a condition along
      the run, and the same condition along the run of a machine that is followed.
    * `run_simulates` — forward simulation: every run of the concrete system is a run of the
      abstract one.
    * `run_emitted`, `emitted_snoc_of_run` — the abstract actions a run stands for, where one step may
      be none or several of them, are a run of the abstract system.
-/
import Mathlib.Data.List.Basic
import Mathlib.Data.Option.Basic

namespace StepMachine

variable {σ τ α β : Type*}

/-! ## §1. Runs. -/

/-- The state after the actions `as`, one after the other; `none` as soon as one of them cannot
be taken. -/
def run (step : σ → α → Option σ) : σ → List α → Option σ
  | s, [] => some s
  | s, a :: as => (step s a).bind (fun s' => run step s' as)

@[simp] theorem run_nil (step : σ → α → Option σ) (s : σ) : run step s [] = some s := rfl

theorem run_cons (step : σ → α → Option σ) (s : σ) (a : α) (as : List α) :
    run step s (a :: as) = (step s a).bind (fun s' => run step s' as) := rfl

/-- A run of `a :: as` is a step followed by a run of `as`. -/
theorem run_cons_eq_some {step : σ → α → Option σ} {s t : σ} {a : α} {as : List α} :
    run step s (a :: as) = some t ↔ ∃ s', step s a = some s' ∧ run step s' as = some t := by
  rw [run_cons, Option.bind_eq_some_iff]

/-- A step is a run of one action. -/
theorem run_one {step : σ → α → Option σ} {s t : σ} {a : α} (h : step s a = some t) :
    run step s [a] = some t := run_cons_eq_some.mpr ⟨t, h, rfl⟩

/-- A run of a concatenation goes through the state between the two parts. -/
theorem run_append_eq_some {step : σ → α → Option σ} {s t : σ} (as bs : List α) :
    run step s (as ++ bs) = some t
      ↔ ∃ m, run step s as = some m ∧ run step m bs = some t := by
  induction as generalizing s with
  | nil => simp
  | cons a as ih =>
      rw [List.cons_append, run_cons_eq_some]
      -- the first step belongs to the first part; the induction cuts what is left
      constructor
      · intro h
        obtain ⟨s', hs', hrun⟩ := h
        obtain ⟨m, hm, hbs⟩ := ih.mp hrun
        exact ⟨m, run_cons_eq_some.mpr ⟨s', hs', hm⟩, hbs⟩
      · intro h
        obtain ⟨m, hm, hbs⟩ := h
        obtain ⟨s', hs', hrun⟩ := run_cons_eq_some.mp hm
        exact ⟨s', hs', ih.mpr ⟨m, hrun, hbs⟩⟩

/-- The last step of a run. -/
theorem run_snoc_eq_some {step : σ → α → Option σ} {s t : σ} (as : List α) (a : α) :
    run step s (as ++ [a]) = some t ↔ ∃ m, run step s as = some m ∧ step m a = some t := by
  rw [run_append_eq_some]
  constructor
  · intro h
    obtain ⟨m, hm, h⟩ := h
    obtain ⟨t', ht', ht⟩ := run_cons_eq_some.mp h
    rw [run_nil, Option.some.injEq] at ht
    exact ⟨m, hm, ht ▸ ht'⟩
  · intro h
    obtain ⟨m, hm, h⟩ := h
    exact ⟨m, hm, run_cons_eq_some.mpr ⟨t, h, rfl⟩⟩

/-- **The invariant rule.**  `P` relates the actions taken so far to the state reached; it holds
before the first action and every step keeps it, so it holds after every run. -/
theorem run_history {step : σ → α → Option σ} {s₀ : σ} {P : List α → σ → Prop}
    (hinit : P [] s₀)
    (hstep : ∀ (as : List α) (s : σ) (a : α) (s' : σ), run step s₀ as = some s →
      P as s → step s a = some s' → P (as ++ [a]) s')
    {as : List α} {t : σ} (hrun : run step s₀ as = some t) : P as t := by
  -- generalise the start: the rest of the run continues from any state related to a history
  have key : ∀ (rest past : List α) (s : σ), run step s₀ past = some s → P past s →
      run step s rest = some t → P (past ++ rest) t := by
    intro rest
    induction rest with
    | nil =>
        intro past s _ hP h
        rw [run_nil, Option.some.injEq] at h
        rw [List.append_nil, ← h]
        exact hP
    | cons a rest ih =>
        intro past s hpast hP h
        obtain ⟨s', hs', hrest⟩ := run_cons_eq_some.mp h
        have := ih (past ++ [a]) s' ((run_snoc_eq_some past a).mpr ⟨s, hpast, hs'⟩)
          (hstep past s a s' hpast hP hs') hrest
        rwa [List.append_assoc] at this
  exact key as [] s₀ rfl hinit hrun

/-- The invariant rule for a property of the state alone. -/
theorem run_invariant {step : σ → α → Option σ} {P : σ → Prop}
    (hstep : ∀ (s : σ) (a : α) (s' : σ), P s → step s a = some s' → P s')
    {s₀ t : σ} {as : List α} (hinit : P s₀) (hrun : run step s₀ as = some t) : P t :=
  run_history (P := fun _ s => P s) hinit (fun _ s a s' _ => hstep s a s') hrun

/-! ## §2. Conditions along a run, and runs that stay safe. -/

/-- `C` holds at every step the run comes to: of the state before the step and its action. -/
def Along (step : σ → α → Option σ) (C : σ → α → Prop) : σ → List α → Prop
  | _, [] => True
  | s, a :: as => C s a ∧ ∀ s', step s a = some s' → Along step C s' as

/-- Every action of the run can be taken, and `P` holds in every state reached. -/
def Safe (step : σ → α → Option σ) (P : σ → Prop) : σ → List α → Prop
  | s, [] => P s
  | s, a :: as => P s ∧ ∃ s', step s a = some s' ∧ Safe step P s' as

/-- A decidable condition can be evaluated along a run. -/
instance decidableAlong (step : σ → α → Option σ) (C : σ → α → Prop)
    [∀ s a, Decidable (C s a)] : ∀ (s : σ) (as : List α), Decidable (Along step C s as)
  | _, [] => isTrue trivial
  | s, a :: as =>
      match h : step s a with
      | none => decidable_of_iff (C s a) (by simp [Along, h])
      | some s' =>
          have := decidableAlong step C s' as
          decidable_of_iff (C s a ∧ Along step C s' as) (by simp [Along, h])

@[simp] theorem along_nil (step : σ → α → Option σ) (C : σ → α → Prop) (s : σ) :
    Along step C s [] := trivial

theorem along_cons {step : σ → α → Option σ} {C : σ → α → Prop} {s : σ} {a : α} {as : List α} :
    Along step C s (a :: as) ↔ C s a ∧ ∀ s', step s a = some s' → Along step C s' as := Iff.rfl

/-- A condition that always holds does so along every run. -/
theorem along_of_forall {step : σ → α → Option σ} {C : σ → α → Prop} (hC : ∀ s a, C s a) (s : σ)
    (as : List α) : Along step C s as := by
  induction as generalizing s with
  | nil => trivial
  | cons a as ih => exact ⟨hC s a, fun s' _ => ih s'⟩

/-- A condition on the actions alone holds along every run of such actions. -/
theorem along_of_mem {step : σ → α → Option σ} {C : α → Prop} {as : List α} (hC : ∀ a ∈ as, C a)
    (s : σ) : Along step (fun _ a => C a) s as := by
  induction as generalizing s with
  | nil => trivial
  | cons a as ih =>
      refine ⟨hC a List.mem_cons_self, fun s' _ => ?_⟩
      exact ih (fun b hb => hC b (List.mem_cons_of_mem a hb)) s'

theorem along_snoc {step : σ → α → Option σ} {C : σ → α → Prop} {s : σ} (as : List α) (a : α) :
    Along step C s (as ++ [a])
      ↔ Along step C s as ∧ ∀ t, run step s as = some t → C t a := by
  induction as generalizing s with
  | nil => simp [Along]
  | cons b as ih =>
      rw [List.cons_append, along_cons, along_cons]
      -- the last condition is about whatever state the actions in front of it lead to
      constructor
      · intro h
        obtain ⟨hb, hrest⟩ := h
        refine ⟨⟨hb, fun s' hs' => (ih.mp (hrest s' hs')).1⟩, ?_⟩
        intro t ht
        obtain ⟨s', hs', hrun⟩ := run_cons_eq_some.mp ht
        exact (ih.mp (hrest s' hs')).2 t hrun
      · intro h
        obtain ⟨⟨hb, hrest⟩, hlast⟩ := h
        refine ⟨hb, fun s' hs' => ih.mpr ⟨hrest s' hs', ?_⟩⟩
        intro t ht
        exact hlast t (run_cons_eq_some.mpr ⟨s', hs', ht⟩)

/-- Behind a run, the last condition is about the state it has led to. -/
theorem along_snoc_of_run {step : σ → α → Option σ} {C : σ → α → Prop} {s t : σ} {as : List α}
    (hrun : run step s as = some t) (a : α) :
    Along step C s (as ++ [a]) ↔ Along step C s as ∧ C t a := by
  rw [along_snoc]
  apply and_congr_right
  intro _
  constructor
  · intro hlast
    exact hlast t hrun
  · intro hlast u hu
    rw [hrun, Option.some.injEq] at hu
    exact hu ▸ hlast

/-- Two conditions that hold along a run hold together. -/
theorem Along.and {step : σ → α → Option σ} {C D : σ → α → Prop} {s : σ} {as : List α}
    (hC : Along step C s as) (hD : Along step D s as) :
    Along step (fun s a => C s a ∧ D s a) s as := by
  induction as generalizing s with
  | nil => trivial
  | cons a as ih =>
      exact ⟨⟨hC.1, hD.1⟩, fun s' hs' => ih (hC.2 s' hs') (hD.2 s' hs')⟩

/-- A condition that an invariant of the guarded steps implies holds along every guarded run. -/
theorem along_of_invariant {step : σ → α → Option σ} {G C : σ → α → Prop} {I : σ → Prop}
    (hinv : ∀ s a s', I s → G s a → step s a = some s' → I s') (hC : ∀ s a, I s → G s a → C s a)
    {s : σ} {as : List α} (hI : I s) (hG : Along step G s as) : Along step C s as := by
  induction as generalizing s with
  | nil => trivial
  | cons a as ih =>
      refine ⟨hC s a hI hG.1, fun s' hs' => ?_⟩
      exact ih (hinv s a s' hI hG.1 hs') (hG.2 s' hs')

/-- Two conditions that agree at every step under the guard `G`, in states that satisfy an
invariant of the steps meeting them, hold along the same runs. -/
theorem along_congr {step : σ → α → Option σ} {G C D : σ → α → Prop} {I : σ → Prop}
    (hinv : ∀ s a s', I s → G s a → D s a → step s a = some s' → I s')
    (hiff : ∀ s a, I s → G s a → (C s a ↔ D s a))
    {s : σ} {as : List α} (hI : I s) (hG : Along step G s as) :
    Along step C s as ↔ Along step D s as := by
  induction as generalizing s with
  | nil => exact Iff.rfl
  | cons a as ih =>
      rw [along_cons, along_cons, hiff s a hI hG.1]
      apply and_congr_right
      intro hD
      apply forall_congr'
      intro s'
      apply forall_congr'
      intro hs'
      -- the invariant is carried to the next state by the step that met `D`
      exact ih (hinv s a s' hI hG.1 hD hs') (hG.2 s' hs')

/-- What holds in every state a prefix of the actions leads to, holds before the first of them and
behind each step the run comes to. -/
theorem forall_prefix_iff {step : σ → α → Option σ} {P : σ → Prop} {s : σ} {as : List α} :
    (∀ pre t, pre <+: as → run step s pre = some t → P t)
      ↔ P s ∧ Along step (fun s a => ∀ s', step s a = some s' → P s') s as := by
  induction as generalizing s with
  | nil =>
      constructor
      · intro h
        exact ⟨h [] s List.prefix_rfl rfl, trivial⟩
      · intro h pre t hpre hrun
        rw [List.prefix_nil] at hpre
        rw [hpre, run_nil, Option.some.injEq] at hrun
        exact hrun ▸ h.1
  | cons a as ih =>
      constructor
      · intro h
        have hrest : ∀ s', step s a = some s' → ∀ pre t, pre <+: as → run step s' pre = some t → P t := by
          intro s' hs' pre t hpre hrun
          exact h (a :: pre) t (List.cons_prefix_cons.mpr ⟨rfl, hpre⟩)
            (run_cons_eq_some.mpr ⟨s', hs', hrun⟩)
        refine ⟨h [] s List.nil_prefix rfl, fun s' hs' => (ih.mp (hrest s' hs')).1, ?_⟩
        exact fun s' hs' => (ih.mp (hrest s' hs')).2
      · intro h pre t hpre hrun
        cases pre with
        | nil =>
            rw [run_nil, Option.some.injEq] at hrun
            exact hrun ▸ h.1
        | cons b pre =>
            obtain ⟨rfl, htail⟩ := List.cons_prefix_cons.mp hpre
            obtain ⟨s', hs', hrest⟩ := run_cons_eq_some.mp hrun
            exact ih.mpr ⟨h.2.1 s' hs', h.2.2 s' hs'⟩ pre t htail hrest

/-- What an invariant of the steps meeting a condition says holds in every state a prefix leads to. -/
theorem forall_prefix_of_along {step : σ → α → Option σ} {D : σ → α → Prop} {P I : σ → Prop}
    (hinv : ∀ s a s', I s → D s a → step s a = some s' → I s') (hP : ∀ s, I s → P s)
    {s : σ} {as : List α} (hI : I s) (hD : Along step D s as) :
    ∀ pre t, pre <+: as → run step s pre = some t → P t := by
  rw [forall_prefix_iff]
  refine ⟨hP s hI, along_of_invariant (C := fun s a => ∀ s', step s a = some s' → P s') hinv ?_ hI hD⟩
  intro s a hI hD s' hs'
  exact hP s' (hinv s a s' hI hD hs')

/-- A machine that follows another one step for step, as `f` reads its states, comes to the same
steps: a condition on what is read holds along a run of the one exactly when it does of the other. -/
theorem along_follows {cstep : σ → α → Option σ} {astep : τ → α → Option τ} {f : σ → τ}
    {C : τ → α → Prop} {I : σ → Prop} (hinv : ∀ s a s', I s → cstep s a = some s' → I s')
    (hfollow : ∀ s a, I s → (cstep s a).map f = astep (f s) a) {s : σ} {as : List α} (hI : I s) :
    Along cstep (fun s a => C (f s) a) s as ↔ Along astep C (f s) as := by
  induction as generalizing s with
  | nil => exact Iff.rfl
  | cons a as ih =>
      rw [along_cons, along_cons, ← hfollow s a hI]
      apply and_congr_right
      intro _
      cases hstep : cstep s a with
      | none => simp
      | some s' =>
          simp only [Option.map_some, Option.some.injEq, forall_eq']
          exact ih (hinv s a s' hI hstep)

/-- A run that reaches its end and meets a condition along its way is safe for what the condition's
invariant implies. -/
theorem safe_of_along {step : σ → α → Option σ} {D : σ → α → Prop} {P I : σ → Prop}
    (hinv : ∀ s a s', I s → D s a → step s a = some s' → I s') (hP : ∀ s, I s → P s)
    {s t : σ} {as : List α} (hI : I s) (hrun : run step s as = some t)
    (hD : Along step D s as) : Safe step P s as := by
  induction as generalizing s with
  | nil => exact hP s hI
  | cons a as ih =>
      obtain ⟨s', hs', hrest⟩ := run_cons_eq_some.mp hrun
      exact ⟨hP s hI, s', hs', ih (hinv s a s' hI hD.1 hs') hrest (hD.2 s' hs')⟩

/-- The invariant rule for every state a run comes to. -/
theorem safe_of_run {step : σ → α → Option σ} {P I : σ → Prop}
    (hinv : ∀ s a s', I s → step s a = some s' → I s') (hP : ∀ s, I s → P s)
    {s t : σ} {as : List α} (hI : I s) (hrun : run step s as = some t) : Safe step P s as := by
  induction as generalizing s with
  | nil => exact hP s hI
  | cons a as ih =>
      obtain ⟨s', hs', hrest⟩ := run_cons_eq_some.mp hrun
      exact ⟨hP s hI, s', hs', ih (hinv s a s' hI hs') hrest⟩

theorem Safe.head {step : σ → α → Option σ} {P : σ → Prop} {s : σ} {as : List α}
    (h : Safe step P s as) : P s := by
  cases as with
  | nil => exact h
  | cons a as => exact h.1

/-- A run that is safe for a property is safe for whatever the property implies. -/
theorem Safe.mono {step : σ → α → Option σ} {P Q : σ → Prop} (himp : ∀ s, P s → Q s) {s : σ}
    {as : List α} (h : Safe step P s as) : Safe step Q s as := by
  induction as generalizing s with
  | nil => exact himp s h
  | cons a as ih =>
      obtain ⟨hP, s', hs', hrest⟩ := h
      exact ⟨himp s hP, s', hs', ih hrest⟩

/-- What a step between two good states says about itself holds along a safe run. -/
theorem Safe.along {step : σ → α → Option σ} {P : σ → Prop} {C : σ → α → Prop}
    (hC : ∀ s a s', P s → step s a = some s' → P s' → C s a) {s : σ} {as : List α}
    (h : Safe step P s as) : Along step C s as := by
  induction as generalizing s with
  | nil => trivial
  | cons a as ih =>
      obtain ⟨hP, s', hs', hrest⟩ := h
      refine ⟨hC s a s' hP hs' hrest.head, fun s'' hs'' => ?_⟩
      have heq : s' = s'' := Option.some.inj (hs'.symm.trans hs'')
      exact ih (heq ▸ hrest)

/-- A safe run reaches a last state, and the property holds there. -/
theorem Safe.last {step : σ → α → Option σ} {P : σ → Prop} {s : σ} {as : List α}
    (h : Safe step P s as) : ∃ t, run step s as = some t ∧ P t := by
  induction as generalizing s with
  | nil => exact ⟨s, rfl, h⟩
  | cons a as ih =>
      obtain ⟨_, s', hs', hrest⟩ := h
      obtain ⟨t, ht, hP⟩ := ih hrest
      exact ⟨t, run_cons_eq_some.mpr ⟨s', hs', ht⟩, hP⟩

/-- **The exactness rule.**  Under the guard `G`, one step from a state with `P` (and the
invariant `I`) can be taken and keeps `P` exactly when `C` holds before it.  Then a whole run
under the guard is safe exactly when `C` holds along it. -/
theorem safe_iff_along {step : σ → α → Option σ} {G C : σ → α → Prop} {P I : σ → Prop}
    (hinv : ∀ s a s', I s → P s → G s a → step s a = some s' → P s' → I s')
    (hexact : ∀ s a, I s → P s → G s a → ((∃ s', step s a = some s' ∧ P s') ↔ C s a))
    {s : σ} {as : List α} (hI : I s) (hP : P s) (hG : Along step G s as) :
    Safe step P s as ↔ Along step C s as := by
  induction as generalizing s with
  | nil => exact ⟨fun _ => trivial, fun _ => hP⟩
  | cons a as ih =>
      have hGa : G s a := hG.1
      constructor
      · -- the step was taken and kept `P`, so `C` held in front of it
        intro h
        obtain ⟨_, s', hs', hsafe⟩ := h
        refine ⟨(hexact s a hI hP hGa).mp ⟨s', hs', hsafe.head⟩, ?_⟩
        intro s'' hs''
        have heq : s' = s'' := Option.some.inj (hs'.symm.trans hs'')
        subst heq
        exact (ih (hinv s a s' hI hP hGa hs' hsafe.head) hsafe.head (hG.2 s' hs')).mp hsafe
      · intro h
        obtain ⟨hC, hrest⟩ := h
        -- `C` holds in front of the step, so it can be taken and keeps `P`
        obtain ⟨s', hs', hP'⟩ := (hexact s a hI hP hGa).mpr hC
        exact ⟨hP, s', hs',
          (ih (hinv s a s' hI hP hGa hs' hP') hP' (hG.2 s' hs')).mpr (hrest s' hs')⟩

/-- Every step of a run that reaches its end can be taken. -/
theorem along_enabled_of_run {step : σ → α → Option σ} {s t : σ} {as : List α}
    (hrun : run step s as = some t) : Along step (fun s a => ∃ s', step s a = some s') s as := by
  induction as generalizing s with
  | nil => trivial
  | cons a as ih =>
      obtain ⟨s', hs', hrest⟩ := run_cons_eq_some.mp hrun
      refine ⟨⟨s', hs'⟩, fun s'' hs'' => ?_⟩
      have heq : s' = s'' := Option.some.inj (hs'.symm.trans hs'')
      exact ih (heq ▸ hrest)

/-- The exactness rule for a run that is known to reach its end. -/
theorem safe_iff_along_of_run {step : σ → α → Option σ} {C : σ → α → Prop} {P I : σ → Prop}
    (hinv : ∀ s a s', I s → P s → step s a = some s' → P s' → I s')
    (hexact : ∀ s a s', I s → P s → step s a = some s' → (P s' ↔ C s a))
    {s t : σ} {as : List α} (hI : I s) (hP : P s) (hrun : run step s as = some t) :
    Safe step P s as ↔ Along step C s as := by
  refine safe_iff_along (G := fun s a => ∃ s', step s a = some s')
    (fun s a s' hI hP _ => hinv s a s' hI hP) ?_ hI hP (along_enabled_of_run hrun)
  intro s a hI hP henabled
  obtain ⟨s', hs'⟩ := henabled
  rw [← hexact s a s' hI hP hs']
  constructor
  · intro h
    obtain ⟨s'', hs'', hP''⟩ := h
    have heq : s' = s'' := Option.some.inj (hs'.symm.trans hs'')
    exact heq ▸ hP''
  · intro hP'
    exact ⟨s', hs', hP'⟩

/-- The exactness rule for a system whose steps can always be taken. -/
theorem safe_iff_along_of_total {step : σ → α → Option σ} {C : σ → α → Prop} {P I : σ → Prop}
    (hexact : ∀ s a, I s → P s → ∃ s', step s a = some s' ∧ I s' ∧ (P s' ↔ C s a))
    {s : σ} {as : List α} (hI : I s) (hP : P s) : Safe step P s as ↔ Along step C s as := by
  induction as generalizing s with
  | nil => exact ⟨fun _ => trivial, fun _ => hP⟩
  | cons a as ih =>
      obtain ⟨s', hs', hI', hiff⟩ := hexact s a hI hP
      have honly : ∀ t, step s a = some t → s' = t := by
        intro t ht
        exact Option.some.inj (hs'.symm.trans ht)
      constructor
      · intro h
        obtain ⟨-, t, ht, hsafe⟩ := h
        have htt := honly t ht
        subst htt
        refine ⟨hiff.mp hsafe.head, fun u hu => ?_⟩
        exact honly u hu ▸ (ih hI' hsafe.head).mp hsafe
      · intro h
        have hP' := hiff.mpr h.1
        exact ⟨hP, s', hs', (ih hI' hP').mpr (h.2 s' hs')⟩

/-! ## §3. Forward simulation. -/

/-- **Forward simulation.**  `R` relates concrete to abstract states, and every concrete step is
matched by the abstract step of the translated action.  Then every concrete run is matched by an
abstract one. -/
theorem run_simulates {cstep : σ → α → Option σ} {astep : τ → β → Option τ}
    {R : σ → τ → Prop} (f : α → β)
    (hsim : ∀ c a c' m, R c m → cstep c a = some c' → ∃ m', astep m (f a) = some m' ∧ R c' m')
    {c c' : σ} {m : τ} {as : List α} (hR : R c m) (hrun : run cstep c as = some c') :
    ∃ m', run astep m (as.map f) = some m' ∧ R c' m' := by
  induction as generalizing c m with
  | nil =>
      rw [run_nil, Option.some.injEq] at hrun
      exact ⟨m, rfl, hrun ▸ hR⟩
  | cons a as ih =>
      obtain ⟨d, hd, hrest⟩ := run_cons_eq_some.mp hrun
      -- the abstract machine follows, and the two are related again
      obtain ⟨n, hn, hRn⟩ := hsim c a d m hR hd
      obtain ⟨m', hm', hR'⟩ := ih hRn hrest
      exact ⟨m', run_cons_eq_some.mpr ⟨n, hn, hm'⟩, hR'⟩

/-! ## §4. What a run emits. -/

/-- The abstract actions that the steps of a run stand for, one after the other: `event s a` is
what the step `a` from `s` does as seen from above, in none, one or more abstract actions. -/
def emitted (step : σ → α → Option σ) (event : σ → α → List β) : σ → List α → List β
  | _, [] => []
  | s, a :: as => event s a ++ (step s a).elim [] (fun s' => emitted step event s' as)

@[simp] theorem emitted_nil (step : σ → α → Option σ) (event : σ → α → List β) (s : σ) :
    emitted step event s [] = [] := rfl

theorem emitted_cons (step : σ → α → Option σ) (event : σ → α → List β) (s : σ) (a : α)
    (as : List α) : emitted step event s (a :: as)
      = event s a ++ (step s a).elim [] (fun s' => emitted step event s' as) := rfl

/-- What a run emits in two parts. -/
theorem emitted_append_of_run {step : σ → α → Option σ} {event : σ → α → List β} {s t : σ}
    {as : List α} (hrun : run step s as = some t) (bs : List α) :
    emitted step event s (as ++ bs) = emitted step event s as ++ emitted step event t bs := by
  induction as generalizing s with
  | nil =>
      rw [run_nil, Option.some.injEq] at hrun
      rw [hrun]
      rfl
  | cons a as ih =>
      obtain ⟨s', hs', hrest⟩ := run_cons_eq_some.mp hrun
      rw [List.cons_append, emitted_cons, emitted_cons, hs', Option.elim_some, Option.elim_some,
        ih hrest, List.append_assoc]

/-- Behind a run, the last step adds its own actions. -/
theorem emitted_snoc_of_run {step : σ → α → Option σ} {event : σ → α → List β} {s t : σ}
    {as : List α} (hrun : run step s as = some t) (a : α) :
    emitted step event s (as ++ [a]) = emitted step event s as ++ event t a := by
  rw [emitted_append_of_run hrun, emitted_cons]
  cases step t a <;> simp

/-- **Simulation by what is emitted.**  `R` relates concrete to abstract states, and every concrete step
under the guard is matched by a run of the actions it stands for.  Then a whole run under the guard
is matched by a run of all that it emits. -/
theorem run_emitted {cstep : σ → α → Option σ} {astep : τ → β → Option τ} {event : σ → α → List β}
    {G : σ → α → Prop} {R : σ → τ → Prop}
    (hsim : ∀ c a c' m, R c m → G c a → cstep c a = some c' →
      ∃ m', run astep m (event c a) = some m' ∧ R c' m')
    {c c' : σ} {m : τ} {as : List α} (hR : R c m) (hG : Along cstep G c as)
    (hrun : run cstep c as = some c') :
    ∃ m', run astep m (emitted cstep event c as) = some m' ∧ R c' m' := by
  induction as generalizing c m with
  | nil =>
      rw [run_nil, Option.some.injEq] at hrun
      exact ⟨m, rfl, hrun ▸ hR⟩
  | cons a as ih =>
      obtain ⟨d, hd, hrest⟩ := run_cons_eq_some.mp hrun
      obtain ⟨n, hn, hRn⟩ := hsim c a d m hR hG.1 hd
      obtain ⟨m', hm', hR'⟩ := ih hRn (hG.2 d hd) hrest
      refine ⟨m', ?_, hR'⟩
      rw [emitted_cons, hd, Option.elim_some, run_append_eq_some]
      exact ⟨n, hn, hm'⟩

end StepMachine
