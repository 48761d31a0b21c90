/-
  YServerCore.Lib.RWLock — what a re-entrant reader–writer lock is for.

  The abstract lock keeps no word and no counter: its state is the list of the acquisitions that
  are not released yet, most recent first, each with its thread and its mode.  A write is admitted
  when no other thread holds anything, a read when no other thread holds a write, and a thread
  gives its acquisitions back in reverse order.

  Main results:
    * `run_exclusive` — whatever the order of steps, a writer is alone.
    * `top_eq_some_iff` — releasing takes a thread's most recent entry out of the list and leaves
      the others as they were.
-/
import YServerCore.Lib.StepMachine

namespace RWLock

/-- The two ways to hold the lock. -/
inductive Mode where
  | read
  | write
  deriving DecidableEq, Repr

/-- What a thread does to the lock. -/
inductive Action (τ : Type*) where
  | acquire (t : τ) (m : Mode)
  | release (t : τ) (m : Mode)
  deriving DecidableEq, Repr

/-- How many acquisitions there are among the actions. -/
def acquisitions {τ : Type*} (as : List (Action τ)) : Nat :=
  as.countP (fun a => match a with | .acquire _ _ => true | .release _ _ => false)

theorem acquisitions_append {τ : Type*} (as bs : List (Action τ)) :
    acquisitions (as ++ bs) = acquisitions as + acquisitions bs := by
  simp only [acquisitions, List.countP_append]

/-- The acquisitions not yet released, most recent first. -/
abbrev Holds (τ : Type*) := List (τ × Mode)

variable {τ : Type*}

/-! ## §1. Counting holds. -/

/-- How many holds of mode `m` there are, over all threads. -/
def held (m : Mode) (h : Holds τ) : Nat := h.countP (fun e => e.2 = m)

@[simp] theorem held_nil (m : Mode) : held m ([] : Holds τ) = 0 := rfl

@[simp] theorem held_cons (m k : Mode) (t : τ) (h : Holds τ) :
    held m ((t, k) :: h) = held m h + if k = m then 1 else 0 := by
  simp only [held, List.countP_cons, decide_eq_true_eq]

@[simp] theorem held_append (m : Mode) (h k : Holds τ) :
    held m (h ++ k) = held m h + held m k := by
  simp only [held, List.countP_append]

theorem held_pos_iff {m : Mode} {h : Holds τ} : 0 < held m h ↔ ∃ t, (t, m) ∈ h := by
  simp only [held, List.countP_pos_iff, decide_eq_true_eq]
  constructor
  · intro h
    obtain ⟨⟨t, k⟩, hmem, hk⟩ := h
    exact ⟨t, hk ▸ hmem⟩
  · intro h
    obtain ⟨t, hmem⟩ := h
    exact ⟨(t, m), hmem, rfl⟩

/-- Every hold has one of the two modes. -/
theorem held_add_held (h : Holds τ) : held .read h + held .write h = h.length := by
  induction h with
  | nil => rfl
  | cons e h ih =>
      obtain ⟨t, m⟩ := e
      rw [held_cons, held_cons, List.length_cons, ← ih]
      cases m <;> simp <;> omega

/-! ## §2. A thread's most recent hold. -/

variable [DecidableEq τ]

/-- The mode of the most recent hold of `t`. -/
def top (h : Holds τ) (t : τ) : Option Mode := (h.find? (fun e => e.1 = t)).map Prod.snd

/-- The holds without the most recent one of `t`. -/
def pop (h : Holds τ) (t : τ) : Holds τ := h.eraseP (fun e => e.1 = t)

/-- **What a release does**: the thread's most recent entry goes, the entries around it stay. -/
theorem top_eq_some_iff {h : Holds τ} {t : τ} {m : Mode} :
    top h t = some m
      ↔ ∃ pre post, h = pre ++ (t, m) :: post ∧ (∀ e ∈ pre, e.1 ≠ t) ∧ pop h t = pre ++ post := by
  constructor
  · intro htop
    simp only [top, Option.map_eq_some_iff] at htop
    obtain ⟨⟨u, k⟩, hfind, hk⟩ := htop
    obtain ⟨hu, pre, post, hh, hpre⟩ := List.find?_eq_some_iff_append.mp hfind
    simp only [decide_eq_true_eq] at hu
    simp only at hk
    subst hu hk hh
    -- `find?` stops at the first entry of the thread, so the ones in front are of others
    have hne : ∀ e ∈ pre, e.1 ≠ u := by
      intro e he
      simpa using hpre e he
    refine ⟨pre, post, rfl, hne, ?_⟩
    rw [pop, List.eraseP_append_right _ (by simpa using hne), List.eraseP_cons_of_pos (by simp)]
  · intro h
    obtain ⟨pre, post, rfl, hne, -⟩ := h
    have hpre : pre.find? (fun e => e.1 = t) = none := by
      rw [List.find?_eq_none]
      simpa using hne
    simp [top, List.find?_append, hpre]

theorem pop_sublist (h : Holds τ) (t : τ) : (pop h t).Sublist h := List.eraseP_sublist

/-- A thread with a most recent hold of mode `m` holds the lock in that mode. -/
theorem mem_of_top {h : Holds τ} {t : τ} {m : Mode} (htop : top h t = some m) : (t, m) ∈ h := by
  obtain ⟨pre, post, rfl, -, -⟩ := top_eq_some_iff.mp htop
  simp

/-- A release gives back one hold of its mode and none of the other. -/
theorem held_of_top {h : Holds τ} {t : τ} {m : Mode} (htop : top h t = some m) (k : Mode) :
    held k h = held k (pop h t) + if m = k then 1 else 0 := by
  obtain ⟨pre, post, hh, -, hpop⟩ := top_eq_some_iff.mp htop
  rw [hpop, hh, held_append, held_append, held_cons]
  omega

/-- Where one thread has all the holds, its most recent one stands in front. -/
theorem eq_cons_pop {h : Holds τ} {t : τ} {m : Mode} (htop : top h t = some m)
    (hall : ∀ e ∈ h, e.1 = t) : h = (t, m) :: pop h t := by
  obtain ⟨pre, post, hh, hne, hpop⟩ := top_eq_some_iff.mp htop
  cases pre with
  | nil => rw [hpop, hh]; rfl
  | cons e pre =>
      have he : e.1 = t := hall e (by rw [hh]; simp)
      exact absurd he (hne e (by simp))

/-- Taking the front hold away leaves the oldest one, if any hold is left. -/
theorem getLast?_pop {h : Holds τ} {t : τ} {m : Mode} (hcons : h = (t, m) :: pop h t)
    (hne : pop h t ≠ []) : (pop h t).getLast? = h.getLast? := by
  obtain ⟨e, post, hep⟩ := List.exists_cons_of_ne_nil hne
  rw [hep] at hcons ⊢
  rw [hcons, List.getLast?_cons_cons]

/-- A new hold is its thread's most recent one, and no other thread's. -/
theorem top_cons (h : Holds τ) (t u : τ) (m : Mode) :
    top ((t, m) :: h) u = if t = u then some m else top h u := by
  unfold top
  by_cases htu : t = u
  · rw [List.find?_cons_of_pos (by simpa using htu), if_pos htu]
    rfl
  · rw [List.find?_cons_of_neg (by simpa using htu), if_neg htu]

/-- A release leaves the most recent holds of the other threads. -/
theorem top_pop_of_ne {t u : τ} (hne : u ≠ t) (h : Holds τ) : top (pop h t) u = top h u := by
  induction h with
  | nil => rfl
  | cons e h ih =>
      obtain ⟨v, k⟩ := e
      by_cases hv : v = t
      · have hpop : pop ((v, k) :: h) t = h := List.eraseP_cons_of_pos (by simpa using hv)
        rw [hpop, top_cons, if_neg (fun hvu => hne (hvu.symm.trans hv))]
      · have hpop : pop ((v, k) :: h) t = (v, k) :: pop h t :=
          List.eraseP_cons_of_neg (by simpa using hv)
        rw [hpop, top_cons, top_cons, ih]

/-- The modes of a thread's holds, most recent first. -/
def modes (h : Holds τ) (t : τ) : List Mode := (h.filter (fun e => e.1 = t)).map Prod.snd

@[simp] theorem modes_nil (t : τ) : modes ([] : Holds τ) t = [] := rfl

theorem modes_cons (h : Holds τ) (t u : τ) (m : Mode) :
    modes ((t, m) :: h) u = if t = u then m :: modes h u else modes h u := by
  unfold modes
  by_cases htu : t = u
  · rw [List.filter_cons_of_pos (by simpa using htu), if_pos htu]
    rfl
  · rw [List.filter_cons_of_neg (by simpa using htu), if_neg htu]

theorem mem_modes_iff {h : Holds τ} {t : τ} {m : Mode} : m ∈ modes h t ↔ (t, m) ∈ h := by
  induction h with
  | nil => simp
  | cons e h ih =>
      obtain ⟨u, k⟩ := e
      rw [modes_cons, List.mem_cons, Prod.mk.injEq]
      by_cases hut : u = t
      · rw [if_pos hut, List.mem_cons, ih]
        simp [hut]
      · rw [if_neg hut, ih]
        exact ⟨Or.inr, fun hm => hm.resolve_left (fun hm => hut hm.1.symm)⟩

/-- A release takes the front of its thread's modes, and leaves the other threads'. -/
theorem modes_pop (h : Holds τ) (t u : τ) :
    modes (pop h t) u = if u = t then (modes h u).tail else modes h u := by
  induction h with
  | nil => simp [pop]
  | cons e h ih =>
      obtain ⟨v, k⟩ := e
      by_cases hv : v = t
      · have hpop : pop ((v, k) :: h) t = h := List.eraseP_cons_of_pos (by simpa using hv)
        rw [hpop, modes_cons]
        by_cases hu : u = t
        · rw [if_pos hu, if_pos (hv.trans hu.symm), List.tail_cons]
        · rw [if_neg hu, if_neg (fun hvu => hu (hvu.symm.trans hv))]
      · have hpop : pop ((v, k) :: h) t = (v, k) :: pop h t :=
          List.eraseP_cons_of_neg (by simpa using hv)
        rw [hpop, modes_cons, modes_cons, ih]
        by_cases hu : u = t
        · rw [if_pos hu, if_neg (fun hvu => hv (hvu.trans hu)), if_pos hu,
            if_neg (fun hvu => hv (hvu.trans hu))]
        · rw [if_neg hu, if_neg hu]

/-! ## §3. The abstract lock. -/

/-- When `t` may be given the lock in mode `m`. -/
def Admits (h : Holds τ) (t : τ) : Mode → Prop
  | .write => ∀ e ∈ h, e.1 = t
  | .read => ∀ e ∈ h, e.2 = .write → e.1 = t

instance (h : Holds τ) (t : τ) (m : Mode) : Decidable (Admits h t m) := by
  cases m <;> unfold Admits <;> infer_instance

/-- One step of the abstract lock. -/
def step (h : Holds τ) : Action τ → Option (Holds τ)
  | .acquire t m => if Admits h t m then some ((t, m) :: h) else none
  | .release t m => if top h t = some m then some (pop h t) else none

/-- While a thread holds a write, nobody else holds anything. -/
def Exclusive (h : Holds τ) : Prop :=
  ∀ t u m, (t, Mode.write) ∈ h → (u, m) ∈ h → u = t

omit [DecidableEq τ] in
theorem exclusive_nil : Exclusive ([] : Holds τ) := by
  intro t u m ht
  simp at ht

omit [DecidableEq τ] in
theorem Exclusive.sublist {h k : Holds τ} (hk : k.Sublist h) (hex : Exclusive h) :
    Exclusive k := by
  intro t u m ht hu
  exact hex t u m (hk.subset ht) (hk.subset hu)

omit [DecidableEq τ] in
/-- **Admission is exact**: a new hold keeps the exclusion exactly when it is admitted. -/
theorem exclusive_cons_iff {h : Holds τ} (hex : Exclusive h) (t : τ) (m : Mode) :
    Exclusive ((t, m) :: h) ↔ Admits h t m := by
  cases m with
  | write =>
      constructor
      · intro hnew e he
        exact hnew t e.1 e.2 (by simp) (by simp [he])
      · intro hadm u v k hu hv
        rcases List.mem_cons.mp hu with hu | hu <;> rcases List.mem_cons.mp hv with hv | hv
        · -- both are the new hold
          simp_all
        · -- the new write beside an old hold
          simp only [Prod.mk.injEq, and_true] at hu
          rw [hu]
          exact hadm _ hv
        · -- an old write beside the new one
          simp only [Prod.mk.injEq] at hv
          rw [hv.1]
          exact (hadm _ hu).symm
        · exact hex u v k hu hv
  | read =>
      constructor
      · intro hnew e he hk
        have hwrite : (e.1, Mode.write) ∈ h := by
          rw [← hk]
          exact he
        exact (hnew e.1 t .read (by simp [hwrite]) (by simp)).symm
      · intro hadm u v k hu hv
        -- the new hold is a read, so the write is an old one
        have hu' : (u, Mode.write) ∈ h := by simpa using hu
        rcases List.mem_cons.mp hv with hv | hv
        · simp only [Prod.mk.injEq] at hv
          rw [hv.1]
          exact (hadm _ hu' rfl).symm
        · exact hex u v k hu' hv

theorem step_exclusive {h h' : Holds τ} {a : Action τ} (hex : Exclusive h)
    (hstep : step h a = some h') : Exclusive h' := by
  cases a with
  | acquire t m =>
      simp only [step, Option.ite_none_right_eq_some, Option.some.injEq] at hstep
      obtain ⟨hadm, rfl⟩ := hstep
      exact (exclusive_cons_iff hex t m).mpr hadm
  | release t m =>
      simp only [step, Option.ite_none_right_eq_some, Option.some.injEq] at hstep
      obtain ⟨-, rfl⟩ := hstep
      exact hex.sublist (pop_sublist h t)

/-- **A writer is alone in every run of the abstract lock.** -/
theorem run_exclusive {h h' : Holds τ} {as : List (Action τ)} (hex : Exclusive h)
    (hrun : StepMachine.run step h as = some h') : Exclusive h' :=
  StepMachine.run_invariant (fun _ _ _ => step_exclusive) hex hrun

end RWLock
