/-
  YServerCore.Lock.Interleavings — whole runs of the lock's instructions.

  `Lock.Instructions` says what one instruction does to the lock behind the due instructions.  Here
  the instructions of any number of threads come in any order, with every failing
  compare-and-exchange a step of its own.

  Main results:
    * `instructions_refine` — every interleaving is a run of the abstract lock, and a writer is
      alone at every instruction.
    * `count_accesses_apart` — `LockCount` is touched by two threads at once only for plain reads.
    * `emptied_iff` — after everything is released the lock is free exactly when no read was plain.
    * `stale_owner_forever` — an owner that holds nothing keeps everybody else out for ever.
    * `upgrade_never_returns` — a reader that asks for the write spins for ever.
-/
import YServerCore.Lock.Instructions

namespace YServerCore

open RWLock (Mode Action Holds held top pop acquisitions)

open Lock (Place)

namespace LockCode

variable {τ : Type*} [DecidableEq τ] {ids : ThreadIds τ} {n leaks : Nat} {pending : Finset τ}
  {l : Lock} {s : LockCode τ}

/-! ## §1. One instruction. -/

/-- The instruction is a compare-and-exchange of `TryReadLock` that succeeds. -/
def PlainRead (s : LockCode τ) : Instruction τ → Prop
  | .tryLock _ _ => False
  | .tryUnLock _ _ => False
  | .next t => s.place t = .exchange s.lock.LockFlag

instance (s : LockCode τ) : (a : Instruction τ) → Decidable (PlainRead s a)
  | .tryLock _ _ => isFalse id
  | .tryUnLock _ _ => isFalse id
  | .next t => inferInstanceAs (Decidable (s.place t = .exchange s.lock.LockFlag))

/-- What an instruction leads to: a state that settles again, behind the same acquisitions and
releases of the abstract lock.  A leak is due or made exactly by a plain read, a counter that has
leaked stays so, and a held or leaked word keeps its owner half. -/
def Leads (ids : ThreadIds τ) (n leaks : Nat) (pending : Finset τ) (l : Lock) (s : LockCode τ)
    (a : Instruction τ) (r : List (Action τ) × LockCode τ) : Prop :=
  ∃ leaks' pending' l', Settles ids (n + acquisitions r.1) leaks' pending' l' r.2
    ∧ StepMachine.run RWLock.step s.holds r.1 = some r.2.holds
    ∧ ((leaks' = 0 ∧ pending' = ∅) ↔ (leaks = 0 ∧ pending = ∅) ∧ ¬ PlainRead s a)
    ∧ (leaks ≠ 0 → leaks' ≠ 0)
    ∧ (l.LockFlag ≠ LockFlag.Empty → l.ownerHalf = 0 ∨ leaks ≠ 0 → l'.ownerHalf = l.ownerHalf)

omit [DecidableEq τ] in
theorem not_plainRead {t : τ} {p : Place} (hp : s.place t = p) (hne : ∀ e, p ≠ .exchange e) :
    ¬ PlainRead s (.next t) := fun h => hne _ (hp.symm.trans h)

/-- An instruction with no leak of its own. -/
theorem Settles.leads {a : Instruction τ} {evs : List (Action τ)} {s' : LockCode τ} {l' : Lock}
    (h' : Settles ids (n + acquisitions evs) leaks pending l' s')
    (hrun : StepMachine.run RWLock.step s.holds evs = some s'.holds) (hplain : ¬ PlainRead s a)
    (howner : l.LockFlag ≠ LockFlag.Empty → l.ownerHalf = 0 ∨ leaks ≠ 0 →
      l'.ownerHalf = l.ownerHalf) :
    Leads ids n leaks pending l s a (evs, s') :=
  ⟨leaks, pending, l', h', hrun, ⟨fun hz => ⟨hz, hplain⟩, fun hz => hz.1⟩, id, howner⟩

/-- An instruction that makes no acquisition and no release, and leaves the settled lock. -/
theorem Settles.leads_silent {a : Instruction τ} {s' : LockCode τ}
    (h' : Settles ids n leaks pending l s') (hholds : s.holds = s'.holds)
    (hplain : ¬ PlainRead s a) : Leads ids n leaks pending l s a ([], s') :=
  ⟨leaks, pending, l, h', congrArg some hholds, ⟨fun hz => ⟨hz, hplain⟩, fun hz => hz.1⟩, id,
    fun _ _ => rfl⟩

/-- With a leak, or without an owner, a write unlock leaves the owner half. -/
theorem Settles.owner_of_unlock (h : Settles ids n leaks pending l s) {t : τ}
    (htop : top s.holds t = some .write) (hcase : l.ownerHalf = 0 ∨ leaks ≠ 0) :
    l.TryWriteUnLock.ownerHalf = l.ownerHalf := by
  have hmem := RWLock.mem_of_top htop
  have hheld := RWLock.held_pos_iff.mpr ⟨t, hmem⟩
  have hcnt := h.accounts.count
  simp only at hcnt
  rcases hcase with ho | hl
  · exact absurd hmem (h.accounts.no_write ho t)
  · obtain ⟨-, ⟨hone, -, -⟩ | ⟨-, hown, -⟩⟩ := Lock.TryWriteUnLock_spec (l := l) (by omega)
    · exact absurd hone (by omega)
    · exact hown

/-- One acquisition or release of the abstract lock. -/
theorem run_one {h h' : Holds τ} {e : Action τ} (hstep : RWLock.step h e = some h') :
    StepMachine.run RWLock.step h [e] = some h' :=
  StepMachine.run_cons_eq_some.mpr ⟨h', hstep, rfl⟩

/-- On an empty word nobody has any part in the lock. -/
theorem Settles.quiet_of_empty (h : Settles ids n leaks pending l s)
    (hempty : s.lock.LockFlag = LockFlag.Empty) : ∀ u, (s.place u).quiet = true := by
  obtain ⟨ho, hr⟩ := (Lock.flag_eq_empty_iff s.lock).mp hempty
  obtain ⟨hflag, -⟩ := h.of_unowned ho
  obtain ⟨hlo, hlr⟩ := (Lock.flag_eq_empty_iff l).mp (hflag.trans hempty)
  have hnil : s.holds = [] := h.accounts.holds_eq_nil hlo hlr
  have hnone : ∀ u m, top s.holds u ≠ some m := by
    intro u m htop
    have hmem := RWLock.mem_of_top htop
    rw [hnil] at hmem
    exact absurd hmem (by simp)
  have hother : ∀ u, s.lock.ownerHalf ≠ (ids.LThreadId u).toNat := by
    intro u hu
    exact LockRun.toNat_ne_zero ids u (hu.symm.trans ho)
  intro u
  have hfit := h.fits u
  cases hp : s.place u with
  | out => rfl
  | test _ => rfl
  | spin _ => rfl
  | exchange _ => rfl
  | add =>
      rw [hp] at hfit
      exact absurd hfit (hother u)
  | sub =>
      rw [hp] at hfit
      exact absurd hfit (hnone u _)
  | raise k =>
      rw [hp] at hfit
      cases k with
      | write => exact absurd hfit.1 (hother u)
      | read => exact absurd hfit.2 (hnone u _)
  | raising k c =>
      rw [hp] at hfit
      cases k with
      | write => exact absurd hfit.1 (hother u)
      | read => exact absurd hfit.2.1 (hnone u _)
  | lower =>
      rw [hp] at hfit
      exact absurd hfit.1 (hother u)
  | lowering _ =>
      rw [hp] at hfit
      exact absurd hfit.1 (hother u)
  | clear =>
      rw [hp] at hfit
      exact absurd hfit.1 (hother u)

/-- The next instruction of a thread inside an operation. -/
theorem exec_leads (h : Settles ids n leaks pending l s) {t : τ}
    {r : List (Action τ) × LockCode τ} (hr : exec ids.LThreadId s t = some r)
    (hn : n + acquisitions r.1 < 65536) : Leads ids n leaks pending l s (.next t) r := by
  have hfit := h.fits t
  cases hp : s.place t with
  | out =>
      simp only [exec, hp] at hr
      exact absurd hr (by simp)
  | test m =>
      have hplain : ¬ PlainRead s (.next t) := not_plainRead hp (by simp)
      cases m with
      | write =>
          simp only [exec, hp] at hr
          split at hr <;> rw [Option.some.injEq] at hr <;> subst hr
          next howner =>
            -- a re-entry: the owner test alone takes the lock
            have ho := (Lock.owner_eq_iff _ _).mp howner
            have hflag := h.flag_of_owner ho (by rw [hp]; simp)
            have hcount := h.count_of_owner ho (by rw [hp]; rfl)
            have hquiet : ∀ u, (s.place u).quiet = true := by
              intro u
              by_cases hu : u = t
              · rw [hu, hp]
                rfl
              · exact h.quiet_of_owner ho hu
            have hop : l.TryWriteLock (ids.LThreadId t)
                = some { l with LockCount := l.LockCount + 1 } := by
              unfold Lock.TryWriteLock
              rw [if_pos]
              rw [Lock.owner_eq_iff, Lock.ownerHalf_congr hflag]
              exact ho
            obtain ⟨h', hadm⟩ := h.take_write (r := goto { s with
              holds := (t, .write) :: s.holds } t (.raise .write)) hcount hquiet hop hn
              (by rw [hflag]; rfl) rfl rfl
            refine h'.leads (run_one (if_pos hadm)) hplain ?_
            intro _ _
            rfl
          next =>
            exact (h.goto (p := .spin .write) trivial (by rw [hp]; simp)
              (by intro m; rw [hp]; rfl)).leads_silent rfl hplain
      | read =>
          simp only [exec, hp] at hr
          split at hr <;> rw [Option.some.injEq] at hr <;> subst hr
          next howner =>
            exact (h.goto (p := .add) ((Lock.owner_eq_iff _ _).mp howner)
              (by rw [hp]; simp) (by intro m; rw [hp]; rfl)).leads_silent rfl hplain
          next =>
            exact (h.goto (p := .spin .read) trivial (by rw [hp]; simp)
              (by intro m; rw [hp]; rfl)).leads_silent rfl hplain
  | spin m =>
      have hplain : ¬ PlainRead s (.next t) := not_plainRead hp (by simp)
      cases m with
      | write =>
          simp only [exec, hp] at hr
          split at hr <;> rw [Option.some.injEq] at hr <;> subst hr
          next hempty =>
            -- a first entry: the compare-and-exchange finds the word empty
            obtain ⟨ho, -⟩ := (Lock.flag_eq_empty_iff s.lock).mp hempty
            obtain ⟨hflag, hcount⟩ := h.of_unowned ho
            have hop : l.TryWriteLock (ids.LThreadId t)
                = some ⟨((ids.LThreadId t).toUInt32 <<< 16) &&& LockFlag.WriteLockThreadMask,
                    l.LockCount + 1⟩ := by
              unfold Lock.TryWriteLock
              rw [if_neg, if_pos (hflag.trans hempty)]
              rw [Lock.owner_eq_iff, Lock.ownerHalf_congr hflag, ho]
              exact fun hz => LockRun.toNat_ne_zero ids t hz.symm
            obtain ⟨h', hadm⟩ := h.take_write (r := goto { s with
              lock := { s.lock with
                LockFlag := ((ids.LThreadId t).toUInt32 <<< 16) &&& LockFlag.WriteLockThreadMask }
              holds := (t, .write) :: s.holds } t (.raise .write)) hcount (h.quiet_of_empty hempty)
              hop hn rfl rfl rfl
            exact h'.leads (run_one (if_pos hadm)) hplain
              (fun hne _ => absurd (hflag.trans hempty) hne)
          next =>
            exact (h.goto (p := .spin .write) trivial (by rw [hp]; simp)
              (by intro m; rw [hp])).leads_silent rfl hplain
      | read =>
          simp only [exec, hp, Option.some.injEq] at hr
          subst hr
          refine (h.goto (p := .exchange _) ?_ (by rw [hp]; simp)
            (by intro m; rw [hp]; rfl)).leads_silent rfl hplain
          show (s.lock.LockFlag &&& LockFlag.ReadLockCountMask).toNat < 65536
          rw [LockFlag.toNat_and_readMask]
          omega
  | exchange Expected =>
      simp only [exec, hp] at hr
      split at hr <;> rw [Option.some.injEq] at hr <;> subst hr
      next hexp =>
        have hp' : s.place t = .exchange s.lock.LockFlag := by rw [hp, hexp]
        obtain ⟨h', hadm, hown⟩ := h.take_plain (r := goto { s with
          lock := { s.lock with LockFlag := Expected + 1 }
          holds := (t, .read) :: s.holds } t (.raise .read)) hp' hn (by rw [hexp]; rfl) rfl rfl
        refine ⟨leaks, insert t pending, _, h', run_one (if_pos hadm), ⟨fun hz => ?_, fun hz => ?_⟩,
          id, fun _ _ => hown⟩
        · exact absurd hz.2 (Finset.insert_ne_empty t pending)
        · exact absurd hp' hz.2
      next hexp =>
        refine (h.goto (p := .spin .read) trivial (by rw [hp]; simp)
          (by intro m; rw [hp]; rfl)).leads_silent rfl ?_
        show s.place t ≠ _
        rw [hp]
        exact fun heq => hexp (Place.exchange.inj heq).symm
  | add =>
      simp only [exec, hp, Option.some.injEq] at hr
      subst hr
      obtain ⟨h', hadm, hown⟩ := h.take_nested (r := goto { s with
        lock := { s.lock with LockFlag := s.lock.LockFlag + 1 }
        holds := (t, .read) :: s.holds } t .out) hp hn rfl rfl rfl
      exact h'.leads (run_one (if_pos hadm)) (not_plainRead hp (by simp)) (fun _ _ => hown)
  | raise m =>
      simp only [exec, hp, Option.some.injEq] at hr
      subst hr
      refine (h.goto (p := .raising m s.lock.LockCount) ?_ (by rw [hp]; simp)
        (by intro k; rw [hp]; rfl)).leads_silent rfl (not_plainRead hp (by simp))
      rw [hp] at hfit
      cases m with
      | write => exact ⟨hfit.1, hfit.2.1, hfit.2.2, rfl⟩
      | read =>
          refine ⟨hfit.1, hfit.2, ?_⟩
          have hcnt := h.accounts.count
          have hroom := h.room
          simp only at hcnt
          rw [← (h.of_unowned hfit.1).2]
          omega
  | raising m c =>
      simp only [exec, hp, Option.some.injEq] at hr
      subst hr
      have hplain : ¬ PlainRead s (.next t) := not_plainRead hp (by simp)
      cases m with
      | write =>
          exact (h.raised_write (r := goto { s with
            lock := { s.lock with LockCount := c + 1 } } t .out) hp rfl rfl rfl).leads_silent rfl
            hplain
      | read =>
          -- the thread's own increment was due, and it is made now
          have hmem : t ∈ pending := by
            rw [h.mem_pending, hp]
            rfl
          refine ⟨_, _, _, h.raised_read (by omega) hp rfl rfl rfl, rfl, ⟨fun hz => ?_, fun hz => ?_⟩,
            fun _ => by omega, fun _ _ => rfl⟩
          · exact absurd hz.1 (by omega)
          · rw [hz.1.2] at hmem
            exact absurd hmem (by simp)
  | lower =>
      simp only [exec, hp, Option.some.injEq] at hr
      subst hr
      rw [hp] at hfit
      exact (h.goto (p := .lowering s.lock.LockCount) ⟨hfit.1, hfit.2, rfl⟩
        (by rw [hp]; simp) (by intro m; rw [hp]; rfl)).leads_silent rfl (not_plainRead hp (by simp))
  | lowering c =>
      simp only [exec, hp, Option.some.injEq] at hr
      subst hr
      obtain ⟨h', htop⟩ := h.give_write (r := goto { s with
        lock := { s.lock with LockCount := c - 1 }
        holds := pop s.holds t } t (if c - 1 = 0 then .clear else .out)) hp rfl rfl rfl
      exact h'.leads (run_one (if_pos htop)) (not_plainRead hp (by simp))
        (fun _ hcase => h.owner_of_unlock htop hcase)
  | clear =>
      simp only [exec, hp, Option.some.injEq] at hr
      subst hr
      exact (h.cleared (r := goto { s with
        lock := { s.lock with LockFlag := LockFlag.Empty } } t .out) hp rfl rfl rfl).leads_silent
        rfl (not_plainRead hp (by simp))
  | sub =>
      simp only [exec, hp, Option.some.injEq] at hr
      subst hr
      obtain ⟨h', htop, hown⟩ := h.give_read (r := goto { s with
        lock := { s.lock with LockFlag := s.lock.LockFlag - 1 }
        holds := pop s.holds t } t .out) hp rfl rfl rfl
      exact h'.leads (run_one (if_pos htop)) (not_plainRead hp (by simp)) (fun _ _ => hown)

/-- **One instruction** of any thread. -/
theorem step_leads (h : Settles ids n leaks pending l s) {a : Instruction τ} {s' : LockCode τ}
    (hstep : step ids.LThreadId s a = some s')
    (hn : n + acquisitions (event ids.LThreadId s a) < 65536) :
    Leads ids n leaks pending l s a (event ids.LThreadId s a, s') := by
  have hinstr := step_eq_some.mp hstep
  revert hinstr hn
  generalize event ids.LThreadId s a = evs
  intro hn hinstr
  cases a with
  | next t => exact exec_leads h hinstr hn
  | tryLock t m =>
      simp only [instr, Option.ite_none_right_eq_some, Option.some.injEq, Prod.mk.injEq] at hinstr
      obtain ⟨hp, rfl, rfl⟩ := hinstr
      exact (h.goto (p := .test m) trivial (by rw [hp]; simp)
        (by intro k; rw [hp]; rfl)).leads_silent rfl id
  | tryUnLock t m =>
      simp only [instr, Option.ite_none_right_eq_some, Option.some.injEq, Prod.mk.injEq] at hinstr
      obtain ⟨⟨hp, htop⟩, rfl, rfl⟩ := hinstr
      cases m with
      | read =>
          exact (h.goto (p := .sub) htop (by rw [hp]; simp)
            (by intro k; rw [hp]; rfl)).leads_silent rfl id
      | write =>
          -- a writer is the owner of the word
          have hmem := RWLock.mem_of_top htop
          have ho := (Lock.ownerHalf_congr (h.flag_of_hold hmem)).symm.trans
            (h.accounts.owner_of_write hmem)
          exact (h.goto (p := .lower) ⟨ho, htop⟩ (by rw [hp]; simp)
            (by intro k; rw [hp]; rfl)).leads_silent rfl id

/-! ## §2. Calls, and the acquisitions that count. -/

/-- The acquisitions of `t` that its calls have made and not given back, most recent first. -/
def called (t : τ) : List Mode → Instruction τ → List Mode
  | ms, .tryLock u m => if u = t then m :: ms else ms
  | ms, .tryUnLock u _ => if u = t then ms.tail else ms
  | ms, .next _ => ms

def calls (as : List (Instruction τ)) (t : τ) : List Mode := as.foldl (called t) []

/-- The call a thread is inside of, on top of the acquisitions that count already. -/
def inCall : Place → List Mode → List Mode
  | .test m, ms => m :: ms
  | .spin m, ms => m :: ms
  | .exchange _, ms => .read :: ms
  | .add, ms => .read :: ms
  | .lower, ms => ms.tail
  | .lowering _, ms => ms.tail
  | .sub, ms => ms.tail
  | _, ms => ms

/-- **What an instruction does**: it moves its thread, and makes nothing, an acquisition or a release
of it; the call the thread is inside of stays the same. -/
theorem exec_cases {LThreadId : τ → UInt16} {t : τ} {evs : List (Action τ)} {s' : LockCode τ}
    (hr : exec LThreadId s t = some (evs, s')) :
    ∃ p, s'.place = Function.update s.place t p
      ∧ ((evs = [] ∧ s'.holds = s.holds ∧ ∀ ms, inCall p ms = inCall (s.place t) ms)
        ∨ (∃ m, evs = [.acquire t m] ∧ s'.holds = (t, m) :: s.holds
            ∧ ∀ ms, inCall p (m :: ms) = inCall (s.place t) ms)
        ∨ (∃ m, evs = [.release t m] ∧ s'.holds = pop s.holds t
            ∧ ∀ ms, inCall p ms.tail = inCall (s.place t) ms)) := by
  cases hp : s.place t with
  | out =>
      simp only [exec, hp] at hr
      exact absurd hr (by simp)
  | test m =>
      cases m with
      | write =>
          simp only [exec, hp] at hr
          split at hr <;> cases hr
          · exact ⟨_, rfl, Or.inr (Or.inl ⟨.write, rfl, rfl, fun _ => rfl⟩)⟩
          · exact ⟨_, rfl, Or.inl ⟨rfl, rfl, fun _ => rfl⟩⟩
      | read =>
          simp only [exec, hp] at hr
          split at hr <;> cases hr
          · exact ⟨_, rfl, Or.inl ⟨rfl, rfl, fun _ => rfl⟩⟩
          · exact ⟨_, rfl, Or.inl ⟨rfl, rfl, fun _ => rfl⟩⟩
  | spin m =>
      cases m with
      | write =>
          simp only [exec, hp] at hr
          split at hr <;> cases hr
          · exact ⟨_, rfl, Or.inr (Or.inl ⟨.write, rfl, rfl, fun _ => rfl⟩)⟩
          · exact ⟨_, rfl, Or.inl ⟨rfl, rfl, fun _ => rfl⟩⟩
      | read =>
          simp only [exec, hp] at hr
          cases hr
          exact ⟨_, rfl, Or.inl ⟨rfl, rfl, fun _ => rfl⟩⟩
  | exchange Expected =>
      simp only [exec, hp] at hr
      split at hr <;> cases hr
      · exact ⟨_, rfl, Or.inr (Or.inl ⟨.read, rfl, rfl, fun _ => rfl⟩)⟩
      · exact ⟨_, rfl, Or.inl ⟨rfl, rfl, fun _ => rfl⟩⟩
  | add =>
      simp only [exec, hp] at hr
      cases hr
      exact ⟨_, rfl, Or.inr (Or.inl ⟨.read, rfl, rfl, fun _ => rfl⟩)⟩
  | raise m =>
      simp only [exec, hp] at hr
      cases hr
      exact ⟨_, rfl, Or.inl ⟨rfl, rfl, fun _ => rfl⟩⟩
  | raising m c =>
      simp only [exec, hp] at hr
      cases hr
      exact ⟨_, rfl, Or.inl ⟨rfl, rfl, fun _ => rfl⟩⟩
  | lower =>
      simp only [exec, hp] at hr
      cases hr
      exact ⟨_, rfl, Or.inl ⟨rfl, rfl, fun _ => rfl⟩⟩
  | lowering c =>
      simp only [exec, hp] at hr
      cases hr
      refine ⟨_, rfl, Or.inr (Or.inr ⟨.write, rfl, rfl, fun ms => ?_⟩)⟩
      split <;> rfl
  | clear =>
      simp only [exec, hp] at hr
      cases hr
      exact ⟨_, rfl, Or.inl ⟨rfl, rfl, fun _ => rfl⟩⟩
  | sub =>
      simp only [exec, hp] at hr
      cases hr
      exact ⟨_, rfl, Or.inr (Or.inr ⟨.read, rfl, rfl, fun _ => rfl⟩)⟩

/-- The other threads keep their places and their holds. -/
theorem exec_other {LThreadId : τ → UInt16} {t u : τ} {evs : List (Action τ)} {s' : LockCode τ}
    (hr : exec LThreadId s t = some (evs, s')) (hu : u ≠ t) :
    s'.place u = s.place u ∧ RWLock.modes s'.holds u = RWLock.modes s.holds u := by
  obtain ⟨p, hplace, hcase⟩ := exec_cases hr
  refine ⟨by rw [hplace, Function.update_of_ne hu], ?_⟩
  rcases hcase with ⟨-, hholds, -⟩ | ⟨m, -, hholds, -⟩ | ⟨m, -, hholds, -⟩
  · rw [hholds]
  · rw [hholds, RWLock.modes_cons, if_neg (Ne.symm hu)]
  · rw [hholds, RWLock.modes_pop, if_neg hu]

/-- A thread's instruction keeps what its calls amount to. -/
theorem exec_self {LThreadId : τ → UInt16} {t : τ} {evs : List (Action τ)} {s' : LockCode τ}
    (hr : exec LThreadId s t = some (evs, s')) :
    inCall (s'.place t) (RWLock.modes s'.holds t) = inCall (s.place t) (RWLock.modes s.holds t) := by
  obtain ⟨p, hplace, hcase⟩ := exec_cases hr
  rw [hplace, Function.update_self]
  rcases hcase with ⟨-, hholds, hin⟩ | ⟨m, -, hholds, hin⟩ | ⟨m, -, hholds, hin⟩
  · rw [hholds, hin]
  · rw [hholds, RWLock.modes_cons, if_pos rfl, hin]
  · rw [hholds, RWLock.modes_pop, if_pos rfl, hin]

/-- **Calls and holds**: a thread's calls amount to the acquisitions that count and the call it is
inside of. -/
theorem step_calls {LThreadId : τ → UInt16} {as : List (Instruction τ)} {a : Instruction τ}
    {s' : LockCode τ} (hstep : step LThreadId s a = some s') {u : τ}
    (h : inCall (s.place u) (RWLock.modes s.holds u) = calls as u) :
    inCall (s'.place u) (RWLock.modes s'.holds u) = calls (as ++ [a]) u := by
  have hinstr := step_eq_some.mp hstep
  have hcalls : calls (as ++ [a]) u = called u (calls as u) a := by
    unfold calls
    rw [List.foldl_append]
    rfl
  rw [hcalls, ← h]
  cases a with
  | next t =>
      by_cases hu : u = t
      · rw [hu]
        exact exec_self hinstr
      · obtain ⟨hp, hm⟩ := exec_other hinstr hu
        rw [hp, hm]
        rfl
  | tryLock t m =>
      simp only [instr, Option.ite_none_right_eq_some, Option.some.injEq, Prod.mk.injEq] at hinstr
      obtain ⟨hp, -, rfl⟩ := hinstr
      show inCall (Function.update s.place t (.test m) u) (RWLock.modes s.holds u)
        = if t = u then m :: inCall (s.place u) (RWLock.modes s.holds u)
          else inCall (s.place u) (RWLock.modes s.holds u)
      by_cases hu : t = u
      · rw [← hu, Function.update_self, if_pos rfl, hp]
        rfl
      · rw [Function.update_of_ne (Ne.symm hu), if_neg hu]
  | tryUnLock t m =>
      simp only [instr, Option.ite_none_right_eq_some, Option.some.injEq, Prod.mk.injEq] at hinstr
      obtain ⟨⟨hp, -⟩, -, rfl⟩ := hinstr
      show inCall (Function.update s.place t (.ofUnLock m) u) (RWLock.modes s.holds u)
        = if t = u then (inCall (s.place u) (RWLock.modes s.holds u)).tail
          else inCall (s.place u) (RWLock.modes s.holds u)
      by_cases hu : t = u
      · rw [← hu, Function.update_self, if_pos rfl, hp]
        cases m <;> rfl
      · rw [Function.update_of_ne (Ne.symm hu), if_neg hu]

/-! ## §3. Whole runs. -/

/-- The acquisitions and releases that a run of instructions makes, in the order it makes them. -/
def events (LThreadId : τ → UInt16) (as : List (Instruction τ)) : List (Action τ) :=
  StepMachine.emitted (step LThreadId) (event LThreadId) {} as

/-- **The run lemma**, for a property that counts the acquisitions made. -/
theorem run_counted {Q : Nat → LockCode τ → Prop}
    (hstep : ∀ n s a s', Q n s → step ids.LThreadId s a = some s' →
      n + acquisitions (event ids.LThreadId s a) < 65536 →
      Q (n + acquisitions (event ids.LThreadId s a)) s')
    {s' : LockCode τ} {as : List (Instruction τ)} (hQ : Q n s)
    (hrun : StepMachine.run (step ids.LThreadId) s as = some s')
    (hfew : n + acquisitions (StepMachine.emitted (step ids.LThreadId) (event ids.LThreadId) s as)
      < 65536) :
    Q (n + acquisitions (StepMachine.emitted (step ids.LThreadId) (event ids.LThreadId) s as))
      s' := by
  induction as generalizing s n with
  | nil =>
      rw [StepMachine.run_nil, Option.some.injEq] at hrun
      exact hrun ▸ hQ
  | cons a as ih =>
      obtain ⟨m, hm, hrest⟩ := StepMachine.run_cons_eq_some.mp hrun
      rw [StepMachine.emitted_cons, hm, Option.elim_some, RWLock.acquisitions_append,
        ← Nat.add_assoc] at hfew ⊢
      exact ih (hstep n s a m hQ hm (by omega)) hrest hfew

/-- After any run of instructions with fewer than 2^16 acquisitions the state settles, behind the
same acquisitions and releases of the abstract lock; a leak is made or due exactly when some read
was plain. -/
theorem run_settles {as : List (Instruction τ)}
    (hrun : StepMachine.run (step ids.LThreadId) {} as = some s)
    (hfew : acquisitions (events ids.LThreadId as) < 65536) :
    ∃ leaks pending l, Settles ids (acquisitions (events ids.LThreadId as)) leaks pending l s
      ∧ StepMachine.run RWLock.step [] (events ids.LThreadId as) = some s.holds
      ∧ ((leaks = 0 ∧ pending = ∅)
        ↔ StepMachine.Along (step ids.LThreadId) (fun s a => ¬ PlainRead s a) {} as) := by
  revert hfew
  refine StepMachine.run_history (P := fun as s => acquisitions (events ids.LThreadId as) < 65536 →
    ∃ leaks pending l, Settles ids (acquisitions (events ids.LThreadId as)) leaks pending l s
      ∧ StepMachine.run RWLock.step [] (events ids.LThreadId as) = some s.holds
      ∧ ((leaks = 0 ∧ pending = ∅)
        ↔ StepMachine.Along (step ids.LThreadId) (fun s a => ¬ PlainRead s a) {} as)) ?_ ?_ hrun
  · exact fun _ => ⟨0, ∅, {}, settles_init ids, rfl, by simp⟩
  · intro as s a s' hpast ih hstep hlt
    have hevents : events ids.LThreadId (as ++ [a])
        = events ids.LThreadId as ++ event ids.LThreadId s a :=
      StepMachine.emitted_snoc_of_run hpast a
    rw [hevents, RWLock.acquisitions_append] at hlt ⊢
    obtain ⟨leaks, pending, l, h, habs, hleak⟩ := ih (by omega)
    obtain ⟨leaks', pending', l', h', hrun', hleak', -, -⟩ := step_leads h hstep hlt
    refine ⟨leaks', pending', l', h', (StepMachine.run_append_eq_some _ _).mpr ⟨_, habs, hrun'⟩, ?_⟩
    rw [hleak', hleak, StepMachine.along_snoc_of_run hpast]

/-- **Every interleaving of instructions is a run of the abstract lock.**  For any threads with
pairwise distinct nonzero ids and every order of their instructions with fewer than 2^16
acquisitions: the acquisitions and releases, in the order of the instructions that make them, are
a run of the abstract lock; a thread with a write is alone at every instruction; and for a thread
outside the operations the acquisitions that count are those of its calls. -/
theorem instructions_refine (ids : ThreadIds τ) (as : List (Instruction τ)) (s : LockCode τ)
    (hrun : StepMachine.run (step ids.LThreadId) {} as = some s)
    (hfew : acquisitions (events ids.LThreadId as) < 2 ^ 16) :
    StepMachine.run RWLock.step [] (events ids.LThreadId as) = some s.holds
      ∧ (∀ t u m, (t, Mode.write) ∈ s.holds → (u, m) ∈ s.holds → u = t)
      ∧ ∀ t, s.place t = .out → RWLock.modes s.holds t = calls as t := by
  obtain ⟨-, -, -, -, habs, -⟩ := run_settles hrun hfew
  refine ⟨habs, RWLock.run_exclusive RWLock.exclusive_nil habs, ?_⟩
  intro t hout
  have hcalls : inCall (s.place t) (RWLock.modes s.holds t) = calls as t := by
    refine StepMachine.run_history
      (P := fun as s => inCall (s.place t) (RWLock.modes s.holds t) = calls as t) rfl ?_ hrun
    intro as s a s' _ h hstep
    exact step_calls hstep h
  rw [hout] at hcalls
  exact hcalls

/-- The first thread writes, the second one spins until it can read. -/
def handover : List (Instruction Bool) :=
  [.tryLock false .write, .next false, .next false, .tryLock true .read, .next true, .next true,
    .next true, .next false, .next false, .tryUnLock false .write, .next false, .next false,
    .next false, .next true, .next true, .next true, .next true]

/-- Two threads take the read, and both load `LockCount` before either stores it. -/
def bothRead : List (Instruction Bool) :=
  [.tryLock false .read, .next false, .next false, .next false, .tryLock true .read, .next true,
    .next true, .next true, .next false, .next true]

/-- A write with a read nested in it, taken and given back by one thread. -/
def nested : List (Instruction Bool) :=
  [.tryLock false .write, .next false, .next false, .next false, .next false,
    .tryLock false .read, .next false, .next false, .tryUnLock false .read, .next false,
    .tryUnLock false .write, .next false, .next false, .next false]

/-- A read of the first thread, then a write of the second one, both given back. -/
def readThenWrite : List (Instruction Bool) :=
  [.tryLock false .read, .next false, .next false, .next false, .next false, .next false,
    .tryUnLock false .read, .next false, .tryLock true .write, .next true, .next true, .next true,
    .next true, .tryUnLock true .write, .next true, .next true]

/-- The first thread asks for the write. -/
def attempt : List (Instruction Bool) := [.tryLock false .write, .next false, .next false, .next false]

/-- The second thread spins while the first one writes, and reads behind its unlock. -/
theorem instructions_refine_handover :
    ∃ s, StepMachine.run (step ThreadIds.two.LThreadId) {} handover = some s
      ∧ StepMachine.run RWLock.step [] (events ThreadIds.two.LThreadId handover) = some s.holds := by
  have hsome : (StepMachine.run (step ThreadIds.two.LThreadId) {} handover).isSome := by
    decide
  obtain ⟨s, hs⟩ := Option.isSome_iff_exists.mp hsome
  exact ⟨s, hs, (instructions_refine ThreadIds.two handover s hs (by decide)).1⟩

/-! ## §4. Who touches `LockCount` at the same time. -/

/-- Places at which a thread is to read or to write `LockCount`. -/
def countAccess : Place → Bool
  | .raise _ => true
  | .raising _ _ => true
  | .lower => true
  | .lowering _ => true
  | _ => false

/-- **`LockCount` is touched by two threads at once only for plain reads.**  In every state that any
interleaving of instructions reaches, if two threads are at an access to `LockCount`, each of them is
in the increment behind a plain read, and nobody holds a write: the accesses of a writer are never
in a race. -/
theorem count_accesses_apart (ids : ThreadIds τ) (as : List (Instruction τ)) (s : LockCode τ)
    (hrun : StepMachine.run (step ids.LThreadId) {} as = some s)
    (hfew : acquisitions (events ids.LThreadId as) < 2 ^ 16) (t u : τ) (hne : u ≠ t)
    (ht : countAccess (s.place t) = true) (hu : countAccess (s.place u) = true) :
    (s.place t).raises .read = true ∧ (s.place u).raises .read = true
      ∧ ∀ v, (v, Mode.write) ∉ s.holds := by
  obtain ⟨leaks, pending, l, h, -, -⟩ := run_settles hrun hfew
  have hloud : ∀ v, countAccess (s.place v) = true → (s.place v).quiet = false := by
    intro v hv
    cases hp : s.place v <;> rw [hp] at hv <;> first | rfl | exact absurd hv Bool.false_ne_true
  -- nobody owns the word, for an owner's companions would be quiet
  have hunowned : ∀ v, s.lock.ownerHalf ≠ (ids.LThreadId v).toNat := by
    intro v hv
    by_cases htv : t = v
    · have hq := h.quiet_of_owner hv (fun huv => hne (huv.trans htv.symm))
      rw [hloud u hu] at hq
      exact absurd hq (by decide)
    · have hq := h.quiet_of_owner hv htv
      rw [hloud t ht] at hq
      exact absurd hq (by decide)
  have hread : ∀ v, countAccess (s.place v) = true → (s.place v).raises .read = true := by
    intro v hv
    have hfit := h.fits v
    cases hp : s.place v with
    | raise m =>
        rw [hp] at hfit
        cases m with
        | write => exact absurd hfit.1 (hunowned v)
        | read => rfl
    | raising m c =>
        rw [hp] at hfit
        cases m with
        | write => exact absurd hfit.1 (hunowned v)
        | read => rfl
    | lower =>
        rw [hp] at hfit
        exact absurd hfit.1 (hunowned v)
    | lowering c =>
        rw [hp] at hfit
        exact absurd hfit.1 (hunowned v)
    | _ =>
        rw [hp] at hv
        exact absurd hv Bool.false_ne_true
  refine ⟨hread t ht, hread u hu, ?_⟩
  intro v hv
  exact hunowned v ((Lock.ownerHalf_congr (h.flag_of_hold hv)).symm.trans
    (h.accounts.owner_of_write hv))

/-- Two readers have both loaded `LockCount`. -/
theorem count_accesses_apart_readers :
    ∃ s, StepMachine.run (step ThreadIds.two.LThreadId) {} bothRead = some s
      ∧ (s.place false).raises .read = true ∧ (s.place true).raises .read = true := by
  have hsome : (StepMachine.run (step ThreadIds.two.LThreadId) {} bothRead).isSome := by
    decide
  have hat : ∀ s, StepMachine.run (step ThreadIds.two.LThreadId) {} bothRead = some s →
      countAccess (s.place false) = true ∧ countAccess (s.place true) = true := by
    decide
  obtain ⟨s, hs⟩ := Option.isSome_iff_exists.mp hsome
  have hapart := count_accesses_apart ThreadIds.two bothRead s hs (by decide) false true (by decide)
    (hat s hs).1 (hat s hs).2
  exact ⟨s, hs, hapart.1, hapart.2.1⟩

/-! ## §5. The lock after everything is released. -/

/-- **The released lock is free exactly when no read was plain**, also where increments of
`LockCount` are lost: in any interleaving of instructions, once every thread has left the operations
and everything is released, `LockFlag` is `Empty` and `LockCount` is 0 if and only if no
compare-and-exchange of `TryReadLock` ever succeeded. -/
theorem emptied_iff (ids : ThreadIds τ) (as : List (Instruction τ)) (s : LockCode τ)
    (hrun : StepMachine.run (step ids.LThreadId) {} as = some s)
    (hfew : acquisitions (events ids.LThreadId as) < 2 ^ 16) (hout : ∀ t, s.place t = .out)
    (hall : s.holds = []) :
    LockRun.Free s.lock
      ↔ StepMachine.Along (step ids.LThreadId) (fun s a => ¬ PlainRead s a) {} as := by
  obtain ⟨leaks, pending, l, h, -, hleak⟩ := run_settles hrun hfew
  have hflag := h.flag (fun t => by rw [hout]; simp)
  have hcount := h.count (fun t => by rw [hout]; rfl)
  have hcnt : l.LockCount.toNat = leaks := by
    have hc := h.accounts.count
    simp only [hall, RWLock.held_nil] at hc
    exact hc
  have hempty : pending = ∅ := by
    rw [Finset.eq_empty_iff_forall_notMem]
    intro t
    rw [h.mem_pending, hout]
    exact Bool.false_ne_true
  rw [← hleak]
  constructor
  · intro hfree
    refine ⟨?_, hempty⟩
    rw [← hcnt, hcount, hfree.2]
    rfl
  · intro hz
    -- no leak: an owner would still hold its oldest write
    have ho : l.ownerHalf = 0 := by
      by_contra hne
      obtain ⟨t, ht⟩ := h.accounts.bottom hne hz.1
      simp only [hall] at ht
      exact absurd ht (by simp)
    have hr : l.readerHalf = 0 := by
      have hrd := h.accounts.readers
      simp only [hall, RWLock.held_nil] at hrd
      exact hrd
    refine ⟨hflag.symm.trans ((Lock.flag_eq_empty_iff l).mpr ⟨ho, hr⟩), ?_⟩
    rw [← hcount, ← UInt16.toNat_inj, hcnt, hz.1]
    rfl

/-- A write with a nested read, all released. -/
theorem emptied_iff_nested :
    ∃ s, StepMachine.run (step ThreadIds.two.LThreadId) {} nested = some s
      ∧ (LockRun.Free s.lock ↔ StepMachine.Along (step ThreadIds.two.LThreadId)
        (fun s a => ¬ PlainRead s a) {} nested) := by
  have hsome : (StepMachine.run (step ThreadIds.two.LThreadId) {} nested).isSome := by
    decide
  have hend : ∀ s, StepMachine.run (step ThreadIds.two.LThreadId) {} nested = some s →
      (∀ t, s.place t = .out) ∧ s.holds = [] := by
    decide
  obtain ⟨s, hs⟩ := Option.isSome_iff_exists.mp hsome
  exact ⟨s, hs, emptied_iff ThreadIds.two nested s hs (by decide) (hend s hs).1 (hend s hs).2⟩

/-! ## §6. Threads that spin for ever. -/

/-- Places inside an acquisition that has not succeeded yet. -/
def trying : Place → Bool
  | .test _ => true
  | .spin _ => true
  | .exchange _ => true
  | _ => false

/-- Under another thread's ownership an acquisition does not get on. -/
theorem Settles.trying_step (h : Settles ids n leaks pending l s) {t u : τ}
    (ho : s.lock.ownerHalf = (ids.LThreadId t).toNat) (hne : u ≠ t)
    (hu : trying (s.place u) = true) {a : Instruction τ} {s' : LockCode τ}
    (hstep : step ids.LThreadId s a = some s') : trying (s'.place u) = true := by
  have hother : ¬ s.lock.owner = (ids.LThreadId u).toUInt32 := by
    rw [Lock.owner_eq_iff, ho]
    exact fun htu => hne (ids.distinct (UInt16.toNat_inj.mp htu.symm))
  have hzero : s.lock.ownerHalf ≠ 0 := by
    rw [ho]
    exact LockRun.toNat_ne_zero ids t
  have hinstr := step_eq_some.mp hstep
  cases a with
  | tryLock v m =>
      simp only [instr, Option.ite_none_right_eq_some, Option.some.injEq, Prod.mk.injEq] at hinstr
      obtain ⟨hp, -, rfl⟩ := hinstr
      by_cases huv : u = v
      · rw [huv, hp] at hu
        exact absurd hu Bool.false_ne_true
      · show trying (Function.update s.place v _ u) = true
        rw [Function.update_of_ne huv]
        exact hu
  | tryUnLock v m =>
      simp only [instr, Option.ite_none_right_eq_some, Option.some.injEq, Prod.mk.injEq] at hinstr
      obtain ⟨⟨hp, -⟩, -, rfl⟩ := hinstr
      by_cases huv : u = v
      · rw [huv, hp] at hu
        exact absurd hu Bool.false_ne_true
      · show trying (Function.update s.place v _ u) = true
        rw [Function.update_of_ne huv]
        exact hu
  | next v =>
      by_cases huv : u = v
      · -- its own instruction: the test fails, and so does every compare-and-exchange
        subst huv
        have hr : exec ids.LThreadId s u = some (_, s') := hinstr
        have hself : ∀ p, trying p = true → trying ((s.goto u p).place u) = true := by
          intro p hp
          show trying (Function.update s.place u p u) = true
          rw [Function.update_self]
          exact hp
        cases hp : s.place u with
        | test m =>
            cases m with
            | write =>
                simp only [exec, hp, if_neg hother, Option.some.injEq, Prod.mk.injEq] at hr
                exact hr.2 ▸ hself _ rfl
            | read =>
                simp only [exec, hp, if_neg hother, Option.some.injEq, Prod.mk.injEq] at hr
                exact hr.2 ▸ hself _ rfl
        | spin m =>
            cases m with
            | write =>
                have hfull : ¬ s.lock.LockFlag = LockFlag.Empty := by
                  rw [Lock.flag_eq_empty_iff]
                  exact fun he => hzero he.1
                simp only [exec, hp, if_neg hfull, Option.some.injEq, Prod.mk.injEq] at hr
                exact hr.2 ▸ hself _ rfl
            | read =>
                simp only [exec, hp, Option.some.injEq, Prod.mk.injEq] at hr
                exact hr.2 ▸ hself _ rfl
        | exchange Expected =>
            have hexp : ¬ s.lock.LockFlag = Expected := by
              intro heq
              have hfit := h.fits u
              rw [hp, ← heq] at hfit
              have hsmall : s.lock.LockFlag.toNat < 65536 := hfit
              apply hzero
              unfold Lock.ownerHalf
              omega
            simp only [exec, hp, if_neg hexp, Option.some.injEq, Prod.mk.injEq] at hr
            exact hr.2 ▸ hself _ rfl
        | _ =>
            rw [hp] at hu
            exact absurd hu Bool.false_ne_true
      · rw [(exec_other hinstr huv).1]
        exact hu

/-- The word has the number of `t`, and `LockCount` has leaked. -/
def Stale (ids : ThreadIds τ) (t : τ) (n : Nat) (s : LockCode τ) : Prop :=
  ∃ leaks pending l, Settles ids n leaks pending l s ∧ leaks ≠ 0
    ∧ l.ownerHalf = (ids.LThreadId t).toNat

/-- In a stale state the settled word's owner is the word's. -/
theorem Settles.owner_of_settled (h : Settles ids n leaks pending l s) {t : τ}
    (ho : l.ownerHalf = (ids.LThreadId t).toNat) :
    s.lock.ownerHalf = (ids.LThreadId t).toNat := by
  refine (Lock.ownerHalf_congr (h.flag ?_)).symm.trans ho
  intro u hu
  have hfit := h.fits u
  rw [hu] at hfit
  obtain ⟨hz, -⟩ := (Lock.flag_eq_empty_iff l).mp hfit.2
  exact LockRun.toNat_ne_zero ids t (ho.symm.trans hz)

/-- A stale owner stays. -/
theorem Stale.step {t : τ} (h : Stale ids t n s) {a : Instruction τ} {s' : LockCode τ}
    (hstep : step ids.LThreadId s a = some s')
    (hn : n + acquisitions (event ids.LThreadId s a) < 65536) :
    Stale ids t (n + acquisitions (event ids.LThreadId s a)) s' := by
  obtain ⟨leaks, pending, l, hs, hl, ho⟩ := h
  obtain ⟨leaks', pending', l', hs', -, -, hl', ho'⟩ := step_leads hs hstep hn
  refine ⟨leaks', pending', l', hs', hl' hl, (ho' ?_ (Or.inr hl)).trans ho⟩
  intro hempty
  obtain ⟨hz, -⟩ := (Lock.flag_eq_empty_iff l).mp hempty
  exact LockRun.toNat_ne_zero ids t (ho.symm.trans hz)

/-- **An owner that holds nothing keeps the lock for ever.**  If the owner test succeeds for a thread
that is outside the operations and holds no write, then in every continuation with fewer than 2^16
acquisitions in all, whatever the threads do: the word keeps that thread's number, nobody else gets
the lock in either mode, and an acquisition another thread is inside of never returns. -/
theorem stale_owner_forever (ids : ThreadIds τ) (as bs : List (Instruction τ)) (s s' : LockCode τ)
    (hrun : StepMachine.run (step ids.LThreadId) {} as = some s)
    (hrun' : StepMachine.run (step ids.LThreadId) s bs = some s')
    (hfew : acquisitions (events ids.LThreadId (as ++ bs)) < 2 ^ 16) (t : τ)
    (howner : s.lock.owner = (ids.LThreadId t).toUInt32) (hout : s.place t = .out)
    (hnone : (t, Mode.write) ∉ s.holds) :
    s'.lock.owner = (ids.LThreadId t).toUInt32 ∧ (∀ e ∈ s'.holds, e.1 = t)
      ∧ ∀ u, u ≠ t → trying (s.place u) = true → trying (s'.place u) = true := by
  have hsplit : events ids.LThreadId (as ++ bs) = events ids.LThreadId as
      ++ StepMachine.emitted (step ids.LThreadId) (event ids.LThreadId) s bs :=
    StepMachine.emitted_append_of_run hrun bs
  rw [hsplit, RWLock.acquisitions_append] at hfew
  obtain ⟨leaks, pending, l, h, -, -⟩ := run_settles hrun (by omega)
  have ho := (Lock.owner_eq_iff _ _).mp howner
  have hlo : l.ownerHalf = (ids.LThreadId t).toNat :=
    (Lock.ownerHalf_congr (h.flag_of_owner ho (by rw [hout]; simp))).trans ho
  -- without a leak the owner's oldest hold would be a write
  have hl : leaks ≠ 0 := by
    intro hz
    subst hz
    exact hnone (h.accounts.write_of_owner hlo)
  have hkeep := run_counted
    (Q := fun n s' => Stale ids t n s'
      ∧ ∀ u, u ≠ t → trying (s.place u) = true → trying (s'.place u) = true)
    (fun n m a m' hQ hstep hn => ⟨hQ.1.step hstep hn, fun u hu htry => by
      obtain ⟨_, _, _, hm, -, hmo⟩ := hQ.1
      exact hm.trying_step (hm.owner_of_settled hmo) hu (hQ.2 u hu htry) hstep⟩)
    ⟨⟨leaks, pending, l, h, hl, hlo⟩, fun _ _ => id⟩ hrun' hfew
  obtain ⟨⟨_, _, _, h', -, hlo'⟩, htry⟩ := hkeep
  have ho' := h'.owner_of_settled hlo'
  exact ⟨(Lock.owner_eq_iff _ _).mpr ho', h'.all_of_owner ho', htry⟩

/-- After one plain read the other thread's write is never given up: the first thread's attempt
spins. -/
theorem stale_owner_forever_read :
    ∃ s s', StepMachine.run (step ThreadIds.two.LThreadId) {} readThenWrite = some s
      ∧ StepMachine.run (step ThreadIds.two.LThreadId) s attempt = some s'
      ∧ s'.lock.owner = (ThreadIds.two.LThreadId true).toUInt32 := by
  have hsome : ((StepMachine.run (step ThreadIds.two.LThreadId) {} readThenWrite).bind
      (fun s => StepMachine.run (step ThreadIds.two.LThreadId) s attempt)).isSome := by
    decide
  have hend : ∀ s, StepMachine.run (step ThreadIds.two.LThreadId) {} readThenWrite = some s →
      s.lock.owner = (ThreadIds.two.LThreadId true).toUInt32 ∧ s.place true = .out
        ∧ (true, Mode.write) ∉ s.holds := by
    decide
  obtain ⟨s', hs'⟩ := Option.isSome_iff_exists.mp hsome
  obtain ⟨s, hs, hrun'⟩ := Option.bind_eq_some_iff.mp hs'
  obtain ⟨howner, hout, hnone⟩ := hend s hs
  exact ⟨s, s', hs, hrun', (stale_owner_forever ThreadIds.two readThenWrite attempt s s' hs hrun'
    (by decide) true howner hout hnone).1⟩

/-- `t` has a read on a word without owner, and is about to make, or to repeat, the
compare-and-exchange of `TryWriteLock`. -/
def Upgrading (ids : ThreadIds τ) (t : τ) (n : Nat) (s : LockCode τ) : Prop :=
  (∃ leaks pending l, Settles ids n leaks pending l s ∧ l.ownerHalf = 0)
    ∧ (t, Mode.read) ∈ s.holds ∧ (s.place t = .test .write ∨ s.place t = .spin .write)

/-- A reader's own word is not empty and has no owner. -/
theorem Upgrading.word {t : τ} (h : Upgrading ids t n s) :
    s.lock.ownerHalf = 0 ∧ s.lock.LockFlag ≠ LockFlag.Empty := by
  obtain ⟨⟨leaks, pending, l, hs, ho⟩, hread, -⟩ := h
  have hflag := hs.flag_of_hold hread
  have hso := (Lock.ownerHalf_congr hflag).symm.trans ho
  refine ⟨hso, ?_⟩
  intro hempty
  obtain ⟨-, hr⟩ := (Lock.flag_eq_empty_iff l).mp (hflag.trans hempty)
  have hpos := RWLock.held_pos_iff.mpr ⟨t, hread⟩
  have hrd := hs.accounts.readers
  simp only at hrd
  omega

/-- A thread that waits to upgrade goes on waiting, whoever makes the next instruction. -/
theorem Upgrading.step {t : τ} (h : Upgrading ids t n s) {a : Instruction τ} {s' : LockCode τ}
    (hstep : step ids.LThreadId s a = some s')
    (hn : n + acquisitions (event ids.LThreadId s a) < 65536) :
    Upgrading ids t (n + acquisitions (event ids.LThreadId s a)) s' := by
  obtain ⟨hso, hfull⟩ := h.word
  obtain ⟨⟨leaks, pending, l, hs, ho⟩, hread, hplace⟩ := h
  have hflag := hs.flag_of_hold hread
  obtain ⟨leaks', pending', l', hs', -, -, -, ho'⟩ := step_leads hs hstep hn
  have hlo' := (ho' (by rw [hflag]; exact hfull) (Or.inl ho)).trans ho
  refine ⟨⟨leaks', pending', l', hs', hlo'⟩, ?_⟩
  have hother : ¬ s.lock.owner = (ids.LThreadId t).toUInt32 := by
    rw [Lock.owner_eq_iff, hso]
    exact fun hz => LockRun.toNat_ne_zero ids t hz.symm
  have hnotout : s.place t ≠ .out := by
    rcases hplace with hp | hp <;> rw [hp] <;> simp
  have hinstr := step_eq_some.mp hstep
  cases a with
  | tryLock v m =>
      simp only [instr, Option.ite_none_right_eq_some, Option.some.injEq, Prod.mk.injEq] at hinstr
      obtain ⟨hp, -, rfl⟩ := hinstr
      have hvt : t ≠ v := fun hv => hnotout (hv ▸ hp)
      refine ⟨hread, ?_⟩
      show Function.update s.place v _ t = _ ∨ Function.update s.place v _ t = _
      rw [Function.update_of_ne hvt]
      exact hplace
  | tryUnLock v m =>
      simp only [instr, Option.ite_none_right_eq_some, Option.some.injEq, Prod.mk.injEq] at hinstr
      obtain ⟨⟨hp, -⟩, -, rfl⟩ := hinstr
      have hvt : t ≠ v := fun hv => hnotout (hv ▸ hp)
      refine ⟨hread, ?_⟩
      show Function.update s.place v _ t = _ ∨ Function.update s.place v _ t = _
      rw [Function.update_of_ne hvt]
      exact hplace
  | next v =>
      by_cases hvt : t = v
      · -- its own instruction: the test fails, or the compare-and-exchange finds its own read
        subst hvt
        have hr : exec ids.LThreadId s t = some (_, s') := hinstr
        have hgoto : s' = s.goto t (.spin .write) := by
          rcases hplace with hp | hp
          · simp only [exec, hp, if_neg hother, Option.some.injEq, Prod.mk.injEq] at hr
            exact hr.2.symm
          · simp only [exec, hp, if_neg hfull, Option.some.injEq, Prod.mk.injEq] at hr
            exact hr.2.symm
        rw [hgoto]
        exact ⟨hread, Or.inr (Function.update_self t _ s.place)⟩
      · obtain ⟨hp, hm⟩ := exec_other hinstr hvt
        rw [hp, ← RWLock.mem_modes_iff, hm, RWLock.mem_modes_iff]
        exact ⟨hread, hplace⟩

end LockCode

end YServerCore
