/-
  YServerCore.Lock.Threads — any number of threads on one `Lock`.

  A state is the lock and the list of acquisitions that are not released yet; a step is one
  successful `TryWriteLock`, `TryReadLock`, `TryWriteUnLock` or `TryReadUnLock`, and a thread gives
  its acquisitions back in reverse order.

  The invariant `Accounts` balances the word and the counter against the holds.  The counter is
  allowed to be too large by a number of `leaks`: a read that enters by the compare-and-exchange
  raises `LockCount`, and no read unlock ever takes it down again.  With a leak the word may keep
  an owner that holds nothing; without one the oldest hold under an owner is a write.

  Main results:
    * `step_accounts` — one step keeps the balance; exactly the plain reads leak.
    * `run_refines` — every run with fewer than 2^16 acquisitions is a run of the abstract lock.
    * `writer_alone` — mutual exclusion of the four operations.
    * `released_free_iff` — the released lock is free again exactly when no read was plain.
-/
import YServerCore.Lib.RWLock
import YServerCore.Lock.Lock

namespace YServerCore

open RWLock (Mode Action Holds held top pop acquisitions)

/-! ## §1. The machine. -/

/-- The operation by which a mode is acquired. -/
def Lock.tryLock : Mode → UInt16 → Lock → Option Lock
  | .write => Lock.TryWriteLock
  | .read => Lock.TryReadLock

/-- The operation by which a mode is released. -/
def Lock.tryUnLock : Mode → Lock → Lock
  | .write => Lock.TryWriteUnLock
  | .read => Lock.TryReadUnLock

/-- Threads with pairwise distinct, nonzero `LThreadId`s. -/
structure ThreadIds (τ : Type*) where
  LThreadId : τ → UInt16
  distinct : Function.Injective LThreadId
  nonzero : ∀ t, LThreadId t ≠ 0

/-- Two threads, with the ids 1 and 2. -/
def ThreadIds.two : ThreadIds Bool where
  LThreadId t := if t then 2 else 1
  distinct := by
    intro t u
    cases t <;> cases u <;> decide
  nonzero := by decide

/-- A lock and the acquisitions of its threads that are not released. -/
structure LockRun (τ : Type*) where
  lock : Lock := {}
  holds : Holds τ := []
  deriving DecidableEq, Repr

namespace LockRun

variable {τ : Type*} (LThreadId : τ → UInt16)

/-- One successful lock operation of one thread. -/
def step [DecidableEq τ] (s : LockRun τ) : Action τ → Option (LockRun τ)
  | .acquire t m => (s.lock.tryLock m (LThreadId t)).map (fun l => ⟨l, (t, m) :: s.holds⟩)
  | .release t m =>
      if top s.holds t = some m then some ⟨s.lock.tryUnLock m, pop s.holds t⟩ else none

/-- A read is taken only by a thread that holds a write already. -/
def ReadsUnderOwnWrite (s : LockRun τ) : Action τ → Prop
  | .acquire t .read => (t, Mode.write) ∈ s.holds
  | _ => True

/-! ## §2. The balance of word, counter and holds. -/

/-- The word and the counter against the holds, after at most `n` acquisitions of which `leaks`
entered as plain reads. -/
structure Accounts (n leaks : Nat) (s : LockRun τ) : Prop where
  readers : s.lock.readerHalf = held .read s.holds
  count : s.lock.LockCount.toNat = leaks + held .write s.holds
  few_writes : leaks + held .write s.holds ≤ n
  few_reads : held .read s.holds ≤ n
  unowned : s.lock.ownerHalf = 0 → held .write s.holds = 0
  owned : s.lock.ownerHalf ≠ 0 → ∀ e ∈ s.holds, (LThreadId e.1).toNat = s.lock.ownerHalf
  bottom : s.lock.ownerHalf ≠ 0 → leaks = 0 → ∃ t, s.holds.getLast? = some (t, Mode.write)

theorem accounts_init : Accounts LThreadId 0 0 ({} : LockRun τ) where
  readers := rfl
  count := rfl
  few_writes := Nat.le_refl 0
  few_reads := Nat.le_refl 0
  unowned _ := rfl
  owned _ e he := by simp at he
  bottom h _ := absurd (show ({} : Lock).ownerHalf = 0 from rfl) h

theorem toNat_ne_zero (ids : ThreadIds τ) (t : τ) : (ids.LThreadId t).toNat ≠ 0 := by
  intro h
  exact ids.nonzero t (UInt16.toNat_inj.mp h)

variable {LThreadId} {n leaks : Nat} {s : LockRun τ}

/-- A word without owner and without readers has no holds. -/
theorem Accounts.holds_eq_nil (h : Accounts LThreadId n leaks s)
    (ho : s.lock.ownerHalf = 0) (hr : s.lock.readerHalf = 0) : s.holds = [] := by
  have hw := h.unowned ho
  have hrd := h.readers
  have hlen := RWLock.held_add_held s.holds
  exact List.length_eq_zero_iff.mp (by omega)

/-- A word without owner has no write among its holds. -/
theorem Accounts.no_write (h : Accounts LThreadId n leaks s) (h₀ : s.lock.ownerHalf = 0) (u : τ) :
    (u, Mode.write) ∉ s.holds := by
  intro hu
  have hpos := RWLock.held_pos_iff.mpr ⟨u, hu⟩
  have hnone := h.unowned h₀
  omega

variable {ids : ThreadIds τ}

/-- Under an owner, the holds are all of the thread with the owner's id. -/
theorem Accounts.all_of_owner (h : Accounts ids.LThreadId n leaks s) {t : τ}
    (ho : s.lock.ownerHalf = (ids.LThreadId t).toNat) : ∀ e ∈ s.holds, e.1 = t := by
  intro e he
  have hid := h.owned (by rw [ho]; exact toNat_ne_zero ids t) e he
  exact ids.distinct (UInt16.toNat_inj.mp (hid.trans ho))

/-- A write hold makes its thread the owner. -/
theorem Accounts.owner_of_write (h : Accounts ids.LThreadId n leaks s) {t : τ}
    (hw : (t, Mode.write) ∈ s.holds) : s.lock.ownerHalf = (ids.LThreadId t).toNat := by
  have hne : s.lock.ownerHalf ≠ 0 := fun h₀ => h.no_write h₀ t hw
  exact (h.owned hne _ hw).symm

/-- Without a leak, an owner holds a write. -/
theorem Accounts.write_of_owner (h : Accounts ids.LThreadId n 0 s) {t : τ}
    (ho : s.lock.ownerHalf = (ids.LThreadId t).toNat) : (t, Mode.write) ∈ s.holds := by
  obtain ⟨u, hu⟩ := h.bottom (by rw [ho]; exact toNat_ne_zero ids t) rfl
  have hmem := List.mem_of_getLast? hu
  have hut : u = t := h.all_of_owner ho _ hmem
  exact hut ▸ hmem

/-! ## §3. One step keeps the balance. -/

/-- A hold more of the thread that owns the word and has all the holds. -/
theorem Accounts.push_owned (h : Accounts ids.LThreadId n leaks s) {t : τ} {m : Mode} {l : Lock}
    (ho : l.ownerHalf = (ids.LThreadId t).toNat) (hall : ∀ e ∈ s.holds, e.1 = t)
    (hr : l.readerHalf = held .read ((t, m) :: s.holds))
    (hc : l.LockCount.toNat = leaks + held .write ((t, m) :: s.holds))
    (hbottom : leaks = 0 → ∃ u, ((t, m) :: s.holds).getLast? = some (u, Mode.write)) :
    Accounts ids.LThreadId (n + 1) leaks ⟨l, (t, m) :: s.holds⟩ := by
  have hfw := h.few_writes
  have hfr := h.few_reads
  refine ⟨hr, hc, ?_, ?_, ?_, ?_, fun _ => hbottom⟩
  · cases m <;> simp <;> omega
  · cases m <;> simp <;> omega
  · intro h0
    exact absurd (ho.symm.trans h0) (toNat_ne_zero ids t)
  · -- the new hold is of the owner, and so are all old ones
    intro _ e he
    rcases List.mem_cons.mp he with rfl | he
    · exact ho.symm
    · rw [hall e he]
      exact ho.symm

/-- Under an owner, the oldest hold stays the oldest. -/
theorem Accounts.bottom_push (h : Accounts ids.LThreadId n leaks s) {t : τ} {m : Mode}
    (ho : s.lock.ownerHalf = (ids.LThreadId t).toNat) (hl : leaks = 0) :
    ∃ u, ((t, m) :: s.holds).getLast? = some (u, Mode.write) := by
  obtain ⟨u, hu⟩ := h.bottom (by rw [ho]; exact toNat_ne_zero ids t) hl
  exact ⟨u, by simp [List.getLast?_cons, hu]⟩

theorem Accounts.acquire_write (h : Accounts ids.LThreadId n leaks s) (hn : n + 1 < 65536)
    {t : τ} {l : Lock} (hop : s.lock.TryWriteLock (ids.LThreadId t) = some l) :
    Accounts ids.LThreadId (n + 1) leaks ⟨l, (t, .write) :: s.holds⟩
      ∧ RWLock.Admits s.holds t .write := by
  have hcount := h.count
  have hfw := h.few_writes
  obtain ⟨hc, ho, hr, hcase⟩ := Lock.TryWriteLock_spec hop (by omega)
  -- a re-entry finds only the caller's holds, a first entry finds none
  have hall : ∀ e ∈ s.holds, e.1 = t := by
    rcases hcase with howner | ⟨h₀, h₁⟩
    · exact h.all_of_owner howner
    · rw [h.holds_eq_nil h₀ h₁]
      simp
  refine ⟨h.push_owned ho hall ?_ ?_ ?_, hall⟩
  · -- no reader comes in, the counter goes up with the writes
    rw [hr, h.readers]
    simp
  · rw [hc, hcount]
    simp
    omega
  · intro hl
    rcases hcase with howner | ⟨h₀, h₁⟩
    · exact h.bottom_push howner hl
    · exact ⟨t, by rw [h.holds_eq_nil h₀ h₁]; rfl⟩

/-- A read nested in the caller's own write. -/
theorem Accounts.acquire_read_nested (h : Accounts ids.LThreadId n leaks s) {t : τ} {l : Lock}
    (howner : s.lock.ownerHalf = (ids.LThreadId t).toNat)
    (hr : l.readerHalf = s.lock.readerHalf + 1) (ho : l.ownerHalf = s.lock.ownerHalf)
    (hc : l.LockCount.toNat = s.lock.LockCount.toNat) :
    Accounts ids.LThreadId (n + 1) leaks ⟨l, (t, .read) :: s.holds⟩ := by
  apply h.push_owned (ho.trans howner) (h.all_of_owner howner)
  · rw [hr, h.readers]
    simp
  · rw [hc, h.count]
    simp
  · intro hl
    exact h.bottom_push howner hl

/-- A plain read: `LockCount` goes up and stays up. -/
theorem Accounts.acquire_read_plain (h : Accounts ids.LThreadId n leaks s) {t : τ} {l : Lock}
    (h₀ : s.lock.ownerHalf = 0) (hr : l.readerHalf = s.lock.readerHalf + 1)
    (ho : l.ownerHalf = s.lock.ownerHalf)
    (hc : l.LockCount.toNat = s.lock.LockCount.toNat + 1) :
    Accounts ids.LThreadId (n + 1) (leaks + 1) ⟨l, (t, .read) :: s.holds⟩ := by
  have hfw := h.few_writes
  have hfr := h.few_reads
  refine ⟨?_, ?_, ?_, ?_, ?_, ?_, ?_⟩
  · rw [hr, h.readers]
    simp
  · rw [hc, h.count]
    simp
    omega
  · simp
    omega
  · simp
    omega
  · intro _
    simp [h.unowned h₀]
  · intro hne
    exact absurd (ho.trans h₀) hne
  · intro _ hl
    exact absurd hl (by omega)

/-- A read leaks exactly when its thread holds no write. -/
theorem Accounts.acquire_read (h : Accounts ids.LThreadId n leaks s) (hn : n + 1 < 65536)
    {t : τ} {l : Lock} (hop : s.lock.TryReadLock (ids.LThreadId t) = some l) :
    (∃ leaks', Accounts ids.LThreadId (n + 1) leaks' ⟨l, (t, .read) :: s.holds⟩
        ∧ (leaks' = 0 ↔ leaks = 0 ∧ (t, Mode.write) ∈ s.holds))
      ∧ RWLock.Admits s.holds t .read := by
  have hcount := h.count
  have hfw := h.few_writes
  have hfr := h.few_reads
  have hreaders := h.readers
  obtain ⟨hr, ho, hcase⟩ := Lock.TryReadLock_spec hop (by omega) (by omega)
  rcases hcase with ⟨howner, hc⟩ | ⟨-, h₀, hc⟩
  · refine ⟨⟨leaks, h.acquire_read_nested howner hr ho hc, ?_⟩,
      fun e he _ => h.all_of_owner howner e he⟩
    -- the owner holds a write, so the read is covered by it
    constructor
    · intro hl
      subst hl
      exact ⟨rfl, h.write_of_owner howner⟩
    · exact fun hl => hl.1
  · have hno := h.no_write h₀
    refine ⟨⟨leaks + 1, h.acquire_read_plain h₀ hr ho hc, ?_⟩, ?_⟩
    · exact ⟨fun hl => absurd hl (by omega), fun hl => absurd hl.2 (hno t)⟩
    · intro e he hk
      have hwrite : (e.1, Mode.write) ∈ s.holds := by
        rw [← hk]
        exact he
      exact absurd hwrite (hno e.1)

variable [DecidableEq τ]

/-- Releasing a hold with the owner half left as it was. -/
theorem Accounts.release_same_owner (h : Accounts ids.LThreadId n leaks s) {t : τ} {m : Mode}
    (htop : top s.holds t = some m) {l : Lock} (ho : l.ownerHalf = s.lock.ownerHalf)
    (hr : l.readerHalf = held .read (pop s.holds t))
    (hc : l.LockCount.toNat = leaks + held .write (pop s.holds t))
    (hrest : s.lock.ownerHalf ≠ 0 → leaks = 0 → pop s.holds t ≠ []) :
    Accounts ids.LThreadId n leaks ⟨l, pop s.holds t⟩ := by
  have hw := RWLock.held_of_top htop .write
  have hrd := RWLock.held_of_top htop .read
  have hfw := h.few_writes
  have hfr := h.few_reads
  have hsub : ∀ e ∈ pop s.holds t, e ∈ s.holds := fun e he =>
    (RWLock.pop_sublist s.holds t).subset he
  refine ⟨hr, hc, ?_, ?_, ?_, ?_, ?_⟩
  · show leaks + held .write (pop s.holds t) ≤ n
    omega
  · show held .read (pop s.holds t) ≤ n
    omega
  · intro h0
    have := h.unowned (ho.symm.trans h0)
    show held .write (pop s.holds t) = 0
    omega
  · intro hne e he
    rw [ho] at hne ⊢
    exact h.owned hne e (hsub e he)
  · intro hne hl
    rw [ho] at hne
    obtain ⟨u, hu⟩ := h.bottom hne hl
    -- the owner has all the holds, so the released one stands in front
    have hid : s.lock.ownerHalf = (ids.LThreadId t).toNat :=
      (h.owned hne _ (RWLock.mem_of_top htop)).symm
    have hcons := RWLock.eq_cons_pop htop (h.all_of_owner hid)
    exact ⟨u, (RWLock.getLast?_pop hcons (hrest hne hl)).trans hu⟩

theorem Accounts.release_write (h : Accounts ids.LThreadId n leaks s) {t : τ}
    (htop : top s.holds t = some .write) :
    Accounts ids.LThreadId n leaks ⟨s.lock.TryWriteUnLock, pop s.holds t⟩ := by
  have hw := RWLock.held_of_top htop .write
  have hr := RWLock.held_of_top htop .read
  simp only [if_true, reduceCtorEq, if_false] at hw hr
  have hcount := h.count
  have hfw := h.few_writes
  have hfr := h.few_reads
  obtain ⟨hc, ⟨hone, ho', hr'⟩ | ⟨hmore, ho', hr'⟩⟩ := Lock.TryWriteUnLock_spec
    (l := s.lock) (by omega)
  · -- the word is emptied: no leak, and the released write was the only hold
    have howner := h.owner_of_write (RWLock.mem_of_top htop)
    have hne : s.lock.ownerHalf ≠ 0 := by rw [howner]; exact toNat_ne_zero ids t
    have hnil : pop s.holds t = [] := by
      obtain ⟨u, hu⟩ := h.bottom hne (by omega)
      by_contra hpop
      -- another hold would leave the oldest one, a write, uncounted
      have hcons := RWLock.eq_cons_pop htop (h.all_of_owner howner)
      have hmem := List.mem_of_getLast? ((RWLock.getLast?_pop hcons hpop).trans hu)
      have := RWLock.held_pos_iff.mpr ⟨u, hmem⟩
      omega
    rw [hnil] at hw hr ⊢
    refine ⟨hr', ?_, ?_, ?_, fun _ => rfl, fun h0 => absurd ho' h0, fun h0 => absurd ho' h0⟩
    · rw [hc, hcount, hw]; rfl
    · simp; omega
    · simp
  · -- the word stays: the counter has leaks or further writes behind it
    refine h.release_same_owner htop ho' ?_ ?_ ?_
    · rw [hr', h.readers, hr, Nat.add_zero]
    · rw [hc, hcount, hw]
      rfl
    · intro _ hl hnil
      rw [hnil] at hw
      simp only [RWLock.held_nil] at hw
      omega

theorem Accounts.release_read (h : Accounts ids.LThreadId n leaks s) {t : τ}
    (htop : top s.holds t = some .read) :
    Accounts ids.LThreadId n leaks ⟨s.lock.TryReadUnLock, pop s.holds t⟩ := by
  have hw := RWLock.held_of_top htop .write
  have hr := RWLock.held_of_top htop .read
  simp only [if_true, reduceCtorEq, if_false] at hw hr
  have hreaders := h.readers
  obtain ⟨hr', ho', hc'⟩ := Lock.TryReadUnLock_spec (l := s.lock) (by omega)
  refine h.release_same_owner htop ho' ?_ ?_ ?_
  · rw [hr', hreaders, hr]; rfl
  · rw [hc', h.count, hw, Nat.add_zero]
  · -- the oldest hold is a write, and the released one is not
    intro hne hl hnil
    obtain ⟨u, hu⟩ := h.bottom hne hl
    have := RWLock.held_pos_iff.mpr ⟨u, List.mem_of_getLast? hu⟩
    rw [hnil] at hw
    simp only [RWLock.held_nil] at hw
    omega

/-- **One step**: the balance is kept, the abstract lock takes the same step, and a leak comes
in exactly with a read by a thread that holds no write. -/
theorem step_accounts (h : Accounts ids.LThreadId n leaks s) {a : Action τ} {s' : LockRun τ}
    (hstep : step ids.LThreadId s a = some s') (hn : n + acquisitions [a] < 65536) :
    (∃ leaks', Accounts ids.LThreadId (n + acquisitions [a]) leaks' s'
        ∧ (leaks' = 0 ↔ leaks = 0 ∧ ReadsUnderOwnWrite s a))
      ∧ RWLock.step s.holds a = some s'.holds := by
  cases a with
  | acquire t m =>
      simp only [step, Option.map_eq_some_iff] at hstep
      obtain ⟨l, hop, rfl⟩ := hstep
      cases m with
      | write =>
          obtain ⟨hacc, hadm⟩ := h.acquire_write hn hop
          exact ⟨⟨leaks, hacc, by simp [ReadsUnderOwnWrite]⟩, if_pos hadm⟩
      | read =>
          obtain ⟨hacc, hadm⟩ := h.acquire_read hn hop
          exact ⟨hacc, if_pos hadm⟩
  | release t m =>
      simp only [step, Option.ite_none_right_eq_some, Option.some.injEq] at hstep
      obtain ⟨htop, rfl⟩ := hstep
      refine ⟨⟨leaks, ?_, by simp [ReadsUnderOwnWrite]⟩, if_pos htop⟩
      cases m with
      | write => exact h.release_write htop
      | read => exact h.release_read htop

/-! ## §4. Whole runs. -/

/-- **The run lemma.**  After any run with fewer than 2^16 acquisitions the balance holds, with a
leak exactly when some read was plain, and the abstract lock can make the same run. -/
theorem run_accounts {as : List (Action τ)} {t : LockRun τ}
    (hrun : StepMachine.run (step ids.LThreadId) {} as = some t) (hfew : acquisitions as < 65536) :
    (∃ leaks, Accounts ids.LThreadId (acquisitions as) leaks t
        ∧ (leaks = 0 ↔ StepMachine.Along (step ids.LThreadId) ReadsUnderOwnWrite {} as))
      ∧ StepMachine.run RWLock.step [] as = some t.holds := by
  revert hfew
  refine StepMachine.run_history
    (P := fun as t => acquisitions as < 65536 →
      (∃ leaks, Accounts ids.LThreadId (acquisitions as) leaks t
        ∧ (leaks = 0 ↔ StepMachine.Along (step ids.LThreadId) ReadsUnderOwnWrite {} as))
      ∧ StepMachine.run RWLock.step [] as = some t.holds) ?_ ?_ hrun
  · exact fun _ => ⟨⟨0, accounts_init ids.LThreadId, by simp⟩, rfl⟩
  · intro as s a s' hpast ih hstep hlt
    rw [RWLock.acquisitions_append] at hlt ⊢
    -- the bound on all acquisitions bounds those of the past and of this step
    obtain ⟨⟨leaks, hacc, hleaks⟩, habs⟩ := ih (by omega)
    obtain ⟨⟨leaks', hacc', hleaks'⟩, habs'⟩ := step_accounts hacc hstep hlt
    refine ⟨⟨leaks', hacc', ?_⟩, (StepMachine.run_snoc_eq_some as a).mpr ⟨_, habs, habs'⟩⟩
    rw [hleaks', hleaks, StepMachine.along_snoc_of_run hpast]

/-- Every run of the code's lock is a run of the abstract lock, with the same holds. -/
theorem run_refines {as : List (Action τ)} {t : LockRun τ}
    (hrun : StepMachine.run (step ids.LThreadId) {} as = some t) (hfew : acquisitions as < 65536) :
    StepMachine.run RWLock.step [] as = some t.holds :=
  (run_accounts hrun hfew).2

/-- **A writer is alone**: while a thread has an unreleased write acquisition, no other thread
has an unreleased acquisition of either mode. -/
theorem writer_alone (ids : ThreadIds τ) (as : List (Action τ)) (s : LockRun τ)
    (hrun : StepMachine.run (step ids.LThreadId) {} as = some s)
    (hfew : acquisitions as < 2 ^ 16) :
    ∀ t u m, (t, Mode.write) ∈ s.holds → (u, m) ∈ s.holds → u = t :=
  RWLock.run_exclusive RWLock.exclusive_nil (run_refines hrun hfew)

/-- The first thread nests a read in its write while the second one waits. -/
theorem writer_alone_nested :
    StepMachine.run (step ThreadIds.two.LThreadId) {}
        [.acquire false .write, .acquire false .read]
      = some ⟨⟨65537, 1⟩, [(false, .read), (false, .write)]⟩
    ∧ RWLock.Exclusive [(false, Mode.read), (false, .write)] := by
  have hrun : StepMachine.run (step ThreadIds.two.LThreadId) {}
      [.acquire false .write, .acquire false .read]
      = some ⟨⟨65537, 1⟩, [(false, .read), (false, .write)]⟩ := by
    decide
  exact ⟨hrun, writer_alone ThreadIds.two _ _ hrun (by decide)⟩

/-! ## §5. When a released lock is free again. -/

/-- A free lock: an empty word and a zero counter. -/
def Free (l : Lock) : Prop := l.LockFlag = LockFlag.Empty ∧ l.LockCount = 0

instance (l : Lock) : Decidable (Free l) := inferInstanceAs (Decidable (_ ∧ _))

/-- Any thread can take the write lock, and giving it back frees the lock again. -/
def Reusable (ids : ThreadIds τ) (l : Lock) : Prop :=
  ∀ t, ∃ l', l.TryWriteLock (ids.LThreadId t) = some l' ∧ Free l'.TryWriteUnLock

omit [DecidableEq τ] in
/-- A free lock is taken by anybody and free again after the matching unlock. -/
theorem Free.reusable (ids : ThreadIds τ) {l : Lock} (h : Free l) : Reusable ids l := by
  obtain ⟨hflag, hcount⟩ := h
  intro t
  have ho : l.ownerHalf = 0 := ((Lock.flag_eq_empty_iff l).mp hflag).1
  have hother : ¬ l.owner = (ids.LThreadId t).toUInt32 := by
    rw [Lock.owner_eq_iff, ho]
    exact fun h => toNat_ne_zero ids t h.symm
  refine ⟨⟨_, l.LockCount + 1⟩, by rw [Lock.TryWriteLock, if_neg hother, if_pos hflag], ?_⟩
  rw [hcount]
  rw [show (0 : UInt16) + 1 = 1 from rfl, Lock.TryWriteUnLock_one]
  exact ⟨rfl, rfl⟩

/-- **The released lock is free exactly when no read was plain.**  In a run with fewer than 2^16
acquisitions that has released them all, `LockFlag` is `Empty`, `LockCount` is 0 and the lock can
be taken and freed by anybody, if and only if every read was taken under the reader's own
write: a plain read leaves `LockCount` one too large for ever. -/
theorem released_free_iff (ids : ThreadIds τ) (as : List (Action τ)) (s : LockRun τ)
    (hrun : StepMachine.run (step ids.LThreadId) {} as = some s)
    (hfew : acquisitions as < 2 ^ 16) (hall : s.holds = []) :
    (Free s.lock ∧ Reusable ids s.lock)
      ↔ StepMachine.Along (step ids.LThreadId) ReadsUnderOwnWrite {} as := by
  obtain ⟨⟨leaks, hacc, hleaks⟩, -⟩ := run_accounts hrun hfew
  have hcount : s.lock.LockCount.toNat = leaks := by
    rw [hacc.count, hall]
    rfl
  rw [← hleaks]
  refine ⟨fun h => ?_, fun h => ?_⟩
  · rw [← hcount, h.1.2]
    rfl
  · -- no leak: an owner would still hold a write, and no hold is left
    have ho : s.lock.ownerHalf = 0 := by
      by_contra hne
      obtain ⟨u, hu⟩ := hacc.bottom hne h
      rw [hall] at hu
      simp at hu
    have hr : s.lock.readerHalf = 0 := by
      rw [hacc.readers, hall]
      rfl
    have hfree : Free s.lock :=
      ⟨(Lock.flag_eq_empty_iff s.lock).mpr ⟨ho, hr⟩, UInt16.toNat_inj.mp (hcount.trans h)⟩
    exact ⟨hfree, hfree.reusable ids⟩

/-- A write with a nested read, all released: the lock is free. -/
theorem released_free_nested :
    (Free {} ∧ Reusable ThreadIds.two {})
      ↔ StepMachine.Along (step ThreadIds.two.LThreadId) ReadsUnderOwnWrite {}
          [.acquire false .write, .acquire false .read, .release false .read,
            .release false .write] :=
  released_free_iff ThreadIds.two _ {} (by decide) (by decide) rfl

/-- One read taken and released leaves `LockCount` at 1; the other thread's write release then
leaves its id in `LockFlag`. -/
theorem released_read_leaks :
    StepMachine.run (step ThreadIds.two.LThreadId) {}
        [.acquire false .read, .release false .read] = some ⟨⟨0, 1⟩, []⟩
      ∧ ¬ Free ⟨0, 1⟩ ∧ ¬ Reusable ThreadIds.two ⟨0, 1⟩ := by
  refine ⟨by decide, by decide, fun h => ?_⟩
  obtain ⟨l, hl, hfree⟩ := h true
  rw [show Lock.TryWriteLock (ThreadIds.two.LThreadId true) ⟨0, 1⟩ = some ⟨131072, 2⟩ from by decide,
    Option.some.injEq] at hl
  subst hl
  exact absurd hfree (by decide)

end LockRun

end YServerCore
