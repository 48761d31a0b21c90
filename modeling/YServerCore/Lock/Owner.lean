/-
  YServerCore.Lock.Owner — whom the owner test takes for the owner.

  A thread draws its `LThreadId` from a 32-bit counter and keeps 16 bits of it; a thread that has
  not called `InitLocalThread` has 0.  The test at the head of `TryWriteLock` and `TryReadLock`
  compares this number with the upper half of `LockFlag`, which is 0 while nobody writes.

  Main results:
    * `toNat_LThreadId` — which number the threads draw.
    * `identified_iff` — on a free lock the test fails for every thread exactly when all threads
      have drawn a number and fewer than 2^16 have.
    * `recognised_step` — what one operation does to the test.
    * `only_owner_recognised` — the test succeeds for owners alone in every run whose last write
      unlocks find `LockCount` at 1.
-/
import Mathlib.Data.List.Induction
import YServerCore.Lock.Threads

namespace YServerCore

open RWLock (Mode Action top pop)

/-! ## §1. The numbers of threads. -/

/-- `Thread::InitLocalThread`: the counter behind it, and the calling thread's `LThreadId`. -/
def InitLocalThread (SThreadId : UInt32) : UInt32 × UInt16 := (SThreadId + 1, SThreadId.toUInt16)

section Numbers

variable {τ : Type*} [DecidableEq τ]

/-- The counter and the numbers of the threads, after these threads have called `InitLocalThread` one
after another. -/
def initThreads (order : List τ) : UInt32 × (τ → UInt16) :=
  order.foldl (fun s t =>
    ((InitLocalThread s.1).1, Function.update s.2 t (InitLocalThread s.1).2)) (1, fun _ => 0)

/-- `LThreadId` of each thread. -/
def LThreadId (order : List τ) : τ → UInt16 := (initThreads order).2

theorem initThreads_snoc (order : List τ) (t : τ) :
    initThreads (order ++ [t]) = ((initThreads order).1 + 1,
      Function.update (initThreads order).2 t (initThreads order).1.toUInt16) := by
  unfold initThreads
  rw [List.foldl_append]
  rfl

theorem LThreadId_snoc (order : List τ) (t : τ) :
    LThreadId (order ++ [t])
      = Function.update (LThreadId order) t (initThreads order).1.toUInt16 := by
  unfold LThreadId
  rw [initThreads_snoc]

/-- The counter counts the calls, modulo 2^32. -/
theorem toNat_SThreadId (order : List τ) :
    (initThreads order).1.toNat = (order.length + 1) % 4294967296 := by
  induction order using List.reverseRecOn with
  | nil => rfl
  | append_singleton order t ih =>
      rw [initThreads_snoc, UInt32.toNat_add, ih, List.length_append]
      show ((order.length + 1) % 4294967296 + 1) % 4294967296 = (order.length + 1 + 1) % 4294967296
      omega

/-- **The number a thread draws**: its place among the calls, modulo 2^16. -/
theorem toNat_LThreadId {order : List τ} (hnodup : order.Nodup) {t : τ} {i : Nat}
    (h : order[i]? = some t) : (LThreadId order t).toNat = (i + 1) % 65536 := by
  induction order using List.reverseRecOn with
  | nil => exact absurd h (by simp)
  | append_singleton order u ih =>
      rw [LThreadId_snoc]
      have hparts := List.nodup_append.mp hnodup
      by_cases hi : i < order.length
      · -- an earlier thread is not the last one, which alone has drawn since
        rw [List.getElem?_append_left hi] at h
        have hne : t ≠ u := hparts.2.2 t (List.mem_of_getElem? h) u List.mem_cons_self
        rw [Function.update_of_ne hne]
        exact ih hparts.1 h
      · have hlast : i = order.length := by
          have hlt := (List.getElem?_eq_some_iff.mp h).1
          rw [List.length_append, List.length_singleton] at hlt
          omega
        subst hlast
        rw [List.getElem?_concat_length, Option.some.injEq] at h
        subst h
        rw [Function.update_self, UInt32.toNat_toUInt16, toNat_SThreadId]
        omega

/-- A thread that has not called `InitLocalThread` has no number. -/
theorem LThreadId_of_not_mem {order : List τ} {t : τ} (h : t ∉ order) : LThreadId order t = 0 := by
  induction order using List.reverseRecOn with
  | nil => rfl
  | append_singleton order u ih =>
      rw [List.mem_append, not_or, List.mem_singleton] at h
      rw [LThreadId_snoc, Function.update_of_ne h.2]
      exact ih h.1

/-- All threads have called `InitLocalThread`, and they are fewer than 2^16. -/
def Identified (order : List τ) : Prop := (∀ t, t ∈ order) ∧ order.length < 65536

/-- **No thread has the number 0** exactly when all are identified. -/
theorem identified_iff {order : List τ} (hnodup : order.Nodup) :
    Identified order ↔ ∀ t, (LThreadId order t).toNat ≠ 0 := by
  constructor
  · intro h t
    obtain ⟨i, hi⟩ := List.mem_iff_getElem?.mp (h.1 t)
    have hlt := (List.getElem?_eq_some_iff.mp hi).1
    have hfew := h.2
    rw [toNat_LThreadId hnodup hi]
    omega
  · intro h
    constructor
    · intro t
      by_contra hnot
      exact h t (by rw [LThreadId_of_not_mem hnot]; rfl)
    · -- the thread that calls as the 65536th draws a multiple of 2^16
      by_contra hmany
      have hlong : 65535 < order.length := by omega
      have hget : order[65535]? = some (order.get ⟨65535, hlong⟩) := List.getElem?_eq_getElem hlong
      exact h _ (toNat_LThreadId hnodup hget)

/-- Identified threads have different numbers. -/
theorem LThreadId_injective {order : List τ} (hnodup : order.Nodup) (h : Identified order) :
    Function.Injective (LThreadId order) := by
  intro t u htu
  obtain ⟨i, hi⟩ := List.mem_iff_getElem?.mp (h.1 t)
  obtain ⟨j, hj⟩ := List.mem_iff_getElem?.mp (h.1 u)
  have hilt := (List.getElem?_eq_some_iff.mp hi).1
  have hjlt := (List.getElem?_eq_some_iff.mp hj).1
  have hfew := h.2
  have hsame := congrArg UInt16.toNat htu
  rw [toNat_LThreadId hnodup hi, toNat_LThreadId hnodup hj,
    Nat.mod_eq_of_lt (by omega), Nat.mod_eq_of_lt (by omega)] at hsame
  have hij : i = j := by omega
  rw [hij, hj, Option.some.injEq] at hi
  exact hi.symm

end Numbers

/-! ## §2. The owner test. -/

namespace LockRun

variable {τ : Type*}

/-- **Only the owner is recognised**: the owner test succeeds for a thread only if it has an
unreleased write acquisition. -/
def OwnersHold (LThreadId : τ → UInt16) (s : LockRun τ) : Prop :=
  ∀ t, s.lock.owner = (LThreadId t).toUInt32 → (t, Mode.write) ∈ s.holds

/-- The counts of readers stay inside the lower half of the word. -/
def ReadersFit (s : LockRun τ) : Action τ → Prop
  | .acquire _ .write => True
  | .acquire _ .read => s.lock.readerHalf + 1 < 65536
  | .release _ .write => True
  | .release _ .read => 0 < s.lock.readerHalf

instance : (s : LockRun τ) → (a : Action τ) → Decidable (ReadersFit s a)
  | _, .acquire _ .write => isTrue trivial
  | s, .acquire _ .read => inferInstanceAs (Decidable (s.lock.readerHalf + 1 < 65536))
  | _, .release _ .write => isTrue trivial
  | s, .release _ .read => inferInstanceAs (Decidable (0 < s.lock.readerHalf))

variable [DecidableEq τ]

/-- When the thread whose number is in the word releases its last write, `LockCount` is 1. -/
def FreedByLast (LThreadId : τ → UInt16) (s : LockRun τ) : Action τ → Prop
  | .acquire _ _ => True
  | .release _ .read => True
  | .release t .write =>
      s.lock.owner = (LThreadId t).toUInt32 → (t, Mode.write) ∉ pop s.holds t → s.lock.LockCount = 1

instance (LThreadId : τ → UInt16) :
    (s : LockRun τ) → (a : Action τ) → Decidable (FreedByLast LThreadId s a)
  | _, .acquire _ _ => isTrue trivial
  | _, .release _ .read => isTrue trivial
  | _, .release _ .write => inferInstanceAs (Decidable (_ → _ → _))

/-- **What a step does**: an operation that succeeds, and a hold more or less. -/
theorem step_cases {LThreadId : τ → UInt16} {s s' : LockRun τ} {a : Action τ}
    (h : step LThreadId s a = some s') :
    (∃ t m l, a = .acquire t m ∧ s.lock.tryLock m (LThreadId t) = some l
        ∧ s' = ⟨l, (t, m) :: s.holds⟩)
      ∨ ∃ t m, a = .release t m ∧ top s.holds t = some m
        ∧ s' = ⟨s.lock.tryUnLock m, pop s.holds t⟩ := by
  cases a with
  | acquire t m =>
      obtain ⟨l, hl, rfl⟩ := Option.map_eq_some_iff.mp h
      exact Or.inl ⟨t, m, l, rfl, hl, rfl⟩
  | release t m =>
      simp only [step, Option.ite_none_right_eq_some, Option.some.injEq] at h
      exact Or.inr ⟨t, m, rfl, h.1, h.2.symm⟩

/-- A thread's release keeps the writes of the others, and its own below the one released. -/
theorem mem_pop {h : RWLock.Holds τ} {t u : τ} {m : Mode} (htop : top h t = some m)
    (hmem : (u, Mode.write) ∈ h) (hother : u ≠ t ∨ m = .read) : (u, Mode.write) ∈ pop h t := by
  obtain ⟨pre, post, hh, -, hpop⟩ := RWLock.top_eq_some_iff.mp htop
  rw [hh, List.mem_append, List.mem_cons, Prod.mk.injEq] at hmem
  rw [hpop, List.mem_append]
  rcases hmem with hpre | ⟨hut, hm⟩ | hpost
  · exact Or.inl hpre
  · rcases hother with hne | hread
    · exact absurd hut hne
    · rw [hread] at hm
      exact absurd hm (by simp)
  · exact Or.inr hpost

/-- **One operation** keeps the test honest when readers fit and a last write frees the lock. -/
theorem recognised_step {LThreadId : τ → UInt16} (hinj : Function.Injective LThreadId)
    (hnonzero : ∀ t, (LThreadId t).toNat ≠ 0) {s s' : LockRun τ} {a : Action τ}
    (hhold : OwnersHold LThreadId s) (hfreed : FreedByLast LThreadId s a) (hfit : ReadersFit s a)
    (hstep : step LThreadId s a = some s') : OwnersHold LThreadId s' := by
  intro u hu
  rw [Lock.owner_eq_iff] at hu
  unfold OwnersHold at hhold
  simp only [Lock.owner_eq_iff] at hhold
  rcases step_cases hstep with ⟨t, m, l, rfl, hop, rfl⟩ | ⟨t, m, rfl, htop, rfl⟩
  · cases m with
    | write =>
        -- the word has the caller's number now, whether it is a first entry or not
        have howner := (Lock.TryWriteLock_owner hop).1
        have hut : u = t := hinj (UInt16.toNat_inj.mp (hu.symm.trans howner))
        rw [hut]
        exact List.mem_cons_self
    | read =>
        have howner := (Lock.TryReadLock_owner hop hfit).2.1
        exact List.mem_cons_of_mem _ (hhold u (howner.symm.trans hu))
  · cases m with
    | read =>
        have howner := (Lock.TryReadUnLock_spec (l := s.lock) hfit).2.1
        exact mem_pop htop (hhold u (howner.symm.trans hu)) (Or.inr rfl)
    | write =>
        have howner : s.lock.TryWriteUnLock.ownerHalf = (LThreadId u).toNat := hu
        rw [Lock.TryWriteUnLock_owner] at howner
        by_cases hone : s.lock.LockCount = 1
        · rw [if_pos hone] at howner
          exact absurd howner.symm (hnonzero u)
        · rw [if_neg hone] at howner
          by_cases hut : u = t
          · -- the word keeps the number only while the thread has another write
            subst hut
            by_contra hlast
            exact hone (hfreed ((Lock.owner_eq_iff _ _).mpr howner) hlast)
          · exact mem_pop htop (hhold u howner) (Or.inl hut)

/-- A last write that is released with another `LockCount` leaves its thread recognised. -/
theorem freedByLast_of_step {LThreadId : τ → UInt16} {s s' : LockRun τ} {a : Action τ}
    (hstep : step LThreadId s a = some s') (hhold : OwnersHold LThreadId s') :
    FreedByLast LThreadId s a := by
  rcases step_cases hstep with ⟨t, m, l, rfl, -, -⟩ | ⟨t, m, rfl, -, rfl⟩
  · trivial
  · cases m with
    | read => trivial
    | write =>
        intro howner hlast
        by_contra hone
        rw [Lock.owner_eq_iff] at howner
        refine hlast (hhold t ((Lock.owner_eq_iff _ _).mpr ?_))
        show s.lock.TryWriteUnLock.ownerHalf = _
        rw [Lock.TryWriteUnLock_owner, if_neg hone]
        exact howner

omit [DecidableEq τ] in
/-- On a free lock nobody is recognised exactly when nobody has the number 0. -/
theorem ownersHold_free (LThreadId : τ → UInt16) :
    OwnersHold LThreadId ({} : LockRun τ) ↔ ∀ t, (LThreadId t).toNat ≠ 0 := by
  unfold OwnersHold
  simp only [Lock.owner_eq_iff]
  apply forall_congr'
  intro t
  have hfree : ({} : LockRun τ).lock.ownerHalf = 0 := show ({} : Lock).ownerHalf = 0 from rfl
  rw [hfree]
  constructor
  · intro h hzero
    exact absurd (h hzero.symm) (by simp)
  · intro h hzero
    exact absurd hzero.symm h

/-- **The owner test succeeds for owners alone.**  For any threads, of which some have called
`InitLocalThread` in some order, and every interleaving of successful operations with releases in
reverse order: if all threads have called it and fewer than 2^16 have, if a thread whose number is
in the word releases its last write with `LockCount` at 1, and if the counts of readers stay inside
their half, then in every state the test succeeds only for threads with an unreleased write.
The first two are also necessary. -/
theorem only_owner_recognised (order : List τ) (hnodup : order.Nodup) (as : List (Action τ))
    (s : LockRun τ) (hrun : StepMachine.run (step (LThreadId order)) {} as = some s) :
    (Identified order
        → StepMachine.Along (step (LThreadId order))
          (fun s a => FreedByLast (LThreadId order) s a ∧ ReadersFit s a) {} as
        → StepMachine.Safe (step (LThreadId order)) (OwnersHold (LThreadId order)) {} as)
      ∧ (StepMachine.Safe (step (LThreadId order)) (OwnersHold (LThreadId order)) {} as
        → Identified order
          ∧ StepMachine.Along (step (LThreadId order)) (FreedByLast (LThreadId order)) {} as) := by
  constructor
  · intro hid hgood
    have hnonzero := (identified_iff hnodup).mp hid
    apply StepMachine.safe_of_along (I := OwnersHold (LThreadId order)) ?_ (fun _ h => h)
      ((ownersHold_free _).mpr hnonzero) hrun hgood
    intro s a s' hhold hgood hstep
    exact recognised_step (LThreadId_injective hnodup hid) hnonzero hhold hgood.1 hgood.2 hstep
  · intro hsafe
    refine ⟨(identified_iff hnodup).mpr ((ownersHold_free _).mp hsafe.head), hsafe.along ?_⟩
    intro s a s' _ hstep hhold
    exact freedByLast_of_step hstep hhold

/-- Two threads that have drawn numbers, and a write with a nested read: only the writer is
recognised. -/
theorem only_owner_recognised_nested :
    StepMachine.Safe (step (LThreadId [false, true])) (OwnersHold (LThreadId [false, true])) {}
      [.acquire false .write, .acquire false .read, .release false .read, .release false .write] := by
  have hsome : (StepMachine.run (step (LThreadId [false, true])) {}
      [.acquire false .write, .acquire false .read, .release false .read,
        .release false .write]).isSome := by
    decide
  obtain ⟨s, hs⟩ := Option.isSome_iff_exists.mp hsome
  exact (only_owner_recognised [false, true] (by decide) _ s hs).1 ⟨by decide, by decide⟩ (by decide)

/-- **Others are recognised.**  Threads that never called `InitLocalThread` pass the test on a free
lock, so two of them write at once; and a plain read by one thread leaves the next writer
recognised after its release. -/
theorem stranger_recognised :
    (StepMachine.run (step (LThreadId ([] : List Bool))) {}
          [.acquire false .write, .acquire true .write]
        = some ⟨⟨0, 2⟩, [(true, .write), (false, .write)]⟩
      ∧ ¬ OwnersHold (LThreadId ([] : List Bool)) {})
    ∧ (StepMachine.run (step (LThreadId [false, true])) {}
          [.acquire false .read, .release false .read, .acquire true .write, .release true .write]
        = some ⟨⟨131072, 1⟩, []⟩
      ∧ ¬ OwnersHold (LThreadId [false, true]) ⟨⟨131072, 1⟩, []⟩) := by
  refine ⟨⟨by decide, fun h => ?_⟩, by decide, fun h => ?_⟩
  · exact absurd (h true (by decide)) (by decide)
  · exact absurd (h true (by decide)) (by decide)

end LockRun

end YServerCore
