/-
  YServerCore.Send.LockOrder — the order in which the session's and the manager's mutexes are taken.

  A broadcast shares the manager's mutex and takes the sessions' behind it.  A send outside of a
  broadcast that sees `SOCKET_ERROR` goes the other way: it still holds its session's mutex when
  `CloseSession` takes the manager's.  Here the threads inside these calls run beside the accept
  thread, whose `AddSession` takes the manager's mutex too; nothing inside that section waits, so
  it is one step.

  Main results:
    * `deadlocked_iff` — what a deadlock is made of: a thread that waits for its own mutex, or a
      failed send that closes the session a broadcast has come to.
    * `deadlocked_for_ever` — its threads never move again, and if one of them holds the manager's
      mutex then no session is added or closed any more.
    * `calm_goes_on` — where every packet finds room and no send sees `SOCKET_ERROR`, every call waits,
      directly or not, for a thread that can go on.
-/
import YServerCore.Send.SelfWait

namespace YServerCore

open ByteMemory (Mem word32)
open Mutexes (LockMode Points Held)
open Relation (ReflTransGen)

/-! ## §1. The threads of the server. -/

/-- A step of a thread inside a call, or a whole `AddSession`. -/
inductive LockAction (τ σ : Type*) where
  | call (a : CallAction τ σ)
  | AddSession (Session : σ)

namespace Callers

variable {τ σ : Type*} [DecidableEq τ] [DecidableEq σ]

/-- One step; `AddSession` needs the manager's mutex for itself. -/
def lockStep (c : Callers τ σ) : LockAction τ σ → Option (Callers τ σ)
  | .call a => c.step a
  | .AddSession Session =>
      if Mutexes.Available c.held .manager .exclusive then
        some { c with manager := c.manager.AddSession Session }
      else none

/-- The thread waits for a mutex the other one holds. -/
def WaitsFor (c : Callers τ σ) : τ → τ → Prop := Mutexes.WaitsFor CallPoint.points c.pc c.held

/-- Everybody in the set waits for somebody in it. -/
def Deadlocked (c : Callers τ σ) (T : Set τ) : Prop :=
  Mutexes.Deadlocked CallPoint.points c.pc c.held T

/-- **The two orders meet**: outside of a broadcast the one thread closes the session after a failed
send, and the other one has come to that session in its broadcast. -/
def Crossed (c : Callers τ σ) (t u : τ) : Prop :=
  ∃ s Packet Packet' i point, c.pc t = .sending none s Packet .lockClose
    ∧ c.pc u = .sending (some i) s Packet' point ∧ (point = .lockCopy ∨ point = .lockPost)

/-- The packet finds room at its check, and no send sees `SOCKET_ERROR`. -/
def isCalm (c : Callers τ σ) : LockAction τ σ → Bool
  | .call (.work t WSAGetLastError) =>
      match c.pc t with
      | .sending _ s Packet .inCopy => (c.io s).CurBytes + word32 Packet 4 ≤ BUF_SIZE
      | .sending _ _ _ .inPost => WSAGetLastError ≠ SOCKET_ERROR
      | _ => true
  | _ => true

/-! ## §2. One step. -/

/-- What a step of a call is: a thread that waits for nobody moves, and the holds stay what the
points own. -/
structure Moves (c c' : Callers τ σ) (t : τ) (p : CallPoint σ) : Prop where
  pc : c'.pc = Function.update c.pc t p
  consistent : c'.Consistent
  free : ∀ u, ¬ c.WaitsFor t u

omit [DecidableEq τ] in
/-- A thread at a point without a lock in front of it waits for nobody. -/
theorem not_waitsFor {c : Callers τ σ} {t : τ} (h : (c.pc t).wants = none) (u : τ) :
    ¬ c.WaitsFor t u := by
  intro hwait
  obtain ⟨m, mode, mode', hwant, -, -⟩ := hwait
  change (c.pc t).wants = some (m, mode) at hwant
  rw [h] at hwant
  exact absurd hwant (by simp)

omit [DecidableEq σ] in
/-- Whoever waits for its own mutex wants it exclusively. -/
theorem exclusive_of_waits {p : CallPoint σ} (h : p.Waits) {m : Mutex σ} {mode : LockMode}
    (hwant : p.wants = some (m, mode)) : mode = .exclusive := by
  cases p with
  | idle => exact absurd h id
  | lockAll Packet => exact absurd h id
  | loop Packet i => exact absurd h id
  | sending all s Packet point =>
      cases point <;> simp_all [CallPoint.wants, CallPoint.Waits]

/-- A mutex that was to be had is not one the thread waited for itself. -/
theorem lock_moves {c c' : Callers τ σ} (hc : c.Consistent) {t : τ}
    (hstep : step c (.lock t) = some c') : ∃ p, Moves c c' t p := by
  unfold step at hstep
  cases hwant : (c.pc t).wants with
  | none =>
      simp only [hwant] at hstep
      exact absurd hstep (by simp)
  | some h =>
      obtain ⟨m, mode⟩ := h
      simp only [hwant, Option.ite_none_right_eq_some, Option.some.injEq] at hstep
      obtain ⟨havail, rfl⟩ := hstep
      have hfree : ∀ u, ¬ c.WaitsFor t u := by
        intro u hwait
        exact (Mutexes.not_available_iff (P := CallPoint.points) hwant).mpr ⟨u, hwait⟩ havail
      have hself : ¬ (c.pc t).Waits := by
        intro hwaits
        obtain ⟨m', k, k', hw, howns⟩ := (CallPoint.selfWait_iff _).mpr hwaits
        have hk := exclusive_of_waits hwaits hw
        exact hfree t ⟨m', k, k', hw, (hc t (m', k')).mpr howns, Or.inl hk⟩
      exact ⟨_, rfl, hc.take (CallPoint.owns_entered hwant hself), hfree⟩

/-- A call that starts. -/
theorem goto_moves {c : Callers τ σ} (hc : c.Consistent) {t : τ} {p : CallPoint σ}
    (hidle : c.pc t = .idle) (howns : p.owns = ∅) : Moves c (c.goto t p) t p := by
  refine ⟨rfl, hc.stay ?_, not_waitsFor ?_⟩
  · rw [hidle]
    exact howns
  · rw [hidle]
    rfl

/-- Behind its locks a thread moves without waiting. -/
theorem work_moves {c c' : Callers τ σ} (hc : c.Consistent) {t : τ} {err : Int}
    (hstep : c.work t err = some c') : ∃ p, Moves c c' t p := by
  have hmove : (∃ p, Move c (.work t err) c' t p) ∧ (c.pc t).wants = none := by
    cases hpc : c.pc t with
    | idle =>
        simp only [work, hpc] at hstep
        exact absurd hstep (by simp)
    | lockAll Packet =>
        simp only [work, hpc] at hstep
        exact absurd hstep (by simp)
    | loop Packet i => exact ⟨work_loop hc hpc hstep, rfl⟩
    | sending all s Packet point =>
        cases point with
        | inCopy => exact ⟨work_inCopy hc hpc hstep, rfl⟩
        | inPost => exact ⟨work_inPost hc hpc hstep, rfl⟩
        | inClose => exact ⟨work_inClose hc hpc hstep, rfl⟩
        | _ =>
            simp only [work, hpc] at hstep
            exact absurd hstep (by simp)
  obtain ⟨⟨p, hp⟩, hwant⟩ := hmove
  exact ⟨p, hp.pc, hp.consistent, not_waitsFor hwant⟩

/-- **One step** moves a thread that waits for nobody, or adds a session. -/
theorem lockStep_cases {c c' : Callers τ σ} {a : LockAction τ σ} (hc : c.Consistent)
    (hstep : lockStep c a = some c') :
    (∃ t p, Moves c c' t p)
      ∨ ∃ s, a = .AddSession s ∧ Mutexes.Available c.held (.manager : Mutex σ) .exclusive
        ∧ c' = { c with manager := c.manager.AddSession s } := by
  cases a with
  | AddSession s =>
      simp only [lockStep, Option.ite_none_right_eq_some, Option.some.injEq] at hstep
      exact Or.inr ⟨s, rfl, hstep.1, hstep.2.symm⟩
  | call a =>
      left
      change c.step a = some c' at hstep
      cases a with
      | callSend t s Packet =>
          unfold step at hstep
          cases hpc : c.pc t <;> simp only [hpc, Option.some.injEq, reduceCtorEq] at hstep
          subst hstep
          exact ⟨t, _, goto_moves hc hpc rfl⟩
      | callAll t Packet =>
          unfold step at hstep
          cases hpc : c.pc t <;> simp only [hpc, Option.some.injEq, reduceCtorEq] at hstep
          subst hstep
          exact ⟨t, _, goto_moves hc hpc rfl⟩
      | lock t => exact ⟨t, lock_moves hc hstep⟩
      | work t err => exact ⟨t, work_moves hc hstep⟩

theorem lockStep_consistent {c c' : Callers τ σ} {a : LockAction τ σ} (hc : c.Consistent)
    (hstep : lockStep c a = some c') : c'.Consistent := by
  rcases lockStep_cases hc hstep with ⟨t, p, hmove⟩ | ⟨s, -, -, rfl⟩
  · exact hmove.consistent
  · exact hc

/-! ## §3. What a deadlock is made of. -/

omit [DecidableEq τ] in
/-- A waiting thread that holds a session's mutex waits for it again, or closes the session. -/
theorem holds_session {c : Callers τ σ} (hc : c.Consistent) {u : τ} {s : σ} {mode : LockMode}
    (hheld : (u, .session s, mode) ∈ c.held) (hwait : (c.pc u).wants ≠ none) :
    (∃ all Packet, c.pc u = .sending all s Packet .relock)
      ∨ ∃ all Packet, c.pc u = .sending all s Packet .lockClose := by
  have howns : (.session s, mode) ∈ (c.pc u).owns := (hc u _).mp hheld
  cases hpc : c.pc u with
  | idle => simp [hpc, CallPoint.owns] at howns
  | lockAll Packet => simp [hpc, CallPoint.owns] at howns
  | loop Packet i => simp [hpc, CallPoint.owns] at howns
  | sending all s' Packet point =>
      rw [hpc] at howns hwait
      cases all <;> cases point <;>
        simp_all [CallPoint.owns, CallPoint.sendOwns, CallPoint.wants]

omit [DecidableEq τ] in
/-- A waiting thread that holds the manager's mutex shares it in a broadcast. -/
theorem holds_manager {c : Callers τ σ} (hc : c.Consistent) {u : τ} {mode : LockMode}
    (hheld : (u, .manager, mode) ∈ c.held) (hwait : (c.pc u).wants ≠ none) :
    mode = .shared ∧ ∃ i s Packet point, c.pc u = .sending (some i) s Packet point := by
  have howns : (.manager, mode) ∈ (c.pc u).owns := (hc u _).mp hheld
  cases hpc : c.pc u with
  | idle => simp [hpc, CallPoint.owns] at howns
  | lockAll Packet => simp [hpc, CallPoint.owns] at howns
  | loop Packet i => simp [hpc, CallPoint.wants] at hwait
  | sending all s Packet point =>
      rw [hpc] at howns hwait
      cases all <;> cases point <;>
        simp_all [CallPoint.owns, CallPoint.sendOwns, CallPoint.wants]

variable {c : Callers τ σ} {T : Set τ}

omit [DecidableEq τ] in
/-- The threads of a deadlock wait. -/
theorem Deadlocked.wants (hT : c.Deadlocked T) {t : τ} (ht : t ∈ T) : (c.pc t).wants ≠ none := by
  intro hnone
  obtain ⟨u, -, hwait⟩ := hT t ht
  exact not_waitsFor hnone u hwait

omit [DecidableEq τ] in
/-- A failed send that closes its session: the manager's mutex is shared by a broadcast, which
waits for a session whose holder closes it too. -/
theorem crossed_of_lockClose (hc : c.Consistent) (hT : c.Deadlocked T) {t : τ} (ht : t ∈ T)
    {s : σ} {Packet : Mem} (hpc : c.pc t = .sending none s Packet .lockClose) :
    (∃ t, (c.pc t).Waits) ∨ ∃ t u, c.Crossed t u := by
  obtain ⟨u, hu, m, mode, mode', hwant, hheld, -⟩ := hT t ht
  change (c.pc t).wants = some (m, mode) at hwant
  simp only [hpc, CallPoint.wants, Option.some.injEq, Prod.mk.injEq] at hwant
  obtain ⟨rfl, rfl⟩ := hwant
  obtain ⟨-, i, s', Packet', point, hpcu⟩ := holds_manager hc hheld (hT.wants hu)
  have hcome : point = .lockCopy ∨ point = .lockPost →
      (∃ t, (c.pc t).Waits) ∨ ∃ t u, c.Crossed t u := by
    intro hpoint
    obtain ⟨v, hv, m', k, k', hwant', hheld', -⟩ := hT u hu
    change (c.pc u).wants = some (m', k) at hwant'
    have hm : m' = .session s' := by
      rcases hpoint with rfl | rfl <;> simp_all [CallPoint.wants]
    subst hm
    rcases holds_session hc hheld' (hT.wants hv) with ⟨all, P, hpcv⟩ | ⟨all, P, hpcv⟩
    · exact Or.inl ⟨v, by rw [hpcv]; trivial⟩
    · cases all with
      | none => exact Or.inr ⟨v, u, s', P, Packet', i, point, hpcv, hpcu, hpoint⟩
      | some j => exact Or.inl ⟨v, by rw [hpcv]; trivial⟩
  cases point with
  | lockCopy => exact hcome (Or.inl rfl)
  | lockPost => exact hcome (Or.inr rfl)
  | relock => exact Or.inl ⟨u, by rw [hpcu]; trivial⟩
  | lockClose => exact Or.inl ⟨u, by rw [hpcu]; trivial⟩
  | inCopy => exact absurd (by rw [hpcu]; rfl) (hT.wants hu)
  | inPost => exact absurd (by rw [hpcu]; rfl) (hT.wants hu)
  | inClose => exact absurd (by rw [hpcu]; rfl) (hT.wants hu)

omit [DecidableEq τ] in
/-- **In every deadlock** a thread waits for its own mutex, or the two orders meet. -/
theorem crossed_of_deadlocked (hc : c.Consistent) (hT : c.Deadlocked T) {t : τ} (ht : t ∈ T) :
    (∃ t, (c.pc t).Waits) ∨ ∃ t u, c.Crossed t u := by
  obtain ⟨u, hu, m, mode, mode', hwant, hheld, hmode⟩ := hT t ht
  change (c.pc t).wants = some (m, mode) at hwant
  cases m with
  | session s =>
      rcases holds_session hc hheld (hT.wants hu) with ⟨all, P, hpcu⟩ | ⟨all, P, hpcu⟩
      · exact Or.inl ⟨u, by rw [hpcu]; trivial⟩
      · cases all with
        | none => exact crossed_of_lockClose hc hT hu hpcu
        | some i => exact Or.inl ⟨u, by rw [hpcu]; trivial⟩
  | manager =>
      obtain ⟨hshared, -⟩ := holds_manager hc hheld (hT.wants hu)
      have hex : mode = .exclusive := hmode.resolve_right (by rw [hshared]; simp)
      subst hex
      -- only `CloseSession` wants the manager's mutex for itself
      cases hpc : c.pc t with
      | sending all s P point =>
          cases point <;> simp only [hpc, CallPoint.wants, Option.some.injEq, Prod.mk.injEq,
            reduceCtorEq, false_and] at hwant
          cases all with
          | none => exact crossed_of_lockClose hc hT ht hpc
          | some i => exact Or.inl ⟨t, by rw [hpc]; trivial⟩
      | _ => simp [hpc, CallPoint.wants] at hwant

omit [DecidableEq τ] in
/-- A thread that waits for its own mutex is a deadlock by itself. -/
theorem deadlocked_of_waits (hc : c.Consistent) {t : τ} (h : (c.pc t).Waits) :
    c.Deadlocked {t} := by
  obtain ⟨m, mode, mode', hwant, howns⟩ := (CallPoint.selfWait_iff _).mpr h
  intro u hu
  rw [Set.mem_singleton_iff] at hu
  subst hu
  exact ⟨u, rfl, m, mode, mode', hwant, (hc u _).mpr howns, Or.inl (exclusive_of_waits h hwant)⟩

omit [DecidableEq τ] in
/-- The two threads that meet are a deadlock. -/
theorem deadlocked_of_crossed (hc : c.Consistent) {t u : τ} (h : c.Crossed t u) :
    c.Deadlocked {t, u} := by
  obtain ⟨s, P, P', i, point, hpct, hpcu, hpoint⟩ := h
  have hmanager : (u, .manager, .shared) ∈ c.held := by
    rw [hc u, hpcu]
    simp [CallPoint.points, CallPoint.owns]
  have hsession : (t, .session s, .exclusive) ∈ c.held := by
    rw [hc t, hpct]
    simp [CallPoint.points, CallPoint.owns, CallPoint.sendOwns]
  intro v hv
  rcases hv with rfl | rfl
  · refine ⟨u, Or.inr rfl, .manager, .exclusive, .shared, ?_, hmanager, Or.inl rfl⟩
    rw [hpct]
    rfl
  · refine ⟨t, Or.inl rfl, .session s, .exclusive, .exclusive, ?_, hsession, Or.inl rfl⟩
    rw [hpcu]
    rcases hpoint with rfl | rfl <;> rfl

/-! ## §4. Whole runs. -/

theorem lockRun_consistent {manager : SessionManager σ} {Data : σ → Mem}
    {as : List (LockAction τ σ)} (hrun : StepMachine.run lockStep (start manager Data) as = some c) :
    c.Consistent :=
  StepMachine.run_invariant (P := Consistent) (fun _ _ _ hc hstep => lockStep_consistent hc hstep)
    (start_consistent manager Data) hrun

/-- **What the deadlocks of the server are.**  In every state that any interleaving reaches: there are
threads that all wait for each other if and only if some thread waits for a mutex of its own, or
a failed send outside of a broadcast closes the very session that a broadcast waits for. -/
theorem deadlocked_iff (manager : SessionManager σ) (Data : σ → Mem) (as : List (LockAction τ σ))
    (c : Callers τ σ) (hrun : StepMachine.run lockStep (start manager Data) as = some c) :
    (∃ T : Set τ, T.Nonempty ∧ c.Deadlocked T)
      ↔ (∃ t, (c.pc t).Waits) ∨ ∃ t u, c.Crossed t u := by
  have hc := lockRun_consistent hrun
  constructor
  · rintro ⟨T, ⟨t, ht⟩, hT⟩
    exact crossed_of_deadlocked hc hT ht
  · rintro (⟨t, h⟩ | ⟨t, u, h⟩)
    · exact ⟨{t}, ⟨t, rfl⟩, deadlocked_of_waits hc h⟩
    · exact ⟨{t, u}, ⟨t, Or.inl rfl⟩, deadlocked_of_crossed hc h⟩

/-- Three threads, one session and no packet yet. -/
def oneSession : Callers (Fin 3) Unit :=
  start { Sessions := [()], SessionCount := 1 } (fun _ _ => 0)

/-- Thread 1 has copied its packet when the broadcast of thread 0 comes to the session; then its
send fails. -/
def meeting : List (LockAction (Fin 3) Unit) :=
  [.call (.callSend 1 () Sending.headerPacket), .call (.lock 1), .call (.work 1 0),
    .call (.callAll 0 Sending.headerPacket), .call (.lock 0), .call (.work 0 0),
    .call (.lock 1), .call (.work 1 SOCKET_ERROR)]

theorem run_meeting : ∃ c, StepMachine.run lockStep oneSession meeting = some c
    ∧ c.pc 0 = .sending (some 0) () Sending.headerPacket .lockCopy
    ∧ c.pc 1 = .sending none () Sending.headerPacket .lockClose ∧ c.pc 2 = .idle := by
  have hend : (StepMachine.run lockStep oneSession meeting).map (fun c => (c.pc 0, c.pc 1, c.pc 2))
      = some (.sending (some 0) () Sending.headerPacket .lockCopy,
        .sending none () Sending.headerPacket .lockClose, .idle) := by
    rfl
  obtain ⟨c, hc, hat⟩ := Option.map_eq_some_iff.mp hend
  rw [Prod.mk.injEq, Prod.mk.injEq] at hat
  exact ⟨c, hc, hat⟩

theorem deadlocked_iff_meeting :
    ∃ c, StepMachine.run lockStep oneSession meeting = some c
      ∧ (∀ t, ¬ (c.pc t).Waits) ∧ ∃ T : Set (Fin 3), T.Nonempty ∧ c.Deadlocked T := by
  obtain ⟨c, hc, h0, h1, h2⟩ := run_meeting
  refine ⟨c, hc, fun t => ?_, (deadlocked_iff _ _ meeting c hc).mpr (Or.inr ⟨1, 0, (), _, _,
    0, .lockCopy, h1, h0, Or.inl rfl⟩)⟩
  match t with
  | 0 => rw [h0]; exact id
  | 1 => rw [h1]; exact id
  | 2 => rw [h2]; exact id

/-! ### What a deadlock keeps. -/

theorem work_held_subset {c c' : Callers τ σ} {t : τ} {err : Int} (h : c.work t err = some c') :
    c'.held ⊆ c.held := by
  unfold work at h
  split at h
  · split at h <;> obtain rfl := Option.some.inj h
    · exact subset_rfl
    · exact Finset.erase_subset _ _
  · split at h <;> obtain rfl := Option.some.inj h
    · exact Finset.erase_subset _ _
    · exact subset_rfl
  · dsimp only at h
    split at h <;> obtain rfl := Option.some.inj h
    · exact subset_rfl
    · exact Finset.erase_subset _ _
  · obtain ⟨manager, -, rfl⟩ := Option.map_eq_some_iff.mp h
    exact (Finset.erase_subset _ _).trans (Finset.erase_subset _ _)
  · exact absurd h (by simp)

/-- Who holds a mutex exclusively is the only one who holds it. -/
theorem lockStep_excluding {c c' : Callers τ σ} {a : LockAction τ σ}
    (hx : Mutexes.Excluding c.held) (hstep : lockStep c a = some c') : Mutexes.Excluding c'.held := by
  cases a with
  | AddSession s =>
      simp only [lockStep, Option.ite_none_right_eq_some, Option.some.injEq] at hstep
      obtain ⟨-, rfl⟩ := hstep
      exact hx
  | call a =>
      change c.step a = some c' at hstep
      cases a with
      | callSend t s Packet =>
          unfold step at hstep
          cases hpc : c.pc t <;> simp only [hpc, Option.some.injEq, reduceCtorEq] at hstep
          subst hstep
          exact hx
      | callAll t Packet =>
          unfold step at hstep
          cases hpc : c.pc t <;> simp only [hpc, Option.some.injEq, reduceCtorEq] at hstep
          subst hstep
          exact hx
      | lock t =>
          unfold step at hstep
          cases hwant : (c.pc t).wants with
          | none => simp [hwant] at hstep
          | some h =>
              simp only [hwant, Option.ite_none_right_eq_some, Option.some.injEq] at hstep
              obtain ⟨havail, rfl⟩ := hstep
              exact hx.take havail
      | work t err => exact hx.mono (work_held_subset hstep)

/-- Only `AddSession` and `CloseSession` change the registry. -/
theorem lockStep_manager {c c' : Callers τ σ} {a : LockAction τ σ} (hc : c.Consistent)
    (hstep : lockStep c a = some c') :
    c'.manager = c.manager ∨ Mutexes.Available c.held (.manager : Mutex σ) .exclusive
      ∨ ∃ t, (c.pc t).wants = none ∧ (t, .manager, .exclusive) ∈ c.held := by
  cases a with
  | AddSession s =>
      simp only [lockStep, Option.ite_none_right_eq_some, Option.some.injEq] at hstep
      exact Or.inr (Or.inl hstep.1)
  | call a =>
      change c.step a = some c' at hstep
      cases a with
      | callSend t s Packet =>
          unfold step at hstep
          cases hpc : c.pc t <;> simp only [hpc, Option.some.injEq, reduceCtorEq] at hstep
          subst hstep
          exact Or.inl rfl
      | callAll t Packet =>
          unfold step at hstep
          cases hpc : c.pc t <;> simp only [hpc, Option.some.injEq, reduceCtorEq] at hstep
          subst hstep
          exact Or.inl rfl
      | lock t =>
          unfold step at hstep
          cases hwant : (c.pc t).wants with
          | none => simp [hwant] at hstep
          | some h =>
              simp only [hwant, Option.ite_none_right_eq_some, Option.some.injEq] at hstep
              obtain ⟨-, rfl⟩ := hstep
              exact Or.inl rfl
      | work t err =>
          change c.work t err = some c' at hstep
          unfold work at hstep
          split at hstep
          · split at hstep <;> obtain rfl := Option.some.inj hstep <;> exact Or.inl rfl
          · split at hstep <;> obtain rfl := Option.some.inj hstep <;> exact Or.inl rfl
          · dsimp only at hstep
            split at hstep <;> obtain rfl := Option.some.inj hstep <;> exact Or.inl rfl
          · next all s Packet hpc =>
              refine Or.inr (Or.inr ⟨t, by rw [hpc]; rfl, ?_⟩)
              rw [hc t, hpc]
              cases all <;> simp [CallPoint.points, CallPoint.owns, CallPoint.sendOwns]
          · exact absurd hstep (by simp)

/-- A thread of the set holds the manager's mutex, in whatever mode. -/
def HoldsManager (c : Callers τ σ) (T : Set τ) : Prop :=
  ∃ t ∈ T, ∃ mode, (t, Mutex.manager, mode) ∈ c.held

/-- **One step leaves a deadlock as it is**: its threads stay where they are with what they hold, and
the registry stays as it is if one of them holds its mutex. -/
theorem deadlocked_step {c c' : Callers τ σ} {T : Set τ} {a : LockAction τ σ} (hc : c.Consistent)
    (hx : Mutexes.Excluding c.held) (hT : c.Deadlocked T) (hstep : lockStep c a = some c') :
    (∀ t ∈ T, c'.pc t = c.pc t) ∧ c'.Deadlocked T
      ∧ (c.HoldsManager T → c'.HoldsManager T ∧ c'.manager = c.manager) := by
  -- the thread that moves waits for nobody, so it is not in the set
  have hpc : ∀ t ∈ T, c'.pc t = c.pc t := by
    intro u hu
    rcases lockStep_cases hc hstep with ⟨t, p, hmove⟩ | ⟨s, -, -, rfl⟩
    · have hut : u ≠ t := by
        rintro rfl
        obtain ⟨v, -, hwait⟩ := hT u hu
        exact hmove.free v hwait
      rw [hmove.pc, Function.update_of_ne hut]
    · rfl
  have hheld : ∀ t ∈ T, ∀ h, (t, h) ∈ c.held → (t, h) ∈ c'.held := by
    intro t ht h hmem
    rw [lockStep_consistent hc hstep t h, hpc t ht]
    exact (hc t h).mp hmem
  refine ⟨hpc, hT.frame hpc hheld, fun hholds => ?_⟩
  obtain ⟨t, ht, mode, hmem⟩ := hholds
  refine ⟨⟨t, ht, mode, hheld t ht _ hmem⟩, ?_⟩
  rcases lockStep_manager hc hstep with hsame | havail | ⟨u, hnone, hu⟩
  · exact hsame
  · exact absurd rfl (havail _ hmem)
  · -- the thread inside `CloseSession` would be the one in the set
    obtain ⟨rfl, -⟩ := hx u t _ _ hu hmem
    exact absurd hnone (hT.wants ht)

/-- **A deadlock is for ever.**  In every state that any interleaving reaches and in every
continuation from there: threads that all wait for each other are still where they were, and if
one of them holds the manager's mutex then no session has been added or closed. -/
theorem deadlocked_for_ever (manager : SessionManager σ) (Data : σ → Mem)
    (as : List (LockAction τ σ)) (c : Callers τ σ)
    (hrun : StepMachine.run lockStep (start manager Data) as = some c) (T : Set τ)
    (hT : c.Deadlocked T) (bs : List (LockAction τ σ)) (c' : Callers τ σ)
    (hgoes : StepMachine.run lockStep c bs = some c') :
    (∀ t ∈ T, c'.pc t = c.pc t) ∧ (c.HoldsManager T → c'.manager = c.manager) := by
  have hc := lockRun_consistent hrun
  have hx : Mutexes.Excluding c.held := by
    refine StepMachine.run_invariant (P := fun c : Callers τ σ => Mutexes.Excluding c.held)
      (fun _ _ _ hx hstep => lockStep_excluding hx hstep) ?_ hrun
    intro t u m mode ht
    exact absurd ht (by simp [start])
  have hend := StepMachine.run_invariant (P := fun d : Callers τ σ => d.Consistent
      ∧ Mutexes.Excluding d.held ∧ d.Deadlocked T ∧ (∀ t ∈ T, d.pc t = c.pc t)
      ∧ (c.HoldsManager T → d.HoldsManager T ∧ d.manager = c.manager)) ?_
    ⟨hc, hx, hT, fun _ _ => rfl, fun h => ⟨h, rfl⟩⟩ hgoes
  · exact ⟨hend.2.2.2.1, fun h => (hend.2.2.2.2 h).2⟩
  · rintro d a d' ⟨hcd, hxd, hTd, hpc, hmanager⟩ hstep
    obtain ⟨hpc', hTd', hmanager'⟩ := deadlocked_step hcd hxd hTd hstep
    refine ⟨lockStep_consistent hcd hstep, lockStep_excluding hxd hstep, hTd', fun t ht => ?_,
      fun h => ?_⟩
    · rw [hpc' t ht]
      exact hpc t ht
    · obtain ⟨hold, heq⟩ := hmanager h
      obtain ⟨hnew, heq'⟩ := hmanager' hold
      exact ⟨hnew, heq'.trans heq⟩

/-- Thread 2 comes with a broadcast of its own, shares the manager's mutex too, and waits. -/
theorem deadlocked_for_ever_meeting :
    ∃ c c' : Callers (Fin 3) Unit, StepMachine.run lockStep oneSession meeting = some c
      ∧ StepMachine.run lockStep c
        [.call (.callAll 2 Sending.headerPacket), .call (.lock 2), .call (.work 2 0)] = some c'
      ∧ c'.pc 0 = c.pc 0 ∧ c'.pc 1 = c.pc 1 ∧ c'.manager = c.manager := by
  obtain ⟨c, hc, h0, h1, h2⟩ := run_meeting
  have hcons := lockRun_consistent hc
  have hT : c.Deadlocked {1, 0} :=
    deadlocked_of_crossed hcons ⟨(), _, _, 0, .lockCopy, h1, h0, Or.inl rfl⟩
  have hholds : c.HoldsManager {1, 0} := by
    refine ⟨0, Or.inr rfl, .shared, ?_⟩
    rw [hcons 0, h0]
    simp [CallPoint.points, CallPoint.owns]
  have hsome : (StepMachine.run lockStep oneSession (meeting ++ [.call (.callAll 2 Sending.headerPacket),
      .call (.lock 2), .call (.work 2 0)])).isSome := by
    rfl
  obtain ⟨c', hc'⟩ := Option.isSome_iff_exists.mp hsome
  obtain ⟨d, hd, hgoes⟩ := (StepMachine.run_append_eq_some _ _).mp hc'
  obtain rfl := Option.some.inj (hd.symm.trans hc)
  obtain ⟨hpc, hmanager⟩ := deadlocked_for_ever _ _ meeting d hc {1, 0} hT _ c' hgoes
  exact ⟨d, c', hc, hgoes, hpc 0 (Or.inr rfl), hpc 1 (Or.inl rfl), hmanager hholds⟩

/-! ## §5. Without failed sends and full buffers. -/

/-- The point is not in front of a lock that is taken out of order. -/
def InOrder (p : CallPoint σ) : Prop :=
  ∀ all s Packet, p ≠ .sending all s Packet .relock ∧ p ≠ .sending all s Packet .lockClose
    ∧ p ≠ .sending all s Packet .inClose

omit [DecidableEq σ] in
/-- The point behind a lock of a calm run. -/
theorem inOrder_entered {p : CallPoint σ} (h : InOrder p) : InOrder p.entered := by
  cases p with
  | sending all s Packet point =>
      cases point with
      | lockClose => exact absurd rfl (h all s Packet).2.1
      | _ => intro all s Packet; simp_all [CallPoint.entered, InOrder]
  | _ => intro all s Packet; simp [CallPoint.entered]

omit [DecidableEq σ] in
theorem inOrder_returned (Packet : Mem) (all : Option Nat) :
    InOrder (CallPoint.returned Packet all : CallPoint σ) := by
  intro all' s P
  cases all <;> simp [CallPoint.returned]

omit [DecidableEq σ] in
/-- What holds of all points holds of them when one thread moves to another such point. -/
theorem update_forall {P : CallPoint σ → Prop} {pc : τ → CallPoint σ} (h : ∀ t, P (pc t)) {t : τ}
    {p : CallPoint σ} (hp : P p) : ∀ u, P (Function.update pc t p u) :=
  (Function.forall_update_iff pc (fun _ p => P p)).mpr ⟨hp, fun u _ => h u⟩

/-- **A calm step** takes no lock out of order. -/
theorem calm_step {c c' : Callers τ σ} {a : LockAction τ σ} (h : ∀ t, InOrder (c.pc t))
    (hcalm : c.isCalm a) (hstep : lockStep c a = some c') : ∀ t, InOrder (c'.pc t) := by
  cases a with
  | AddSession s =>
      simp only [lockStep, Option.ite_none_right_eq_some, Option.some.injEq] at hstep
      obtain ⟨-, rfl⟩ := hstep
      exact h
  | call a =>
      change c.step a = some c' at hstep
      cases a with
      | callSend t s Packet =>
          unfold step at hstep
          cases hpc : c.pc t <;> simp only [hpc, Option.some.injEq, reduceCtorEq] at hstep
          subst hstep
          exact update_forall (P := InOrder) h (by intro all s P; simp)
      | callAll t Packet =>
          unfold step at hstep
          cases hpc : c.pc t <;> simp only [hpc, Option.some.injEq, reduceCtorEq] at hstep
          subst hstep
          exact update_forall (P := InOrder) h (by intro all s P; simp)
      | lock t =>
          unfold step at hstep
          cases hwant : (c.pc t).wants with
          | none => simp [hwant] at hstep
          | some m =>
              simp only [hwant, Option.ite_none_right_eq_some, Option.some.injEq] at hstep
              obtain ⟨-, rfl⟩ := hstep
              exact update_forall (P := InOrder) h (inOrder_entered (h t))
      | work t err =>
          change c.work t err = some c' at hstep
          unfold work at hstep
          split at hstep
          · split at hstep <;> obtain rfl := Option.some.inj hstep
            · exact update_forall (P := InOrder) h (by intro all s P; simp)
            · exact update_forall (P := InOrder) h (by intro all s P; simp)
          · next all s Packet hpc =>
              have hroom : (c.io s).CurBytes + word32 Packet 4 ≤ BUF_SIZE := by
                simpa only [isCalm, hpc, decide_eq_true_eq] using hcalm
              unfold ST_IOData.copyPacket at hstep
              rw [if_neg (by omega)] at hstep
              obtain rfl := Option.some.inj hstep
              exact update_forall (P := InOrder) h (by intro all s P; simp)
          · next all s Packet hpc =>
              have herr : err ≠ SOCKET_ERROR := by
                simpa only [isCalm, hpc, decide_eq_true_eq] using hcalm
              simp only [ST_IOData.sendCloses, decide_eq_true_eq, if_neg herr,
                Option.some.injEq] at hstep
              subst hstep
              exact update_forall (P := InOrder) h (inOrder_returned Packet all)
          · next all s Packet hpc => exact absurd hpc (h t all s Packet).2.2
          · exact absurd hstep (by simp)

omit [DecidableEq τ] in
/-- Nobody waits for a thread outside of the calls. -/
theorem not_idle_of_waitsFor {c : Callers τ σ} (hc : c.Consistent) {t u : τ}
    (h : c.WaitsFor t u) : c.pc u ≠ .idle := by
  intro hidle
  obtain ⟨m, mode, mode', -, hmem, -⟩ := h
  have howns : (m, mode') ∈ (c.pc u).owns := (hc u _).mp hmem
  rw [hidle] at howns
  simp [CallPoint.owns] at howns

/-- A thread inside a call that waits for nobody can go on. -/
theorem goes_on {c : Callers τ σ} {u : τ} (horder : InOrder (c.pc u)) (hcall : c.pc u ≠ .idle)
    (hfree : ∀ v, ¬ c.WaitsFor u v) :
    (lockStep c (.call (.lock u))).isSome ∨ ∀ err, (lockStep c (.call (.work u err))).isSome := by
  cases hwant : (c.pc u).wants with
  | some h =>
      obtain ⟨m, mode⟩ := h
      have havail : Mutexes.Available c.held m mode := by
        by_contra hnot
        obtain ⟨v, hv⟩ := (Mutexes.not_available_iff (P := CallPoint.points) hwant).mp hnot
        exact hfree v hv
      left
      simp [lockStep, step, hwant, havail]
  | none =>
      right
      intro err
      cases hpc : c.pc u with
      | idle => exact absurd hpc hcall
      | lockAll Packet => simp [hpc, CallPoint.wants] at hwant
      | loop Packet i =>
          simp only [lockStep, step, work, hpc]
          split <;> rfl
      | sending all s Packet point =>
          cases point with
          | inCopy =>
              simp only [lockStep, step, work, hpc]
              split <;> rfl
          | inPost =>
              simp only [lockStep, step, work, hpc]
              split <;> rfl
          | inClose => exact absurd hpc (horder all s Packet).2.2
          | _ => simp [hpc, CallPoint.wants] at hwant

/-- **No deadlock in calm runs.**  For any threads and sessions and any interleaving in which every
packet finds room and no send sees `SOCKET_ERROR`: in every state reached, the waits of every
thread inside a call lead to a thread that can take its next step. -/
theorem calm_goes_on (manager : SessionManager σ) (Data : σ → Mem) (as : List (LockAction τ σ))
    (c : Callers τ σ) (hrun : StepMachine.run lockStep (start manager Data) as = some c)
    (hcalm : StepMachine.Along lockStep (fun c a => c.isCalm a) (start manager Data) as) (t : τ)
    (hcall : c.pc t ≠ .idle) :
    ∃ u, ReflTransGen c.WaitsFor t u
      ∧ ((lockStep c (.call (.lock u))).isSome ∨ ∀ err, (lockStep c (.call (.work u err))).isSome) := by
  have hc := lockRun_consistent hrun
  have hsafe : StepMachine.Safe lockStep (fun c : Callers τ σ => ∀ t, InOrder (c.pc t))
      (start manager Data) as := by
    refine StepMachine.safe_of_along (I := fun c : Callers τ σ => ∀ t, InOrder (c.pc t))
      (fun _ _ _ h hcalm hstep => calm_step h hcalm hstep) (fun _ h => h) ?_ hrun hcalm
    intro t all s Packet
    simp [start]
  obtain ⟨d, hd, horder⟩ := hsafe.last
  obtain rfl := Option.some.inj (hd.symm.trans hrun)
  rcases Mutexes.deadlocked_or_free CallPoint.points d.pc d.held t with ⟨T, ht, hT⟩ | ⟨u, hu, hfree⟩
  · -- a deadlock needs a lock taken out of order
    exfalso
    rcases crossed_of_deadlocked hc hT ht with ⟨v, hv⟩ | ⟨v, w, hcrossed⟩
    · cases hpc : d.pc v with
      | sending all s Packet point =>
          rw [hpc] at hv
          cases point with
          | relock => exact (horder v all s Packet).1 hpc
          | lockClose => exact (horder v all s Packet).2.1 hpc
          | _ => cases all <;> exact hv
      | _ => rw [hpc] at hv; exact hv
    · obtain ⟨s, Packet, -, -, -, hpc, -⟩ := hcrossed
      exact (horder v none s Packet).2.1 hpc
  · refine ⟨u, hu, goes_on (horder u) ?_ hfree⟩
    rcases Relation.ReflTransGen.cases_tail hu with rfl | ⟨v, -, hv⟩
    · exact hcall
    · exact not_idle_of_waitsFor hc hv

/-- A broadcast waits for a session whose thread is about to send. -/
theorem calm_goes_on_meeting :
    ∃ c u, StepMachine.run lockStep oneSession meeting.dropLast = some c
      ∧ c.pc 0 = .sending (some 0) () Sending.headerPacket .lockCopy ∧ ReflTransGen c.WaitsFor 0 u
      ∧ ((lockStep c (.call (.lock u))).isSome ∨ ∀ err, (lockStep c (.call (.work u err))).isSome) := by
  have hend : (StepMachine.run lockStep oneSession meeting.dropLast).map (fun c => c.pc 0)
      = some (.sending (some 0) () Sending.headerPacket .lockCopy) := by
    rfl
  obtain ⟨c, hc, h0⟩ := Option.map_eq_some_iff.mp hend
  obtain ⟨u, hu, hon⟩ := calm_goes_on _ _ meeting.dropLast c hc (by decide +kernel) 0
    (by rw [h0]; simp)
  exact ⟨c, u, hc, h0, hu, hon⟩

end Callers

end YServerCore
