/-
  YServerCore.Send.Room — how many threads a write buffer has room for.

  `SendPacket` calls itself with the session's mutex held when its packet does not fit.  What stands
  in the buffer is always the packet of some thread between its two sections, since every post empties the
  buffer: so a thread at its check finds at most one packet of every other thread there.

  Main results:
    * `attended_step` — a buffer never holds more than its threads are about to post.
    * `room_iff_few` — the full buffer is out of reach exactly while one packet of every thread fits.
-/
import Mathlib.Algebra.BigOperators.Group.Finset.Piecewise
import Mathlib.Algebra.Order.BigOperators.Group.Finset
import YServerCore.Send.LockOrder

namespace YServerCore

open ByteMemory (Mem word32)
open Mutexes (LockMode Held)

/-! ## §1. What is copied and not posted yet. -/

namespace CallPoint

variable {σ : Type*} [DecidableEq σ]

/-- The bytes a thread has copied for the session and not posted. -/
def pending (s : σ) : CallPoint σ → Nat
  | .sending _ s' Packet .lockPost => if s' = s then word32 Packet 4 else 0
  | .sending _ s' Packet .inPost => if s' = s then word32 Packet 4 else 0
  | _ => 0

/-- The packet of the call has at most this size, and has not found the buffer full. -/
def Within (M : Nat) : CallPoint σ → Prop
  | .idle => True
  | .lockAll Packet => word32 Packet 4 ≤ M
  | .loop Packet _ => word32 Packet 4 ≤ M
  | .sending _ _ Packet point => word32 Packet 4 ≤ M ∧ point ≠ .relock

/-- A lock posts nothing. -/
theorem pending_entered (s : σ) (p : CallPoint σ) : p.entered.pending s = p.pending s := by
  cases p with
  | sending all s' Packet point => cases point <;> rfl
  | _ => rfl

omit [DecidableEq σ] in
theorem within_entered {M : Nat} {p : CallPoint σ} (h : p.Within M) : p.entered.Within M := by
  cases p with
  | sending all s' Packet point =>
      cases point with
      | relock => exact absurd rfl h.2
      | lockCopy => exact ⟨h.1, by simp⟩
      | lockPost => exact ⟨h.1, by simp⟩
      | lockClose => exact ⟨h.1, by simp⟩
      | _ => exact h
  | _ => exact h

omit [DecidableEq σ] in
theorem within_returned {M : Nat} {Packet : Mem} (h : word32 Packet 4 ≤ M) (all : Option Nat) :
    (returned Packet all : CallPoint σ).Within M := by
  cases all with
  | none => trivial
  | some i => exact h

/-- What is pending is one packet at most. -/
theorem pending_le {M : Nat} {p : CallPoint σ} (h : p.Within M) (s : σ) : p.pending s ≤ M := by
  cases p with
  | sending all s' Packet point =>
      have hone : (if s' = s then word32 Packet 4 else 0) ≤ M := by
        split
        · exact h.1
        · exact Nat.zero_le _
      cases point with
      | lockPost => exact hone
      | inPost => exact hone
      | _ => exact Nat.zero_le _
  | _ => exact Nat.zero_le _

end CallPoint

/-- The packet of a call that starts has at most this size. -/
def LockAction.Within {τ σ : Type*} (M : Nat) : LockAction τ σ → Prop
  | .call (.callSend _ _ Packet) => word32 Packet 4 ≤ M
  | .call (.callAll _ Packet) => word32 Packet 4 ≤ M
  | _ => True

namespace Callers

variable {τ σ : Type*} [DecidableEq τ] [DecidableEq σ]

/-! ## §2. The buffer is attended. -/

variable [Fintype τ]

/-- A buffer never holds more than its threads are about to post. -/
def Attended (c : Callers τ σ) : Prop := ∀ s, (c.io s).CurBytes ≤ ∑ t, (c.pc t).pending s

/-- The sum over all threads when one of them moves. -/
theorem sum_pending_update (pc : τ → CallPoint σ) (t : τ) (p : CallPoint σ) (s : σ) :
    (∑ u, (Function.update pc t p u).pending s) + (pc t).pending s
      = (∑ u, (pc u).pending s) + p.pending s := by
  have hfun : (fun u => (Function.update pc t p u).pending s)
      = Function.update (fun u => (pc u).pending s) t (p.pending s) := by
    funext u
    by_cases hut : u = t
    · rw [hut, Function.update_self, Function.update_self]
    · rw [Function.update_of_ne hut, Function.update_of_ne hut]
  rw [hfun, Finset.sum_update_of_mem (Finset.mem_univ t), Finset.sdiff_singleton_eq_erase,
    ← Finset.add_sum_erase _ _ (Finset.mem_univ t)]
  omega

/-- A move that keeps the buffers and what is pending. -/
theorem Attended.goto {c c' : Callers τ σ} (h : c.Attended) {t : τ} {p : CallPoint σ}
    (hio : c'.io = c.io) (hpc : c'.pc = Function.update c.pc t p)
    (hpending : ∀ s, (c.pc t).pending s ≤ p.pending s) : c'.Attended := by
  intro s
  have hsum := sum_pending_update c.pc t p s
  have hle := hpending s
  have hold := h s
  rw [hio, hpc]
  omega

/-- A copy adds to the buffer what it makes pending. -/
theorem Attended.copy {c : Callers τ σ} (h : c.Attended) {t : τ} {all : Option Nat} {s : σ}
    {Packet : Mem} {io : ST_IOData} (hpc : c.pc t = .sending all s Packet .inCopy)
    (hio : (c.io s).copyPacket Packet = some io) (s' : σ) :
    (Function.update c.io s io s').CurBytes
      ≤ ∑ u, (Function.update c.pc t (.sending all s Packet .lockPost) u).pending s' := by
  have hsum := sum_pending_update c.pc t (.sending all s Packet .lockPost) s'
  have hold := h s'
  have hcur := (ST_IOData.copyPacket_spec hio).2.2.1
  rw [hpc, show (CallPoint.sending all s Packet .inCopy).pending s' = 0 from rfl] at hsum
  by_cases hs : s' = s
  · subst hs
    rw [show (CallPoint.sending all s' Packet .lockPost).pending s' = word32 Packet 4 from
      if_pos rfl] at hsum
    rw [Function.update_self]
    omega
  · rw [Function.update_of_ne hs]
    omega

/-- A post leaves nothing in the buffer. -/
theorem Attended.post {c : Callers τ σ} (h : c.Attended) {t : τ} {all : Option Nat} {s : σ}
    {Packet : Mem} (hpc : c.pc t = .sending all s Packet .inPost) {p : CallPoint σ} (s' : σ) :
    (Function.update c.io s (c.io s).Send.1 s').CurBytes
      ≤ ∑ u, (Function.update c.pc t p u).pending s' := by
  by_cases hs : s' = s
  · subst hs
    rw [Function.update_self]
    exact Nat.zero_le _
  · have hsum := sum_pending_update c.pc t p s'
    have hold := h s'
    rw [hpc, show (CallPoint.sending all s Packet .inPost).pending s' = 0 from
      if_neg fun heq => hs heq.symm] at hsum
    rw [Function.update_of_ne hs]
    omega

/-- **One step** leaves every buffer attended. -/
theorem attended_step {c c' : Callers τ σ} {a : LockAction τ σ} (h : c.Attended)
    (hstep : lockStep c a = some c') : c'.Attended := by
  cases a with
  | AddSession s =>
      simp only [lockStep, Option.ite_none_right_eq_some, Option.some.injEq] at hstep
      obtain ⟨-, rfl⟩ := hstep
      exact h
  | call a =>
      change c.step a = some c' at hstep
      cases a with
      | callSend t s Packet =>
          unfold step at hstep
          cases hpc : c.pc t <;> simp only [hpc, Option.some.injEq, reduceCtorEq] at hstep
          subst hstep
          exact h.goto rfl rfl (by rw [hpc]; exact fun _ => Nat.zero_le _)
      | callAll t Packet =>
          unfold step at hstep
          cases hpc : c.pc t <;> simp only [hpc, Option.some.injEq, reduceCtorEq] at hstep
          subst hstep
          exact h.goto rfl rfl (by rw [hpc]; exact fun _ => Nat.zero_le _)
      | lock t =>
          unfold step at hstep
          cases hwant : (c.pc t).wants with
          | none => simp [hwant] at hstep
          | some m =>
              simp only [hwant, Option.ite_none_right_eq_some, Option.some.injEq] at hstep
              obtain ⟨-, rfl⟩ := hstep
              exact h.goto rfl rfl fun s => le_of_eq (CallPoint.pending_entered s _).symm
      | work t err =>
          change c.work t err = some c' at hstep
          unfold work at hstep
          split at hstep
          · next Packet i hpc =>
              split at hstep <;> obtain rfl := Option.some.inj hstep
              · exact h.goto rfl rfl (by rw [hpc]; exact fun _ => Nat.zero_le _)
              · exact h.goto rfl rfl (by rw [hpc]; exact fun _ => Nat.zero_le _)
          · next all s Packet hpc =>
              cases hio : (c.io s).copyPacket Packet with
              | some io =>
                  rw [hio] at hstep
                  obtain rfl := Option.some.inj hstep
                  exact h.copy hpc hio
              | none =>
                  rw [hio] at hstep
                  obtain rfl := Option.some.inj hstep
                  exact h.goto rfl rfl (by rw [hpc]; exact fun _ => Nat.zero_le _)
          · next all s Packet hpc =>
              dsimp only at hstep
              split at hstep <;> obtain rfl := Option.some.inj hstep
              · exact h.post hpc
              · exact h.post hpc
          · next all s Packet hpc =>
              obtain ⟨manager, -, rfl⟩ := Option.map_eq_some_iff.mp hstep
              exact h.goto rfl rfl (by rw [hpc]; exact fun _ => Nat.zero_le _)
          · exact absurd hstep (by simp)

/-! ## §3. Few threads. -/

/-- The buffers are attended, and the packets in work have at most this size. -/
structure Roomed (M : Nat) (c : Callers τ σ) : Prop where
  attended : c.Attended
  within : ∀ t, (c.pc t).Within M

omit [DecidableEq τ] in
theorem roomed_start (M : Nat) (manager : SessionManager σ) (Data : σ → Mem) :
    Roomed M (start manager Data : Callers τ σ) where
  attended _ := Nat.zero_le _
  within _ := trivial

/-- **A thread at its check finds room** for its packet, if there is room for one of every thread. -/
theorem Roomed.room {M : Nat} {c : Callers τ σ} (h : Roomed M c)
    (hfew : Fintype.card τ * M ≤ BUF_SIZE) {t : τ} {all : Option Nat} {s : σ} {Packet : Mem}
    (hpc : c.pc t = .sending all s Packet .inCopy) :
    (c.io s).CurBytes + word32 Packet 4 ≤ BUF_SIZE := by
  have hown : word32 Packet 4 ≤ M := by
    have hin := h.within t
    rw [hpc] at hin
    exact hin.1
  -- the others have a packet each there, the thread itself none
  have hothers : ∑ u ∈ Finset.univ.erase t, (c.pc u).pending s ≤ (Fintype.card τ - 1) * M :=
    calc ∑ u ∈ Finset.univ.erase t, (c.pc u).pending s
        ≤ ∑ _u ∈ Finset.univ.erase t, M :=
          Finset.sum_le_sum fun u _ => CallPoint.pending_le (h.within u) s
      _ = (Finset.univ.erase t).card * M := Finset.sum_const_nat fun _ _ => rfl
      _ = (Fintype.card τ - 1) * M := by
          rw [Finset.card_erase_of_mem (Finset.mem_univ t), Finset.card_univ]
  have hsum := Finset.add_sum_erase Finset.univ (fun u => (c.pc u).pending s) (Finset.mem_univ t)
  have hself : (c.pc t).pending s = 0 := by
    rw [hpc]
    rfl
  have hcard : 0 < Fintype.card τ := Fintype.card_pos_iff.mpr ⟨t⟩
  have hone : (Fintype.card τ - 1) * M + M = Fintype.card τ * M := by
    rw [← Nat.succ_mul]
    congr 1
    omega
  have hatt := h.attended s
  omega

/-- **One step** of few threads fills no buffer. -/
theorem roomed_step {M : Nat} (hfew : Fintype.card τ * M ≤ BUF_SIZE) {c c' : Callers τ σ}
    {a : LockAction τ σ} (h : Roomed M c) (hM : a.Within M) (hstep : lockStep c a = some c') :
    Roomed M c' := by
  refine ⟨attended_step h.attended hstep, ?_⟩
  have hold := h.within
  cases a with
  | AddSession s =>
      simp only [lockStep, Option.ite_none_right_eq_some, Option.some.injEq] at hstep
      obtain ⟨-, rfl⟩ := hstep
      exact hold
  | call a =>
      change c.step a = some c' at hstep
      cases a with
      | callSend t s Packet =>
          unfold step at hstep
          cases hpc : c.pc t <;> simp only [hpc, Option.some.injEq, reduceCtorEq] at hstep
          subst hstep
          exact update_forall (P := CallPoint.Within M) hold ⟨hM, by simp⟩
      | callAll t Packet =>
          unfold step at hstep
          cases hpc : c.pc t <;> simp only [hpc, Option.some.injEq, reduceCtorEq] at hstep
          subst hstep
          exact update_forall (P := CallPoint.Within M) hold hM
      | lock t =>
          unfold step at hstep
          cases hwant : (c.pc t).wants with
          | none => simp [hwant] at hstep
          | some m =>
              simp only [hwant, Option.ite_none_right_eq_some, Option.some.injEq] at hstep
              obtain ⟨-, rfl⟩ := hstep
              exact update_forall (P := CallPoint.Within M) hold
                (CallPoint.within_entered (hold t))
      | work t err =>
          change c.work t err = some c' at hstep
          have hin := hold t
          unfold work at hstep
          split at hstep
          · next Packet i hpc =>
              rw [hpc] at hin
              split at hstep <;> obtain rfl := Option.some.inj hstep
              · exact update_forall (P := CallPoint.Within M) hold ⟨hin, by simp⟩
              · exact update_forall (P := CallPoint.Within M) hold trivial
          · next all s Packet hpc =>
              have hroom := h.room hfew hpc
              rw [hpc] at hin
              unfold ST_IOData.copyPacket at hstep
              rw [if_neg (by omega)] at hstep
              obtain rfl := Option.some.inj hstep
              exact update_forall (P := CallPoint.Within M) hold ⟨hin.1, by simp⟩
          · next all s Packet hpc =>
              rw [hpc] at hin
              dsimp only at hstep
              split at hstep <;> obtain rfl := Option.some.inj hstep
              · exact update_forall (P := CallPoint.Within M) hold ⟨hin.1, by simp⟩
              · exact update_forall (P := CallPoint.Within M) hold
                  (CallPoint.within_returned hin.1 all)
          · next all s Packet hpc =>
              rw [hpc] at hin
              obtain ⟨manager, -, rfl⟩ := Option.map_eq_some_iff.mp hstep
              exact update_forall (P := CallPoint.Within M) hold
                (CallPoint.within_returned hin.1 all)
          · exact absurd hstep (by simp)

/-! ## §4. Many threads. -/

/-- The thread calls `SendPacket` and runs to its check, and behind it. -/
def checks (s : σ) (Packet : Mem) (t : τ) : List (LockAction τ σ) :=
  [.call (.callSend t s Packet), .call (.lock t), .call (.work t 0)]

omit [Fintype τ] in
/-- **A thread that comes alone** while nobody holds a mutex: it copies its packet, or finds the buffer
full. -/
theorem run_checks {c : Callers τ σ} (hheld : c.held = ∅) {t : τ} (hidle : c.pc t = .idle) (s : σ)
    (Packet : Mem) :
    ∃ c', StepMachine.run lockStep c (checks s Packet t) = some c'
      ∧ if (c.io s).CurBytes + word32 Packet 4 ≤ BUF_SIZE then
          c'.held = ∅ ∧ (c'.io s).CurBytes = (c.io s).CurBytes + word32 Packet 4
            ∧ ∀ u, u ≠ t → c'.pc u = c.pc u
        else c'.pc t = .sending none s Packet .relock := by
  let p₁ : CallPoint σ := .sending none s Packet .lockCopy
  let p₂ : CallPoint σ := .sending none s Packet .inCopy
  let c₁ := c.goto t p₁
  let c₂ : Callers τ σ := ({ c₁ with held := insert (t, Mutex.session s, LockMode.exclusive) ∅ } : Callers τ σ).goto t p₂
  have hpc₁ : c₁.pc t = p₁ := by
    show Function.update c.pc t p₁ t = p₁
    rw [Function.update_self]
  have hpc₂ : c₂.pc t = p₂ := by
    show Function.update c₁.pc t p₂ t = p₂
    rw [Function.update_self]
  have hcall : lockStep c (.call (.callSend t s Packet)) = some c₁ := by
    simp only [lockStep, step, hidle]
    rfl
  have hlock : lockStep c₁ (.call (.lock t)) = some c₂ := by
    have havail : Mutexes.Available c₁.held (Mutex.session s) .exclusive := by
      intro h hmem
      change h ∈ c.held at hmem
      rw [hheld] at hmem
      exact absurd hmem (Finset.notMem_empty h)
    simp only [lockStep, step, hpc₁]
    show (if Mutexes.Available c₁.held (Mutex.session s) .exclusive then _ else none) = _
    rw [if_pos havail, show c₁.held = ∅ from hheld]
    rfl
  by_cases hroom : (c.io s).CurBytes + word32 Packet 4 ≤ BUF_SIZE
  · have hcopy : ∃ io, (c.io s).copyPacket Packet = some io := by
      unfold ST_IOData.copyPacket
      exact ⟨_, if_neg (by omega)⟩
    obtain ⟨io, hio⟩ := hcopy
    refine ⟨({ c₂ with io := Function.update c.io s io }.unlock t (.session s) .exclusive).goto t
      (.sending none s Packet .lockPost), ?_, ?_⟩
    · rw [checks, StepMachine.run_cons_eq_some]
      refine ⟨c₁, hcall, StepMachine.run_cons_eq_some.mpr ⟨c₂, hlock, ?_⟩⟩
      rw [StepMachine.run_cons_eq_some]
      refine ⟨_, ?_, rfl⟩
      simp only [lockStep, step, work, hpc₂, p₂]
      rw [show c₂.io s = c.io s from rfl, hio]
      rfl
    · rw [if_pos hroom]
      refine ⟨?_, ?_, fun u hut => ?_⟩
      · show (insert (t, Mutex.session s, LockMode.exclusive) ∅ : Held τ (Mutex σ)).erase _ = ∅
        rw [Finset.erase_insert (Finset.notMem_empty _)]
      · show (Function.update c.io s io s).CurBytes = _
        rw [Function.update_self]
        exact (ST_IOData.copyPacket_spec hio).2.2.1
      · show Function.update (Function.update (Function.update c.pc t _) t _) t _ u = _
        rw [Function.update_of_ne hut, Function.update_of_ne hut, Function.update_of_ne hut]
  · have hfull : (c.io s).copyPacket Packet = none := by
      unfold ST_IOData.copyPacket
      exact if_pos (by omega)
    refine ⟨c₂.goto t (.sending none s Packet .relock), ?_, ?_⟩
    · rw [checks, StepMachine.run_cons_eq_some]
      refine ⟨c₁, hcall, StepMachine.run_cons_eq_some.mpr ⟨c₂, hlock, ?_⟩⟩
      rw [StepMachine.run_cons_eq_some]
      refine ⟨_, ?_, rfl⟩
      simp only [lockStep, step, work, hpc₂, p₂]
      rw [show c₂.io s = c.io s from rfl, hfull]
    · rw [if_neg hroom]
      exact Function.update_self t _ c₂.pc

omit [Fintype τ] in
/-- **Threads that come one after the other** and post nothing fill the buffer. -/
theorem checks_fill (s : σ) (Packet : Mem) (ts : List τ) (hts : ts.Nodup) {c : Callers τ σ}
    (hheld : c.held = ∅) (hidle : ∀ t ∈ ts, c.pc t = .idle) (hcur : (c.io s).CurBytes ≤ BUF_SIZE)
    (hmany : BUF_SIZE < (c.io s).CurBytes + ts.length * word32 Packet 4) :
    ∃ (us : List τ) (t : τ) (c' : Callers τ σ),
      StepMachine.run lockStep c (us.flatMap (checks s Packet)) = some c'
      ∧ c'.pc t = .sending none s Packet .relock := by
  induction ts generalizing c with
  | nil =>
      rw [List.length_nil, Nat.zero_mul] at hmany
      omega
  | cons t ts ih =>
      rw [List.nodup_cons] at hts
      obtain ⟨c', hrun, hbehind⟩ := run_checks hheld (hidle t List.mem_cons_self) s Packet
      by_cases hroom : (c.io s).CurBytes + word32 Packet 4 ≤ BUF_SIZE
      · -- the packet is copied, and the other threads come behind it
        rw [if_pos hroom] at hbehind
        obtain ⟨hheld', hcur', hothers⟩ := hbehind
        obtain ⟨us, u, c'', hrun', hfull⟩ := ih hts.2 hheld' (fun u hu => by
            rw [hothers u fun heq => hts.1 (heq ▸ hu)]
            exact hidle u (List.mem_cons_of_mem t hu)) (by omega) (by
            rw [List.length_cons, Nat.succ_mul] at hmany
            omega)
        refine ⟨t :: us, u, c'', ?_, hfull⟩
        rw [List.flatMap_cons, StepMachine.run_append_eq_some]
        exact ⟨c', hrun, hrun'⟩
      · rw [if_neg hroom] at hbehind
        refine ⟨[t], t, c', ?_, hbehind⟩
        rw [List.flatMap_cons, List.flatMap_nil, List.append_nil]
        exact hrun

/-- **The full buffer is out of reach exactly while one packet of every thread fits.**  For any
registry and a session: no interleaving of calls with packets of at most this packet's size ever brings
a thread to the call it makes with its mutex held, if and only if the buffer holds as many such
packets as there are threads. -/
theorem room_iff_few (manager : SessionManager σ) (Data : σ → Mem) (s : σ) (Packet : Mem) :
    (∀ (as : List (LockAction τ σ)) (c : Callers τ σ), (∀ a ∈ as, a.Within (word32 Packet 4)) →
        StepMachine.run lockStep (start manager Data) as = some c →
          ∀ t all s' Packet', c.pc t ≠ .sending all s' Packet' .relock)
      ↔ Fintype.card τ * word32 Packet 4 ≤ BUF_SIZE := by
  constructor
  · intro hnever
    by_contra hmany
    obtain ⟨us, t, c, hrun, hfull⟩ := checks_fill s Packet (Finset.univ (α := τ)).toList
      (Finset.nodup_toList _) (c := start manager Data) rfl (fun _ _ => rfl) (Nat.zero_le _) (by
        rw [Finset.length_toList, Finset.card_univ]
        show BUF_SIZE < 0 + _
        omega)
    refine hnever _ c ?_ hrun t none s Packet hfull
    intro a ha
    obtain ⟨u, -, ha⟩ := List.mem_flatMap.mp ha
    simp only [checks, List.mem_cons, List.not_mem_nil, or_false] at ha
    rcases ha with rfl | rfl | rfl
    · exact le_refl _
    · trivial
    · trivial
  · intro hfew as c hM hrun t all s' Packet' hpc
    have hwithin : StepMachine.Along lockStep (fun _ a => a.Within (word32 Packet 4))
        (start manager Data) as := StepMachine.along_of_mem hM _
    have hroomed := StepMachine.safe_of_along (I := Roomed (word32 Packet 4))
      (fun _ _ _ h hM hstep => roomed_step hfew h hM hstep) (fun _ h => h)
      (roomed_start _ manager Data) hrun hwithin
    obtain ⟨d, hd, hend⟩ := hroomed.last
    obtain rfl := Option.some.inj (hd.symm.trans hrun)
    have hin := hend.within t
    rw [hpc] at hin
    exact hin.2 rfl

/-- Seven threads have room for their chats, eight have not. -/
example : 7 * ST_ChatMessage.sizeof ≤ BUF_SIZE ∧ BUF_SIZE < 8 * ST_ChatMessage.sizeof := by decide

end Callers

end YServerCore
