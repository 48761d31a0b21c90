/-
  YServerCore.Send.SelfWait — the mutexes `SendPacket`, `Send`, `CloseSession` and `AllMessage` take.

  A thread inside one of these calls stands at a point of its code: before a mutex it waits for,
  or inside the section behind it.  Two points wait for a mutex that is held there already: the
  call `SendPacket` makes to itself when the buffer is full still holds the session's mutex, and
  the `CloseSession` of a failed send inside `AllMessage` still shares the manager's.

  A closed session's object is deleted; a thread that still uses it reads and writes freed memory,
  which the model leaves as it was.

  Main results:
    * `selfWait_iff` — the points that wait for a mutex of their own.
    * `no_self_wait_iff` — no thread ever waits for its own mutex exactly when every packet finds
      room and no send of a broadcast fails with `SOCKET_ERROR`.
-/
import YServerCore.Lib.Mutexes
import YServerCore.Registry.SessionManager
import YServerCore.Send.SendPacket

namespace YServerCore

open ByteMemory (Mem word32)
open Mutexes (LockMode Points Held)

/-! ## §1. The points of the code. -/

/-- The mutexes: `Session::S_Mutex` of each session, and `SessionManager::S_Mutex`. -/
inductive Mutex (σ : Type*) where
  | session (s : σ)
  | manager
  deriving DecidableEq, Repr

/-- The points inside `SendPacket`. -/
inductive SendPoint where
  /-- Before the first lock. -/
  | lockCopy
  /-- Inside the first section, before the check. -/
  | inCopy
  /-- Before the first lock of the call made from inside the first section. -/
  | relock
  /-- Before the second lock. -/
  | lockPost
  /-- Inside the second section, before `WSASend`. -/
  | inPost
  /-- Before the lock of `CloseSession`, called by `Send`. -/
  | lockClose
  /-- Inside `CloseSession`. -/
  | inClose
  deriving DecidableEq, Repr

/-- Where a thread is: outside, before the lock of `AllMessage`, at the head of its loop, or in
`SendPacket`, called by itself or by the loop at a position. -/
inductive CallPoint (σ : Type*) where
  | idle
  | lockAll (Packet : Mem)
  | loop (Packet : Mem) (i : Nat)
  | sending (all : Option Nat) (s : σ) (Packet : Mem) (point : SendPoint)

namespace CallPoint

variable {σ : Type*} [DecidableEq σ]

/-- The mutexes a thread owns inside `SendPacket`, by the locks taken in there. -/
def sendOwns (s : σ) : SendPoint → Finset (Mutex σ × LockMode)
  | .lockCopy => ∅
  | .inCopy => {(.session s, .exclusive)}
  | .relock => {(.session s, .exclusive)}
  | .lockPost => ∅
  | .inPost => {(.session s, .exclusive)}
  | .lockClose => {(.session s, .exclusive)}
  | .inClose => {(.manager, .exclusive), (.session s, .exclusive)}

/-- The mutexes a thread owns: the loop of `AllMessage` shares the manager's. -/
def owns : CallPoint σ → Finset (Mutex σ × LockMode)
  | .idle => ∅
  | .lockAll _ => ∅
  | .loop _ _ => {(.manager, .shared)}
  | .sending none s _ point => sendOwns s point
  | .sending (some _) s _ point => insert (.manager, .shared) (sendOwns s point)

/-- The mutex a thread waits for. -/
def wants : CallPoint σ → Option (Mutex σ × LockMode)
  | .idle => none
  | .lockAll _ => some (.manager, .shared)
  | .loop _ _ => none
  | .sending _ s _ .lockCopy => some (.session s, .exclusive)
  | .sending _ _ _ .inCopy => none
  | .sending _ s _ .relock => some (.session s, .exclusive)
  | .sending _ s _ .lockPost => some (.session s, .exclusive)
  | .sending _ _ _ .inPost => none
  | .sending _ _ _ .lockClose => some (.manager, .exclusive)
  | .sending _ _ _ .inClose => none

/-- The points with what they own and wait for. -/
def points : Points (CallPoint σ) (Mutex σ) where
  owns := owns
  wants := wants

/-- The point behind the lock a thread waits for. -/
def entered : CallPoint σ → CallPoint σ
  | .lockAll Packet => .loop Packet 0
  | .sending all s Packet .lockCopy => .sending all s Packet .inCopy
  | .sending all s Packet .relock => .sending all s Packet .inCopy
  | .sending all s Packet .lockPost => .sending all s Packet .inPost
  | .sending all s Packet .lockClose => .sending all s Packet .inClose
  | p => p

/-- The point behind a call of `SendPacket`. -/
def returned (Packet : Mem) : Option Nat → CallPoint σ
  | none => .idle
  | some i => .loop Packet (i + 1)

/-- The point waits for a mutex its thread owns there. -/
def Waits : CallPoint σ → Prop
  | .sending _ _ _ .relock => True
  | .sending (some _) _ _ .lockClose => True
  | _ => False

/-- **The two points that wait for a mutex of their own**: the call made with the session's mutex
held, and the close of a failed send inside a broadcast. -/
theorem selfWait_iff (p : CallPoint σ) : Mutexes.SelfWait points p ↔ p.Waits := by
  refine ⟨fun h => ?_, fun h => ?_⟩
  · obtain ⟨m, mode, mode', hwant, howns⟩ := h
    change p.wants = some (m, mode) at hwant
    change (m, mode') ∈ p.owns at howns
    cases p with
    | idle => exact absurd hwant (by simp [wants])
    | lockAll Packet => exact absurd howns (by simp [owns])
    | loop Packet i => exact absurd hwant (by simp [wants])
    | sending all s Packet point =>
        cases all <;> cases point <;> simp_all [wants, owns, sendOwns, Waits]
  · cases p with
    | idle => exact absurd h id
    | lockAll Packet => exact absurd h id
    | loop Packet i => exact absurd h id
    | sending all s Packet point =>
        cases point with
        | relock =>
            refine ⟨.session s, .exclusive, .exclusive, rfl, ?_⟩
            cases all <;> simp [points, owns, sendOwns]
        | lockClose =>
            cases all with
            | none => exact absurd h id
            | some i =>
                refine ⟨.manager, .exclusive, .shared, rfl, ?_⟩
                simp [points, owns]
        | _ => cases all <;> exact absurd h id

/-- A lock adds to what the point in front of it owns. -/
theorem owns_entered {p : CallPoint σ} {m : Mutex σ} {mode : LockMode}
    (h : p.wants = some (m, mode)) (hself : ¬ p.Waits) :
    p.entered.owns = insert (m, mode) p.owns := by
  cases p with
  | idle => exact absurd h (by simp [wants])
  | lockAll Packet =>
      simp only [wants, Option.some.injEq, Prod.mk.injEq] at h
      obtain ⟨rfl, rfl⟩ := h
      rfl
  | loop Packet i => exact absurd h (by simp [wants])
  | sending all s Packet point =>
      cases all <;> cases point <;>
        simp_all [wants, owns, sendOwns, entered, Waits] <;> grind

/-- Behind the first section the session's mutex has been given back. -/
theorem owns_lockPost (all : Option Nat) (s : σ) (Packet : Mem) :
    owns (.sending all s Packet .lockPost)
      = (owns (.sending all s Packet .inCopy)).erase (.session s, .exclusive) := by
  cases all with
  | none => ext h; grind [owns, sendOwns]
  | some i => ext h; grind [owns, sendOwns]

/-- Behind the second section too. -/
theorem owns_returned (all : Option Nat) (s : σ) (Packet : Mem) :
    owns (returned Packet all)
      = (owns (.sending all s Packet .inPost)).erase (.session s, .exclusive) := by
  cases all with
  | none => ext h; grind [owns, sendOwns, returned]
  | some i => ext h; grind [owns, sendOwns, returned]

/-- Behind `CloseSession` the thread owns what it owned in front of it. -/
theorem owns_inPost (all : Option Nat) (s : σ) (Packet : Mem) :
    owns (.sending all s Packet .inPost)
      = (owns (.sending all s Packet .inClose)).erase (.manager, .exclusive) := by
  cases all with
  | none => ext h; grind [owns, sendOwns]
  | some i => ext h; grind [owns, sendOwns]

omit [DecidableEq σ] in
/-- No thread waits right behind a lock. -/
theorem not_waits_entered (p : CallPoint σ) : ¬ p.entered.Waits := by
  cases p with
  | idle => exact id
  | lockAll Packet => exact id
  | loop Packet i => exact id
  | sending all s Packet point =>
      cases all <;> cases point <;> exact id

omit [DecidableEq σ] in
/-- No thread waits right behind a call. -/
theorem not_waits_returned (all : Option Nat) (Packet : Mem) :
    ¬ (returned Packet all : CallPoint σ).Waits := by
  cases all <;> exact id

end CallPoint

/-! ## §2. The callers. -/

/-- What the threads do. -/
inductive CallAction (τ σ : Type*) where
  /-- A thread calls `SendPacket` of a session. -/
  | callSend (t : τ) (s : σ) (Packet : Mem)
  /-- A thread calls `AllMessage`. -/
  | callAll (t : τ) (Packet : Mem)
  /-- A waiting thread gets its mutex. -/
  | lock (t : τ)
  /-- A thread runs to its next lock or to its return; `WSAGetLastError` returns this number if it
  sends on the way. -/
  | work (t : τ) (WSAGetLastError : Int)

/-- The write buffers of the sessions, the registry, and the threads with the mutexes they hold. -/
structure Callers (τ σ : Type*) where
  io : σ → ST_IOData
  manager : SessionManager σ
  pc : τ → CallPoint σ
  held : Held τ (Mutex σ)

namespace Callers

variable {τ σ : Type*} [DecidableEq τ] [DecidableEq σ]

/-- No thread is in a call; the buffers of the sessions are empty. -/
def start (manager : SessionManager σ) (Data : σ → Mem) : Callers τ σ where
  io := fun s => { Usage := .Write, Data := Data s }
  manager := manager
  pc := fun _ => .idle
  held := ∅

/-- The thread moves on. -/
def goto (c : Callers τ σ) (t : τ) (p : CallPoint σ) : Callers τ σ :=
  { c with pc := Function.update c.pc t p }

/-- The thread gives a mutex back. -/
def unlock (c : Callers τ σ) (t : τ) (m : Mutex σ) (mode : LockMode) : Callers τ σ :=
  { c with held := c.held.erase (t, m, mode) }

/-- A thread inside a section runs on to its next lock or its return. -/
def work (c : Callers τ σ) (t : τ) (WSAGetLastError : Int) : Option (Callers τ σ) :=
  match c.pc t with
  | .loop Packet i =>
      match c.manager.Sessions[i]? with
      | some s => some (c.goto t (.sending (some i) s Packet .lockCopy))
      | none => some ((c.unlock t .manager .shared).goto t .idle)
  | .sending all s Packet .inCopy =>
      match (c.io s).copyPacket Packet with
      | some io =>
          some (({ c with io := Function.update c.io s io }.unlock t (.session s) .exclusive).goto t
            (.sending all s Packet .lockPost))
      | none => some (c.goto t (.sending all s Packet .relock))
  | .sending all s Packet .inPost =>
      let c' := { c with io := Function.update c.io s (c.io s).Send.1 }
      if ST_IOData.sendCloses WSAGetLastError then
        some (c'.goto t (.sending all s Packet .lockClose))
      else
        some ((c'.unlock t (.session s) .exclusive).goto t (CallPoint.returned Packet all))
  | .sending all s Packet .inClose =>
      (c.manager.CloseSession s).map (fun manager =>
        (({ c with manager := manager }.unlock t .manager .exclusive).unlock t
          (.session s) .exclusive).goto t (CallPoint.returned Packet all))
  | _ => none

/-- One step of one thread. -/
def step (c : Callers τ σ) : CallAction τ σ → Option (Callers τ σ)
  | .callSend t s Packet =>
      match c.pc t with
      | .idle => some (c.goto t (.sending none s Packet .lockCopy))
      | _ => none
  | .callAll t Packet =>
      match c.pc t with
      | .idle => some (c.goto t (.lockAll Packet))
      | _ => none
  | .lock t =>
      match (c.pc t).wants with
      | none => none
      | some (m, mode) =>
          if Mutexes.Available c.held m mode then
            some ({ c with held := insert (t, m, mode) c.held }.goto t (c.pc t).entered)
          else none
  | .work t WSAGetLastError => c.work t WSAGetLastError

/-- No thread waits for a mutex it holds. -/
def NoSelfWait (c : Callers τ σ) : Prop := Mutexes.NoSelfWait CallPoint.points c.pc c.held

/-- The packet finds room at its check, and a send inside a broadcast does not see
`SOCKET_ERROR`. -/
def Roomy (c : Callers τ σ) : CallAction τ σ → Prop
  | .work t WSAGetLastError =>
      match c.pc t with
      | .sending _ s Packet .inCopy => (c.io s).CurBytes + word32 Packet 4 ≤ BUF_SIZE
      | .sending (some _) _ _ .inPost => WSAGetLastError ≠ SOCKET_ERROR
      | _ => True
  | _ => True

instance (c : Callers τ σ) (a : CallAction τ σ) : Decidable (Roomy c a) := by
  unfold Roomy
  split
  · split <;> infer_instance
  · infer_instance

/-! ## §3. One step. -/

/-- The holds are what the points own. -/
def Consistent (c : Callers τ σ) : Prop := Mutexes.Consistent CallPoint.points c.pc c.held

omit [DecidableEq τ] in
theorem start_consistent (manager : SessionManager σ) (Data : σ → Mem) :
    (start manager Data : Callers τ σ).Consistent := by
  intro t h
  simp [start, CallPoint.points, CallPoint.owns]

/-- What a step is: one thread moves to a point, the holds stay consistent, and the point does not
wait for a mutex of its own exactly when the step was roomy. -/
structure Move (c : Callers τ σ) (a : CallAction τ σ) (c' : Callers τ σ) (t : τ)
    (p : CallPoint σ) : Prop where
  pc : c'.pc = Function.update c.pc t p
  consistent : c'.Consistent
  waits : ¬ p.Waits ↔ Roomy c a

/-- The first section: the packet is copied, or the call starts over with the mutex held. -/
theorem work_inCopy {c c' : Callers τ σ} (hc : c.Consistent) {t : τ} {all : Option Nat} {s : σ}
    {Packet : Mem} {err : Int} (hpc : c.pc t = .sending all s Packet .inCopy)
    (hstep : c.work t err = some c') : ∃ p, Move c (.work t err) c' t p := by
  have hroomy : Roomy c (.work t err)
      ↔ (c.io s).CurBytes + word32 Packet 4 ≤ BUF_SIZE := by
    simp only [Roomy, hpc]
  unfold work at hstep
  simp only [hpc] at hstep
  unfold ST_IOData.copyPacket at hstep
  by_cases hfull : (c.io s).CurBytes + word32 Packet 4 > BUF_SIZE
  · simp only [if_pos hfull, Option.some.injEq] at hstep
    subst hstep
    refine ⟨_, rfl, hc.stay ?_, ?_⟩
    · rw [hpc]
      cases all <;> rfl
    · rw [hroomy]
      exact ⟨fun h => absurd trivial h, fun h => absurd h (by omega)⟩
  · simp only [if_neg hfull, Option.some.injEq] at hstep
    subst hstep
    refine ⟨_, rfl, hc.drop ?_, ?_⟩
    · rw [hpc]
      exact CallPoint.owns_lockPost all s Packet
    · rw [hroomy]
      refine ⟨fun _ => by omega, fun _ => ?_⟩
      cases all <;> exact id

/-- The second section: the mutex is given back, or `CloseSession` waits for the manager's. -/
theorem work_inPost {c c' : Callers τ σ} (hc : c.Consistent) {t : τ} {all : Option Nat} {s : σ}
    {Packet : Mem} {err : Int} (hpc : c.pc t = .sending all s Packet .inPost)
    (hstep : c.work t err = some c') : ∃ p, Move c (.work t err) c' t p := by
  unfold work at hstep
  simp only [hpc, ST_IOData.sendCloses, decide_eq_true_eq] at hstep
  by_cases herr : err = SOCKET_ERROR
  · simp only [if_pos herr, Option.some.injEq] at hstep
    subst hstep
    refine ⟨_, rfl, hc.stay ?_, ?_⟩
    · rw [hpc]
      cases all <;> rfl
    · cases all with
      | none => simp [Roomy, hpc, CallPoint.Waits]
      | some i => simp [Roomy, hpc, CallPoint.Waits, herr]
  · simp only [if_neg herr, Option.some.injEq] at hstep
    subst hstep
    refine ⟨_, rfl, hc.drop ?_, ?_⟩
    · rw [hpc]
      exact CallPoint.owns_returned all s Packet
    · refine ⟨fun _ => ?_, fun _ => CallPoint.not_waits_returned all Packet⟩
      cases all <;> simp [Roomy, hpc, herr]

/-- `CloseSession`: both mutexes are given back. -/
theorem work_inClose {c c' : Callers τ σ} (hc : c.Consistent) {t : τ} {all : Option Nat} {s : σ}
    {Packet : Mem} {err : Int} (hpc : c.pc t = .sending all s Packet .inClose)
    (hstep : c.work t err = some c') : ∃ p, Move c (.work t err) c' t p := by
  unfold work at hstep
  simp only [hpc, Option.map_eq_some_iff] at hstep
  obtain ⟨manager, -, rfl⟩ := hstep
  -- between the two unlocks the thread is back in the second section
  have hmid : Mutexes.Consistent CallPoint.points
      (Function.update c.pc t (.sending all s Packet .inPost))
      (c.held.erase (t, .manager, .exclusive)) := by
    refine Mutexes.Consistent.drop hc ?_
    rw [hpc]
    exact CallPoint.owns_inPost all s Packet
  have hend := hmid.drop (t := t) (p := CallPoint.returned Packet all)
    (h := (.session s, .exclusive)) (by
      rw [Function.update_self]
      exact CallPoint.owns_returned all s Packet)
  rw [Function.update_idem] at hend
  refine ⟨_, rfl, hend, fun _ => ?_, fun _ => CallPoint.not_waits_returned all Packet⟩
  cases all <;> simp [Roomy, hpc]

/-- The loop of `AllMessage`: the next session, or at the end the manager's mutex is given back. -/
theorem work_loop {c c' : Callers τ σ} (hc : c.Consistent) {t : τ} {Packet : Mem} {i : Nat} {err : Int}
    (hpc : c.pc t = .loop Packet i) (hstep : c.work t err = some c') :
    ∃ p, Move c (.work t err) c' t p := by
  simp only [work, hpc] at hstep
  cases hget : c.manager.Sessions[i]? with
  | none =>
      simp only [hget, Option.some.injEq] at hstep
      subst hstep
      refine ⟨_, rfl, hc.drop ?_, fun _ => by simp [Roomy, hpc], fun _ => id⟩
      rw [hpc]
      rfl
  | some s =>
      simp only [hget, Option.some.injEq] at hstep
      subst hstep
      refine ⟨_, rfl, hc.stay ?_, fun _ => by simp [Roomy, hpc], fun _ => id⟩
      rw [hpc]
      rfl

/-- A call that starts holds nothing yet. -/
theorem call_move {c : Callers τ σ} {a : CallAction τ σ} (hc : c.Consistent) {t : τ} {p : CallPoint σ}
    (hidle : c.pc t = .idle) (hroomy : Roomy c a) (howns : p.owns = ∅) (hwaits : ¬ p.Waits) :
    Move c a (c.goto t p) t p := by
  refine ⟨rfl, hc.stay ?_, fun _ => hroomy, fun _ => hwaits⟩
  rw [hidle]
  exact howns

/-- A mutex that is taken is not one the thread holds. -/
theorem lock_move {c c' : Callers τ σ} (hc : c.Consistent) (hno : c.NoSelfWait) {t : τ}
    (hstep : step c (.lock t) = some c') : ∃ p, Move c (.lock t) c' t p := by
  unfold step at hstep
  cases hwant : (c.pc t).wants with
  | none =>
      simp only [hwant] at hstep
      exact absurd hstep (by simp)
  | some h =>
      obtain ⟨m, mode⟩ := h
      have hself : ¬ (c.pc t).Waits := by
        rw [← CallPoint.selfWait_iff]
        exact (Mutexes.noSelfWait_iff hc).mp hno t
      simp only [hwant, Option.ite_none_right_eq_some, Option.some.injEq] at hstep
      obtain ⟨-, rfl⟩ := hstep
      exact ⟨_, rfl, hc.take (CallPoint.owns_entered hwant hself), fun _ => trivial,
        fun _ => CallPoint.not_waits_entered _⟩

/-- **One step** of a consistent state moves one thread, and makes it wait for its own mutex exactly
when the step was not roomy. -/
theorem step_move {c c' : Callers τ σ} {a : CallAction τ σ} (hc : c.Consistent)
    (hno : c.NoSelfWait) (hstep : step c a = some c') : ∃ t p, Move c a c' t p := by
  cases a with
  | callSend t s Packet =>
      unfold step at hstep
      cases hpc : c.pc t <;> simp only [hpc, Option.some.injEq, reduceCtorEq] at hstep
      subst hstep
      exact ⟨t, _, call_move hc hpc trivial rfl id⟩
  | callAll t Packet =>
      unfold step at hstep
      cases hpc : c.pc t <;> simp only [hpc, Option.some.injEq, reduceCtorEq] at hstep
      subst hstep
      exact ⟨t, _, call_move hc hpc trivial rfl id⟩
  | lock t => exact ⟨t, lock_move hc hno hstep⟩
  | work t err =>
      change c.work t err = some c' at hstep
      refine ⟨t, ?_⟩
      cases hpc : c.pc t with
      | idle =>
          simp only [work, hpc] at hstep
          exact absurd hstep (by simp)
      | lockAll Packet =>
          simp only [work, hpc] at hstep
          exact absurd hstep (by simp)
      | loop Packet i => exact work_loop hc hpc hstep
      | sending all s Packet point =>
          cases point with
          | inCopy => exact work_inCopy hc hpc hstep
          | inPost => exact work_inPost hc hpc hstep
          | inClose => exact work_inClose hc hpc hstep
          | _ =>
              simp only [work, hpc] at hstep
              exact absurd hstep (by simp)

/-! ## §4. Whole runs. -/

/-- **No thread ever waits for its own mutex exactly in roomy runs.**  For any threads, sessions,
interleaving and outcomes of the socket calls: no state reached has a thread that waits for a
mutex it holds, if and only if every packet found room at its check and no send inside a
broadcast saw `SOCKET_ERROR`. -/
theorem no_self_wait_iff (manager : SessionManager σ) (Data : σ → Mem)
    (as : List (CallAction τ σ)) (c : Callers τ σ)
    (hrun : StepMachine.run step (start manager Data) as = some c) :
    StepMachine.Safe step NoSelfWait (start manager Data) as
      ↔ StepMachine.Along step Roomy (start manager Data) as := by
  refine StepMachine.safe_iff_along_of_run (I := Consistent) ?_ ?_
    (start_consistent manager Data) ?_ hrun
  · intro c a c' hc hno hstep _
    obtain ⟨t, p, hmove⟩ := step_move hc hno hstep
    exact hmove.consistent
  · intro c a c' hc hno hstep
    obtain ⟨t, p, hmove⟩ := step_move hc hno hstep
    have hcons := hmove.consistent
    unfold Consistent at hcons
    unfold NoSelfWait
    rw [hmove.pc] at hcons ⊢
    rw [Mutexes.noSelfWait_update hc hno hcons, CallPoint.selfWait_iff]
    exact hmove.waits
  · intro t m mode hwant
    exact absurd hwant (by simp [start, CallPoint.points, CallPoint.wants])

/-- A broadcast to one session, from the call to the return. -/
theorem no_self_wait_broadcast :
    StepMachine.Safe step NoSelfWait
      (start { Sessions := [()], SessionCount := 1 } (fun _ _ => 0) : Callers Bool Unit)
      [.callAll false Sending.headerPacket, .lock false, .work false 0, .lock false, .work false 0,
        .lock false, .work false 0, .work false 0] := by
  have hsome : (StepMachine.run step
      (start { Sessions := [()], SessionCount := 1 } (fun _ _ => 0) : Callers Bool Unit)
      [.callAll false Sending.headerPacket, .lock false, .work false 0, .lock false, .work false 0,
        .lock false, .work false 0, .work false 0]).isSome := by
    decide +kernel
  obtain ⟨c, hc⟩ := Option.isSome_iff_exists.mp hsome
  exact (no_self_wait_iff _ _ _ c hc).mpr (by decide +kernel)

/-- A packet that fills the whole buffer. -/
def fullPacket : Mem := fun i => if i = 5 then 16 else 0

/-- **Two threads that wait for themselves.**  One thread has filled the buffer and not posted yet; the
other one finds no room and calls `SendPacket` again with the session's mutex held.  And a
broadcast whose send fails waits for the manager's mutex that it shares. -/
theorem self_wait_reached :
    (word32 fullPacket 4 ≤ BUF_SIZE ∧ word32 Sending.headerPacket 4 ≤ BUF_SIZE)
      ∧ (∃ c : Callers Bool Unit,
        StepMachine.run step (start { Sessions := [()], SessionCount := 1 } (fun _ _ => 0))
            [.callSend true () fullPacket, .lock true, .work true 0,
              .callSend false () Sending.headerPacket, .lock false, .work false 0] = some c
          ∧ ¬ NoSelfWait c)
      ∧ ∃ c : Callers Bool Unit,
        StepMachine.run step (start { Sessions := [()], SessionCount := 1 } (fun _ _ => 0))
            [.callAll false Sending.headerPacket, .lock false, .work false 0, .lock false,
              .work false 0, .lock false, .work false (-1)] = some c
          ∧ ¬ NoSelfWait c := by
  refine ⟨⟨by decide, by decide⟩, ?_, ?_⟩
  · have hend : (StepMachine.run step
        (start { Sessions := [()], SessionCount := 1 } (fun _ _ => 0) : Callers Bool Unit)
        [.callSend true () fullPacket, .lock true, .work true 0,
          .callSend false () Sending.headerPacket, .lock false, .work false 0]).map
        (fun c => ((c.pc false).wants, decide ((false, .session (), .exclusive) ∈ c.held)))
        = some (some (.session (), .exclusive), true) := by
      decide +kernel
    obtain ⟨c, hc, hat⟩ := Option.map_eq_some_iff.mp hend
    rw [Prod.mk.injEq, decide_eq_true_eq] at hat
    exact ⟨c, hc, fun hno => hno false _ _ hat.1 _ hat.2⟩
  · have hend : (StepMachine.run step
        (start { Sessions := [()], SessionCount := 1 } (fun _ _ => 0) : Callers Bool Unit)
        [.callAll false Sending.headerPacket, .lock false, .work false 0, .lock false,
          .work false 0, .lock false, .work false (-1)]).map
        (fun c => ((c.pc false).wants, decide ((false, .manager, .shared) ∈ c.held)))
        = some (some (.manager, .exclusive), true) := by
      decide +kernel
    obtain ⟨c, hc, hat⟩ := Option.map_eq_some_iff.mp hend
    rw [Prod.mk.injEq, decide_eq_true_eq] at hat
    exact ⟨c, hc, fun hno => hno false _ _ hat.1 _ hat.2⟩

end Callers

end YServerCore
