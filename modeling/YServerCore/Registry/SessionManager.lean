/-
  YServerCore.Registry.SessionManager — the registry of sessions.

  `Sessions` is the vector of session pointers, `SessionCount` its counter, and every `Session`
  object has a member `SessionID`.  A pointer is a value of a type `σ` with decidable equality;
  a pointer may come back after its session was deleted, as an allocator may hand an address out
  again.  `CloseSession` addresses the vector by the id stored in the session, and `none` is an
  index outside the vector.

  `CloseSession` moves the last session to the freed position but leaves the moved session's
  `SessionID` as it was, so the id may point to another session, or behind the end, later on.

  Main results:
    * `add_exact_iff` — one add keeps the registry exact exactly when the session is not live.
    * `close_exact_iff` — one close keeps the registry exact exactly when the closed session
      stands at the position its own id names.
    * `registry_exact_iff` — both for every sequence of adds and closes of live sessions.
-/
import Mathlib.Data.Finset.Basic
import YServerCore.Lib.StepMachine
import YServerCore.Lib.SwapRemove

namespace YServerCore

open SwapRemove (swapRemove)

/-! ## §1. The class. -/

/-- The members the three functions read and write; `SessionID` is the member of that name of
each `Session` object. -/
structure SessionManager (σ : Type*) where
  Sessions : List σ := []
  SessionCount : Int := 0
  SessionID : σ → Int := fun _ => 0

namespace SessionManager

variable {σ : Type*} [DecidableEq σ]

/-- `SessionManager::AddSession`. -/
def AddSession (m : SessionManager σ) (Session : σ) : SessionManager σ where
  SessionID := Function.update m.SessionID Session m.SessionCount
  Sessions := m.Sessions ++ [Session]
  SessionCount := m.SessionCount + 1

/-- The position `Sessions[Session->SessionID]`; `none` outside the vector. -/
def position (m : SessionManager σ) (Session : σ) : Option Nat :=
  let id := m.SessionID Session
  if 0 ≤ id ∧ id.toNat < m.Sessions.length then some id.toNat else none

/-- `SessionManager::CloseSession`: the last pointer is written over the one at the session's
position, and the vector gets shorter. -/
def CloseSession (m : SessionManager σ) (Session : σ) : Option (SessionManager σ) :=
  (m.position Session).map (fun i =>
    { m with Sessions := swapRemove m.Sessions i, SessionCount := m.SessionCount - 1 })

/-- The `SendPacket` calls of `SessionManager::AllMessage`, each with its session. -/
def AllMessage {μ : Type*} (m : SessionManager σ) (Msg : μ) : List (σ × μ) :=
  m.Sessions.map (fun Session => (Session, Msg))

omit [DecidableEq σ] in
theorem position_eq_some {m : SessionManager σ} {s : σ} {i : Nat} (h : m.position s = some i) :
    m.SessionID s = i ∧ i < m.Sessions.length := by
  simp only [position, Option.ite_none_right_eq_some, Option.some.injEq] at h
  omega

/-! ## §2. Sequences of adds and closes. -/

/-- What is done to the registry. -/
inductive Action (σ : Type*) where
  | add (Session : σ)
  | close (Session : σ)
  deriving DecidableEq, Repr

/-- The registry, and the sessions that were added and not closed since. -/
structure Run (σ : Type*) where
  manager : SessionManager σ := {}
  live : Finset σ := ∅

/-- One call. -/
def step (r : Run σ) : Action σ → Option (Run σ)
  | .add s => some ⟨r.manager.AddSession s, insert s r.live⟩
  | .close s => (r.manager.CloseSession s).map (fun m => ⟨m, r.live.erase s⟩)

/-- What the callers of `CloseSession` promise: the session was added and not closed since. -/
def Closing (r : Run σ) : Action σ → Prop
  | .add _ => True
  | .close s => s ∈ r.live

instance (r : Run σ) : ∀ a : Action σ, Decidable (Closing r a)
  | .add _ => inferInstanceAs (Decidable True)
  | .close s => inferInstanceAs (Decidable (s ∈ r.live))

/-- **The registry holds exactly the live sessions**: each of them once and no other, so that
`AllMessage` sends to each of them once and to no other. -/
def Exact (r : Run σ) : Prop :=
  ∀ s, r.manager.Sessions.count s = (if s ∈ r.live then 1 else 0)
    ∧ ∀ Msg : List UInt8, (r.manager.AllMessage Msg).count (s, Msg)
        = (if s ∈ r.live then 1 else 0)

/-- A session that is added is not live, and one that is closed still stands at the position its
`SessionID` names. -/
def InPlace (r : Run σ) : Action σ → Prop
  | .add s => s ∉ r.live
  | .close s => 0 ≤ r.manager.SessionID s
      ∧ r.manager.Sessions[(r.manager.SessionID s).toNat]? = some s

instance (r : Run σ) (a : Action σ) : Decidable (InPlace r a) := by
  cases a <;> unfold InPlace <;> infer_instance

/-- A broadcast sends to a session as often as the vector holds it. -/
theorem count_AllMessage {μ : Type*} [BEq μ] [LawfulBEq μ] (m : SessionManager σ) (Msg : μ) (s : σ) :
    (m.AllMessage Msg).count (s, Msg) = m.Sessions.count s := by
  unfold AllMessage
  exact List.count_map_of_injective _ (fun t => (t, Msg)) (fun _ _ h => (Prod.mk.inj h).1) s

/-- The broadcast half of `Exact` comes with the vector half. -/
theorem exact_iff (r : Run σ) :
    Exact r ↔ ∀ s, r.manager.Sessions.count s = (if s ∈ r.live then 1 else 0) := by
  refine ⟨fun h s => (h s).1, fun h s => ⟨h s, fun Msg => ?_⟩⟩
  rw [count_AllMessage, h s]

theorem exact_init : Exact ({} : Run σ) := by
  rw [exact_iff]
  intro s
  simp

/-! ## §3. One call. -/

/-- What a close does: it removes what stands at the session's position. -/
theorem step_close {r r' : Run σ} {s : σ} :
    step r (.close s) = some r' ↔ ∃ i, r.manager.position s = some i
      ∧ r' = ⟨{ r.manager with Sessions := swapRemove r.manager.Sessions i
                               SessionCount := r.manager.SessionCount - 1 }, r.live.erase s⟩ := by
  show ((r.manager.position s).map _).map _ = some r' ↔ _
  rw [Option.map_map, Option.map_eq_some_iff]
  apply exists_congr
  intro i
  apply and_congr_right
  intro _
  exact eq_comm

/-- **One add is exact exactly for a session that is not live.**  A live one would stand in the
vector twice, and every broadcast would go to it twice. -/
theorem add_exact_iff {r : Run σ} (hex : Exact r) {s : σ} :
    Exact ⟨r.manager.AddSession s, insert s r.live⟩ ↔ s ∉ r.live := by
  rw [exact_iff] at hex ⊢
  have hcount : ∀ t, (r.manager.AddSession s).Sessions.count t
      = (if t ∈ r.live then 1 else 0) + if s = t then 1 else 0 := by
    intro t
    show (r.manager.Sessions ++ [s]).count t = _
    simp only [List.count_append, hex t, List.count_singleton, beq_iff_eq]
  constructor
  · intro h hs
    -- the vector held the session already
    have htwice := hcount s
    rw [h s, if_pos (Finset.mem_insert_self s r.live), if_pos hs, if_pos rfl] at htwice
    omega
  · intro hs t
    show (r.manager.AddSession s).Sessions.count t = _
    rw [hcount t]
    by_cases hts : s = t
    · subst hts
      simp [hs]
    · have hne : t ≠ s := fun h => hts h.symm
      simp [hts, hne]

/-- **One close is exact exactly in place.**  From an exact registry, closing a live session stays
inside the vector and leaves an exact registry if and only if the session stands at the
position its id names. -/
theorem close_exact_iff {r : Run σ} (hex : Exact r) {s : σ} (hs : s ∈ r.live) :
    (∃ r', step r (.close s) = some r' ∧ Exact r') ↔ InPlace r (.close s) := by
  rw [exact_iff] at hex
  have hone : r.manager.Sessions.count s = 1 := by rw [hex s, if_pos hs]
  refine ⟨fun h => ?_, fun h => ?_⟩
  · obtain ⟨r', hstep, hex'⟩ := h
    obtain ⟨i, hi, rfl⟩ := step_close.mp hstep
    obtain ⟨hid, hlt⟩ := position_eq_some hi
    rw [exact_iff] at hex'
    -- the closed session is gone, so it is what stood at the position
    have hgone : (swapRemove r.manager.Sessions i).count s = 0 := by
      have := hex' s
      simpa using this
    have hcount := SwapRemove.count_swapRemove r.manager.Sessions i hlt s
    have hat : r.manager.Sessions[i] = s := by
      by_contra hne
      rw [if_neg hne] at hcount
      omega
    show 0 ≤ r.manager.SessionID s
      ∧ r.manager.Sessions[(r.manager.SessionID s).toNat]? = some s
    rw [hid, Int.toNat_natCast, List.getElem?_eq_getElem hlt, hat]
    exact ⟨by omega, rfl⟩
  · obtain ⟨hnn, hget⟩ := h
    obtain ⟨hlt, hat⟩ := List.getElem?_eq_some_iff.mp hget
    have hpos : r.manager.position s = some (r.manager.SessionID s).toNat := by
      unfold position
      exact if_pos ⟨hnn, hlt⟩
    refine ⟨_, step_close.mpr ⟨_, hpos, rfl⟩, ?_⟩
    rw [exact_iff]
    intro t
    show (swapRemove r.manager.Sessions (r.manager.SessionID s).toNat).count t = _
    have hcount := SwapRemove.count_swapRemove r.manager.Sessions _ hlt t
    rw [hat, hex t] at hcount
    -- the closed session is counted once less, every other one as before
    by_cases hts : s = t
    · subst hts
      rw [if_pos hs, if_pos rfl] at hcount
      rw [if_neg (Finset.notMem_erase s r.live)]
      omega
    · have hne : t ≠ s := fun h => hts h.symm
      rw [if_neg hts] at hcount
      have hmem : t ∈ r.live.erase s ↔ t ∈ r.live := by simp [hne]
      rw [if_congr hmem rfl rfl]
      omega

/-- **One call is exact exactly in place.** -/
theorem step_exact_iff {r : Run σ} {a : Action σ} (hex : Exact r) (hclosing : Closing r a) :
    (∃ r', step r a = some r' ∧ Exact r') ↔ InPlace r a := by
  cases a with
  | add s =>
      rw [show InPlace r (.add s) ↔ s ∉ r.live from Iff.rfl, ← add_exact_iff hex]
      constructor
      · intro hadd
        obtain ⟨r', hr', hex'⟩ := hadd
        exact Option.some.inj hr' ▸ hex'
      · intro hex'
        exact ⟨_, rfl, hex'⟩
  | close s => exact close_exact_iff hex hclosing

/-! ## §4. Whole sequences. -/

/-- **The registry is exact exactly while sessions are added and closed in place.**  For every
sequence of adds and closes whose closes are of live sessions: every index used is inside the
vector and after every call the registry (and so every broadcast) has each live session once and
no other, if and only if every session that is added is not live and every session that is closed
stands at the position its id names. -/
theorem registry_exact_iff (ops : List (Action σ)) (hclosing : StepMachine.Along step Closing {} ops) :
    StepMachine.Safe step Exact {} ops ↔ StepMachine.Along step InPlace {} ops :=
  StepMachine.safe_iff_along (G := Closing) (I := fun _ => True)
    (fun _ _ _ _ _ _ _ _ => trivial) (fun _ _ _ hex hclosing => step_exact_iff hex hclosing)
    trivial exact_init hclosing

/-- Three sessions, the last one closed first: every close is in place. -/
theorem registry_exact_last_first :
    StepMachine.Safe step Exact {} [.add 7, .add 8, .add 9, .close 9, .close 8, .close (7 : Nat)]
      ↔ StepMachine.Along step InPlace {}
        [.add 7, .add 8, .add 9, .close 9, .close 8, .close (7 : Nat)] :=
  registry_exact_iff _ (by decide)

/-- Three sessions, the first one closed: the last one moves to position 0 with the id 2.  Its own
close then uses index 2 of a vector of two. -/
theorem registry_moved_session_lost :
    StepMachine.Along step Closing {} [.add 7, .add 8, .add 9, .close 7, .close (9 : Nat)]
      ∧ (StepMachine.run step {} [.add 7, .add 8, .add 9, .close (7 : Nat)]).map
          (fun r => (r.manager.Sessions, r.manager.SessionID 9)) = some ([9, 8], 2)
      ∧ (StepMachine.run step {}
          [.add 7, .add 8, .add 9, .close 7, .close (9 : Nat)]).isNone := by
  refine ⟨by decide, by decide, by decide⟩

end SessionManager

end YServerCore
