/-
  YServerCore.Registry.Positions — session ids as positions of the registry.

  `AddSession` gives a session the position it is put at as its id, and `CloseSession` finds it there
  again.  `CloseSession` also moves the last session to the freed position, and leaves it the id of
  the position it had.

  Main results:
    * `add_positions_iff`, `close_positions_iff` — what one call does to the ids.
    * `positions_iff` — the ids are positions exactly while sessions are closed from the last on.
    * `inPlace_of_lastFirst` — then every close finds its session in place.
-/
import YServerCore.Registry.SessionManager

namespace YServerCore

namespace SessionManager

open SwapRemove (swapRemove)

variable {σ : Type*} [DecidableEq σ]

/-! ## §1. The representation. -/

/-- **Session ids are positions**: `SessionCount` is the length of the vector, the session at a
position has it as its id, and no two live sessions have one id. -/
structure Positions (r : Run σ) : Prop where
  count : r.manager.SessionCount = r.manager.Sessions.length
  place : ∀ (i : Nat) (s : σ), r.manager.Sessions[i]? = some s → r.manager.SessionID s = i
  distinct : ∀ s ∈ r.live, ∀ t ∈ r.live, r.manager.SessionID s = r.manager.SessionID t → s = t

/-- The vector holds the live sessions. -/
def Registered (r : Run σ) : Prop := ∀ s, s ∈ r.manager.Sessions ↔ s ∈ r.live

/-- A session that is added is not live, and one that is closed stands at the last position. -/
def LastFirst (r : Run σ) : Action σ → Prop
  | .add s => s ∉ r.live
  | .close s => r.manager.Sessions.getLast? = some s

instance (r : Run σ) : ∀ a : Action σ, Decidable (LastFirst r a)
  | .add s => inferInstanceAs (Decidable (s ∉ r.live))
  | .close s => inferInstanceAs (Decidable (r.manager.Sessions.getLast? = some s))

omit [DecidableEq σ] in
theorem positions_init : Positions ({} : Run σ) where
  count := rfl
  place i s h := by simp at h
  distinct s hs := absurd hs (Finset.notMem_empty s)

omit [DecidableEq σ] in
theorem registered_init : Registered ({} : Run σ) := by
  intro s
  simp

omit [DecidableEq σ] in
/-- In a vector of the live sessions, sessions at the positions of their ids have distinct ids. -/
theorem positions_of_place {r : Run σ} (hreg : Registered r)
    (hcount : r.manager.SessionCount = r.manager.Sessions.length)
    (hplace : ∀ (i : Nat) (s : σ), r.manager.Sessions[i]? = some s → r.manager.SessionID s = i) : Positions r := by
  refine ⟨hcount, hplace, ?_⟩
  intro s hs t ht hid
  obtain ⟨i, hi⟩ := List.mem_iff_getElem?.mp ((hreg s).mpr hs)
  obtain ⟨j, hj⟩ := List.mem_iff_getElem?.mp ((hreg t).mpr ht)
  rw [hplace i s hi, hplace j t hj, Int.natCast_inj] at hid
  rw [hid, hj] at hi
  exact (Option.some.inj hi).symm

omit [DecidableEq σ] in
/-- The session's position is the one it stands at. -/
theorem Positions.position {r : Run σ} (h : Positions r) {i : Nat} {s : σ}
    (hi : r.manager.Sessions[i]? = some s) : r.manager.position s = some i := by
  have hid := h.place i s hi
  have hlt : i < r.manager.Sessions.length := (List.getElem?_eq_some_iff.mp hi).1
  unfold SessionManager.position
  rw [hid]
  simp only [Int.natCast_nonneg, Int.toNat_natCast, true_and]
  exact if_pos hlt

omit [DecidableEq σ] in
/-- The session at the last position has the id of that position. -/
theorem Positions.id_of_last {r : Run σ} (h : Positions r) {s : σ}
    (hlast : r.manager.Sessions.getLast? = some s) :
    r.manager.SessionID s + 1 = r.manager.Sessions.length := by
  have hne : r.manager.Sessions ≠ [] := by
    intro hnil
    rw [hnil] at hlast
    exact absurd hlast (by simp)
  have hpos : 0 < r.manager.Sessions.length := List.length_pos_of_ne_nil hne
  rw [List.getLast?_eq_getElem?] at hlast
  have hid := h.place _ s hlast
  omega

omit [DecidableEq σ] in
/-- A live session is found at the position its id names. -/
theorem Positions.inPlace {r : Run σ} (h : Positions r) (hreg : Registered r) {s : σ}
    (hs : s ∈ r.live) : InPlace r (.close s) := by
  obtain ⟨i, hi⟩ := List.mem_iff_getElem?.mp ((hreg s).mpr hs)
  show 0 ≤ r.manager.SessionID s ∧ r.manager.Sessions[(r.manager.SessionID s).toNat]? = some s
  rw [h.place i s hi, Int.toNat_natCast]
  exact ⟨Int.natCast_nonneg i, hi⟩

/-! ## §2. One call. -/

theorem registered_add {r : Run σ} (hreg : Registered r) (s : σ) :
    Registered ⟨r.manager.AddSession s, insert s r.live⟩ := by
  intro t
  show t ∈ r.manager.Sessions ++ [s] ↔ t ∈ insert s r.live
  rw [List.mem_append, hreg t, List.mem_singleton, Finset.mem_insert, or_comm]

/-- **Adding keeps the ids positions exactly for a session that is not live.** -/
theorem add_positions_iff {r : Run σ} (h : Positions r) (hreg : Registered r) {s : σ} :
    Positions ⟨r.manager.AddSession s, insert s r.live⟩ ↔ s ∉ r.live := by
  constructor
  · intro h' hs
    -- a live session gets a second position, and the id of that one
    obtain ⟨i, hi⟩ := List.mem_iff_getElem?.mp ((hreg s).mpr hs)
    have hlt : i < r.manager.Sessions.length := (List.getElem?_eq_some_iff.mp hi).1
    have hfirst : (r.manager.Sessions ++ [s])[i]? = some s := by
      rw [List.getElem?_append_left hlt, hi]
    have hid : Function.update r.manager.SessionID s r.manager.SessionCount s = i :=
      h'.place i s hfirst
    rw [Function.update_self, h.count] at hid
    omega
  · intro hs
    apply positions_of_place (registered_add hreg s)
    · show r.manager.SessionCount + 1 = ((r.manager.Sessions ++ [s]).length : Int)
      rw [h.count, List.length_append, List.length_singleton]
      omega
    · intro i t hi
      show Function.update r.manager.SessionID s r.manager.SessionCount t = i
      have hi' : (r.manager.Sessions ++ [s])[i]? = some t := hi
      by_cases hlt : i < r.manager.Sessions.length
      · rw [List.getElem?_append_left hlt] at hi'
        have hne : t ≠ s := by
          intro hts
          exact hs ((hreg s).mp (hts ▸ List.mem_of_getElem? hi'))
        rw [Function.update_of_ne hne]
        exact h.place i t hi'
      · rw [List.getElem?_append_right (by omega), List.getElem?_singleton] at hi'
        obtain ⟨hi0, hst⟩ := Option.ite_none_right_eq_some.mp hi'
        rw [← Option.some.inj hst, Function.update_self, h.count]
        omega

/-- A close removes what stands at the session's position, which is the session. -/
theorem step_close_at {r : Run σ} (h : Positions r) {i : Nat} {s : σ}
    (hi : r.manager.Sessions[i]? = some s) :
    step r (.close s)
      = some ⟨{ r.manager with Sessions := swapRemove r.manager.Sessions i
                               SessionCount := r.manager.SessionCount - 1 }, r.live.erase s⟩ :=
  step_close.mpr ⟨i, h.position hi, rfl⟩

/-- Without its last session, the vector holds the other ones. -/
theorem registered_close {r : Run σ} (h : Positions r) (hreg : Registered r) {s t : σ}
    (hlast : r.manager.Sessions.getLast? = some s) :
    t ∈ r.manager.Sessions.dropLast ↔ t ∈ r.live.erase s := by
  obtain ⟨init, hinit⟩ := List.getLast?_eq_some_iff.mp hlast
  have hid := h.id_of_last hlast
  rw [hinit, List.length_append, List.length_singleton] at hid
  rw [Finset.mem_erase, ← hreg t, hinit, List.dropLast_concat, List.mem_append, List.mem_singleton]
  constructor
  · intro ht
    refine ⟨?_, Or.inl ht⟩
    -- the closed session has the id of the last position, so it has no other one
    intro hts
    obtain ⟨j, hj⟩ := List.mem_iff_getElem?.mp (hts ▸ ht)
    have hlt : j < init.length := (List.getElem?_eq_some_iff.mp hj).1
    have hidj := h.place j s (by rw [hinit, List.getElem?_append_left hlt, hj])
    omega
  · intro ht
    exact ht.2.resolve_right ht.1

/-- **Closing keeps the ids positions exactly at the last position.** -/
theorem close_positions_iff {r : Run σ} (h : Positions r) (hreg : Registered r) {s : σ}
    (hs : s ∈ r.live) :
    (∃ r', step r (.close s) = some r' ∧ Positions r') ↔ r.manager.Sessions.getLast? = some s := by
  obtain ⟨i, hi⟩ := List.mem_iff_getElem?.mp ((hreg s).mpr hs)
  have hlt : i < r.manager.Sessions.length := (List.getElem?_eq_some_iff.mp hi).1
  have hstep := step_close_at h hi
  constructor
  · intro hclose
    obtain ⟨r', hr', h'⟩ := hclose
    have heq := Option.some.inj (hstep.symm.trans hr')
    subst heq
    have hend : i + 1 = r.manager.Sessions.length := by
      by_contra hne
      -- the last session stands at the freed position and has the id of the last one
      have hmoved := SwapRemove.getElem?_swapRemove (l := r.manager.Sessions) (i := i) (by omega)
      obtain ⟨t, ht⟩ : ∃ t, r.manager.Sessions.getLast? = some t := by
        rw [List.getLast?_eq_getElem?]
        exact ⟨_, List.getElem?_eq_getElem (by omega)⟩
      have hfreed : r.manager.SessionID t = i := h'.place i t (hmoved.trans ht)
      have hid := h.id_of_last ht
      omega
    rw [List.getLast?_eq_getElem?, ← hend, Nat.add_sub_cancel, hi]
  · intro hlast
    have hend : i + 1 = r.manager.Sessions.length := by
      have hid := h.id_of_last hlast
      have hid' := h.place i s hi
      omega
    refine ⟨_, hstep, ?_⟩
    rw [SwapRemove.swapRemove_last hend]
    apply positions_of_place (fun t => registered_close h hreg hlast)
    · show r.manager.SessionCount - 1 = (r.manager.Sessions.dropLast.length : Int)
      rw [h.count, List.length_dropLast]
      omega
    · intro j t hj
      have hj' : r.manager.Sessions.dropLast[j]? = some t := hj
      rw [List.getElem?_dropLast] at hj'
      exact h.place j t (Option.ite_none_right_eq_some.mp hj').2

/-- **One call keeps the ids positions exactly when a session that is added is not live and one
that is closed stands at the last position.** -/
theorem step_positions_iff {r : Run σ} {a : Action σ} (h : Positions r) (hreg : Registered r)
    (hclosing : Closing r a) : (∃ r', step r a = some r' ∧ Positions r') ↔ LastFirst r a := by
  cases a with
  | add s =>
      rw [show LastFirst r (.add s) ↔ s ∉ r.live from Iff.rfl, ← add_positions_iff h hreg]
      constructor
      · intro hadd
        obtain ⟨r', hr', h'⟩ := hadd
        exact Option.some.inj hr' ▸ h'
      · intro h'
        exact ⟨_, rfl, h'⟩
  | close s => exact close_positions_iff h hreg hclosing

/-- The vector stays the one of the live sessions. -/
theorem registered_step {r r' : Run σ} {a : Action σ} (h : Positions r) (hreg : Registered r)
    (hlast : LastFirst r a) (hstep : step r a = some r') : Registered r' := by
  cases a with
  | add s => exact Option.some.inj hstep ▸ registered_add hreg s
  | close s =>
      have hs : r.manager.Sessions.getLast? = some s := hlast
      obtain ⟨i, hi, rfl⟩ := step_close.mp hstep
      have hend : i + 1 = r.manager.Sessions.length := by
        have hid := h.id_of_last hs
        have hpos := position_eq_some hi
        omega
      intro t
      show t ∈ swapRemove r.manager.Sessions i ↔ _
      rw [SwapRemove.swapRemove_last hend]
      exact registered_close h hreg hlast

/-! ## §3. Whole sequences. -/

/-- **Session ids are positions exactly while sessions are closed from the last on.**  For every
sequence of adds and closes whose closes are of live sessions: after every call `SessionCount` is
the length of the vector, every position holds a session with that id, and no two live sessions
have one id, if and only if every session that is added is not live and every session that is
closed stands at the last position. -/
theorem positions_iff (ops : List (Action σ)) (hclosing : StepMachine.Along step Closing {} ops) :
    StepMachine.Safe step Positions {} ops ↔ StepMachine.Along step LastFirst {} ops := by
  refine StepMachine.safe_iff_along (G := Closing) (I := Registered) ?_ ?_
    registered_init positions_init hclosing
  · intro r a r' hreg h hclosing hstep h'
    exact registered_step h hreg ((step_positions_iff h hreg hclosing).mp ⟨r', hstep, h'⟩) hstep
  · intro r a hreg h hclosing
    exact step_positions_iff h hreg hclosing

/-- Two sessions, the last one closed first, and a third. -/
theorem positions_last_first :
    StepMachine.Safe step Positions {} [.add 7, .add 8, .close 8, .add 9, .close 9, .close (7 : Nat)] :=
  (positions_iff _ (by decide)).mpr (by decide)

/-- **Ids that are no positions**: of two sessions the first is closed, the second moves to position 0
with the id 1, and the session added next is given the id 1 as well. -/
theorem moved_session_keeps_id :
    StepMachine.Along step Closing {} [.add 7, .add 8, .close 7, .add (9 : Nat)]
      ∧ (StepMachine.run step {} [.add 7, .add 8, .close 7, .add (9 : Nat)]).map
          (fun r => (r.manager.Sessions, r.manager.SessionID 8, r.manager.SessionID 9))
        = some ([8, 9], 1, 1)
      ∧ ¬ StepMachine.Safe step Positions {} [.add 7, .add 8, .close 7, .add (9 : Nat)] := by
  refine ⟨by decide, by decide, ?_⟩
  intro hsafe
  obtain ⟨r, hrun, h⟩ := hsafe.last
  have hids : r.manager.Sessions[0]? = some 8 ∧ r.manager.SessionID 8 = 1 := by
    rw [show StepMachine.run step {} [.add 7, .add 8, .close 7, .add (9 : Nat)] = some _ from rfl,
      Option.some.injEq] at hrun
    subst hrun
    decide
  have hzero := h.place 0 8 hids.1
  omega

/-- **Sessions closed from the last on are found in place**, as the exact registry requires. -/
theorem inPlace_of_lastFirst (ops : List (Action σ))
    (hclosing : StepMachine.Along step Closing {} ops)
    (hlast : StepMachine.Along step LastFirst {} ops) : StepMachine.Along step InPlace {} ops := by
  refine StepMachine.along_of_invariant (G := fun r a => Closing r a ∧ LastFirst r a)
    (I := fun r => Positions r ∧ Registered r) ?_ ?_ ⟨positions_init, registered_init⟩
    (hclosing.and hlast)
  · intro r a r' hI hG hstep
    obtain ⟨r'', hr'', h'⟩ := (step_positions_iff hI.1 hI.2 hG.1).mpr hG.2
    have heq : r' = r'' := Option.some.inj (hstep.symm.trans hr'')
    exact ⟨heq ▸ h', registered_step hI.1 hI.2 hG.2 hstep⟩
  · intro r a hI hG
    cases a with
    | add s => exact hG.2
    | close s => exact hI.1.inPlace hI.2 hG.1

end SessionManager

end YServerCore
