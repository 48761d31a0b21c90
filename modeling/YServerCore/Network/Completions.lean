/-
  YServerCore.Network.Completions — completions, and the sessions that nobody receives for any more.

  A registered session is served by one receive after the other: `OnAccept` posts the first one, and
  `OnRecv`, which handles its completion, posts the next.  `OnRecv` closes its session when it gets
  0 bytes, but `NetworkProcess` hands it no such completion, and no failed one: they are skipped
  before.  Nor does `Recv` look at the result of `WSARecv`.

  Main results:
    * `step_cases` — what a step does: it never removes a session.
    * `noneDead_step_iff` — a step leaves no dead session registered exactly when the receive it is
      about, if any, goes on.
    * `none_dead_iff` — the same for every run.
-/
import YServerCore.Lib.StepMachine
import YServerCore.Packet.PacketProcess
import YServerCore.Registry.SessionManager

namespace YServerCore

/-! ## §1. Accepts and completions. -/

/-- Where the receives of a session are. -/
inductive ReceiveStage where
  /-- Inside the `OnAccept` that has registered it. -/
  | OnAccept
  /-- A receive is outstanding. -/
  | outstanding
  /-- Inside the `OnRecv` of the last one. -/
  | OnRecv
  deriving DecidableEq, Repr

/-- What happens at the network. -/
inductive NetworkAction (σ : Type*) where
  /-- `Server::OnAccept` up to `AddSession`, and whether the socket joins the completion port. -/
  | accept (session : σ) (Handle : Bool)
  /-- `ReadyToRecieve` at the end of `OnAccept` or `OnRecv`, and whether `WSARecv` posts a receive. -/
  | ready (session : σ) (posted : Bool)
  /-- `NetworkProcess` gets the completion of an operation. -/
  | completion (session : σ) (Usage : E_IOUsage) (transferSize : Nat) (result : Bool)

/-- The registry, and the receives of the sessions. -/
structure Network (σ : Type*) where
  manager : SessionManager σ := {}
  receiving : σ → Option ReceiveStage := fun _ => none

namespace Network

variable {σ : Type*} [DecidableEq σ]

/-- The first statement of `OnRecv`, and the body of `OnSend`. -/
def closeIfEmpty (m : SessionManager σ) (session : σ) (TransferSize : Nat) :
    Option (SessionManager σ) :=
  if TransferSize = 0 then m.CloseSession session else some m

omit [DecidableEq σ] in
/-- A completion that has bytes closes nothing. -/
theorem closeIfEmpty_of_ne (m : SessionManager σ) (session : σ) {TransferSize : Nat}
    (h : TransferSize ≠ 0) : closeIfEmpty m session TransferSize = some m := if_neg h

/-- One step. -/
def step (s : Network σ) : NetworkAction σ → Option (Network σ)
  | .accept session Handle =>
      if session ∈ s.manager.Sessions then none
      else if Handle then
        some {
          manager := s.manager.AddSession session
          receiving := Function.update s.receiving session (some .OnAccept) }
      else some s
  | .ready session posted =>
      if s.receiving session = some .OnAccept ∨ s.receiving session = some .OnRecv then
        some { s with
          receiving := Function.update s.receiving session
            (if posted then some .outstanding else none) }
      else none
  | .completion session Usage transferSize result =>
      match Usage with
      | .Read =>
          if s.receiving session = some .outstanding then
            if transferSize = 0 ∨ result = false then
              -- `continue`
              some { s with receiving := Function.update s.receiving session none }
            else
              (closeIfEmpty s.manager session transferSize).map (fun manager => {
                manager := manager
                receiving := Function.update s.receiving session (some .OnRecv) })
          else none
      | .Write =>
          if transferSize = 0 ∨ result = false then some s
          else (closeIfEmpty s.manager session transferSize).map (fun manager =>
            { s with manager := manager })
      | .Error => some s

/-- **No dead session stays registered.** -/
def NoneDead (s : Network σ) : Prop :=
  ∀ session ∈ s.manager.Sessions, (s.receiving session).isSome = true

/-- The receives of a session go on: what is received has bytes, and the next receive is posted. -/
def GoesOn : NetworkAction σ → Prop
  | .accept _ _ => True
  | .ready _ posted => posted = true
  | .completion _ Usage transferSize result => Usage = .Read → transferSize ≠ 0 ∧ result = true

instance (a : NetworkAction σ) : Decidable (GoesOn a) := by
  cases a <;> unfold GoesOn <;> infer_instance

/-! ## §2. One step. -/

/-- **What one step does**: it registers a session, moves the receives of one on, or does nothing; the
close in front of `OnRecv` and `OnSend` is never reached. -/
theorem step_cases {s s' : Network σ} {a : NetworkAction σ} (h : step s a = some s') :
    (∃ session, session ∉ s.manager.Sessions ∧ GoesOn a
        ∧ s' = {
          manager := s.manager.AddSession session
          receiving := Function.update s.receiving session (some .OnAccept) })
      ∨ (∃ session r, (s.receiving session).isSome = true ∧ (GoesOn a ↔ r.isSome = true)
        ∧ s' = { s with receiving := Function.update s.receiving session r })
      ∨ (GoesOn a ∧ s' = s) := by
  cases a with
  | accept session Handle =>
      simp only [step, Option.ite_none_left_eq_some] at h
      obtain ⟨hnew, h⟩ := h
      cases Handle with
      | true => exact Or.inl ⟨session, hnew, trivial, (Option.some.inj h).symm⟩
      | false => exact Or.inr (Or.inr ⟨trivial, (Option.some.inj h).symm⟩)
  | ready session posted =>
      simp only [step, Option.ite_none_right_eq_some, Option.some.injEq] at h
      obtain ⟨hin, rfl⟩ := h
      refine Or.inr (Or.inl ⟨session, _, ?_, ?_, rfl⟩)
      · rcases hin with h | h <;> rw [h] <;> rfl
      · unfold GoesOn
        cases posted <;> simp
  | completion session Usage transferSize result =>
      cases Usage with
      | Read =>
          simp only [step, Option.ite_none_right_eq_some] at h
          obtain ⟨hout, h⟩ := h
          have hsome : (s.receiving session).isSome = true := by
            rw [hout]
            rfl
          by_cases hskip : transferSize = 0 ∨ result = false
          · rw [if_pos hskip, Option.some.injEq] at h
            refine Or.inr (Or.inl ⟨session, none, hsome, ?_, h.symm⟩)
            unfold GoesOn
            simp only [Option.isSome_none, Bool.false_eq_true, iff_false, true_implies, not_and]
            intro hsize
            simpa [hsize] using hskip
          · rw [if_neg hskip] at h
            rw [not_or] at hskip
            rw [closeIfEmpty_of_ne _ _ hskip.1, Option.map_some, Option.some.injEq] at h
            refine Or.inr (Or.inl ⟨session, some .OnRecv, hsome, ?_, h.symm⟩)
            unfold GoesOn
            simpa using hskip
      | Write =>
          simp only [step] at h
          by_cases hskip : transferSize = 0 ∨ result = false
          · rw [if_pos hskip, Option.some.injEq] at h
            exact Or.inr (Or.inr ⟨by simp [GoesOn], h.symm⟩)
          · rw [if_neg hskip] at h
            rw [not_or] at hskip
            rw [closeIfEmpty_of_ne _ _ hskip.1, Option.map_some, Option.some.injEq] at h
            exact Or.inr (Or.inr ⟨by simp [GoesOn], h.symm⟩)
      | Error =>
          simp only [step, Option.some.injEq] at h
          exact Or.inr (Or.inr ⟨by simp [GoesOn], h.symm⟩)

/-- Whoever is received for is registered. -/
def Registered (s : Network σ) : Prop :=
  ∀ session, (s.receiving session).isSome = true → session ∈ s.manager.Sessions

theorem registered_step {s s' : Network σ} {a : NetworkAction σ} (hreg : s.Registered)
    (h : step s a = some s') : s'.Registered := by
  rcases step_cases h with ⟨session, -, -, rfl⟩ | ⟨session, r, hsome, -, rfl⟩ | ⟨-, rfl⟩
  · intro t ht
    by_cases hts : t = session
    · subst hts
      exact List.mem_append_right _ (List.mem_singleton.mpr rfl)
    · simp only [Function.update_of_ne hts] at ht
      exact List.mem_append_left _ (hreg t ht)
  · intro t ht
    by_cases hts : t = session
    · subst hts
      exact hreg t hsome
    · simp only [Function.update_of_ne hts] at ht
      exact hreg t ht
  · exact hreg

/-- **One step** leaves no dead session registered exactly when the receive it is about goes on. -/
theorem noneDead_step_iff {s s' : Network σ} {a : NetworkAction σ} (hreg : s.Registered)
    (hnone : s.NoneDead) (h : step s a = some s') : s'.NoneDead ↔ GoesOn a := by
  rcases step_cases h with ⟨session, -, hgoes, rfl⟩ | ⟨session, r, hsome, hgoes, rfl⟩ | ⟨hgoes, rfl⟩
  · refine ⟨fun _ => hgoes, fun _ t ht => ?_⟩
    show (Function.update s.receiving session (some .OnAccept) t).isSome = true
    by_cases hts : t = session
    · subst hts
      rw [Function.update_self]
      rfl
    · rw [Function.update_of_ne hts]
      rcases List.mem_append.mp ht with hold | hnew
      · exact hnone t hold
      · exact absurd (List.mem_singleton.mp hnew) hts
  · rw [hgoes]
    constructor
    · intro hnext
      have hsession := hnext session (hreg session hsome)
      simp only [Function.update_self] at hsession
      exact hsession
    · intro hr t ht
      show (Function.update s.receiving session r t).isSome = true
      by_cases hts : t = session
      · subst hts
        rw [Function.update_self]
        exact hr
      · rw [Function.update_of_ne hts]
        exact hnone t ht
  · exact ⟨fun _ => hgoes, fun _ => hnone⟩

/-- Where no dead session is registered, a receive that has ended has had its session removed. -/
theorem removed_of_noneDead {s s' : Network σ} {session : σ} {transferSize : Nat} {result : Bool}
    (h : step s (.completion session .Read transferSize result) = some s')
    (hend : transferSize = 0 ∨ result = false) (hnone : s'.NoneDead) :
    session ∉ s'.manager.Sessions := by
  intro hmem
  have hsome := hnone session hmem
  simp only [step, Option.ite_none_right_eq_some] at h
  obtain ⟨-, h⟩ := h
  rw [if_pos hend, Option.some.injEq] at h
  subst h
  simp only [Function.update_self] at hsome
  exact absurd hsome (by simp)

/-! ## §3. Whole runs. -/

/-- **A registered session is never removed.** -/
theorem never_removed {s t : Network σ} {as : List (NetworkAction σ)} {session : σ}
    (hmem : session ∈ s.manager.Sessions) (hrun : StepMachine.run step s as = some t) :
    session ∈ t.manager.Sessions := by
  apply StepMachine.run_invariant (P := fun s => session ∈ s.manager.Sessions) ?_ hmem hrun
  intro s a s' hmem hstep
  rcases step_cases hstep with ⟨new, -, -, rfl⟩ | ⟨other, r, -, -, rfl⟩ | ⟨-, rfl⟩
  · exact List.mem_append_left _ hmem
  · exact hmem
  · exact hmem

/-- **No dead session stays registered exactly while no receive ends.**  For every run of accepts and
of completions with any transfer size and status, and any result of `WSARecv`: in every state,
each registered session has a receive outstanding, or is inside its `OnRecv` or `OnAccept`, if and
only if every completion of a receive succeeds with at least one byte and every next receive is
posted. -/
theorem none_dead_iff (as : List (NetworkAction σ)) (s : Network σ)
    (hrun : StepMachine.run step {} as = some s) :
    StepMachine.Safe step NoneDead {} as ↔ StepMachine.Along step (fun _ a => GoesOn a) {} as := by
  apply StepMachine.safe_iff_along_of_run (I := Registered)
  · intro s a s' hreg _ hstep _
    exact registered_step hreg hstep
  · intro s a s' hreg hnone hstep
    exact noneDead_step_iff hreg hnone hstep
  · intro session hsome
    exact absurd hsome (by simp)
  · intro session hmem
    exact absurd hmem (by simp)
  · exact hrun

/-- A session that goes on receiving. -/
theorem none_dead_receiving :
    StepMachine.Safe step NoneDead ({} : Network Nat)
      [.accept 1 true, .ready 1 true, .completion 1 .Read 92 true, .ready 1 true] := by
  have hsome : (StepMachine.run step ({} : Network Nat)
      [.accept 1 true, .ready 1 true, .completion 1 .Read 92 true, .ready 1 true]).isSome := by
    decide +kernel
  obtain ⟨s, hs⟩ := Option.isSome_iff_exists.mp hsome
  exact (none_dead_iff _ s hs).mpr (by decide +kernel)

/-- **A dead session stays registered**: its peer has closed the connection, so its receive has
completed with 0 bytes. -/
theorem peer_closed_stays :
    ∃ s : Network Nat,
      StepMachine.run step {} [.accept 1 true, .ready 1 true, .completion 1 .Read 0 true] = some s
        ∧ s.manager.Sessions = [1] ∧ s.receiving 1 = none ∧ ¬ s.NoneDead := by
  have hend : (StepMachine.run step ({} : Network Nat)
      [.accept 1 true, .ready 1 true, .completion 1 .Read 0 true]).map
      (fun s => (s.manager.Sessions, s.receiving 1)) = some ([1], none) := by
    decide +kernel
  obtain ⟨s, hs, hall⟩ := Option.map_eq_some_iff.mp hend
  rw [Prod.mk.injEq] at hall
  refine ⟨s, hs, hall.1, hall.2, fun hnone => ?_⟩
  have hsome := hnone 1 (by rw [hall.1]; exact List.mem_singleton.mpr rfl)
  rw [hall.2] at hsome
  exact absurd hsome (by simp)

end Network

end YServerCore
