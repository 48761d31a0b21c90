/-
  YServerCore.Requests.Server — sessions, their receives, and the tasks started for their requests.

  `HandleData` starts a task for every frame and does not wait for it, so a task may run at any
  later moment and in any order, also while the loop that started it is still going on.  So a turn
  of the receive loop is one step here, and a task is one; a task's session and packet are its own,
  and the answers of the database, which the tasks share, belong to its environment.

  Main results:
    * `run_turns` — the turns of a loop that ends are what `receive` says.
    * `step_cases` — what one step of the server does.
    * `step_sentWhole_iff` — one step keeps everything sent whole exactly when a task that runs has
      a fair request.
    * `sent_whole_iff` — in every run, what is sent has the size of its object exactly when every
      login and move request that was handled claims the size of its packet struct.
-/
import YServerCore.Lib.StepMachine
import YServerCore.Receive.OnRecv
import YServerCore.Requests.Handlers

namespace YServerCore

open ByteMemory (Mem)
open RequestHandler (packetSize)
open PacketProcess (Handler)

/-! ## §1. The server. -/

/-- What happens at the server. -/
inductive ServerAction (σ : Type*) where
  /-- A session's receive completes with these bytes, and its `OnRecv` comes to its loop. -/
  | recv (session : σ) (chunk : List UInt8)
  /-- The session's loop makes one turn; if it is the last one, `OnRecv` returns. -/
  | turn (session : σ)
  /-- The task at a position runs. -/
  | task (i : Nat) (env : Environment)

/-- The read buffers, the sessions whose `OnRecv` is in its loop, the members the handlers use, the
tasks that have not run yet, and the packets sent so far, each with the session whose task sent
it. -/
structure Server (σ : Type*) where
  io : σ → ST_IOData
  inLoop : σ → Bool := fun _ => false
  info : σ → SessionInfo
  tasks : List (σ × Call RequestHandler) := []
  sent : List (σ × Outgoing) := []

namespace Server

variable {σ : Type*} [DecidableEq σ]

/-- Freshly accepted sessions; what their `UserInfo` holds is whatever was in memory. -/
def start (behind : σ → Mem) (UserInfo : σ → ST_UserInfo) : Server σ where
  io := fun s => ST_IOData.OnAccept (behind s)
  info := fun s => { UserInfo := UserInfo s }

/-- One step; a read past the handler table has no next state. -/
def step (s : Server σ) : ServerAction σ → Option (Server σ)
  | .recv session chunk =>
      if s.inLoop session = false ∧ chunk ≠ [] then
        some { s with
          io := Function.update s.io session ((s.io session).filled chunk)
          inLoop := Function.update s.inLoop session true }
      else none
  | .turn session =>
      if s.inLoop session then
        match (s.io session).pass packetSize Handler with
        | .exit =>
            some { s with
              io := Function.update s.io session (s.io session).settle.ReadyToRecieve.1
              inLoop := Function.update s.inLoop session false }
        | .outOfTable => none
        | .dispatch c io =>
            some { s with
              io := Function.update s.io session io
              tasks := s.tasks ++ [(session, c)] }
      else none
  | .task i env =>
      match s.tasks[i]? with
      | none => none
      | some (session, c) =>
          (handle env (s.info session) c).map (fun r =>
            { s with
              info := Function.update s.info session r.1
              tasks := s.tasks.eraseIdx i
              sent := s.sent ++ r.2.map (fun o => (session, o)) })

/-- **The turns of a loop that ends**: the state and the calls are those of the loop. -/
theorem run_turns {n : Nat} {s : Server σ} {session : σ} (hin : s.inLoop session = true)
    (hexit : ((s.io session).loop packetSize Handler n).outcome = .exit) :
    StepMachine.run step s
        (List.replicate (((s.io session).loop packetSize Handler n).calls.length + 1)
          (.turn session))
      = some { s with
          io := Function.update s.io session
            ((s.io session).loop packetSize Handler n).io.settle.ReadyToRecieve.1
          inLoop := Function.update s.inLoop session false
          tasks := s.tasks ++
            ((s.io session).loop packetSize Handler n).calls.map (fun c => (session, c)) } := by
  induction n generalizing s with
  | zero => exact absurd hexit (by simp [ST_IOData.loop])
  | succ n ih =>
      cases hpass : (s.io session).pass packetSize Handler with
      | outOfTable =>
          rw [ST_IOData.loop, hpass] at hexit
          exact absurd hexit (by simp)
      | exit =>
          rw [ST_IOData.loop_exit packetSize Handler hpass]
          show StepMachine.run step s [.turn session] = _
          rw [StepMachine.run_cons_eq_some]
          refine ⟨_, ?_, rfl⟩
          rw [step, if_pos hin, hpass]
          simp
      | dispatch c io =>
          rw [ST_IOData.loop_dispatch packetSize Handler hpass] at hexit ⊢
          have hturn : step s (.turn session) = some { s with
              io := Function.update s.io session io
              tasks := s.tasks ++ [(session, c)] } := by
            rw [step, if_pos hin, hpass]
          rw [List.length_cons, List.replicate_succ, StepMachine.run_cons_eq_some]
          -- the other turns start from the state this one leaves, with one more task
          refine ⟨_, hturn, ?_⟩
          have hrest := ih (s := { s with
            io := Function.update s.io session io
            tasks := s.tasks ++ [(session, c)] }) hin
          simp only [Function.update_self, Function.update_idem, List.append_assoc,
            List.singleton_append] at hrest
          rw [hrest hexit]
          rfl

/-- **A receive that is handled** is the bytes' arrival and the turns of its loop. -/
theorem run_receive {s : Server σ} {session : σ} {chunk : List UInt8} {io : ST_IOData}
    {calls : List (Call RequestHandler)} (hout : s.inLoop session = false)
    (h : (s.io session).receive packetSize Handler chunk = some (io, calls)) :
    StepMachine.run step s
        (.recv session chunk :: List.replicate (calls.length + 1) (.turn session))
      = some { s with
          io := Function.update s.io session io
          tasks := s.tasks ++ calls.map (fun c => (session, c)) } := by
  obtain ⟨hne, n, hexit, rfl, rfl⟩ := (ST_IOData.receive_eq_some packetSize Handler).mp h
  rw [StepMachine.run_cons_eq_some]
  refine ⟨_, if_pos ⟨hout, hne⟩, ?_⟩
  have hturns := run_turns (n := n) (s := { s with
    io := Function.update s.io session ((s.io session).filled chunk)
    inLoop := Function.update s.inLoop session true })
    (Function.update_self session true s.inLoop)
  simp only [Function.update_self, Function.update_idem] at hturns
  rw [hturns hexit, ← hout, Function.update_eq_self]

/-! ## §2. What is sent. -/

/-- Everything sent has the size of the object it lives in. -/
def SentWhole (s : Server σ) : Prop := ∀ o ∈ s.sent, o.2.Whole

/-- A task that runs has a request that claims its own size, if it is one that is sent back. -/
def FairTask (s : Server σ) : ServerAction σ → Prop
  | .recv _ _ => True
  | .turn _ => True
  | .task i _ => ∀ r ∈ s.tasks[i]?, FairRequest r.2

instance (s : Server σ) (a : ServerAction σ) : Decidable (FairTask s a) := by
  cases a <;> unfold FairTask <;> infer_instance

/-- **What one step does**: bytes arrive, a loop ends, a frame is dispatched, or a task runs. -/
theorem step_cases {s s' : Server σ} {a : ServerAction σ} (h : step s a = some s') :
    (∃ session chunk, a = .recv session chunk
        ∧ s' = { s with
            io := Function.update s.io session ((s.io session).filled chunk)
            inLoop := Function.update s.inLoop session true })
      ∨ (∃ session, a = .turn session ∧ (s.io session).pass packetSize Handler = .exit
        ∧ s' = { s with
            io := Function.update s.io session (s.io session).settle.ReadyToRecieve.1
            inLoop := Function.update s.inLoop session false })
      ∨ (∃ session c io, a = .turn session
        ∧ (s.io session).pass packetSize Handler = .dispatch c io
        ∧ s' = { s with
            io := Function.update s.io session io
            tasks := s.tasks ++ [(session, c)] })
      ∨ ∃ i env session c r, a = .task i env ∧ s.tasks[i]? = some (session, c)
        ∧ handle env (s.info session) c = some r
        ∧ s' = { s with
            info := Function.update s.info session r.1
            tasks := s.tasks.eraseIdx i
            sent := s.sent ++ r.2.map (fun o => (session, o)) } := by
  cases a with
  | recv session chunk =>
      simp only [step, Option.ite_none_right_eq_some, Option.some.injEq] at h
      exact Or.inl ⟨session, chunk, rfl, h.2.symm⟩
  | turn session =>
      simp only [step, Option.ite_none_right_eq_some] at h
      obtain ⟨-, h⟩ := h
      cases hpass : (s.io session).pass packetSize Handler with
      | exit =>
          simp only [hpass, Option.some.injEq] at h
          exact Or.inr (Or.inl ⟨session, rfl, hpass, h.symm⟩)
      | outOfTable =>
          simp only [hpass] at h
          exact absurd h (by simp)
      | dispatch c io =>
          simp only [hpass, Option.some.injEq] at h
          exact Or.inr (Or.inr (Or.inl ⟨session, c, io, rfl, hpass, h.symm⟩))
  | task i env =>
      cases htask : s.tasks[i]? with
      | none =>
          simp only [step, htask] at h
          exact absurd h (by simp)
      | some t =>
          simp only [step, htask, Option.map_eq_some_iff] at h
          obtain ⟨r, hhandle, hs'⟩ := h
          exact Or.inr (Or.inr (Or.inr ⟨i, env, t.1, t.2, r, rfl, htask, hhandle, hs'.symm⟩))

/-- **One step** keeps everything sent whole exactly when a task that runs has a fair request. -/
theorem step_sentWhole_iff {s s' : Server σ} {a : ServerAction σ} (h : SentWhole s)
    (hstep : step s a = some s') : SentWhole s' ↔ FairTask s a := by
  rcases step_cases hstep with ⟨session, chunk, rfl, rfl⟩ | ⟨session, rfl, -, rfl⟩ |
    ⟨session, c, io, rfl, -, rfl⟩ | ⟨i, env, session, c, r, rfl, htask, hhandle, rfl⟩
  · exact ⟨fun _ => trivial, fun _ => h⟩
  · exact ⟨fun _ => trivial, fun _ => h⟩
  · exact ⟨fun _ => trivial, fun _ => h⟩
  · have hone := handle_outgoing hhandle
    show _ ↔ ∀ r ∈ s.tasks[i]?, FairRequest r.2
    rw [htask]
    constructor
    · -- what this task sends is among everything sent
      intro hsent t ht
      rw [← Option.some.inj ht, ← hone]
      intro o ho
      apply hsent (session, o)
      exact List.mem_append_right _ (List.mem_map.mpr ⟨o, ho, rfl⟩)
    · intro hfair o ho
      rcases List.mem_append.mp ho with hold | hnew
      · exact h o hold
      · obtain ⟨out, hout, rfl⟩ := List.mem_map.mp hnew
        exact hone.mpr (hfair _ rfl) out hout

/-- **The server sends whole packets exactly while it handles fair requests.**  For every sequence of
receives of any bytes by any sessions, every schedule of the loops' turns and the tasks, and
whatever the database answers: every packet handed to `SendPacket` or `AllMessage` claims the size of the object it lives
in, if and only if every login and every move request handled claims the size of its struct. -/
theorem sent_whole_iff (behind : σ → Mem) (UserInfo : σ → ST_UserInfo)
    (as : List (ServerAction σ)) (s : Server σ)
    (hrun : StepMachine.run step (start behind UserInfo) as = some s) :
    StepMachine.Safe step SentWhole (start behind UserInfo) as
      ↔ StepMachine.Along step FairTask (start behind UserInfo) as := by
  refine StepMachine.safe_iff_along_of_run (I := fun _ => True) (fun _ _ _ _ _ _ _ => trivial) ?_
    trivial ?_ hrun
  · intro s a s' _ hsent hstep
    exact step_sentWhole_iff hsent hstep
  · intro o ho
    exact absurd ho (by simp [start])

/-- The database finds no account and creates none; memory is zero. -/
def refusing : Environment where
  IsValidID := fun _ => some false
  CreateAccount := fun _ => some false
  IsValidAccount := fun _ => some false
  Id := Vector.replicate MAX_ID_LEN 0
  Pw := Vector.replicate MAX_PW_LEN 0
  behind := []
  behindUserInfo := []

/-- A `C_Login` request of 92 bytes that claims this size. -/
def loginRequest (Size : UInt8) : List UInt8 :=
  [3, 0, 0, 0, Size, 0, 0, 0] ++ List.replicate 84 0

/-- A login that claims its own size is refused with a whole packet. -/
theorem sent_whole_refused :
    StepMachine.Safe step SentWhole
      (start (fun _ _ => 0) (fun _ => ST_UserInfo.fresh refusing.Id refusing.Pw) : Server Unit)
      [.recv () (loginRequest 92), .turn (), .turn (), .task 0 refusing] := by
  have hsome : (StepMachine.run step
      (start (fun _ _ => 0) (fun _ => ST_UserInfo.fresh refusing.Id refusing.Pw) : Server Unit)
      [.recv () (loginRequest 92), .turn (), .turn (), .task 0 refusing]).isSome := by
    decide +kernel
  obtain ⟨s, hs⟩ := Option.isSome_iff_exists.mp hsome
  exact (sent_whole_iff _ _ _ s hs).mpr (by decide +kernel)

/-- **A reply that is cut short**: a login that claims 44 bytes is refused with a packet of 92 bytes
whose header claims 44. -/
theorem reply_cut_short :
    ∃ s : Server Unit,
      StepMachine.run step
          (start (fun _ _ => 0) (fun _ => ST_UserInfo.fresh refusing.Id refusing.Pw))
          [.recv () (loginRequest 44), .turn (), .task 0 refusing] = some s
        ∧ s.sent.map (fun o => (o.2.packet.Header.Size.toNat, o.2.packet.sizeof)) = [(44, 92)]
        ∧ ¬ SentWhole s := by
  have hend : (StepMachine.run step
      (start (fun _ _ => 0) (fun _ => ST_UserInfo.fresh refusing.Id refusing.Pw) : Server Unit)
      [.recv () (loginRequest 44), .turn (), .task 0 refusing]).map
      (fun s => s.sent.map (fun o => (o.2.packet.Header.Size.toNat, o.2.packet.sizeof)))
      = some [(44, 92)] := by
    decide +kernel
  obtain ⟨s, hs, hsent⟩ := Option.map_eq_some_iff.mp hend
  refine ⟨s, hs, hsent, fun hwhole => ?_⟩
  obtain ⟨o, ho, hsize⟩ := List.map_eq_singleton_iff.mp hsent
  have hone : o.2.packet.Header.Size.toNat = o.2.packet.sizeof :=
    hwhole o (by rw [ho]; exact List.mem_singleton.mpr rfl)
  rw [Prod.mk.injEq] at hsize
  omega

end Server

end YServerCore
