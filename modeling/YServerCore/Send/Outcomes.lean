/-
  YServerCore.Send.Outcomes — what becomes of the packets when `WSASend` fails.

  `WSASend` reports through two channels: its result is `SOCKET_ERROR` when it fails, and the
  thread's last error then says why, `WSA_IO_PENDING` being no failure.  `Session::Send` does not
  look at the result.  It resets `CurBytes`, compares the last error with `SOCKET_ERROR`, which is
  not the code of any error, and so never closes the session.

  Main results:
    * `send_law_iff` — one `Send` keeps the law exactly when a send that fails has nothing to send.
    * `packets_accounted_iff` — in every run, the packets of a registered session are accepted or
      buffered exactly when no send of a non-empty buffer fails.
-/
import YServerCore.Send.SendPacket

namespace YServerCore

open ByteMemory (Mem read write word32)

/-! ## §1. One `Send`. -/

/-- The code of an operation that is under way. -/
def WSA_IO_PENDING : Int := 997

/-- What a call of `WSASend` returns, and the thread's last error behind it. -/
structure SendOutcome where
  result : Int
  WSAGetLastError : Int
  /-- The codes of Winsock are not negative. -/
  nonneg : 0 ≤ WSAGetLastError

namespace SendOutcome

/-- The send has failed. -/
def Failed (o : SendOutcome) : Prop :=
  o.result = SOCKET_ERROR ∧ o.WSAGetLastError ≠ WSA_IO_PENDING

instance (o : SendOutcome) : Decidable o.Failed := inferInstanceAs (Decidable (_ ∧ _))

/-- No outcome makes `Send` close the session. -/
theorem not_closes (o : SendOutcome) : ST_IOData.sendCloses o.WSAGetLastError = false := by
  have hnonneg := o.nonneg
  have herr : SOCKET_ERROR = -1 := rfl
  apply decide_eq_false
  omega

/-- The connection was reset: `WSAECONNRESET`. -/
def reset : SendOutcome where
  result := SOCKET_ERROR
  WSAGetLastError := 10054
  nonneg := by decide

/-- The bytes are taken at once. -/
def taken : SendOutcome where
  result := 0
  WSAGetLastError := 0
  nonneg := by decide

end SendOutcome

/-- **The law of one `Send`**: when it fails, the unsent bytes stay in the buffer or the session is
closed; when it does not, the session is not closed. -/
def SendLaw (io : ST_IOData) (o : SendOutcome) : Prop :=
  (o.Failed → io.Send.1.unsent = io.unsent ∨ ST_IOData.sendCloses o.WSAGetLastError = true)
    ∧ (¬ o.Failed → ST_IOData.sendCloses o.WSAGetLastError = false)

/-- After `Send` nothing is unsent. -/
theorem ST_IOData.unsent_Send (io : ST_IOData) : io.Send.1.unsent = [] := rfl

/-- Nothing is unsent in an empty buffer only. -/
theorem ST_IOData.unsent_eq_nil_iff (io : ST_IOData) : io.unsent = [] ↔ io.CurBytes = 0 := by
  rw [← List.length_eq_zero_iff, length_unsent]

/-- **One `Send` keeps its law exactly when a send that fails has nothing to send.** -/
theorem send_law_iff (io : ST_IOData) (o : SendOutcome) :
    SendLaw io o ↔ (o.Failed → io.CurBytes = 0) := by
  unfold SendLaw
  rw [o.not_closes, io.unsent_Send, ← io.unsent_eq_nil_iff]
  constructor
  · intro h hfailed
    rcases h.1 hfailed with hsame | hclosed
    · exact hsame.symm
    · exact absurd hclosed (by simp)
  · intro h
    exact ⟨fun hfailed => Or.inl (h hfailed).symm, fun _ => rfl⟩

/-! ## §2. Any number of callers, any outcomes. -/

/-- What the callers do to one session. -/
inductive OutcomeAction (τ : Type*) where
  /-- A new call of `SendPacket`, up to the end of its first section. -/
  | copy (t : τ) (Packet : Mem)
  /-- The second section, with the outcome of its `WSASend`. -/
  | post (t : τ) (outcome : SendOutcome)

/-- The write side of a session: the buffer, the bytes of the sends that did not fail, the packets in
the order of the copies, the threads between their sections, and whether the session has been
closed. -/
structure OutcomeSending (τ : Type*) where
  io : ST_IOData
  accepted : List UInt8 := []
  copied : List (List UInt8) := []
  calls : τ → Bool := fun _ => false
  closed : Bool := false

namespace OutcomeSending

variable {τ : Type*}

/-- A freshly accepted session. -/
def start (Data : Mem) : OutcomeSending τ where
  io := { Usage := .Write, Data := Data }

variable [DecidableEq τ]

/-- One section of one thread; a closed session has none. -/
def step (s : OutcomeSending τ) (a : OutcomeAction τ) : Option (OutcomeSending τ) :=
  if s.closed then none
  else
    match a with
    | .copy t Packet =>
        if s.calls t then none
        else
          (s.io.copyPacket Packet).map (fun io =>
            { s with
              io := io
              copied := s.copied ++ [packetBytes Packet]
              calls := Function.update s.calls t true })
    | .post t outcome =>
        if s.calls t then
          some { s with
            io := s.io.Send.1
            accepted := if outcome.Failed then s.accepted
              else s.accepted ++ read s.io.Data s.io.Send.2.1 s.io.Send.2.2
            calls := Function.update s.calls t false
            closed := ST_IOData.sendCloses outcome.WSAGetLastError }
        else none

/-- Every packet of a session that is registered was accepted, or is still buffered. -/
def Accounted (s : OutcomeSending τ) : Prop :=
  s.closed = false → s.accepted ++ s.io.unsent = s.copied.flatten

/-- A send that fails has nothing to send. -/
def FailsEmpty (s : OutcomeSending τ) : OutcomeAction τ → Prop
  | .copy _ _ => True
  | .post _ outcome => outcome.Failed → s.io.CurBytes = 0

instance (s : OutcomeSending τ) : ∀ a, Decidable (FailsEmpty s a)
  | .copy _ _ => isTrue trivial
  | .post _ outcome => inferInstanceAs (Decidable (outcome.Failed → s.io.CurBytes = 0))

/-- **What one section does**: a copy goes behind the unsent bytes; a post takes all of them out of the
buffer, and accepts them unless it fails. -/
theorem step_cases {s s' : OutcomeSending τ} {a : OutcomeAction τ} (h : step s a = some s') :
    s.closed = false
      ∧ ((∃ t Packet, a = .copy t Packet ∧ s'.closed = false ∧ s'.accepted = s.accepted
            ∧ s'.io.unsent = s.io.unsent ++ packetBytes Packet
            ∧ s'.copied = s.copied ++ [packetBytes Packet])
        ∨ ∃ t outcome, a = .post t outcome ∧ s'.closed = false ∧ s'.io.unsent = []
            ∧ s'.accepted = (if outcome.Failed then s.accepted else s.accepted ++ s.io.unsent)
            ∧ s'.copied = s.copied) := by
  simp only [step, Option.ite_none_left_eq_some, Bool.not_eq_true] at h
  obtain ⟨hopen, h⟩ := h
  refine ⟨hopen, ?_⟩
  cases a with
  | copy t Packet =>
      simp only [Option.ite_none_left_eq_some, Option.map_eq_some_iff] at h
      obtain ⟨-, io, hcopy, rfl⟩ := h
      exact Or.inl ⟨t, Packet, rfl, hopen, rfl, (ST_IOData.copyPacket_spec hcopy).1, rfl⟩
  | post t outcome =>
      simp only [Option.ite_none_right_eq_some, Option.some.injEq] at h
      obtain ⟨-, rfl⟩ := h
      exact Or.inr ⟨t, outcome, rfl, outcome.not_closes, rfl, rfl, rfl⟩

/-- No section closes the session. -/
theorem step_open {s s' : OutcomeSending τ} {a : OutcomeAction τ} (h : step s a = some s') :
    s'.closed = false := by
  rcases (step_cases h).2 with ⟨_, _, _, hopen, _⟩ | ⟨_, _, _, hopen, _⟩
  · exact hopen
  · exact hopen

/-- **One section keeps the packets accounted for exactly when no send of a non-empty buffer fails.** -/
theorem step_accounted_iff {s s' : OutcomeSending τ} {a : OutcomeAction τ} (h : step s a = some s')
    (hacc : Accounted s) : Accounted s' ↔ FailsEmpty s a := by
  obtain ⟨hopen, hcase⟩ := step_cases h
  have hold := hacc hopen
  have hopen' := step_open h
  unfold Accounted
  rcases hcase with ⟨t, Packet, rfl, -, haccepted, hunsent, hcopied⟩
    | ⟨t, outcome, rfl, -, hunsent, haccepted, hcopied⟩
  · refine ⟨fun _ => trivial, fun _ _ => ?_⟩
    rw [haccepted, hunsent, hcopied, List.flatten_append, ← hold, List.append_assoc]
    show _ = s.accepted ++ (s.io.unsent ++ (packetBytes Packet ++ []))
    rw [List.append_nil]
  · rw [haccepted, hunsent, hcopied, List.append_nil, ← hold]
    show _ ↔ (outcome.Failed → s.io.CurBytes = 0)
    by_cases hfailed : outcome.Failed
    · -- what was unsent has gone nowhere
      rw [if_pos hfailed, ← s.io.unsent_eq_nil_iff]
      constructor
      · intro hsame _
        exact List.append_right_eq_self.mp (hsame hopen').symm
      · intro hempty _
        rw [hempty hfailed, List.append_nil]
    · rw [if_neg hfailed]
      exact ⟨fun _ hf => absurd hf hfailed, fun _ _ => rfl⟩

/-! ## §3. Whole runs. -/

/-- **Packets are accounted for exactly while no send of a non-empty buffer fails.**  For every content
of the buffer and every outcome, the law of one `Send`; and for any threads, any interleaving of
their sections and any outcomes, the law of whole runs. -/
theorem packets_accounted_iff (io : ST_IOData) (o : SendOutcome) (Data : Mem)
    (as : List (OutcomeAction τ)) (s : OutcomeSending τ)
    (hrun : StepMachine.run step (start Data) as = some s) :
    (SendLaw io o ↔ (o.Failed → io.CurBytes = 0))
      ∧ (StepMachine.Safe step Accounted (start Data) as
        ↔ StepMachine.Along step FailsEmpty (start Data) as) := by
  refine ⟨send_law_iff io o, ?_⟩
  refine StepMachine.safe_iff_along_of_run (I := fun _ => True) (fun _ _ _ _ _ _ _ => trivial) ?_
    trivial (fun _ => rfl) hrun
  intro s a s' _ hacc hstep
  exact step_accounted_iff hstep hacc

/-- Two packets that one send takes, and a send behind it that fails with nothing to send. -/
theorem packets_accounted_taken :
    ∃ s : OutcomeSending Bool,
      StepMachine.run step (start (fun _ => 0))
          [.copy false Sending.headerPacket, .copy true Sending.headerPacket, .post false .taken,
            .post true .reset] = some s
        ∧ StepMachine.Safe step Accounted (start (fun _ => 0) : OutcomeSending Bool)
          [.copy false Sending.headerPacket, .copy true Sending.headerPacket, .post false .taken,
            .post true .reset] := by
  refine ⟨_, rfl, ?_⟩
  refine (packets_accounted_iff (start (τ := Bool) (fun _ => 0)).io .taken (fun _ => 0)
    [.copy false Sending.headerPacket, .copy true Sending.headerPacket, .post false .taken,
      .post true .reset] _ rfl).2.mpr ?_
  decide +kernel

/-- **A packet that is lost in silence**: the connection was reset, the packet is neither accepted nor
buffered, and the session is not closed. -/
theorem failed_send_silent :
    ∃ s : OutcomeSending Unit,
      StepMachine.run step (start (fun _ => 0))
          [.copy () Sending.headerPacket, .post () .reset] = some s
        ∧ s.closed = false ∧ s.accepted = [] ∧ s.io.unsent = []
        ∧ s.copied = [packetBytes Sending.headerPacket]
        ∧ (packetBytes Sending.headerPacket).length = 44 ∧ ¬ Accounted s := by
  refine ⟨_, rfl, rfl, rfl, rfl, rfl, rfl, fun hacc => ?_⟩
  have hlen := congrArg List.length (hacc rfl)
  exact absurd hlen (by decide)

end OutcomeSending

end YServerCore
