/-
  YServerCore.Send.SendPacket — the two critical sections of `Session::SendPacket`.

  A call of `SendPacket` takes the session's mutex twice: once to copy its packet into the write
  buffer, once to post the buffer and reset it.  Between the two any other caller may come in, so
  a packet may be posted by another caller, and a post may carry several packets or none.  A null
  packet has no section at all.

  A packet is the memory from its first byte on; its header says how many bytes are copied.

  Main results:
    * `step_cases` — what one section does.
    * `step_refines` — the sections of the callers are the moves of writers on one buffer.
    * `senders_keep_stream` — for every interleaving: nothing is lost, doubled or torn.
-/
import YServerCore.Lib.WriteBuffer
import YServerCore.Packet.PacketProcess

namespace YServerCore

open ByteMemory (Mem read write word32)

/-! ## §1. The sections. -/

/-- The first `Header.Size` bytes of a packet. -/
def packetBytes (Packet : Mem) : List UInt8 := read Packet 0 (word32 Packet 4)

@[simp] theorem length_packetBytes (Packet : Mem) :
    (packetBytes Packet).length = word32 Packet 4 :=
  ByteMemory.length_read _ _ _

/-- The value `Send` compares the last error with. -/
def SOCKET_ERROR : Int := -1

namespace ST_IOData

/-- The bytes copied and not posted yet, `Data[0..CurBytes)` of the write buffer. -/
def unsent (io : ST_IOData) : List UInt8 := read io.Data 0 io.CurBytes

@[simp] theorem length_unsent (io : ST_IOData) : io.unsent.length = io.CurBytes :=
  ByteMemory.length_read _ _ _

/-- The first section of `Session::SendPacket`: the packet behind what is there; `none` when it does
not fit, and the call starts over with the mutex held. -/
def copyPacket (io : ST_IOData) (Packet : Mem) : Option ST_IOData :=
  if io.CurBytes + word32 Packet 4 > BUF_SIZE then none
  else
    some { io with
      Data := write io.Data io.CurBytes (packetBytes Packet)
      CurBytes := io.CurBytes + word32 Packet 4 }

/-- `Session::Send`: the state it leaves, and offset and length of the range it hands to
`WSASend`. -/
def Send (io : ST_IOData) : ST_IOData × (Nat × Nat) :=
  ({ io with CurBytes := 0 }, (0, io.CurBytes))

/-- `Session::Send` closes the session for this last error. -/
def sendCloses (WSAGetLastError : Int) : Bool := WSAGetLastError = SOCKET_ERROR

/-- `Session::OnSend` closes the session for this transfer size. -/
def OnSend (TransferSize : Nat) : Bool := TransferSize = 0

/-- `Thread::NetworkProcess` on the completion of a send: the session is closed by `OnSend`, which
never sees a size of 0. -/
def sendCompleted (TransferSize : Nat) : Bool :=
  if TransferSize = 0 then false else OnSend TransferSize

/-- **The copy**: the packet's bytes behind the unsent ones, inside the array. -/
theorem copyPacket_spec {io io' : ST_IOData} {Packet : Mem}
    (h : io.copyPacket Packet = some io') :
    io'.unsent = io.unsent ++ packetBytes Packet ∧ io'.CurBytes ≤ BUF_SIZE
      ∧ io'.CurBytes = io.CurBytes + word32 Packet 4
      ∧ io'.Data = write io.Data io.CurBytes (packetBytes Packet) := by
  unfold copyPacket at h
  by_cases hfull : io.CurBytes + word32 Packet 4 > BUF_SIZE
  · rw [if_pos hfull] at h
    exact absurd h (by simp)
  · rw [if_neg hfull, Option.some.injEq] at h
    subst h
    refine ⟨?_, by show io.CurBytes + word32 Packet 4 ≤ BUF_SIZE; omega, rfl, rfl⟩
    show read (write io.Data io.CurBytes (packetBytes Packet)) 0
      (io.CurBytes + word32 Packet 4) = _
    have happ := ByteMemory.read_write_append io.Data 0 io.CurBytes (packetBytes Packet)
    rw [Nat.zero_add, length_packetBytes] at happ
    exact happ

end ST_IOData

/-! ## §2. Any number of callers. -/

/-- What the callers do to one session. -/
inductive SendAction (τ : Type*) where
  /-- A new call of `SendPacket`, up to the end of its first section. -/
  | copy (t : τ) (Packet : Mem)
  /-- The second section, up to the return. -/
  | post (t : τ)

/-- The write side of a session while `WSASend` takes its bytes at once: the buffer, the bytes posted,
the packets with their threads in the order of the copies, each thread inside a call with the
number of its packet, and the calls that have returned. -/
structure Sending (τ : Type*) where
  io : ST_IOData
  posted : List UInt8 := []
  copied : List (τ × List UInt8) := []
  calls : τ → Option Nat := fun _ => none
  returned : List (τ × Nat) := []

namespace Sending

variable {τ : Type*}

/-- A freshly accepted session; its zeroed array may have anything behind it. -/
def start (Data : Mem) : Sending τ where
  io := { Usage := .Write, Data := Data }

/-- The packets of the copies of a run with their threads, in order. -/
def copies : List (SendAction τ) → List (τ × List UInt8)
  | [] => []
  | .copy t Packet :: as => (t, packetBytes Packet) :: copies as
  | .post _ :: as => copies as

variable [DecidableEq τ]

/-- One section of one thread. -/
def step (s : Sending τ) : SendAction τ → Option (Sending τ)
  | .copy t Packet =>
      match s.calls t with
      | some _ => none
      | none =>
          (s.io.copyPacket Packet).map (fun io =>
            { s with
              io := io
              copied := s.copied ++ [(t, packetBytes Packet)]
              calls := Function.update s.calls t (some s.copied.length) })
  | .post t =>
      match s.calls t with
      | none => none
      | some k =>
          some { s with
            io := s.io.Send.1
            posted := s.posted ++ read s.io.Data s.io.Send.2.1 s.io.Send.2.2
            calls := Function.update s.calls t none
            returned := s.returned ++ [(t, k)] }

/-! ## §3. The callers are writers on one buffer. -/

/-- The buffer a session's write side is. -/
def buffer (s : Sending τ) : WriteBuffer.Buffer τ UInt8 where
  out := s.posted
  buf := s.io.unsent
  log := s.copied
  waiting := s.calls
  done := s.returned

/-- A section is a move of a writer. -/
def move : SendAction τ → WriteBuffer.Action τ UInt8
  | .copy t Packet => .append t (packetBytes Packet)
  | .post t => .flush t

omit [DecidableEq τ] in
theorem messages_move (as : List (SendAction τ)) :
    WriteBuffer.messages (as.map move) = copies as := by
  induction as with
  | nil => rfl
  | cons a as ih =>
      cases a with
      | copy t Packet => exact congrArg ((t, packetBytes Packet) :: ·) ih
      | post t => exact ih

/-- **What one section does**: a thread outside copies its packet, a thread inside posts the buffer. -/
theorem step_cases {s s' : Sending τ} {a : SendAction τ} (h : step s a = some s') :
    (∃ t Packet io, a = .copy t Packet ∧ s.calls t = none ∧ s.io.copyPacket Packet = some io
        ∧ s' = { s with
            io := io
            copied := s.copied ++ [(t, packetBytes Packet)]
            calls := Function.update s.calls t (some s.copied.length) })
      ∨ ∃ t k, a = .post t ∧ s.calls t = some k
        ∧ s' = { s with
            io := s.io.Send.1
            posted := s.posted ++ read s.io.Data s.io.Send.2.1 s.io.Send.2.2
            calls := Function.update s.calls t none
            returned := s.returned ++ [(t, k)] } := by
  cases a with
  | copy t Packet =>
      cases hcall : s.calls t with
      | some k =>
          rw [step, hcall] at h
          exact absurd h (by simp)
      | none =>
          rw [step, hcall, Option.map_eq_some_iff] at h
          obtain ⟨io, hcopy, hs'⟩ := h
          exact Or.inl ⟨t, Packet, io, rfl, hcall, hcopy, hs'.symm⟩
  | post t =>
      cases hcall : s.calls t with
      | none =>
          rw [step, hcall] at h
          exact absurd h (by simp)
      | some k =>
          rw [step, hcall, Option.some.injEq] at h
          exact Or.inr ⟨t, k, rfl, hcall, h.symm⟩

theorem step_copy {s s' : Sending τ} {t : τ} {Packet : Mem} (h : step s (.copy t Packet) = some s') :
    s'.copied = s.copied ++ [(t, packetBytes Packet)]
      ∧ s'.calls = Function.update s.calls t (some s.copied.length) := by
  rcases step_cases h with ⟨t', Packet', io, ha, -, -, rfl⟩ | ⟨t', k, ha, -, -⟩
  · rw [SendAction.copy.injEq] at ha
    rw [ha.1, ha.2]
    exact ⟨rfl, rfl⟩
  · exact absurd ha (by simp)

theorem step_post {s s' : Sending τ} {t : τ} (h : step s (.post t) = some s') :
    s'.copied = s.copied ∧ s'.calls = Function.update s.calls t none := by
  rcases step_cases h with ⟨t', Packet', io, ha, -⟩ | ⟨t', k, ha, -, rfl⟩
  · exact absurd ha (by simp)
  · rw [SendAction.post.injEq] at ha
    rw [ha]
    exact ⟨rfl, rfl⟩

/-- **A section is a move of its thread on the buffer.** -/
theorem step_refines {s s' : Sending τ} {a : SendAction τ} (h : step s a = some s') :
    WriteBuffer.step s.buffer (move a) = some s'.buffer := by
  rcases step_cases h with ⟨t, Packet, io, rfl, hcall, hcopy, rfl⟩ | ⟨t, k, rfl, hcall, rfl⟩
  · -- the copy goes behind the unsent bytes, as an append does
    have hunsent := (ST_IOData.copyPacket_spec hcopy).1
    have hwait : s.buffer.waiting t = none := hcall
    rw [move, WriteBuffer.step, hwait]
    show some (WriteBuffer.Buffer.mk s.posted (s.io.unsent ++ packetBytes Packet) _ _ _)
      = some (WriteBuffer.Buffer.mk s.posted io.unsent _ _ _)
    rw [hunsent]
    rfl
  · -- the range posted is all that is unsent, and nothing is unsent afterwards
    have hwait : s.buffer.waiting t = some k := hcall
    rw [move, WriteBuffer.step, hwait]
    rfl

/-- Every run of the callers is a run of writers. -/
theorem run_refines {Data : Mem} {as : List (SendAction τ)} {s : Sending τ}
    (hrun : StepMachine.run step (start Data) as = some s) :
    StepMachine.run WriteBuffer.step {} (as.map move) = some s.buffer := by
  obtain ⟨m, hm, rfl⟩ := StepMachine.run_simulates (R := fun s m => m = s.buffer) move
    (fun s a s' m hR hstep => ⟨s'.buffer, hR ▸ step_refines hstep, rfl⟩)
    (show ({} : WriteBuffer.Buffer τ UInt8) = (start Data).buffer from rfl) hrun
  exact hm

/-- The write buffer never holds more than its array. -/
theorem run_curBytes {Data : Mem} {as : List (SendAction τ)} {s : Sending τ}
    (hrun : StepMachine.run step (start Data) as = some s) : s.io.CurBytes ≤ BUF_SIZE := by
  refine StepMachine.run_invariant (P := fun s : Sending τ => s.io.CurBytes ≤ BUF_SIZE) ?_
    (Nat.zero_le _) hrun
  intro s a s' hs hstep
  rcases step_cases hstep with ⟨t, Packet, io, -, -, hcopy, rfl⟩ | ⟨t, k, -, -, rfl⟩
  · exact (ST_IOData.copyPacket_spec hcopy).2.1
  · exact Nat.zero_le _

/-- **Concurrent senders keep the stream.**  For any threads and any interleaving of the two sections
of their calls: the bytes posted followed by the unsent ones are the packets in the order of
their copies, the buffer stays inside its array, and a call that has returned finds its own
packet, with all packets before it, in front of the bytes posted. -/
theorem senders_keep_stream (Data : Mem) (as : List (SendAction τ)) (s : Sending τ)
    (hrun : StepMachine.run step (start Data) as = some s) :
    s.posted ++ s.io.unsent = ((copies as).map Prod.snd).flatten ∧ s.io.CurBytes ≤ BUF_SIZE
      ∧ ∀ t k, (t, k) ∈ s.returned → ((copies as)[k]?).map Prod.fst = some t
          ∧ (((copies as).take (k + 1)).map Prod.snd).flatten <+: s.posted := by
  obtain ⟨hord, hlog⟩ := WriteBuffer.run_ordered (run_refines hrun)
  rw [messages_move] at hlog
  refine ⟨?_, run_curBytes hrun, fun t k hk => ?_⟩
  · rw [← hlog]
    exact hord.order
  · rw [← hlog]
    exact hord.flushed t k hk

/-- A packet of 44 bytes: a header alone. -/
def headerPacket : Mem := fun i => if i = 4 then 44 else 0

/-- Two threads copy before either of them posts: the second post is empty, and both calls find
their packets posted. -/
theorem senders_keep_stream_two :
    ∃ s : Sending Bool,
      StepMachine.run step (start (fun _ => 0))
          [.copy false headerPacket, .copy true headerPacket, .post false, .post true] = some s
        ∧ s.returned = [(false, 0), (true, 1)]
        ∧ s.posted ++ s.io.unsent = packetBytes headerPacket ++ packetBytes headerPacket := by
  refine ⟨_, rfl, rfl, ?_⟩
  have h := (senders_keep_stream (fun _ => 0)
    [.copy false headerPacket, .copy true headerPacket, .post false, .post true] _ rfl).1
  rw [h]
  rfl

end Sending

end YServerCore
