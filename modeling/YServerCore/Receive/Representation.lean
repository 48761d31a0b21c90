/-
  YServerCore.Receive.Representation — pointer, fill level and window of the read buffer.

  `WSARecv` writes where `ReadyToRecieve` told it to, so the window is part of the state here, and
  a receive writes at the window, not at `CurBytes`.  The bytes are arbitrary: whatever type and
  size a header claims, the loop moves the pointer only over bytes it has checked to be there, so
  the unsigned subtractions of the source never wrap.  A type outside the handler table is taken
  to have no handler, which ends the loop as an empty entry does.

  Main results:
    * `loopHead_inside` — at every turn the pointer is inside the received bytes and has not moved
      back.
    * `atReturn_step` — a receive leaves the pointer at the front and the window at the free part.
    * `read_buffer_represented` — both for every sequence of receives.
-/
import YServerCore.Receive.Bounds

namespace YServerCore

open ByteMemory (Mem read write)
open RequestHandler (packetSize)
open PacketProcess (Handler)

/-! ## §1. One receive. -/

namespace ST_IOData

variable {H : Type*} (packetSize : H → Nat) (table : HandlerTable H)

/-- `Session::OnRecv` where a type outside the table has no handler: the state it leaves, and offset
and length of the range it hands to `WSARecv`; `none` when its loop does not end, and for a size
of 0. -/
def OnRecvAnyType (io : ST_IOData) (TransferSize : Nat) : Option (ST_IOData × (Nat × Nat)) :=
  if TransferSize = 0 then none
  else
    let io := { io with CurBytes := io.CurBytes + TransferSize }
    let e := loop packetSize table (io.CurBytes + 1) io
    if e.outcome = .running then none else some (ReadyToRecieve (settle e.io))

/-- It returns exactly when its loop stops, after however many turns. -/
theorem OnRecvAnyType_eq_some {io : ST_IOData} {TransferSize : Nat}
    {r : ST_IOData × (Nat × Nat)} :
    OnRecvAnyType packetSize table io TransferSize = some r
      ↔ TransferSize ≠ 0 ∧ ∃ n,
        (loop packetSize table n { io with CurBytes := io.CurBytes + TransferSize }).outcome
            ≠ .running
          ∧ r = ReadyToRecieve (settle
            (loop packetSize table n { io with CurBytes := io.CurBytes + TransferSize }).io) := by
  unfold OnRecvAnyType
  by_cases hzero : TransferSize = 0
  · rw [if_pos hzero]
    exact ⟨fun h => absurd h (by simp), fun h => absurd hzero h.1⟩
  · rw [if_neg hzero]
    refine ⟨fun h => ⟨hzero, io.CurBytes + TransferSize + 1, ?_⟩, fun h => ?_⟩
    · simp only [Option.ite_none_left_eq_some, Option.some.injEq] at h
      exact ⟨h.1, h.2.symm⟩
    · obtain ⟨-, n, hstop, rfl⟩ := h
      have henough := loop_enough packetSize table hstop
        (k := io.CurBytes + TransferSize + 1) (by
          show io.CurBytes + TransferSize - io.DataPointer + 1 ≤ _
          omega)
      simp only [henough, if_neg hstop]

/-- With only types of the table it is `OnRecv`. -/
theorem OnRecvAnyType_of_OnRecv {io io' : ST_IOData} {TransferSize : Nat} {calls : List (Call H)}
    (h : OnRecv packetSize table io TransferSize = some (io', calls)) :
    (OnRecvAnyType packetSize table io TransferSize).map Prod.fst = some io' := by
  unfold OnRecv at h
  by_cases hzero : TransferSize = 0
  · rw [if_pos hzero] at h
    exact absurd h (by simp)
  · rw [if_neg hzero] at h
    simp only [Option.ite_none_right_eq_some, Option.some.injEq, Prod.mk.injEq] at h
    obtain ⟨hexit, rfl, -⟩ := h
    unfold OnRecvAnyType
    rw [if_neg hzero]
    simp only [hexit]
    rfl

/-- **Every turn**: the pointer is inside the received bytes, at or behind where it started, and
nothing else has changed. -/
theorem loopHead_inside {io₀ head : ST_IOData} (h : LoopHead packetSize table io₀ head)
    (hin : io₀.DataPointer ≤ io₀.CurBytes) :
    head.CurBytes = io₀.CurBytes ∧ io₀.DataPointer ≤ head.DataPointer
      ∧ head.DataPointer ≤ head.CurBytes := by
  induction h with
  | start => exact ⟨rfl, Nat.le_refl _, hin⟩
  | @turn io _ _ _ hpass ih =>
      obtain ⟨hcur, hback, -⟩ := ih
      obtain ⟨⟨hguard, -, hbody⟩, rfl, -⟩ := (pass_eq_dispatch packetSize table).mp hpass
      -- the pointer moves by a size that was checked against the bytes behind it
      refine ⟨hcur, ?_, ?_⟩
      · show _ ≤ io.DataPointer + io.headerSize io.DataPointer
        omega
      · show io.DataPointer + io.headerSize io.DataPointer ≤ io.CurBytes
        omega

/-- A turn does not move the pointer back. -/
theorem pass_forward {io io' : ST_IOData} {c : Call H}
    (h : pass packetSize table io = .dispatch c io') : io.DataPointer ≤ io'.DataPointer := by
  obtain ⟨-, rfl, -⟩ := (pass_eq_dispatch packetSize table).mp h
  exact Nat.le_add_right _ _

/-- What the statements behind the loop leave. -/
theorem settle_front (io : ST_IOData) :
    (settle io).DataPointer = 0 ∧ (settle io).CurBytes ≤ BUF_SIZE := by
  unfold settle
  split
  · exact ⟨rfl, Nat.sub_le _ _⟩
  · exact ⟨rfl, Nat.zero_le _⟩

end ST_IOData

/-! ## §2. The read side with its window. -/

/-- The read buffer, and offset and length of the range the outstanding receive may write. -/
structure Windowed where
  io : ST_IOData
  window : Nat × Nat

namespace Windowed

/-- A freshly accepted session, after its first `ReadyToRecieve`. -/
def start (behind : Mem) : Windowed where
  io := (ST_IOData.OnAccept behind).ReadyToRecieve.1
  window := (ST_IOData.OnAccept behind).ReadyToRecieve.2

/-- The buffer when the receive has written its bytes. -/
def arrived (s : Windowed) (chunk : List UInt8) : ST_IOData :=
  { s.io with Data := write s.io.Data s.window.1 chunk }

/-- The state in which the loop starts. -/
def loopStart (s : Windowed) (chunk : List UInt8) : ST_IOData :=
  { s.arrived chunk with CurBytes := s.io.CurBytes + chunk.length }

/-- One receive. -/
def step (s : Windowed) (chunk : List UInt8) : Option Windowed :=
  ((s.arrived chunk).OnRecvAnyType packetSize Handler chunk.length).map (fun r => ⟨r.1, r.2⟩)

/-- The transfer size is between 1 and the length that was offered. -/
def Fits (s : Windowed) (chunk : List UInt8) : Prop :=
  1 ≤ chunk.length ∧ chunk.length ≤ s.window.2

instance (s : Windowed) (chunk : List UInt8) : Decidable (Fits s chunk) :=
  inferInstanceAs (Decidable (_ ∧ _))

/-- The state at a return: the pointer at the front, and the window exactly the bytes of the array
behind the retained ones. -/
structure AtReturn (s : Windowed) : Prop where
  pointer : s.io.DataPointer = 0
  inside : s.io.CurBytes ≤ BUF_SIZE
  window : s.window = (s.io.CurBytes, BUF_SIZE - s.io.CurBytes)

/-- **The representation invariant** around one receive. -/
structure Represented (s : Windowed) (chunk : List UInt8) : Prop where
  before : AtReturn s
  /-- The receive writes inside the array. -/
  fits : s.window.1 + chunk.length ≤ BUF_SIZE
  beyond : ∀ i, BUF_SIZE ≤ i → (s.arrived chunk).Data i = s.io.Data i
  /-- The receive leaves the retained bytes alone. -/
  retained : (s.arrived chunk).received = s.io.received
  /-- Every iteration of the loop. -/
  head : ∀ io, ST_IOData.LoopHead packetSize Handler (s.loopStart chunk) io →
    io.DataPointer ≤ io.CurBytes ∧ io.CurBytes ≤ BUF_SIZE
  forward : ∀ io c io', ST_IOData.LoopHead packetSize Handler (s.loopStart chunk) io →
    io.pass packetSize Handler = .dispatch c io' → io.DataPointer ≤ io'.DataPointer
  after : ∀ s', step s chunk = some s' → AtReturn s'

theorem atReturn_start (behind : Mem) : AtReturn (start behind) := ⟨rfl, Nat.zero_le _, rfl⟩

/-- The loop starts with the retained bytes and the new ones. -/
theorem received_loopStart {s : Windowed} (hs : AtReturn s) (chunk : List UInt8) :
    (s.loopStart chunk).received = s.io.received ++ chunk := by
  have hoff : s.window.1 = s.io.CurBytes := by rw [hs.window]
  rw [← ST_IOData.received_filled]
  unfold loopStart arrived ST_IOData.filled
  rw [hoff]

/-- A receive leaves the pointer at the front and the window at the free part of the array. -/
theorem atReturn_step {s s' : Windowed} {chunk : List UInt8} (h : step s chunk = some s') :
    AtReturn s' := by
  unfold step at h
  obtain ⟨r, hr, rfl⟩ := Option.map_eq_some_iff.mp h
  obtain ⟨-, n, -, rfl⟩ := (ST_IOData.OnRecvAnyType_eq_some packetSize Handler).mp hr
  obtain ⟨hptr, hcur⟩ := ST_IOData.settle_front (ST_IOData.loop packetSize Handler n
    { s.arrived chunk with CurBytes := (s.arrived chunk).CurBytes + chunk.length }).io
  exact ⟨hptr, hcur, rfl⟩

/-- **One receive** of any bytes that fit the window keeps the representation. -/
theorem represented {s : Windowed} {chunk : List UInt8} (h : AtReturn s) (hfit : Fits s chunk) :
    Represented s chunk := by
  obtain ⟨hptr, hcur, hwindow⟩ := h
  obtain ⟨-, hlen⟩ := hfit
  have hoff : s.window.1 = s.io.CurBytes := by rw [hwindow]
  have hfree : s.window.2 = BUF_SIZE - s.io.CurBytes := by rw [hwindow]
  have hstart : (s.loopStart chunk).DataPointer ≤ (s.loopStart chunk).CurBytes := by
    show s.io.DataPointer ≤ _
    omega
  have hfull : (s.loopStart chunk).CurBytes ≤ BUF_SIZE := by
    show s.io.CurBytes + chunk.length ≤ BUF_SIZE
    omega
  refine ⟨⟨hptr, hcur, hwindow⟩, by omega, ?_, ?_, ?_, ?_, fun s' hs' => atReturn_step hs'⟩
  · intro i hi
    show write s.io.Data s.window.1 chunk i = s.io.Data i
    unfold ByteMemory.write
    rw [if_pos (by omega), List.getElem?_eq_none (by omega)]
    rfl
  · show read (write s.io.Data s.window.1 chunk) 0 s.io.CurBytes = read s.io.Data 0 s.io.CurBytes
    exact ByteMemory.read_write_before s.io.Data chunk (by omega)
  · intro io hio
    obtain ⟨hsame, -, hin⟩ := ST_IOData.loopHead_inside packetSize Handler hio hstart
    exact ⟨hin, by rw [hsame]; exact hfull⟩
  · intro io c io' _ hpass
    exact ST_IOData.pass_forward packetSize Handler hpass

/-- **The read buffer is represented through every run.**  For every sequence of receives of arbitrary
bytes, each of at least one byte and no more than the window offers: at every iteration of the loop
the pointer is inside the received bytes and these are inside the array, no turn moves the pointer
back, every return leaves the pointer at the front and the window at the bytes of the array behind
the retained ones, and no receive writes anywhere else. -/
theorem read_buffer_represented (behind : Mem) (chunks : List (List UInt8))
    (hfits : StepMachine.Along step Fits (start behind) chunks) :
    AtReturn (start behind) ∧ StepMachine.Along step Represented (start behind) chunks := by
  refine ⟨atReturn_start behind, ?_⟩
  apply StepMachine.along_of_invariant (G := Fits) (I := AtReturn) ?_ ?_ (atReturn_start behind) hfits
  · intro s chunk s' _ _ hstep
    exact atReturn_step hstep
  · intro s chunk hs hfit
    exact represented hs hfit

/-- Two receives of hostile bytes: a type behind the table, and a size no buffer can hold. -/
theorem read_buffer_represented_hostile :
    AtReturn (start (fun _ => 0)) ∧ StepMachine.Along step Represented (start (fun _ => 0))
      [[20, 0, 0, 0, 44, 0, 0, 0] ++ List.replicate 36 0, List.replicate 60 255] :=
  read_buffer_represented (fun _ => 0) _ (by decide +kernel)

end Windowed

end YServerCore
