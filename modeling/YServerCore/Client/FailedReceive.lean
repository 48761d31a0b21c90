/-
  YServerCore.Client.FailedReceive — a turn of the client's receive thread whose `recv` fails.

  The turn adds what `recv` returns to `CurBytes` without looking at it.  A 0 changes nothing, and the
  loop finds no frame, since it was left where none stands.  A -1 takes one byte from those that
  are kept; when none are, `CurBytes` wraps around to the largest count, and the loop takes whatever
  the buffer still holds for received bytes: the last frames are dispatched once more, and headers
  and packets are read as far behind the array as their sizes lead.

  Main results:
    * `run_resting` — between two turns the pointer is at the front, and no frame stands there.
    * `Resting.received_failed` — what becomes of the kept bytes behind a failed receive.
    * `failed_receive_harmless_iff` — in every reachable state a failed receive is harmless exactly
      when it does not take a byte from an empty count.
-/
import YServerCore.Client.Loop
import YServerCore.Lib.StepMachine
import YServerCore.Receive.FrontRun

namespace YServerCore

open ByteMemory (Mem read write word32)
open ST_IOData (LoopHead accesses pass loop settle)

/-! ## §1. The thread. -/

/-- `recv` puts at least one byte into its range, and at most as many as there is room for. -/
def RecvResult.Fits (io : ST_IOData) : RecvResult → Prop
  | bytes chunk => chunk ≠ [] ∧ io.CurBytes + chunk.length ≤ BUF_SIZE
  | closed => True
  | error => True

instance (io : ST_IOData) : ∀ r, Decidable (RecvResult.Fits io r)
  | .bytes chunk => inferInstanceAs (Decidable (chunk ≠ [] ∧ io.CurBytes + chunk.length ≤ BUF_SIZE))
  | .closed => inferInstanceAs (Decidable True)
  | .error => inferInstanceAs (Decidable True)

/-- The call brought no bytes. -/
def RecvResult.Failed : RecvResult → Prop
  | bytes _ => False
  | closed => True
  | error => True

/-- The read is inside the array, if it is a read of the data. -/
def Access.InArray : Access → Prop
  | .header off => off + ST_IOHeader.sizeof ≤ BUF_SIZE
  | .handler _ => True
  | .packet off len => off + len ≤ BUF_SIZE

namespace Client

open ClientHandler (packetSize)

/-- The buffer of a client that has received nothing yet. -/
def threadStart (Data : Mem) : ST_IOData := { Data := Data }

/-- One turn of the thread that comes to its end. -/
def threadStep (p : Platform) (io : ST_IOData) (r : RecvResult) : Option ST_IOData :=
  if r.Fits io then (recieveTurn packetSize Handler p io r).map Prod.fst else none

/-- **A turn that passes over its failed receive**: no frame is dispatched, one that was before neither,
every read of the data is inside the array, and the count does not exceed it. -/
structure Harmless (p : Platform) (io : ST_IOData) (r : RecvResult) : Prop where
  calls : ∀ n, (whileLoop packetSize Handler n (recv p io r)).calls = []
  reads : ∀ head, LoopHead packetSize Handler (recv p io r) head →
    ∀ a ∈ accesses packetSize Handler head, a.InArray
  count : (recv p io r).CurBytes ≤ BUF_SIZE

/-! ## §2. A buffer without a frame at its front. -/

/-- Between two turns: the pointer is at the front, the count inside the array, and no frame stands
there. -/
structure Resting (io : ST_IOData) : Prop where
  pointer : io.DataPointer = 0
  count : io.CurBytes ≤ BUF_SIZE
  front : frontFrame Handler io.received = none

theorem resting_start (Data : Mem) : Resting (threadStart Data) where
  pointer := rfl
  count := Nat.zero_le _
  front := rfl

/-- Without a frame at the pointer a turn of the loop dispatches nothing. -/
theorem Resting.not_dispatch {io : ST_IOData} (h : Resting io) (c : Call ClientHandler)
    (io' : ST_IOData) : pass packetSize Handler io ≠ .dispatch c io' := by
  intro hpass
  obtain ⟨hready, -, func, -, hfunc⟩ := (ST_IOData.pass_eq_dispatch packetSize Handler).mp hpass
  have hfront := (ST_IOData.frontFrame_unread Handler io).mpr ⟨hready, rfl, rfl, func, hfunc⟩
  rw [ST_IOData.unread_of_front h.pointer, h.front] at hfront
  exact absurd hfront (by simp)

/-- Nor does any number of turns. -/
theorem Resting.calls {io : ST_IOData} (h : Resting io) (n : Nat) :
    (loop packetSize Handler n io).calls = [] := by
  cases n with
  | zero => rfl
  | succ n =>
      cases hpass : pass packetSize Handler io with
      | exit => rw [ST_IOData.loop_exit packetSize Handler hpass]
      | outOfTable => rw [loop, hpass]
      | dispatch c io' => exact absurd hpass (h.not_dispatch c io')

/-- The loop has its first state only. -/
theorem Resting.head_eq {io head : ST_IOData} (h : Resting io)
    (hhead : LoopHead packetSize Handler io head) : head = io := by
  induction hhead with
  | start => rfl
  | turn _ hturn ih =>
      subst ih
      exact absurd hturn (h.not_dispatch _ _)

/-- The one header that is read is inside the array, and no packet is read. -/
theorem Resting.reads {io : ST_IOData} (h : Resting io) :
    ∀ a ∈ accesses packetSize Handler io, a.InArray := by
  have hcount := h.count
  have hptr := h.pointer
  intro a ha
  rcases (ST_IOData.mem_accesses_iff packetSize Handler).mp ha with
    ⟨rfl, -, hhead⟩ | ⟨hready, rfl | ⟨func, hfunc, -⟩⟩
  · show io.DataPointer + ST_IOHeader.sizeof ≤ BUF_SIZE
    omega
  · trivial
  · -- an entry with a handler would be a frame at the front
    exact absurd ((ST_IOData.pass_eq_dispatch packetSize Handler).mpr
      ⟨hready, rfl, func, rfl, hfunc⟩) (h.not_dispatch _ _)

/-- The end of a turn is such a buffer. -/
theorem resting_behindLoop {n : Nat} {io : ST_IOData} (hptr : io.DataPointer = 0)
    (hexit : (loop packetSize Handler n io).outcome = .exit) :
    Resting (behindLoop (loop packetSize Handler n io).io) := by
  have hspec := ST_IOData.loop_spec packetSize Handler n io
  have hleft : (loop packetSize Handler n io).outcome ≠ .running := by
    rw [hexit]
    simp
  have hfront := ST_IOData.frontFrame_loop packetSize Handler hleft
  generalize loop packetSize Handler n io = e at hspec hfront ⊢
  have hin : e.io.DataPointer ≤ e.io.CurBytes := by
    rw [hspec.curBytes]
    exact hspec.inside (by rw [hptr]; exact Nat.zero_le _)
  obtain ⟨hpointer, hkept⟩ := ST_IOData.settle_spec hin
  rw [behindLoop_eq_settle]
  refine ⟨hpointer, (ST_IOData.settle_front e.io).2, ?_⟩
  rw [hkept]
  by_cases hfull : e.io.CurBytes = BUF_SIZE
  · -- what is kept is what was unread
    rw [if_pos hfull]
    unfold ST_IOData.received
    rw [ByteMemory.drop_read _ _ hin, Nat.zero_add]
    exact hfront
  · rw [if_neg hfull]
    rfl

/-! ## §3. Whole runs. -/

/-- **Between two turns no frame stands at the front**, whatever the receives before returned. -/
theorem run_resting {p : Platform} {Data : Mem} {rs : List RecvResult} {io : ST_IOData}
    (hrun : StepMachine.run (threadStep p) (threadStart Data) rs = some io) : Resting io := by
  refine StepMachine.run_invariant ?_ (resting_start Data) hrun
  intro io r io' hrest hstep
  unfold threadStep recieveTurn at hstep
  by_cases hfits : r.Fits io
  · rw [if_pos hfits, Option.map_eq_some_iff] at hstep
    obtain ⟨⟨io₁, calls⟩, hturn, rfl⟩ := hstep
    simp only [whileLoop_eq_loop, Option.ite_none_right_eq_some, Option.some.injEq,
      Prod.mk.injEq] at hturn
    obtain ⟨hexit, rfl, -⟩ := hturn
    exact resting_behindLoop hrest.pointer hexit
  · rw [if_neg hfits] at hstep
    exact absurd hstep (by simp)

/-- A turn over such a buffer is harmless. -/
theorem Resting.harmless {p : Platform} {io : ST_IOData} {r : RecvResult}
    (h : Resting (recv p io r)) : Harmless p io r where
  calls n := by
    rw [whileLoop_eq_loop]
    exact h.calls n
  reads head hhead := by
    rw [h.head_eq hhead]
    exact h.reads
  count := h.count

/-- A 0 changes neither the count nor the bytes. -/
theorem recv_closed_bytes (p : Platform) {io : ST_IOData} (hcount : io.CurBytes ≤ BUF_SIZE) :
    (recv p io .closed).CurBytes = io.CurBytes ∧ (recv p io .closed).received = io.received := by
  have hsame : (recv p io .closed).CurBytes = io.CurBytes :=
    p.toSize_bytes (n := io.CurBytes) (k := 0) hcount
  refine ⟨hsame, ?_⟩
  unfold ST_IOData.received
  rw [hsame]
  show read (write io.Data io.CurBytes []) 0 io.CurBytes = _
  rw [ByteMemory.write_nil]

/-- A 0 leaves the buffer as it is. -/
theorem Resting.recv_closed (p : Platform) {io : ST_IOData} (h : Resting io) :
    Resting (recv p io .closed) := by
  obtain ⟨hcount, hreceived⟩ := recv_closed_bytes p h.count
  refine ⟨h.pointer, ?_, ?_⟩
  · rw [hcount]
    exact h.count
  · rw [hreceived]
    exact h.front

/-- A -1 takes a byte from those that are kept. -/
theorem Resting.recv_error (p : Platform) {io : ST_IOData} (h : Resting io) (hkept : io.CurBytes ≠ 0) :
    Resting (recv p io .error) := by
  have hcount : (recv p io .error).CurBytes = io.CurBytes - 1 := p.toSize_error hkept h.count
  have hreceived : (recv p io .error).received = io.received.take (io.CurBytes - 1) := by
    unfold ST_IOData.received
    rw [hcount, ByteMemory.take_read _ _ (Nat.sub_le _ _)]
    show read (write io.Data io.CurBytes []) 0 (io.CurBytes - 1) = _
    rw [ByteMemory.write_nil]
  refine ⟨h.pointer, ?_, ?_⟩
  · rw [hcount]
    exact Nat.le_trans (Nat.sub_le _ _) h.count
  · rw [hreceived]
    exact frontFrame_take h.front _

/-- Behind the one turn over such a buffer its bytes stay if they fill the array, else they are dropped. -/
theorem Resting.received_behind {p : Platform} {io io' : ST_IOData} {r : RecvResult}
    (h : Resting (recv p io r)) (hstep : threadStep p io r = some io') :
    io'.received = if (recv p io r).CurBytes = BUF_SIZE then (recv p io r).received else [] := by
  have hptr := h.pointer
  unfold threadStep recieveTurn at hstep
  simp only [whileLoop_eq_loop, Option.ite_none_right_eq_some, Option.map_eq_some_iff,
    Option.some.injEq] at hstep
  obtain ⟨-, _, ⟨hexit, rfl⟩, rfl⟩ := hstep
  -- the loop is left in its first turn
  cases hpass : pass packetSize Handler (recv p io r) with
  | exit =>
      rw [ST_IOData.loop_exit packetSize Handler hpass, behindLoop_eq_settle,
        (ST_IOData.settle_spec (by rw [hptr]; exact Nat.zero_le _)).2, hptr, List.drop_zero]
  | outOfTable =>
      rw [loop, hpass] at hexit
      exact absurd hexit (by simp)
  | dispatch c io' => exact absurd hpass (h.not_dispatch c io')

/-- **What becomes of the kept bytes**: a 0 leaves a full buffer as it is; every other failed receive
that dispatches nothing still drops them behind the loop. -/
theorem Resting.received_failed {p : Platform} {io io' : ST_IOData} {r : RecvResult} (h : Resting io)
    (hfailed : r.Failed) (hkept : r.value = 0 ∨ io.CurBytes ≠ 0)
    (hstep : threadStep p io r = some io') :
    io'.received = if r.value = 0 ∧ io.CurBytes = BUF_SIZE then io.received else [] := by
  have hcount := h.count
  cases r with
  | bytes chunk => exact absurd hfailed id
  | closed =>
      have hvalue : RecvResult.closed.value = 0 := rfl
      obtain ⟨hsame, hreceived⟩ := recv_closed_bytes p hcount
      rw [(h.recv_closed p).received_behind hstep, hsame, hreceived]
      simp only [hvalue, true_and]
  | error =>
      have hvalue : RecvResult.error.value ≠ 0 := by decide
      have hpos := hkept.resolve_left hvalue
      have hless : (recv p io .error).CurBytes = io.CurBytes - 1 := p.toSize_error hpos hcount
      rw [(h.recv_error p hpos).received_behind hstep, hless, if_neg (by omega),
        if_neg (fun hboth => hvalue hboth.1)]

/-- A -1 on an empty count wraps around. -/
theorem recv_error_zero (p : Platform) {io : ST_IOData} (hzero : io.CurBytes = 0) :
    (recv p io .error).CurBytes = p.sizes - 1 := by
  show p.toSize io.CurBytes (-1) = _
  rw [hzero, p.toSize_error_zero]

/-- **A failed receive is harmless exactly when it does not take a byte from an empty count.**  In every
state reached by any receives, on either platform: the count is inside the array, and when `recv`
returns 0 or -1 the turn dispatches nothing and reads nothing outside the array, if and only if the
value is 0 or some bytes are kept. -/
theorem failed_receive_harmless_iff (p : Platform) (Data : Mem) (rs : List RecvResult) (io : ST_IOData)
    (hrun : StepMachine.run (threadStep p) (threadStart Data) rs = some io) (r : RecvResult)
    (hfailed : r.Failed) :
    io.CurBytes ≤ BUF_SIZE ∧ (Harmless p io r ↔ r.value = 0 ∨ io.CurBytes ≠ 0) := by
  have hrest := run_resting hrun
  refine ⟨hrest.count, ?_⟩
  cases r with
  | bytes chunk => exact absurd hfailed id
  | closed => exact ⟨fun _ => Or.inl rfl, fun _ => (hrest.recv_closed p).harmless⟩
  | error =>
      constructor
      · intro hharmless
        refine Or.inr fun hzero => ?_
        -- the count is larger than any array
        have hcount := hharmless.count
        rw [recv_error_zero p hzero] at hcount
        have hbuf : BUF_SIZE = 4096 := rfl
        cases p with
        | Win32 => exact absurd hcount (by decide)
        | x64 => exact absurd hcount (by decide)
      · intro hkept
        rcases hkept with hvalue | hkept
        · exact absurd hvalue (by decide)
        · exact (hrest.recv_error p hkept).harmless

/-- The peer closes the connection of a client that has received nothing. -/
theorem failed_receive_harmless_closed :
    Harmless .x64 (threadStart (fun _ => 0)) .closed :=
  (failed_receive_harmless_iff .x64 (fun _ => 0) [] _ rfl .closed trivial).2.mpr (Or.inl rfl)

/-- A chat frame of 580 bytes. -/
def chatFrame : List UInt8 := [6, 0, 0, 0, 68, 2, 0, 0] ++ List.replicate 572 0

/-- **A chat that is dispatched twice**: it is received and dispatched, the next `recv` fails with
nothing kept, and the turn counts 2^64 - 1 received bytes and dispatches the chat again. -/
theorem chat_dispatched_again :
    ∃ io, StepMachine.run (threadStep .x64) (threadStart (fun _ => 0)) [.bytes chatFrame] = some io
      ∧ io.CurBytes = 0
      ∧ (recv .x64 io .error).CurBytes = 2 ^ 64 - 1
      ∧ (whileLoop packetSize Handler 2 (recv .x64 io .error)).calls.map (fun c => (c.pos, c.size))
        = [(0, 580)]
      ∧ ¬ Harmless .x64 io .error := by
  have hend : (StepMachine.run (threadStep .x64) (threadStart (fun _ => 0)) [.bytes chatFrame]).map
      (fun io => (io.CurBytes, (recv .x64 io .error).CurBytes,
        (whileLoop packetSize Handler 2 (recv .x64 io .error)).calls.map (fun c => (c.pos, c.size))))
      = some (0, 2 ^ 64 - 1, [(0, 580)]) := by
    decide +kernel
  obtain ⟨io, hrun, hvalues⟩ := Option.map_eq_some_iff.mp hend
  rw [Prod.mk.injEq, Prod.mk.injEq] at hvalues
  refine ⟨io, hrun, hvalues.1, hvalues.2.1, hvalues.2.2, fun hharmless => ?_⟩
  have hnone := hharmless.calls 2
  have hsome := hvalues.2.2
  rw [hnone] at hsome
  exact absurd hsome (by simp)

end Client

end YServerCore
