/-
  YServerCore.Receive.OnRecv — the receive loop of `Session::OnRecv`.

  `pass` is one turn of the while loop: its guard, its two length checks, the table lookup and
  the dispatch.  `loop n` makes at most `n` turns and says how far it came: out of the loop, out
  of the table, or still running.  `OnRecv` gives the loop one turn more than there are received
  bytes; `loop_enough` shows that a loop which has not ended by then never ends.

  Main results:
    * `pass_eq_dispatch` — what one dispatching turn does, and when it happens.
    * `loop_spec` — what any number of turns leaves alone, and where the pointer stands.
    * `receive_eq_some` — `OnRecv` returns exactly when the loop ends after some number of turns.
    * `receive_spec` — the state after a receive, from the state the loop ended in.
-/
import YServerCore.Packet.PacketProcess

namespace YServerCore

open ByteMemory (Mem read write word32)

namespace ST_IOData

variable {H : Type*} (packetSize : H → Nat) (table : HandlerTable H)

/-! ## §1. One turn of the loop. -/

/-- How a turn of the loop ends. -/
inductive Pass (H : Type*) where
  | exit
  | outOfTable
  | dispatch (c : Call H) (io : ST_IOData)

/-- One turn: the guard, the two checks, the lookup of the header's type, the handler's call. -/
def pass (io : ST_IOData) : Pass H :=
  if io.DataPointer < io.CurBytes then
    if io.CurBytes - io.DataPointer < ST_IOHeader.sizeof then .exit
    else if io.CurBytes - io.DataPointer < io.headerSize io.DataPointer then .exit
    else
      match table[io.headerIOType io.DataPointer]? with
      | none => .outOfTable
      | some none => .exit
      | some (some func) =>
          let r := io.HandleData packetSize func (io.headerSize io.DataPointer)
          .dispatch r.1 r.2
  else .exit

/-- The call a turn makes at the pointer, for a handler. -/
def callAt (io : ST_IOData) (func : H) : Call H :=
  ⟨func, io.DataPointer, io.headerSize io.DataPointer,
    read io.Data io.DataPointer (packetSize func)⟩

/-- The state after the frame at the pointer. -/
def advance (io : ST_IOData) : ST_IOData :=
  { io with DataPointer := io.DataPointer + io.headerSize io.DataPointer }

/-- A frame of size 0 does not move the pointer. -/
theorem advance_of_zero {io : ST_IOData} (h : io.headerSize io.DataPointer = 0) : advance io = io := by
  unfold advance
  rw [h, Nat.add_zero]

/-- A whole frame of a claimed size stands at the pointer. -/
def FrameReady (io : ST_IOData) : Prop :=
  io.DataPointer < io.CurBytes ∧ ST_IOHeader.sizeof ≤ io.CurBytes - io.DataPointer
    ∧ io.headerSize io.DataPointer ≤ io.CurBytes - io.DataPointer

/-- **A dispatching turn**: a whole frame is there and its type has a handler. -/
theorem pass_eq_dispatch {io io' : ST_IOData} {c : Call H} :
    pass packetSize table io = .dispatch c io'
      ↔ FrameReady io ∧ io' = advance io ∧ ∃ func, c = callAt packetSize io func
        ∧ table[io.headerIOType io.DataPointer]? = some (some func) := by
  unfold pass FrameReady
  -- the checks in the order of the source: guard, header, body, table entry
  by_cases hguard : io.DataPointer < io.CurBytes
  · by_cases hhead : io.CurBytes - io.DataPointer < ST_IOHeader.sizeof
    · rw [if_pos hguard, if_pos hhead]
      exact ⟨fun h => by simp at h, fun h => absurd h.1.2.1 (by omega)⟩
    · by_cases hbody : io.CurBytes - io.DataPointer < io.headerSize io.DataPointer
      · rw [if_pos hguard, if_neg hhead, if_pos hbody]
        exact ⟨fun h => by simp at h, fun h => absurd h.1.2.2 (by omega)⟩
      · rw [if_pos hguard, if_neg hhead, if_neg hbody]
        have hready : io.DataPointer < io.CurBytes ∧ ST_IOHeader.sizeof ≤ io.CurBytes - io.DataPointer
            ∧ io.headerSize io.DataPointer ≤ io.CurBytes - io.DataPointer :=
          ⟨hguard, by omega, by omega⟩
        cases hslot : table[io.headerIOType io.DataPointer]? with
        | none => simp
        | some slot =>
            cases slot with
            | none => simp
            | some func =>
                refine ⟨fun h => ?_, fun h => ?_⟩
                · injection h with hc hio
                  exact ⟨hready, hio.symm, func, hc.symm, rfl⟩
                · obtain ⟨-, rfl, func', rfl, hfunc⟩ := h
                  rw [Option.some.injEq, Option.some.injEq] at hfunc
                  subst hfunc
                  rfl
  · rw [if_neg hguard]
    exact ⟨fun h => by simp at h, fun h => absurd h.1.1 hguard⟩

/-- Without a whole frame at the pointer the loop is left. -/
theorem pass_exit_of_not_ready {io : ST_IOData} (h : ¬ FrameReady io) :
    pass packetSize table io = .exit := by
  unfold FrameReady at h
  unfold pass
  by_cases hguard : io.DataPointer < io.CurBytes
  · by_cases hhead : io.CurBytes - io.DataPointer < ST_IOHeader.sizeof
    · rw [if_pos hguard, if_pos hhead]
    · have hbody : io.CurBytes - io.DataPointer < io.headerSize io.DataPointer := by
        by_contra hle
        exact h ⟨hguard, by omega, by omega⟩
      rw [if_pos hguard, if_neg hhead, if_pos hbody]
  · rw [if_neg hguard]

/-- At a whole frame of a type without a handler the loop is left. -/
theorem pass_exit_of_no_handler {io : ST_IOData} (h : FrameReady io)
    (hslot : table[io.headerIOType io.DataPointer]? = some none) :
    pass packetSize table io = .exit := by
  obtain ⟨hguard, hhead, hbody⟩ := h
  unfold pass
  rw [if_pos hguard, if_neg (Nat.not_lt.mpr hhead), if_neg (Nat.not_lt.mpr hbody), hslot]

/-! ## §2. Any number of turns. -/

/-- How far a number of turns came. -/
inductive Outcome where
  | exit
  | outOfTable
  | running
  deriving DecidableEq, Repr

/-- The end of a number of turns: how far they came, the state there and the calls made. -/
structure LoopEnd (H : Type*) where
  outcome : Outcome
  io : ST_IOData
  calls : List (Call H)

/-- At most `n` turns of the loop. -/
def loop : Nat → ST_IOData → LoopEnd H
  | 0, io => ⟨.running, io, []⟩
  | n + 1, io =>
      match pass packetSize table io with
      | .exit => ⟨.exit, io, []⟩
      | .outOfTable => ⟨.outOfTable, io, []⟩
      | .dispatch c io' =>
          let e := loop n io'
          { e with calls := c :: e.calls }

/-- The bytes the calls were made for, by their claimed sizes. -/
def consumed : List (Call H) → Nat
  | [] => 0
  | c :: calls => c.size + consumed calls

theorem consumed_append (calls calls' : List (Call H)) :
    consumed (calls ++ calls') = consumed calls + consumed calls' := by
  induction calls with
  | nil => exact (Nat.zero_add _).symm
  | cons c calls ih =>
      rw [List.cons_append, consumed, consumed, ih, Nat.add_assoc]

theorem loop_dispatch {io io' : ST_IOData} {c : Call H}
    (h : pass packetSize table io = .dispatch c io') (n : Nat) :
    loop packetSize table (n + 1) io
      = { loop packetSize table n io' with
          calls := c :: (loop packetSize table n io').calls } := by
  rw [loop, h]

theorem loop_exit {io : ST_IOData} (h : pass packetSize table io = .exit) (n : Nat) :
    loop packetSize table (n + 1) io = ⟨.exit, io, []⟩ := by
  rw [loop, h]

/-- What every number of turns does to the state: the pointer moves forward by the claimed sizes
and stays inside the received bytes; everything else stays as it was. -/
structure LoopSpec (io : ST_IOData) (e : LoopEnd H) : Prop where
  data : e.io.Data = io.Data
  curBytes : e.io.CurBytes = io.CurBytes
  pointer : e.io.DataPointer = io.DataPointer + consumed e.calls
  inside : io.DataPointer ≤ io.CurBytes → e.io.DataPointer ≤ io.CurBytes
  sizes : ∀ c ∈ e.calls, c.size = io.headerSize c.pos
    ∧ c.packet = read io.Data c.pos (packetSize c.handler)

theorem loop_spec (n : Nat) (io : ST_IOData) :
    LoopSpec packetSize io (loop packetSize table n io) := by
  induction n generalizing io with
  | zero => exact ⟨rfl, rfl, rfl, id, by simp [loop]⟩
  | succ n ih =>
      cases hpass : pass packetSize table io with
      | exit =>
          rw [loop_exit packetSize table hpass]
          exact ⟨rfl, rfl, rfl, id, by simp⟩
      | outOfTable =>
          rw [loop, hpass]
          exact ⟨rfl, rfl, rfl, id, by simp⟩
      | dispatch c io' =>
          rw [loop_dispatch packetSize table hpass]
          obtain ⟨hready, rfl, func, rfl, -⟩ := (pass_eq_dispatch packetSize table).mp hpass
          -- the turn moved the pointer by a size it had checked; the other turns start there
          have hrest := ih (advance io)
          have hfit : io.DataPointer + io.headerSize io.DataPointer ≤ io.CurBytes := by
            have := hready.1
            have := hready.2.2
            omega
          refine ⟨hrest.data, hrest.curBytes, ?_, fun _ => hrest.inside hfit, ?_⟩
          · rw [hrest.pointer]
            rw [consumed]
            show io.DataPointer + io.headerSize io.DataPointer + _
              = io.DataPointer + (io.headerSize io.DataPointer + _)
            rw [Nat.add_assoc]
          · intro c hc
            rcases List.mem_cons.mp hc with rfl | hc
            · exact ⟨rfl, rfl⟩
            · exact hrest.sizes c hc

/-- A frame that claims size 0 is dispatched for ever. -/
theorem loop_stuck {io : ST_IOData} {c : Call H} (h : pass packetSize table io = .dispatch c io)
    (n : Nat) : (loop packetSize table n io).outcome = .running := by
  induction n with
  | zero => rfl
  | succ n ih =>
      rw [loop_dispatch packetSize table h]
      exact ih

/-- **Enough turns**: a loop that stops at all has stopped after one turn more than there are
bytes left. -/
theorem loop_enough {n : Nat} {io : ST_IOData}
    (h : (loop packetSize table n io).outcome ≠ .running) {k : Nat}
    (hk : io.CurBytes - io.DataPointer + 1 ≤ k) :
    loop packetSize table k io = loop packetSize table n io := by
  induction n generalizing io k with
  | zero => exact absurd rfl h
  | succ n ih =>
      obtain ⟨k, rfl⟩ : ∃ k', k = k' + 1 := ⟨k - 1, by omega⟩
      cases hpass : pass packetSize table io with
      | exit => rw [loop_exit packetSize table hpass, loop_exit packetSize table hpass]
      | outOfTable => rw [loop, loop, hpass]
      | dispatch c io' =>
          rw [loop_dispatch packetSize table hpass] at h
          obtain ⟨hready, rfl, -⟩ := (pass_eq_dispatch packetSize table).mp hpass
          -- a size of 0 would leave the state as it is, and the loop would never be left
          have hsize : io.headerSize io.DataPointer ≠ 0 := by
            intro hzero
            rw [advance_of_zero hzero] at hpass h
            exact h (loop_stuck packetSize table hpass n)
          have hk' : (advance io).CurBytes - (advance io).DataPointer + 1 ≤ k := by
            have := hready.1
            show io.CurBytes - (io.DataPointer + io.headerSize io.DataPointer) + 1 ≤ k
            omega
          rw [loop_dispatch packetSize table hpass, loop_dispatch packetSize table hpass,
            ih h hk']

/-! ## §3. `OnRecv`. -/

/-- `Session::OnAccept`, as far as the read buffer goes: `SetIODataUsage` zeroes it. -/
def OnAccept (behind : Mem) : ST_IOData where
  Usage := .Read
  Data := fun i => if i < BUF_SIZE then 0 else behind i

/-- The statements behind the loop: a full buffer is moved to the front, any other one is
emptied.  `memcpy` is taken to write the bytes that stood in its source before. -/
def settle (io : ST_IOData) : ST_IOData :=
  if io.CurBytes = BUF_SIZE then
    { io with
      Data := write io.Data 0 (read io.Data io.DataPointer (BUF_SIZE - io.DataPointer))
      CurBytes := BUF_SIZE - io.DataPointer
      DataPointer := 0 }
  else { io with CurBytes := 0, DataPointer := 0 }

/-- `Session::ReadyToRecieve`: the state it leaves, and offset and length of the range it hands to
`WSARecv`. -/
def ReadyToRecieve (io : ST_IOData) : ST_IOData × (Nat × Nat) :=
  ({ io with Usage := .Read }, (io.CurBytes, BUF_SIZE - io.CurBytes))

/-- `Session::OnRecv`: the state it leaves and the calls it makes; `none` when its loop does not
end or reads past the table, and for a size of 0, where `CloseSession` deletes the session before
its buffer is used. -/
def OnRecv (io : ST_IOData) (TransferSize : Nat) : Option (ST_IOData × List (Call H)) :=
  if TransferSize = 0 then none
  else
    let io := { io with CurBytes := io.CurBytes + TransferSize }
    let e := loop packetSize table (io.CurBytes + 1) io
    if e.outcome = .exit then some ((ReadyToRecieve (settle e.io)).1, e.calls) else none

/-- The state in which the loop starts after `WSARecv` has put `chunk` into its range. -/
def filled (io : ST_IOData) (chunk : List UInt8) : ST_IOData :=
  { io with Data := write io.Data io.CurBytes chunk, CurBytes := io.CurBytes + chunk.length }

/-- One receive: `WSARecv` puts `chunk` into its range and `OnRecv` handles the completion. -/
def receive (io : ST_IOData) (chunk : List UInt8) : Option (ST_IOData × List (Call H)) :=
  OnRecv packetSize table { io with Data := write io.Data io.CurBytes chunk } chunk.length

theorem received_filled (io : ST_IOData) (chunk : List UInt8) :
    (filled io chunk).received = io.received ++ chunk := by
  have h := ByteMemory.read_write_append io.Data 0 io.CurBytes chunk
  rwa [Nat.zero_add] at h

@[simp] theorem length_received (io : ST_IOData) : io.received.length = io.CurBytes :=
  ByteMemory.length_read _ _ _

/-- `receive` in terms of the state its loop starts in. -/
theorem receive_eq (io : ST_IOData) (chunk : List UInt8) :
    receive packetSize table io chunk
      = if chunk.length = 0 then none
        else if (loop packetSize table ((filled io chunk).CurBytes + 1) (filled io chunk)).outcome
            = .exit then
          some ((ReadyToRecieve (settle (loop packetSize table ((filled io chunk).CurBytes + 1)
              (filled io chunk)).io)).1,
            (loop packetSize table ((filled io chunk).CurBytes + 1) (filled io chunk)).calls)
        else none := rfl

/-- **`OnRecv` returns exactly when its loop ends**, after however many turns. -/
theorem receive_eq_some {io io' : ST_IOData} {chunk : List UInt8} {calls : List (Call H)} :
    receive packetSize table io chunk = some (io', calls)
      ↔ chunk ≠ [] ∧ ∃ n, (loop packetSize table n (filled io chunk)).outcome = .exit
        ∧ io' = (ReadyToRecieve (settle (loop packetSize table n (filled io chunk)).io)).1
        ∧ calls = (loop packetSize table n (filled io chunk)).calls := by
  have hempty : chunk.length = 0 ↔ chunk = [] := List.length_eq_zero_iff
  rw [receive_eq]
  by_cases hchunk : chunk = []
  · rw [if_pos (hempty.mpr hchunk)]
    exact ⟨fun h => absurd h (by simp), fun h => absurd hchunk h.1⟩
  · rw [if_neg (fun h => hchunk (hempty.mp h))]
    refine ⟨fun h => ?_, fun h => ?_⟩
    · by_cases hexit : (loop packetSize table ((filled io chunk).CurBytes + 1)
          (filled io chunk)).outcome = .exit
      · rw [if_pos hexit] at h
        simp only [Option.some.injEq, Prod.mk.injEq] at h
        exact ⟨hchunk, _, hexit, h.1.symm, h.2.symm⟩
      · rw [if_neg hexit] at h
        exact absurd h (by simp)
    · obtain ⟨-, n, hexit, rfl, rfl⟩ := h
      -- `OnRecv` gives the loop one turn more than there are bytes, which is enough if any is
      have henough : loop packetSize table ((filled io chunk).CurBytes + 1) (filled io chunk)
          = loop packetSize table n (filled io chunk) :=
        loop_enough packetSize table (by rw [hexit]; simp) (by omega)
      rw [← henough] at hexit ⊢
      exact if_pos hexit

/-- What stays in the buffer behind the loop. -/
theorem settle_spec {io : ST_IOData} (hptr : io.DataPointer ≤ io.CurBytes) :
    (settle io).DataPointer = 0
      ∧ (settle io).received
        = if io.CurBytes = BUF_SIZE then io.received.drop io.DataPointer else [] := by
  unfold settle
  by_cases hfull : io.CurBytes = BUF_SIZE
  · rw [if_pos hfull, if_pos hfull]
    refine ⟨rfl, ?_⟩
    -- the bytes behind the pointer are read before they are written to the front
    have hlen := ByteMemory.length_read io.Data io.DataPointer (BUF_SIZE - io.DataPointer)
    have hself := ByteMemory.read_write_self io.Data 0
      (read io.Data io.DataPointer (BUF_SIZE - io.DataPointer))
    rw [hlen] at hself
    unfold received
    rw [ByteMemory.drop_read io.Data 0 hptr, Nat.zero_add, hfull]
    exact hself
  · rw [if_neg hfull, if_neg hfull]
    exact ⟨rfl, rfl⟩

/-- The state between two receives: the pointer at the front, the bytes inside the array. -/
def Idle (io : ST_IOData) : Prop := io.DataPointer = 0 ∧ io.CurBytes ≤ BUF_SIZE

theorem OnAccept_idle (behind : Mem) : Idle (OnAccept behind) := ⟨rfl, Nat.zero_le _⟩

/-- **One receive**, from the loop's end: a full buffer keeps the bytes behind the last frame, any
other one keeps nothing, and the calls have consumed no more than there was. -/
theorem receive_spec {io io' : ST_IOData} (hidle : Idle io) {chunk : List UInt8}
    {calls : List (Call H)}
    (h : receive packetSize table io chunk = some (io', calls)) :
    Idle io' ∧ consumed calls ≤ io.CurBytes + chunk.length
      ∧ io'.received = (if io.CurBytes + chunk.length = BUF_SIZE
          then (io.received ++ chunk).drop (consumed calls) else [])
      ∧ ∀ c ∈ calls, c.size = (filled io chunk).headerSize c.pos
          ∧ c.packet = read (filled io chunk).Data c.pos (packetSize c.handler) := by
  obtain ⟨hptr, hcur⟩ := hidle
  obtain ⟨-, n, -, rfl, rfl⟩ := (receive_eq_some packetSize table).mp h
  have hspec := loop_spec packetSize table n (filled io chunk)
  generalize loop packetSize table n (filled io chunk) = e at hspec ⊢
  have hpointer : e.io.DataPointer = consumed e.calls := by
    rw [hspec.pointer]
    show io.DataPointer + _ = _
    omega
  have hinside : e.io.DataPointer ≤ io.CurBytes + chunk.length :=
    hspec.inside (by show io.DataPointer ≤ _; omega)
  have hcur' : e.io.CurBytes = io.CurBytes + chunk.length := hspec.curBytes
  have hrec : e.io.received = io.received ++ chunk := by
    rw [← received_filled]
    unfold received
    rw [hspec.data, hspec.curBytes]
  have hin : e.io.DataPointer ≤ e.io.CurBytes := by omega
  obtain ⟨hptr', hkept⟩ := settle_spec hin
  rw [hcur', hrec, hpointer] at hkept
  refine ⟨⟨hptr', ?_⟩, by omega, hkept, hspec.sizes⟩
  have hlen : (settle e.io).CurBytes = (settle e.io).received.length := (length_received _).symm
  show (settle e.io).CurBytes ≤ _
  rw [hlen, hkept]
  split
  · rw [List.length_drop, List.length_append, length_received]
    omega
  · exact Nat.zero_le _

end ST_IOData

/-! ## §4. The receives of one session. -/

/-- The read side of a session: its buffer, and the history of what came in and was dispatched. -/
structure Receiving (H : Type*) where
  io : ST_IOData
  received : List UInt8 := []
  calls : List (Call H) := []

namespace Receiving

variable {H : Type*} (packetSize : H → Nat) (table : HandlerTable H)

/-- A freshly accepted session. -/
def start (behind : Mem) : Receiving H where
  io := ST_IOData.OnAccept behind

/-- One receive. -/
def step (s : Receiving H) (chunk : List UInt8) : Option (Receiving H) :=
  (s.io.receive packetSize table chunk).map (fun r => ⟨r.1, s.received ++ chunk, s.calls ++ r.2⟩)

/-- The chunk fits the range handed to `WSARecv`, and is not empty. -/
def Fits (s : Receiving H) (chunk : List UInt8) : Prop :=
  1 ≤ chunk.length ∧ chunk.length ≤ BUF_SIZE - s.io.CurBytes

instance (s : Receiving H) (chunk : List UInt8) : Decidable (Fits s chunk) :=
  inferInstanceAs (Decidable (_ ∧ _))

theorem step_eq_some {s s' : Receiving H} {chunk : List UInt8} :
    step packetSize table s chunk = some s'
      ↔ ∃ io calls, s.io.receive packetSize table chunk = some (io, calls)
        ∧ s' = ⟨io, s.received ++ chunk, s.calls ++ calls⟩ := by
  unfold step
  rw [Option.map_eq_some_iff]
  refine ⟨fun h => ?_, fun h => ?_⟩
  · obtain ⟨⟨io, calls⟩, hrec, hs'⟩ := h
    exact ⟨io, calls, hrec, hs'.symm⟩
  · obtain ⟨io, calls, hrec, hs'⟩ := h
    exact ⟨(io, calls), hrec, hs'.symm⟩

/-- A receive adds its bytes to what was received. -/
theorem step_received {s s' : Receiving H} {chunk : List UInt8}
    (h : step packetSize table s chunk = some s') : s'.received = s.received ++ chunk := by
  obtain ⟨io, calls, -, rfl⟩ := (step_eq_some packetSize table).mp h
  rfl

/-- Between two receives the pointer is at the front. -/
theorem step_idle {s s' : Receiving H} {chunk : List UInt8} (hidle : s.io.Idle)
    (h : step packetSize table s chunk = some s') : s'.io.Idle := by
  obtain ⟨io, calls, hrec, rfl⟩ := (step_eq_some packetSize table).mp h
  exact (ST_IOData.receive_spec packetSize table hidle hrec).1

/-- The bytes a session has dispatched or still keeps. -/
def accounted (s : Receiving H) : Nat := ST_IOData.consumed s.calls + s.io.CurBytes

/-- **No byte is dispatched twice**: a receive accounts for at most the bytes it brought. -/
theorem step_accounted {s s' : Receiving H} {chunk : List UInt8} (hidle : s.io.Idle)
    (h : step packetSize table s chunk = some s') :
    accounted s' ≤ accounted s + chunk.length := by
  obtain ⟨io, calls, hrec, rfl⟩ := (step_eq_some packetSize table).mp h
  obtain ⟨-, hle, hkept, -⟩ := ST_IOData.receive_spec packetSize table hidle hrec
  have hlen := congrArg List.length hkept
  rw [ST_IOData.length_received] at hlen
  unfold accounted
  rw [ST_IOData.consumed_append]
  split at hlen
  · rw [List.length_drop, List.length_append, ST_IOData.length_received] at hlen
    show _ + io.CurBytes ≤ _
    omega
  · rw [List.length_nil] at hlen
    show _ + io.CurBytes ≤ _
    omega

end Receiving

end YServerCore
