/-
  YServerCore.Receive.FrontRun — the frames at the front of the received bytes.

  What the loop should dispatch can be said without a loop: if a whole header remains, the size it
  claims is at most what remains, and its type has a handler, then there is a frame, and the same
  is asked behind it.  The claimed size alone says where "behind it" is; it may be less than a
  header, and the bytes of one frame are then the header of the next.

  Main results:
    * `loop_run` — a loop that is left has dispatched the run at its pointer.
    * `front_run_dispatched` — one receive dispatches exactly the run at the front.
-/
import YServerCore.Lib.Segments
import YServerCore.Receive.Progress

namespace YServerCore

open ByteMemory (Mem read word32)
open RequestHandler (packetSize)
open PacketProcess (Handler)
open Segments (Segment Run Contiguous total)

/-! ## §1. The frame at the front. -/

/-- Type and claimed size of the frame that remaining bytes start with. -/
def frontFrame {H : Type*} (table : HandlerTable H) (remaining : List UInt8) : Option (Nat × Nat) :=
  if ST_IOHeader.sizeof ≤ remaining.length then
    if ST_IOData.claimedSize remaining 0 ≤ remaining.length then
      match table[ST_IOData.claimedType remaining 0]? with
      | some (some _) =>
          some (ST_IOData.claimedType remaining 0, ST_IOData.claimedSize remaining 0)
      | _ => none
    else none
  else none

/-- The frames at the front of bytes that stand at a position, one behind the other. -/
abbrev FrontRun {H : Type*} (table : HandlerTable H) (pos : Nat) (remaining : List UInt8)
    (frames : List (Segment Nat)) : Prop :=
  Run (frontFrame table) pos remaining frames

section

variable {H : Type*} {table : HandlerTable H}

/-- There is a frame exactly at a whole claim of a type with a handler. -/
theorem frontFrame_eq_some {remaining : List UInt8} {type size : Nat} :
    frontFrame table remaining = some (type, size)
      ↔ ST_IOData.WholeClaim remaining 0 ∧ type = ST_IOData.claimedType remaining 0
        ∧ size = ST_IOData.claimedSize remaining 0
        ∧ ∃ func, table[ST_IOData.claimedType remaining 0]? = some (some func) := by
  unfold frontFrame ST_IOData.WholeClaim
  rw [Nat.zero_add, Nat.zero_add]
  by_cases hhead : ST_IOHeader.sizeof ≤ remaining.length
  · by_cases hbody : ST_IOData.claimedSize remaining 0 ≤ remaining.length
    · rw [if_pos hhead, if_pos hbody]
      cases hslot : table[ST_IOData.claimedType remaining 0]? with
      | none => simp
      | some slot =>
          cases slot with
          | none => simp
          | some func =>
              refine ⟨fun h => ?_, fun h => ?_⟩
              · rw [Option.some.injEq, Prod.mk.injEq] at h
                exact ⟨⟨hhead, hbody⟩, h.1.symm, h.2.symm, func, rfl⟩
              · obtain ⟨-, rfl, rfl, -⟩ := h
                rfl
    · rw [if_pos hhead, if_neg hbody]
      exact ⟨fun h => absurd h (by simp), fun h => absurd h.1.2 hbody⟩
  · rw [if_neg hhead]
    exact ⟨fun h => absurd h (by simp), fun h => absurd h.1.1 hhead⟩

/-- Bytes that start with no frame start with none when some are cut off behind. -/
theorem frontFrame_take {remaining : List UInt8} (h : frontFrame table remaining = none) (k : Nat) :
    frontFrame table (remaining.take k) = none := by
  rw [Option.eq_none_iff_forall_ne_some] at h ⊢
  intro front hfront
  obtain ⟨hwhole, -, -, hfunc⟩ := frontFrame_eq_some.mp hfront
  have hlen := remaining.length_take (i := k)
  have hhead := hwhole.1
  -- the header that is left is the header that was there
  have hclaim : ST_IOData.claimedType (remaining.take k) 0 = ST_IOData.claimedType remaining 0
      ∧ ST_IOData.claimedSize (remaining.take k) 0 = ST_IOData.claimedSize remaining 0 :=
    ST_IOData.claimed_of_take (by rw [List.take_take, Nat.min_eq_left (by omega)])
  have hbody := hwhole.2
  rw [hclaim.1] at hfunc
  rw [hclaim.2] at hbody
  refine h _ (frontFrame_eq_some.mpr ⟨⟨by omega, by omega⟩, rfl, rfl, hfunc⟩)

/-- A frame at the front ends inside the bytes. -/
theorem frontFrame_le (remaining : List UInt8) (type size : Nat)
    (h : frontFrame table remaining = some (type, size)) : size ≤ remaining.length := by
  obtain ⟨hwhole, -, rfl, -⟩ := frontFrame_eq_some.mp h
  have hbody := hwhole.2
  rwa [Nat.zero_add] at hbody

end

/-! ## §2. The loop and the run. -/

namespace ST_IOData

section

variable {H : Type*} (packetSize : H → Nat) (table : HandlerTable H) (typeOf : H → Nat)

/-- The frame a call was made for. -/
def frameOf (c : Call H) : Segment Nat := ⟨typeOf c.handler, c.pos, c.size⟩

/-- Behind the frame at the pointer the unread bytes are what remains. -/
theorem unread_advance (io : ST_IOData)
    (h : io.headerSize io.DataPointer ≤ io.CurBytes - io.DataPointer) :
    (advance io).unread = io.unread.drop (io.headerSize io.DataPointer) := by
  unfold unread
  rw [ByteMemory.drop_read _ _ h, Nat.sub_sub]
  rfl

/-- Whether a turn finds a frame, in terms of the unread bytes. -/
theorem frontFrame_unread (io : ST_IOData) {type size : Nat} :
    frontFrame table io.unread = some (type, size)
      ↔ FrameReady io ∧ type = io.headerIOType io.DataPointer ∧ size = io.headerSize io.DataPointer
        ∧ ∃ func, table[io.headerIOType io.DataPointer]? = some (some func) := by
  have hready : FrameReady io ↔ WholeClaim io.unread 0 := frameReady_unread_iff io 0
  rw [frontFrame_eq_some, hready]
  apply and_congr_right
  intro hwhole
  -- the loop's header is the claim
  obtain ⟨htype, hsize⟩ := header_eq_claimed_unread io hwhole.1
  rw [Nat.add_zero] at htype hsize
  rw [htype, hsize]

/-- Where a turn dispatches nothing no frame stands. -/
theorem frontFrame_of_not_dispatch {io : ST_IOData}
    (h : ∀ c io', pass packetSize table io ≠ .dispatch c io') :
    frontFrame table io.unread = none := by
  rw [Option.eq_none_iff_forall_ne_some]
  intro front hfront
  -- a frame there would have been dispatched
  obtain ⟨hready, -, -, func, hfunc⟩ := (frontFrame_unread table io).mp hfront
  exact h _ _ ((pass_eq_dispatch packetSize table).mpr ⟨hready, rfl, func, rfl, hfunc⟩)

/-- **A loop that is left has dispatched the run at its pointer**, for a table whose entries are under
the types of their handlers. -/
theorem loop_run (htype : ∀ k func, table[k]? = some (some func) → k = typeOf func) {n : Nat}
    {io : ST_IOData} (hleft : (loop packetSize table n io).outcome ≠ .running) :
    FrontRun table io.DataPointer io.unread
      ((loop packetSize table n io).calls.map (frameOf typeOf)) := by
  induction n generalizing io with
  | zero => exact absurd rfl hleft
  | succ n ih =>
      cases hpass : pass packetSize table io with
      | outOfTable =>
          rw [loop, hpass]
          exact Run.stop (frontFrame_of_not_dispatch packetSize table (by simp [hpass]))
      | exit =>
          rw [loop_exit packetSize table hpass]
          exact Run.stop (frontFrame_of_not_dispatch packetSize table (by simp [hpass]))
      | dispatch c io' =>
          rw [loop_dispatch packetSize table hpass] at hleft ⊢
          obtain ⟨hready, rfl, func, rfl, hfunc⟩ := (pass_eq_dispatch packetSize table).mp hpass
          have hrest := ih hleft
          rw [unread_advance io hready.2.2] at hrest
          have hfront : frontFrame table io.unread
              = some (typeOf func, io.headerSize io.DataPointer) :=
            (frontFrame_unread table io).mpr ⟨hready, (htype _ _ hfunc).symm, rfl, func, hfunc⟩
          exact Run.emit hfront hrest

/-- At the end of a loop that is left no frame stands. -/
theorem frontFrame_loop {n : Nat} {io : ST_IOData}
    (hleft : (loop packetSize table n io).outcome ≠ .running) :
    frontFrame table (loop packetSize table n io).io.unread = none := by
  induction n generalizing io with
  | zero => exact absurd rfl hleft
  | succ n ih =>
      cases hpass : pass packetSize table io with
      | outOfTable =>
          rw [loop, hpass]
          exact frontFrame_of_not_dispatch packetSize table (by simp [hpass])
      | exit =>
          rw [loop_exit packetSize table hpass]
          exact frontFrame_of_not_dispatch packetSize table (by simp [hpass])
      | dispatch c io' =>
          rw [loop_dispatch packetSize table hpass] at hleft ⊢
          exact ih hleft

/-- The sizes of the calls add up to the length of their frames. -/
theorem total_frameOf (calls : List (Call H)) :
    total (calls.map (frameOf typeOf)) = consumed calls := by
  induction calls with
  | nil => rfl
  | cons c calls ih =>
      rw [List.map_cons, total, consumed, ih]
      rfl

end

/-! ## §3. One receive. -/

/-- An entry of the server's table is under the type of its handler. -/
theorem Handler_typed (k : Nat) (func : RequestHandler) (h : Handler[k]? = some (some func)) :
    k = func.ioType.code := by
  have hlt : k < Handler.length := by
    by_contra hge
    rw [List.getElem?_eq_none (Nat.not_lt.mp hge)] at h
    exact absurd h (by simp)
  have hall : ∀ k < Handler.length, Handler[k]? = some (some func) → k = func.ioType.code := by
    cases func <;> decide
  exact hall k hlt h

/-- **One receive dispatches exactly the run at the front.**  For every read state with the pointer at
the front and every chunk on which the loop ends inside the table: the calls are, in order, the
frames of the run of the kept bytes and the new ones, each with its handler's type, its position,
its claimed size, and the packet that stands there; the frames follow each other without gap or
overlap, all of them inside the received bytes, and the pointer at the end of the loop is the sum
of their sizes. -/
theorem front_run_dispatched (io : ST_IOData) (hptr : io.DataPointer = 0) (chunk : List UInt8)
    (io' : ST_IOData) (calls : List (Call RequestHandler))
    (hrecv : receive packetSize Handler io chunk = some (io', calls)) :
    ∃ frames n, calls.map (frameOf (fun func => func.ioType.code)) = frames
      ∧ (∀ frames', FrontRun Handler 0 (io.received ++ chunk) frames' ↔ frames' = frames)
      ∧ (∀ c ∈ calls, c.packet = read (filled io chunk).Data c.pos (packetSize c.handler))
      ∧ Contiguous 0 frames ∧ frames.Pairwise (fun f g => f.pos + f.len ≤ g.pos)
      ∧ (∀ f ∈ frames, f.pos + f.len ≤ (io.received ++ chunk).length)
      ∧ (loop packetSize Handler n (filled io chunk)).outcome = .exit
      ∧ (loop packetSize Handler n (filled io chunk)).calls = calls
      ∧ (loop packetSize Handler n (filled io chunk)).io.DataPointer = total frames := by
  obtain ⟨-, n, hexit, -, hcalls⟩ := (receive_eq_some packetSize Handler).mp hrecv
  have hfront : (filled io chunk).DataPointer = 0 := hptr
  have hleft : (loop packetSize Handler n (filled io chunk)).outcome ≠ .running := by
    rw [hexit]
    simp
  have hrun := loop_run packetSize Handler (fun func => func.ioType.code) Handler_typed hleft
  have hspec := loop_spec packetSize Handler n (filled io chunk)
  rw [hfront, unread_of_front hfront, received_filled, ← hcalls] at hrun
  have hcont := hrun.contiguous
  have hinside := hrun.total_le frontFrame_le
  refine ⟨_, n, rfl, fun frames' => ⟨fun h => h.unique hrun, fun h => h ▸ hrun⟩, fun c hc => ?_,
    hcont, hcont.pairwise, fun f hf => ?_, hexit, hcalls.symm, ?_⟩
  · rw [hcalls] at hc
    exact (hspec.sizes c hc).2
  · have hbound := (hcont.bounds f hf).2
    omega
  · rw [hspec.pointer, hfront, Nat.zero_add, total_frameOf, hcalls]

/-- Two moves in one receive. -/
theorem front_run_two :
    FrontRun Handler 0 ((OnAccept (fun _ => 0)).received
        ++ (Receiving.moveFrame.bytes ++ Receiving.moveFrame.bytes))
      [⟨7, 0, 80⟩, ⟨7, 80, 80⟩] := by
  have hcalls : (receive packetSize Handler (OnAccept (fun _ => 0))
      (Receiving.moveFrame.bytes ++ Receiving.moveFrame.bytes)).map
        (fun r => r.2.map (frameOf (fun func => func.ioType.code)))
      = some [⟨7, 0, 80⟩, ⟨7, 80, 80⟩] := by
    decide +kernel
  obtain ⟨⟨io', calls⟩, hrecv, hframes⟩ := Option.map_eq_some_iff.mp hcalls
  obtain ⟨frames, n, hmap, hrun, -⟩ := front_run_dispatched (OnAccept (fun _ => 0)) rfl _ io' calls hrecv
  rw [← hframes]
  exact (hrun _).mpr hmap

end ST_IOData

end YServerCore
