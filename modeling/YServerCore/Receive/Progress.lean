/-
  YServerCore.Receive.Progress — whether the receive loop ends, and whether there is room behind it.

  A turn of the loop moves the pointer by the size its header claims, and nothing else moves it: a
  dispatched frame that claims 0 is dispatched again, for ever.  Behind the loop a buffer that is
  not full is emptied, but a full one keeps everything from the pointer on; when its first frame
  was not dispatched that is the whole buffer, and the next receive is offered no room.

  Main results:
    * `ends_dispatch` — a loop ends exactly when it ends behind its first turn.
    * `loop_ends_iff` — a loop ends exactly when no frame it dispatches claims 0.
    * `window_pos_iff` — a receive leaves room exactly when, if it fills the buffer, the first frame
      in it is dispatched.
    * `room_offered_iff` — the same for every sequence of receives.
-/
import YServerCore.Receive.Representation

namespace YServerCore

open ByteMemory (Mem)
open RequestHandler (packetSize)
open PacketProcess (Handler)

namespace ST_IOData

variable {H : Type*} (packetSize : H → Nat) (table : HandlerTable H)

/-! ## §1. Loops that end. -/

/-- The loop is left after some turn.  A type outside the table is taken to have no handler. -/
def Ends (io : ST_IOData) : Prop := ∃ n, (loop packetSize table n io).outcome ≠ .running

/-- The loop is left, and it starts no more than some number of tasks. -/
def LoopEnds (io : ST_IOData) : Prop :=
  Ends packetSize table io ∧ ∃ bound, ∀ n, (loop packetSize table n io).calls.length ≤ bound

/-- No whole claim with a handler that the claimed sizes lead to claims 0. -/
def Advances (bs : List UInt8) : Prop :=
  ∀ p func, FrameStart table bs p → WholeClaim bs p →
    table[claimedType bs p]? = some (some func) → claimedSize bs p ≠ 0

/-- A dispatching turn does not decide whether the loop ends. -/
theorem ends_dispatch {io io' : ST_IOData} {c : Call H}
    (h : pass packetSize table io = .dispatch c io') :
    Ends packetSize table io ↔ Ends packetSize table io' := by
  constructor
  · intro hends
    obtain ⟨n, hn⟩ := hends
    cases n with
    | zero => exact absurd rfl hn
    | succ n =>
        rw [loop_dispatch packetSize table h] at hn
        exact ⟨n, hn⟩
  · intro hends
    obtain ⟨n, hn⟩ := hends
    refine ⟨n + 1, ?_⟩
    rw [loop_dispatch packetSize table h]
    exact hn

/-- A loop that ends also ends from the head of each of its turns. -/
theorem LoopHead.ends {io₀ io : ST_IOData} (h : LoopHead packetSize table io₀ io)
    (hends : Ends packetSize table io₀) : Ends packetSize table io := by
  induction h with
  | start => exact hends
  | turn _ hpass ih => exact (ends_dispatch packetSize table hpass).mp ih

/-- A loop whose every turn moves the pointer ends: fewer bytes are left after each turn. -/
theorem ends_of_moving {io : ST_IOData}
    (h : ∀ head c, LoopHead packetSize table io head →
      pass packetSize table head ≠ .dispatch c head) : Ends packetSize table io := by
  generalize hleft : io.CurBytes - io.DataPointer = left
  induction left using Nat.strongRecOn generalizing io with
  | ind left ih =>
      cases hpass : pass packetSize table io with
      | exit =>
          refine ⟨1, ?_⟩
          rw [loop_exit packetSize table hpass]
          simp
      | outOfTable =>
          refine ⟨1, ?_⟩
          rw [loop, hpass]
          simp
      | dispatch c io' =>
          rw [ends_dispatch packetSize table hpass]
          obtain ⟨⟨hguard, -, -⟩, hio', -⟩ := (pass_eq_dispatch packetSize table).mp hpass
          -- the turn was over a size other than 0, or it would have left the state as it was
          have hsize : io.headerSize io.DataPointer ≠ 0 := by
            intro hzero
            rw [hio', advance_of_zero hzero] at hpass
            exact h io c LoopHead.start hpass
          have hless : io'.CurBytes - io'.DataPointer < left := by
            rw [hio', ← hleft]
            show io.CurBytes - (io.DataPointer + io.headerSize io.DataPointer) < _
            omega
          exact ih _ hless (fun head d hhead => h head d (hhead.behind packetSize table hpass)) rfl

/-- The loop dispatches at a distance from the pointer exactly when a whole claim with a handler is
there. -/
theorem dispatches_iff (io : ST_IOData) (p : Nat) :
    (∃ c io', pass packetSize table (io.atPointer (io.DataPointer + p)) = .dispatch c io')
      ↔ WholeClaim io.unread p ∧ ∃ func, table[claimedType io.unread p]? = some (some func) := by
  simp only [pass_eq_dispatch]
  constructor
  · intro h
    obtain ⟨c, io', hready, -, func, -, hfunc⟩ := h
    have hwhole := (frameReady_unread_iff io p).mp hready
    refine ⟨hwhole, func, ?_⟩
    rw [← (header_eq_claimed_unread io hwhole.1).1]
    exact hfunc
  · intro h
    obtain ⟨hwhole, func, hfunc⟩ := h
    refine ⟨_, _, (frameReady_unread_iff io p).mpr hwhole, rfl, func, rfl, ?_⟩
    show table[io.headerIOType (io.DataPointer + p)]? = _
    rw [(header_eq_claimed_unread io hwhole.1).1]
    exact hfunc

/-- A head whose frame claims 0 is its own next head. -/
theorem stuck_iff (io : ST_IOData) (p : Nat) :
    (∃ c, pass packetSize table (io.atPointer (io.DataPointer + p))
        = .dispatch c (io.atPointer (io.DataPointer + p)))
      ↔ (WholeClaim io.unread p ∧ ∃ func, table[claimedType io.unread p]? = some (some func))
        ∧ claimedSize io.unread p = 0 := by
  rw [← dispatches_iff packetSize table]
  have hnext : ∀ {c io'}, pass packetSize table (io.atPointer (io.DataPointer + p))
      = .dispatch c io' →
      (io' = io.atPointer (io.DataPointer + p) ↔ claimedSize io.unread p = 0) := by
    intro c io' hpass
    obtain ⟨hready, hio', -⟩ := (pass_eq_dispatch packetSize table).mp hpass
    have hwhole := (frameReady_unread_iff io p).mp hready
    have hmove : io' = io.atPointer (io.DataPointer + p + claimedSize io.unread p) := by
      rw [hio', ← (header_eq_claimed_unread io hwhole.1).2]
      rfl
    rw [hmove]
    constructor
    · intro hsame
      have hptr : io.DataPointer + p + claimedSize io.unread p = io.DataPointer + p :=
        congrArg ST_IOData.DataPointer hsame
      omega
    · intro hzero
      rw [hzero, Nat.add_zero]
  constructor
  · intro h
    obtain ⟨c, hpass⟩ := h
    exact ⟨⟨c, _, hpass⟩, (hnext hpass).mp rfl⟩
  · intro h
    obtain ⟨⟨c, io', hpass⟩, hzero⟩ := h
    exact ⟨c, (hnext hpass).mpr hzero ▸ hpass⟩

/-- **A loop ends exactly when its claims advance.** -/
theorem ends_iff (io : ST_IOData) : Ends packetSize table io ↔ Advances table io.unread := by
  constructor
  · intro hends p func hp hwhole hfunc hzero
    obtain ⟨c, hstuck⟩ := (stuck_iff packetSize table io p).mpr ⟨⟨hwhole, func, hfunc⟩, hzero⟩
    have hhead := (loopHead_unread_iff packetSize table io _).mpr ⟨p, hp, rfl⟩
    obtain ⟨n, hn⟩ := hhead.ends packetSize table hends
    exact hn (loop_stuck packetSize table hstuck n)
  · intro hadv
    apply ends_of_moving
    intro head c hhead hstuck
    obtain ⟨p, hp, rfl⟩ := (loopHead_unread_iff packetSize table io head).mp hhead
    obtain ⟨⟨hwhole, func, hfunc⟩, hzero⟩ := (stuck_iff packetSize table io p).mp ⟨c, hstuck⟩
    exact hadv p func hp hwhole hfunc hzero

/-- A turn makes at most one call. -/
theorem length_calls_le (n : Nat) (io : ST_IOData) :
    (loop packetSize table n io).calls.length ≤ n := by
  induction n generalizing io with
  | zero => exact Nat.le_refl 0
  | succ n ih =>
      cases hpass : pass packetSize table io with
      | exit =>
          rw [loop_exit packetSize table hpass]
          exact Nat.zero_le _
      | outOfTable =>
          rw [loop, hpass]
          exact Nat.zero_le _
      | dispatch c io' =>
          rw [loop_dispatch packetSize table hpass]
          exact Nat.succ_le_succ (ih io')

/-- A loop that ends makes no more calls than there are bytes left, and one. -/
theorem Ends.calls_bounded {io : ST_IOData} (h : Ends packetSize table io) (n : Nat) :
    (loop packetSize table n io).calls.length ≤ io.CurBytes - io.DataPointer + 1 := by
  obtain ⟨m, hm⟩ := h
  by_cases hn : n ≤ io.CurBytes - io.DataPointer + 1
  · exact Nat.le_trans (length_calls_le packetSize table n io) hn
  · -- more turns than that change nothing any more
    have hmore := loop_enough packetSize table hm (k := n) (by omega)
    have hlast := loop_enough packetSize table hm (Nat.le_refl _)
    rw [hmore, ← hlast]
    exact length_calls_le packetSize table _ io

end ST_IOData

/-- **The dispatch loop ends exactly when its frames claim some size.**  For every buffer and wherever
its pointer stands: the loop is left after finitely many turns and starts finitely many tasks, if
and only if no frame that has a handler and that the claimed sizes lead to claims the size 0. -/
theorem loop_ends_iff (io : ST_IOData) :
    io.LoopEnds packetSize Handler ↔ ST_IOData.Advances Handler io.unread := by
  rw [← ST_IOData.ends_iff packetSize Handler io]
  constructor
  · intro h
    exact h.1
  · intro h
    exact ⟨h, _, fun n => h.calls_bounded packetSize Handler n⟩

/-- A `C_Chat` header that claims 0 bytes. -/
def zeroClaim : List UInt8 := [5, 0, 0, 0, 0, 0, 0, 0] ++ List.replicate 36 0

/-- **A loop without end**: 44 bytes in a fresh buffer, a chat header that claims none of them. -/
theorem zero_claim_never_ends :
    ((ST_IOData.OnAccept (fun _ => 0)).filled zeroClaim).DataPointer
        ≤ ((ST_IOData.OnAccept (fun _ => 0)).filled zeroClaim).CurBytes
      ∧ ((ST_IOData.OnAccept (fun _ => 0)).filled zeroClaim).CurBytes ≤ BUF_SIZE
      ∧ ¬ ((ST_IOData.OnAccept (fun _ => 0)).filled zeroClaim).LoopEnds packetSize Handler := by
  refine ⟨by decide, by decide, fun h => ?_⟩
  have hadv := (ST_IOData.ends_iff packetSize Handler _).mp h.1
  exact hadv 0 .RecvChatMessage ST_IOData.FrameStart.first ⟨by decide, by decide⟩ (by decide)
    (by decide)

/-! ## §2. Room for the next receive. -/

namespace ST_IOData

variable {H : Type*} (packetSize : H → Nat) (table : HandlerTable H)

/-- The first frame of the bytes is dispatched: it is whole and has a handler. -/
def HeadDispatched (bs : List UInt8) : Prop :=
  WholeClaim bs 0 ∧ ∃ func, table[claimedType bs 0]? = some (some func)

/-- **The pointer leaves the front** exactly when the first frame is dispatched, in a loop that is
left. -/
theorem pointer_pos_iff {io : ST_IOData} (hptr : io.DataPointer = 0) {n : Nat}
    (hleft : (loop packetSize table n io).outcome ≠ .running) :
    0 < (loop packetSize table n io).io.DataPointer ↔ HeadDispatched table io.received := by
  have hhead := dispatches_iff packetSize table io 0
  rw [unread_of_front hptr] at hhead
  have hstart : io.atPointer (io.DataPointer + 0) = io := rfl
  rw [hstart] at hhead
  unfold HeadDispatched
  rw [← hhead]
  cases n with
  | zero => exact absurd rfl hleft
  | succ n =>
      cases hpass : pass packetSize table io with
      | exit =>
          rw [loop_exit packetSize table hpass]
          simp [hptr]
      | outOfTable =>
          rw [loop, hpass]
          simp [hptr]
      | dispatch c io' =>
          have hspec := loop_spec packetSize table (n + 1) io
          refine ⟨fun _ => ⟨c, io', rfl⟩, fun _ => ?_⟩
          -- the first call is over a size other than 0, or the loop would not be left
          have hsize : c.size ≠ 0 := by
            intro hzero
            obtain ⟨-, hio', func, hc, -⟩ := (pass_eq_dispatch packetSize table).mp hpass
            rw [hc] at hzero
            rw [hio', advance_of_zero hzero] at hpass
            exact hleft (loop_stuck packetSize table hpass (n + 1))
          rw [hspec.pointer, loop_dispatch packetSize table hpass, consumed]
          omega

end ST_IOData

namespace Windowed

/-- The next receive is offered some room. -/
def Offered (s : Windowed) : Prop := 0 < s.window.2

/-- If the receive fills the buffer, the first frame in the buffer is dispatched: its type has a
handler, and it claims no more than the buffer holds. -/
def RoomMade (s : Windowed) (chunk : List UInt8) : Prop :=
  s.io.CurBytes + chunk.length = BUF_SIZE →
    (∃ func, Handler[ST_IOData.claimedType (s.io.received ++ chunk) 0]? = some (some func))
      ∧ ST_IOData.claimedSize (s.io.received ++ chunk) 0 ≤ BUF_SIZE

/-- What a return keeps free of a buffer. -/
theorem window_settle (io : ST_IOData) (h : io.DataPointer ≤ io.CurBytes) :
    0 < (ST_IOData.ReadyToRecieve (ST_IOData.settle io)).2.2
      ↔ (io.CurBytes = BUF_SIZE → 0 < io.DataPointer) := by
  show 0 < BUF_SIZE - (ST_IOData.settle io).CurBytes ↔ _
  have hpos : 0 < BUF_SIZE := by decide
  unfold ST_IOData.settle
  by_cases hfull : io.CurBytes = BUF_SIZE
  · rw [if_pos hfull]
    show 0 < BUF_SIZE - (BUF_SIZE - io.DataPointer) ↔ _
    omega
  · rw [if_neg hfull]
    show 0 < BUF_SIZE - 0 ↔ _
    omega

/-- **One receive** leaves room for the next one exactly when, if it fills the buffer, the first
frame is dispatched. -/
theorem window_pos_iff {s s' : Windowed} {chunk : List UInt8} (hs : AtReturn s)
    (hstep : step s chunk = some s') : Offered s' ↔ RoomMade s chunk := by
  have hptr : (s.loopStart chunk).DataPointer = 0 := hs.pointer
  have hrec := received_loopStart hs chunk
  unfold step at hstep
  obtain ⟨r, hr, rfl⟩ := Option.map_eq_some_iff.mp hstep
  obtain ⟨-, n, hleft, rfl⟩ := (ST_IOData.OnRecvAnyType_eq_some packetSize Handler).mp hr
  have hspec := ST_IOData.loop_spec packetSize Handler n (s.loopStart chunk)
  have hmoved := ST_IOData.pointer_pos_iff packetSize Handler hptr hleft
  rw [hrec] at hmoved
  have hinside := hspec.inside (by rw [hptr]; exact Nat.zero_le _)
  have hcur : (s.loopStart chunk).CurBytes = s.io.CurBytes + chunk.length := rfl
  have hwindow := window_settle _ (hspec.curBytes ▸ hinside)
  rw [hspec.curBytes, hcur, hmoved] at hwindow
  refine hwindow.trans (forall_congr' fun hfull => ?_)
  -- a full buffer has a whole header at its front, and all the bytes the header may claim
  have hlen : (s.io.received ++ chunk).length = BUF_SIZE := by
    rw [List.length_append, ST_IOData.length_received, hfull]
  unfold ST_IOData.HeadDispatched ST_IOData.WholeClaim
  rw [hlen, Nat.zero_add, Nat.zero_add]
  have hheader : ST_IOHeader.sizeof ≤ BUF_SIZE := by decide
  tauto

/-- **There is room for the next receive exactly while the head of a full buffer is dispatched.**  For
every sequence of receives of arbitrary bytes whose loops end: the window offered behind every
`OnRecv` is not empty, if and only if whenever a receive fills the buffer, the first frame in it
has a handler and claims no more than the buffer holds. -/
theorem room_offered_iff (behind : Mem) (chunks : List (List UInt8)) (s : Windowed)
    (hrun : StepMachine.run step (start behind) chunks = some s) :
    StepMachine.Safe step Offered (start behind) chunks
      ↔ StepMachine.Along step RoomMade (start behind) chunks := by
  apply StepMachine.safe_iff_along_of_run (I := AtReturn) ?_ ?_ (atReturn_start behind) ?_ hrun
  · intro s chunk s' _ _ hstep _
    exact atReturn_step hstep
  · intro s chunk s' hs _ hstep
    exact window_pos_iff hs hstep
  · show 0 < BUF_SIZE - 0
    decide

/-- A receive that fills the buffer, zero behind the type and the size of its first header. -/
def fullOf (head : List UInt8) : List UInt8 := head ++ List.replicate 4088 0

/-- The frame at the head of a full buffer is dispatched, and its 80 bytes are room for the next
receive. -/
theorem room_offered_move :
    StepMachine.Safe step Offered (start (fun _ => 0)) [fullOf [7, 0, 0, 0, 80, 0, 0, 0]] := by
  have hsome : (StepMachine.run step (start (fun _ => 0))
      [fullOf [7, 0, 0, 0, 80, 0, 0, 0]]).isSome := by
    decide +kernel
  obtain ⟨s, hs⟩ := Option.isSome_iff_exists.mp hsome
  refine (room_offered_iff (fun _ => 0) _ s hs).mpr ⟨fun _ => ?_, fun _ _ => trivial⟩
  exact ⟨⟨.RecvMoveRequest, by decide +kernel⟩, by decide +kernel⟩

/-- A fresh session is offered the receive, and behind it no room: nothing fits any more. -/
def Wedges (chunk : List UInt8) : Prop :=
  StepMachine.Along step Fits (start (fun _ => 0)) [chunk]
    ∧ ∃ s, StepMachine.run step (start (fun _ => 0)) [chunk] = some s
      ∧ ¬ Offered s ∧ ∀ next, ¬ Fits s next

/-- An empty window is no room, and nothing fits it any more. -/
theorem wedges_of_window {chunk : List UInt8}
    (hfits : StepMachine.Along step Fits (start (fun _ => 0)) [chunk])
    (hwindow : (StepMachine.run step (start (fun _ => 0)) [chunk]).map Windowed.window
      = some (4096, 0)) : Wedges chunk := by
  obtain ⟨s, hs, hempty⟩ := Option.map_eq_some_iff.mp hwindow
  refine ⟨hfits, s, hs, ?_, ?_⟩
  · unfold Offered
    rw [hempty]
    decide
  · intro next hnext
    unfold Fits at hnext
    rw [hempty] at hnext
    omega

/-- **No room is left** behind a receive that fills the buffer with a frame of a type without a
handler at its head, or with one that claims more than the buffer holds. -/
theorem no_room_left :
    Wedges (fullOf [2, 0, 0, 0, 44, 0, 0, 0]) ∧ Wedges (fullOf [7, 0, 0, 0, 1, 16, 0, 0]) := by
  constructor
  · exact wedges_of_window (by decide +kernel) (by decide +kernel)
  · exact wedges_of_window (by decide +kernel) (by decide +kernel)

end Windowed

end YServerCore
