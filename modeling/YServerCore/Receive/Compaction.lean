/-
  YServerCore.Receive.Compaction — the copy that moves a full buffer to its front.

  Behind its loop `OnRecv` moves the unread bytes of a full buffer to the front with `memcpy`, whose
  contract is that source and destination do not overlap.  They are `Data[DataPointer..BUF_SIZE)`
  and `Data[0..BUF_SIZE-DataPointer)`, so that is the case when at least half of the buffer was
  consumed.  Every receive of a run comes with the order in which its `memcpy` would move the
  bytes.

  Main results:
    * `settleBy_ascending` — `settle` is the copy from the first byte to the last.
    * `settleBy_of_apart` — when the ranges do not overlap every order leaves what `settle` leaves.
    * `copyContract_iff` — one receive copies between separate ranges exactly when the frames at the
      front of the buffer it fills make up half of it.
    * `compaction_apart_iff` — the same for every sequence of receives.
    * `run_stepBy` — such a sequence is a run of `Windowed.step`, whatever the orders.
-/
import YServerCore.Lib.ByteCopy
import YServerCore.Receive.FrontRun

namespace YServerCore

open ByteMemory (Mem CopyOrder DisjointRanges memcpy read write)
open RequestHandler (packetSize)
open PacketProcess (Handler)
open Segments (total)

/-! ## §1. One copy. -/

namespace ST_IOData

/-- The statements behind the loop of `OnRecv`, where `memcpy` moves its bytes in this order. -/
def settleBy (order : CopyOrder) (io : ST_IOData) : ST_IOData :=
  if io.CurBytes = BUF_SIZE then
    { io with
      Data := memcpy order io.Data 0 io.DataPointer (BUF_SIZE - io.DataPointer)
      CurBytes := BUF_SIZE - io.DataPointer
      DataPointer := 0 }
  else { io with CurBytes := 0, DataPointer := 0 }

/-- Source and destination of the copy do not overlap. -/
def RangesApart (io : ST_IOData) : Prop :=
  DisjointRanges 0 io.DataPointer (BUF_SIZE - io.DataPointer)

/-- They do not when half of the buffer was consumed. -/
theorem rangesApart_iff {io : ST_IOData} (h : io.DataPointer ≤ BUF_SIZE) :
    io.RangesApart ↔ BUF_SIZE ≤ 2 * io.DataPointer := by
  have hbuf : BUF_SIZE = 4096 := rfl
  unfold RangesApart DisjointRanges
  omega

/-- `settle` is the ascending order. -/
theorem settleBy_ascending (io : ST_IOData) : io.settleBy .ascending = io.settle := by
  unfold settleBy settle
  rw [ByteMemory.memcpy_ascending io.Data _ (Nat.zero_le _)]

/-- **When the ranges do not overlap the order makes no difference.** -/
theorem settleBy_of_apart {io : ST_IOData} (h : io.RangesApart) (order : CopyOrder) :
    io.settleBy order = io.settle := by
  unfold settleBy settle
  rw [ByteMemory.memcpy_of_disjoint order io.Data h]

theorem settleBy_front (order : CopyOrder) (io : ST_IOData) :
    (io.settleBy order).DataPointer = 0 ∧ (io.settleBy order).CurBytes ≤ BUF_SIZE := by
  unfold settleBy
  by_cases hfull : io.CurBytes = BUF_SIZE
  · rw [if_pos hfull]
    exact ⟨rfl, Nat.sub_le _ _⟩
  · rw [if_neg hfull]
    exact ⟨rfl, Nat.zero_le _⟩

/-- What a full buffer keeps is where its unread bytes were moved. -/
theorem received_settleBy (order : CopyOrder) {io : ST_IOData} (h : io.CurBytes = BUF_SIZE) :
    (io.settleBy order).received
      = read (memcpy order io.Data 0 io.DataPointer (BUF_SIZE - io.DataPointer)) 0
          (BUF_SIZE - io.DataPointer) := by
  unfold received settleBy
  rw [if_pos h]

/-- A buffer that is not full is not copied. -/
theorem settleBy_of_not_full {io : ST_IOData} (h : io.CurBytes ≠ BUF_SIZE) (order : CopyOrder) :
    io.settleBy order = io.settle := by
  unfold settleBy settle
  rw [if_neg h, if_neg h]

end ST_IOData

/-! ## §2. One receive. -/

namespace Windowed

/-- One receive, whose `memcpy` moves its bytes in this order. -/
def stepBy (s : Windowed) (a : List UInt8 × CopyOrder) : Option Windowed :=
  if a.1.length = 0 then none
  else
    let io := s.loopStart a.1
    let e := ST_IOData.loop packetSize Handler (io.CurBytes + 1) io
    if e.outcome = .running then none
    else some ⟨(e.io.settleBy a.2).ReadyToRecieve.1, (e.io.settleBy a.2).ReadyToRecieve.2⟩

/-- The loop of the receive is left in this state, with a full buffer: it is what `memcpy` finds. -/
def Compacts (s : Windowed) (chunk : List UInt8) (io : ST_IOData) : Prop :=
  io.CurBytes = BUF_SIZE
    ∧ ∃ n, (ST_IOData.loop packetSize Handler n (s.loopStart chunk)).outcome ≠ .running
      ∧ io = (ST_IOData.loop packetSize Handler n (s.loopStart chunk)).io

/-- **The copy respects its contract**: when the receive compacts the buffer, source and destination do
not overlap, and whatever the order, the kept bytes are the unread ones. -/
structure CopyContract (s : Windowed) (a : List UInt8 × CopyOrder) : Prop where
  apart : ∀ io, Compacts s a.1 io → io.RangesApart
  kept : ∀ io, Compacts s a.1 io → ∀ order, (io.settleBy order).received = io.unread

/-- If the receive fills the buffer, the frames at its front make up at least half of it. -/
def HalfConsumed (s : Windowed) (a : List UInt8 × CopyOrder) : Prop :=
  s.io.CurBytes + a.1.length = BUF_SIZE →
    ∃ frames, FrontRun Handler 0 (s.io.received ++ a.1) frames ∧ BUF_SIZE ≤ 2 * total frames

/-- A receive returns exactly when some number of turns leaves its loop. -/
theorem stepBy_eq_some {s s' : Windowed} {a : List UInt8 × CopyOrder} :
    stepBy s a = some s' ↔ a.1.length ≠ 0
      ∧ ∃ n, (ST_IOData.loop packetSize Handler n (s.loopStart a.1)).outcome ≠ .running
        ∧ s' = ⟨((ST_IOData.loop packetSize Handler n (s.loopStart a.1)).io.settleBy a.2).ReadyToRecieve.1,
          ((ST_IOData.loop packetSize Handler n (s.loopStart a.1)).io.settleBy a.2).ReadyToRecieve.2⟩ := by
  simp only [stepBy, Option.ite_none_left_eq_some, Option.some.injEq]
  apply and_congr_right
  intro _
  constructor
  · intro h
    exact ⟨_, h.1, h.2.symm⟩
  · intro h
    obtain ⟨n, hleft, rfl⟩ := h
    have henough := ST_IOData.loop_enough packetSize Handler hleft (Nat.succ_le_succ (Nat.sub_le _ _))
    rw [henough]
    exact ⟨hleft, rfl⟩

/-- A receive leaves the pointer at the front and the window at the free part of the array. -/
theorem atReturn_stepBy {s s' : Windowed} {a : List UInt8 × CopyOrder} (h : stepBy s a = some s') :
    AtReturn s' := by
  obtain ⟨-, n, -, rfl⟩ := stepBy_eq_some.mp h
  have hfront := ST_IOData.settleBy_front a.2
    (ST_IOData.loop packetSize Handler n (s.loopStart a.1)).io
  exact ⟨hfront.1, hfront.2, rfl⟩

/-- **Where the loop is left**: behind the frames at the front of the bytes. -/
theorem loop_left {s : Windowed} (hs : AtReturn s) {chunk : List UInt8} {n : Nat}
    (hleft : (ST_IOData.loop packetSize Handler n (s.loopStart chunk)).outcome ≠ .running) :
    (ST_IOData.loop packetSize Handler n (s.loopStart chunk)).io.CurBytes
        = s.io.CurBytes + chunk.length
      ∧ (ST_IOData.loop packetSize Handler n (s.loopStart chunk)).io.DataPointer
        ≤ s.io.CurBytes + chunk.length
      ∧ ∃ frames, FrontRun Handler 0 (s.io.received ++ chunk) frames
        ∧ (ST_IOData.loop packetSize Handler n (s.loopStart chunk)).io.DataPointer = total frames := by
  have hptr : (s.loopStart chunk).DataPointer = 0 := hs.pointer
  have hcur : (s.loopStart chunk).CurBytes = s.io.CurBytes + chunk.length := rfl
  have hspec := ST_IOData.loop_spec packetSize Handler n (s.loopStart chunk)
  have hrun := ST_IOData.loop_run packetSize Handler (fun func => func.ioType.code)
    ST_IOData.Handler_typed hleft
  rw [hptr, ST_IOData.unread_of_front hptr, received_loopStart hs] at hrun
  refine ⟨hspec.curBytes, ?_, _, hrun, ?_⟩
  · rw [← hcur]
    exact hspec.inside (by rw [hptr]; exact Nat.zero_le _)
  · rw [hspec.pointer, hptr, Nat.zero_add, ST_IOData.total_frameOf]

/-- Bytes kept between separate ranges are the unread ones. -/
theorem kept_of_apart {io : ST_IOData} (hfull : io.CurBytes = BUF_SIZE)
    (hptr : io.DataPointer ≤ io.CurBytes) (hapart : io.RangesApart) (order : CopyOrder) :
    (io.settleBy order).received = io.unread := by
  rw [ST_IOData.settleBy_of_apart hapart, (ST_IOData.settle_spec hptr).2, if_pos hfull]
  unfold ST_IOData.received ST_IOData.unread
  rw [ByteMemory.drop_read _ _ hptr, Nat.zero_add]

/-- **One receive copies between separate ranges exactly when half of the buffer it fills is
consumed.** -/
theorem copyContract_iff {s s' : Windowed} {a : List UInt8 × CopyOrder} (hs : AtReturn s)
    (hstep : stepBy s a = some s') : CopyContract s a ↔ HalfConsumed s a := by
  constructor
  · intro h hfull
    obtain ⟨-, n, hleft, -⟩ := stepBy_eq_some.mp hstep
    obtain ⟨hcur, hin, frames, hrun, htotal⟩ := loop_left hs hleft
    have hapart := h.apart _ ⟨hcur.trans hfull, n, hleft, rfl⟩
    rw [hfull] at hin
    have hhalf := (ST_IOData.rangesApart_iff hin).mp hapart
    rw [htotal] at hhalf
    exact ⟨frames, hrun, hhalf⟩
  · intro h
    have hapart : ∀ io, Compacts s a.1 io → io.DataPointer ≤ io.CurBytes ∧ io.RangesApart := by
      intro io hio
      obtain ⟨hfull, n, hleft, rfl⟩ := hio
      obtain ⟨hcur, hin, frames, hrun, htotal⟩ := loop_left hs hleft
      obtain ⟨frames', hrun', hhalf⟩ := h (hcur.symm.trans hfull)
      -- the bytes have only one run at their front
      rw [hrun'.unique hrun, ← htotal] at hhalf
      rw [← hcur] at hin
      exact ⟨hin, (ST_IOData.rangesApart_iff (hfull ▸ hin)).mpr hhalf⟩
    refine ⟨fun io hio => (hapart io hio).2, fun io hio order => ?_⟩
    exact kept_of_apart hio.1 (hapart io hio).1 (hapart io hio).2 order

/-! ## §3. Whole sequences of receives. -/

/-- **Compaction respects the contract of `memcpy` exactly while half of every full buffer is
consumed.**  For every sequence of receives of arbitrary bytes whose loops end, and every order in
which their copies move the bytes: source and destination never overlap, if and only if whenever
a receive fills the buffer, the frames at its front make up at least half of it. -/
theorem compaction_apart_iff (behind : Mem) (as : List (List UInt8 × CopyOrder)) (s : Windowed)
    (hrun : StepMachine.run stepBy (start behind) as = some s) :
    StepMachine.Along stepBy CopyContract (start behind) as
      ↔ StepMachine.Along stepBy HalfConsumed (start behind) as := by
  refine StepMachine.along_congr (G := fun s a => ∃ s', stepBy s a = some s') (I := AtReturn)
    ?_ ?_ (atReturn_start behind) (StepMachine.along_enabled_of_run hrun)
  · intro s a s' _ _ _ hstep
    exact atReturn_stepBy hstep
  · intro s a hs henabled
    obtain ⟨s', hstep⟩ := henabled
    exact copyContract_iff hs hstep

/-- A move that claims half of the full buffer is consumed, and the other half is moved down. -/
theorem compaction_apart_half :
    StepMachine.Along stepBy CopyContract (start (fun _ => 0))
      [(fullOf [7, 0, 0, 0, 0, 8, 0, 0], .descending)] := by
  have hsome : (StepMachine.run stepBy (start (fun _ => 0))
      [(fullOf [7, 0, 0, 0, 0, 8, 0, 0], .descending)]).isSome := by
    decide +kernel
  obtain ⟨s, hs⟩ := Option.isSome_iff_exists.mp hsome
  refine (compaction_apart_iff (fun _ => 0) _ s hs).mpr ⟨fun _ => ?_, fun _ _ => trivial⟩
  exact ⟨[⟨7, 0, 2048⟩], Segments.Run.emit (by decide +kernel) (Segments.Run.stop (by decide +kernel)),
    by decide⟩

/-- A move of 80 bytes, and behind it a header of a type without a handler that claims nothing. -/
def earlyStop : List UInt8 :=
  [7, 0, 0, 0, 80, 0, 0, 0] ++ List.replicate 72 0 ++ [2] ++ List.replicate 4015 0

/-- **A copy over itself**: 80 bytes of a full buffer are consumed, and the other 4016 are moved down
by 80; from the last byte to the first, they arrive as other bytes than they were. -/
theorem compaction_overlaps :
    ∃ io, Compacts (start (fun _ => 0)) earlyStop io ∧ io.DataPointer = 80 ∧ ¬ io.RangesApart
      ∧ (∃ s, StepMachine.run stepBy (start (fun _ => 0)) [(earlyStop, .descending)] = some s
        ∧ s.io.received ≠ io.unread)
      ∧ ¬ CopyContract (start (fun _ => 0)) (earlyStop, .descending) := by
  have hend : (ST_IOData.loop packetSize Handler 2 ((start (fun _ => 0)).loopStart earlyStop)).outcome
        ≠ .running
      ∧ (ST_IOData.loop packetSize Handler 2 ((start (fun _ => 0)).loopStart earlyStop)).io.CurBytes
        = 4096
      ∧ (ST_IOData.loop packetSize Handler 2 ((start (fun _ => 0)).loopStart earlyStop)).io.DataPointer
        = 80
      ∧ (ST_IOData.loop packetSize Handler 2 ((start (fun _ => 0)).loopStart earlyStop)).io.Data 80 = 2
      ∧ (ST_IOData.loop packetSize Handler 2 ((start (fun _ => 0)).loopStart earlyStop)).io.Data 160
        = 0 := by
    decide +kernel
  obtain ⟨hleft, hcur, hptr, hfirst, hlater⟩ := hend
  have hstep := (stepBy_eq_some (a := (earlyStop, .descending))).mpr
    ⟨by decide +kernel, 2, hleft, rfl⟩
  have hcompacts : Compacts (start (fun _ => 0)) earlyStop _ := ⟨hcur, 2, hleft, rfl⟩
  generalize (ST_IOData.loop packetSize Handler 2 ((start (fun _ => 0)).loopStart earlyStop)).io = io
    at hcur hptr hfirst hlater hstep hcompacts
  have hoverlap : ¬ io.RangesApart := by
    rw [ST_IOData.rangesApart_iff (by rw [hptr]; decide), hptr]
    decide
  refine ⟨io, hcompacts, hptr, hoverlap, ⟨_, StepMachine.run_cons_eq_some.mpr ⟨_, hstep, rfl⟩, ?_⟩,
    fun h => hoverlap (h.apart io hcompacts)⟩
  intro hsame
  have hread : read (memcpy .descending io.Data 0 (0 + 80) 4016) 0 4016 = read io.Data 80 4016 := by
    have hkept := ST_IOData.received_settleBy .descending hcur
    rw [hptr] at hkept
    unfold ST_IOData.unread at hsame
    rw [hcur, hptr] at hsame
    exact hkept.symm.trans hsame
  -- the bytes 0 and 80 of the result ought to be the bytes 80 and 160 of the buffer
  have hzero : memcpy .descending io.Data 0 (0 + 80) 4016 (0 + 0) = io.Data (80 + 0) :=
    ByteMemory.apply_of_read_eq hread (by decide)
  have heighty : memcpy .descending io.Data 0 (0 + 80) 4016 (0 + (0 + 80)) = io.Data (80 + 80) :=
    ByteMemory.apply_of_read_eq hread (by decide)
  have hrepeats : memcpy .descending io.Data 0 (0 + 80) 4016 (0 + 0)
      = memcpy .descending io.Data 0 (0 + 80) 4016 (0 + (0 + 80)) :=
    ByteMemory.memcpy_descending_repeats io.Data (by decide) (by decide)
  rw [hzero, heighty, hfirst, hlater] at hrepeats
  exact absurd hrepeats (by decide)

/-- A receive whose copy respects its contract does what it does in `step`, whatever the order. -/
theorem stepBy_eq_step {s s' : Windowed} {a : List UInt8 × CopyOrder} (h : CopyContract s a)
    (hstep : stepBy s a = some s') : step s a.1 = some s' := by
  obtain ⟨hsome, n, hleft, rfl⟩ := stepBy_eq_some.mp hstep
  have hsettle : (ST_IOData.loop packetSize Handler n (s.loopStart a.1)).io.settleBy a.2
      = (ST_IOData.loop packetSize Handler n (s.loopStart a.1)).io.settle := by
    by_cases hfull : (ST_IOData.loop packetSize Handler n (s.loopStart a.1)).io.CurBytes = BUF_SIZE
    · exact ST_IOData.settleBy_of_apart (h.apart _ ⟨hfull, n, hleft, rfl⟩) a.2
    · exact ST_IOData.settleBy_of_not_full hfull a.2
  unfold step
  rw [Option.map_eq_some_iff]
  refine ⟨_, (ST_IOData.OnRecvAnyType_eq_some packetSize Handler).mpr ⟨hsome, n, hleft, rfl⟩, ?_⟩
  rw [hsettle]
  rfl

/-- **A run whose copies respect their contract is a run of `step`**, whatever the orders. -/
theorem run_stepBy {s t : Windowed} {as : List (List UInt8 × CopyOrder)}
    (hrun : StepMachine.run stepBy s as = some t)
    (hcontract : StepMachine.Along stepBy CopyContract s as) :
    StepMachine.run step s (as.map Prod.fst) = some t := by
  induction as generalizing s with
  | nil => exact hrun
  | cons a as ih =>
      obtain ⟨s', hs', hrest⟩ := StepMachine.run_cons_eq_some.mp hrun
      rw [List.map_cons, StepMachine.run_cons_eq_some]
      exact ⟨s', stepBy_eq_step hcontract.1 hs', ih hrest (hcontract.2 s' hs')⟩

end Windowed

end YServerCore
