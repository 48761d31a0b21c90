/-
  YServerCore.Receive.KeptBytes — what stays in the buffer between two receives of whole streams.

  As long as every receive fills the buffer or ends with a frame, the buffer starts at a frame
  behind every receive (`Aligned`).  What is kept is then the part of the next frame that has come
  in so far, shorter than the frame, and so shorter than the buffer: there is room to go on.

  Main results:
    * `Aligned.kept` — what an aligned session has dispatched, keeps and offers.
    * `framing_keeps_next` — the same behind every receive, for every stream and every such cut.
-/
import YServerCore.Receive.Framing

namespace YServerCore

open ByteMemory (Mem)
open FrameStream (stream complete)
open RequestHandler (packetSize)
open PacketProcess (Handler)

/-- Every packet struct is smaller than the buffer. -/
theorem RequestHandler.packetSize_lt (h : RequestHandler) : packetSize h < BUF_SIZE := by
  cases h <;> decide

namespace Receiving

variable {fs : List ClientFrame} {s : Receiving RequestHandler}

/-- Behind a receive: the frames dispatched are those completely received, in order and each once;
the bytes at the front of the buffer are those of the next frame received so far, and not all of
them; and the next receive is offered some room. -/
structure Kept (fs : List ClientFrame) (s : Receiving RequestHandler) : Prop where
  dispatched : s.calls.map Call.passed
    = (complete ClientFrame.bytes fs s.received.length).map ClientFrame.passed
  pointer : s.io.DataPointer = 0
  bytes : s.received
    = stream ClientFrame.bytes (complete ClientFrame.bytes fs s.received.length) ++ s.io.received
  next : ∀ g rest, fs = complete ClientFrame.bytes fs s.received.length ++ g :: rest →
    s.io.received <+: g.bytes ∧ s.io.received.length < g.bytes.length
  last : fs = complete ClientFrame.bytes fs s.received.length → s.io.received = []
  window : (ST_IOData.ReadyToRecieve s.io).2 = (s.io.CurBytes, BUF_SIZE - s.io.CurBytes)
    ∧ 0 < BUF_SIZE - s.io.CurBytes

/-- The kept bytes of an aligned session continue its stream. -/
theorem Aligned.kept_prefix {done todo : List ClientFrame} (h : Aligned fs done todo s)
    (hstream : s.received <+: stream ClientFrame.bytes fs) :
    s.io.received <+: stream ClientFrame.bytes todo := by
  rw [h.received, h.frames, FrameStream.stream_append] at hstream
  exact (List.prefix_append_right_inj _).mp hstream

/-- **What an aligned session keeps** is a part of the next frame. -/
theorem Aligned.kept {done todo : List ClientFrame} (h : Aligned fs done todo s)
    (hstream : s.received <+: stream ClientFrame.bytes fs) : Kept fs s := by
  have hprefix := h.kept_prefix hstream
  have hcomplete := h.complete
  refine ⟨h.framed, h.idle.1, ?_, ?_, ?_, rfl, ?_⟩
  · rw [hcomplete]
    exact h.received
  · intro g rest hg
    -- the complete frames are the dispatched ones, so `g` is the first frame still to come
    rw [hcomplete, h.frames] at hg
    have htodo : todo = g :: rest := List.append_cancel_left hg
    rw [htodo, FrameStream.stream_cons] at hprefix
    have hshort : s.io.received.length < g.bytes.length := by
      rw [ST_IOData.length_received]
      exact h.part g rest htodo
    refine ⟨?_, hshort⟩
    exact List.prefix_of_prefix_length_le hprefix (List.prefix_append _ _) (Nat.le_of_lt hshort)
  · intro hall
    rw [hcomplete] at hall
    have htodo : todo = [] := by
      have hcancel : done ++ todo = done ++ [] := by rw [← h.frames, List.append_nil, ← hall]
      exact List.append_cancel_left hcancel
    rw [htodo, FrameStream.stream_nil] at hprefix
    exact List.prefix_nil.mp hprefix
  · cases htodo : todo with
    | nil =>
        rw [htodo, FrameStream.stream_nil] at hprefix
        have hnone := congrArg List.length (List.prefix_nil.mp hprefix)
        rw [ST_IOData.length_received, List.length_nil] at hnone
        rw [hnone]
        decide
    | cons g rest =>
        have hshort := h.part g rest htodo
        have hsize := RequestHandler.packetSize_lt g.handler
        rw [← g.length_eq] at hsize
        omega

/-- **Framing is exact and keeps the next frame.**  For every stream of well-formed frames and every
cutting of it, or of a front of it, into receives that each fill the offered window or end with a
frame: every receive is handled, and behind it the frames dispatched are exactly the complete
ones, the front of the buffer is the part of the next frame, and the next window is not empty. -/
theorem framing_keeps_next (fs : List ClientFrame) (behind : Mem) (chunks : List (List UInt8))
    (hcut : chunks.flatten <+: stream ClientFrame.bytes fs)
    (hfits : StepMachine.Along (step packetSize Handler) Fits (start behind) chunks)
    (hends : StepMachine.Along (step packetSize Handler) (FillsOrEnds fs) (start behind) chunks) :
    StepMachine.Safe (step packetSize Handler) (Kept fs) (start behind) chunks := by
  apply (aligned_of_fillsOrEnds (aligned_start fs behind) hfits hcut hends).mono
  intro s hs
  obtain ⟨hstream, done, todo, h⟩ := hs
  exact h.kept hstream

/-- Fifty-two moves in two receives, of which the first fills the buffer and keeps a part of a frame. -/
theorem framing_keeps_full :
    StepMachine.Safe (step packetSize Handler) (Kept manyMoves) (start (fun _ => 0)) fullCut :=
  framing_keeps_next manyMoves (fun _ => 0) fullCut ⟨[], by rw [List.append_nil, flatten_fullCut]⟩
    (fullCut_fits _) (fullCut_fillsOrEnds _)

end Receiving

end YServerCore
