/-
  YServerCore.Receive.Framing — what the receive loop makes of a stream of well-formed frames.

  A client frame has a registered type and claims the size of its packet struct.  As long as the
  buffer starts at a frame (`Aligned`), the loop dispatches exactly the frames that are complete
  and stops in front of the next one.  Behind the loop a full buffer keeps the part of that next
  frame; a buffer that is not full forgets it, and whatever follows is read from the middle of a
  frame.

  Main results:
    * `loop_handled` — the loop on whole frames that all have a handler, for any handler table.
    * `loop_frames` — the loop on whole frames and a part of the next one.
    * `aligned_step` — one receive of an aligned session.
    * `framing_exact_iff` — for every stream and every way of cutting it, the dispatched frames
      are the complete ones exactly when every receive fills the buffer or ends with a frame.
-/
import YServerCore.Lib.FrameStream
import YServerCore.Lib.StepMachine
import YServerCore.Receive.OnRecv

namespace YServerCore

open ByteMemory (Mem read leNat word32)
open FrameStream (stream complete OnBoundary)
open ST_IOData (FrameReady callAt advance pass loop filled consumed)
open RequestHandler (packetSize)
open PacketProcess (Handler)

/-! ## §1. Client frames. -/

/-- A well-formed frame: a type with a handler, and the size of the handler's packet struct. -/
structure ClientFrame where
  handler : RequestHandler
  bytes : List UInt8
  length_eq : bytes.length = handler.packetSize
  ioType_eq : leNat (bytes.take 4) = handler.ioType.code
  size_eq : leNat ((bytes.drop 4).take 4) = bytes.length

/-- What a handler is given of a frame: itself and the packet object. -/
def ClientFrame.passed (f : ClientFrame) : RequestHandler × List UInt8 := (f.handler, f.bytes)

/-- What a call gives its handler. -/
def Call.passed {H : Type*} (c : Call H) : H × List UInt8 := (c.handler, c.packet)

theorem ClientFrame.header_le (f : ClientFrame) : ST_IOHeader.sizeof ≤ f.bytes.length := by
  rw [f.length_eq]
  exact PacketProcess.header_le_packetSize f.handler

/-- Bytes that are a whole frame for a handler of a table: a header that claims them all, for a type
of the handler, and the size of the handler's packet struct. -/
structure FrameBytes {H : Type*} (packetSize : H → Nat) (table : HandlerTable H) (func : H)
    (bytes : List UInt8) : Prop where
  header_le : ST_IOHeader.sizeof ≤ bytes.length
  size_eq : leNat ((bytes.drop 4).take 4) = bytes.length
  handler : table[leNat (bytes.take 4)]? = some (some func)
  whole : packetSize func = bytes.length

theorem ClientFrame.frameBytes (f : ClientFrame) :
    FrameBytes packetSize Handler f.handler f.bytes where
  header_le := f.header_le
  size_eq := f.size_eq
  handler := by
    rw [f.ioType_eq]
    exact PacketProcess.Handler_ioType f.handler
  whole := f.length_eq.symm

/-! ## §2. The loop on whole frames. -/

namespace ST_IOData

/-- The bytes from the pointer to the end of what was received. -/
def unread (io : ST_IOData) : List UInt8 :=
  read io.Data io.DataPointer (io.CurBytes - io.DataPointer)

theorem length_unread (io : ST_IOData) : io.unread.length = io.CurBytes - io.DataPointer :=
  ByteMemory.length_read _ _ _

/-- A word of the header at the pointer, from the unread bytes. -/
theorem word_unread (io : ST_IOData) {k : Nat} (h : k + 4 ≤ io.unread.length) :
    word32 io.Data (io.DataPointer + k) = leNat ((io.unread.drop k).take 4) := by
  rw [length_unread] at h
  exact ByteMemory.word32_of_read io.Data io.DataPointer h

/-- **A whole frame at the pointer**: the header says what the frame says, the frame's bytes are the
next ones, and what follows is unread afterwards. -/
theorem frame_at_pointer {io : ST_IOData} {bytes rest : List UInt8}
    (h : io.unread = bytes ++ rest) (hhead : ST_IOHeader.sizeof ≤ bytes.length)
    (hclaim : leNat ((bytes.drop 4).take 4) = bytes.length) :
    FrameReady io ∧ io.headerIOType io.DataPointer = leNat (bytes.take 4)
      ∧ io.headerSize io.DataPointer = bytes.length
      ∧ read io.Data io.DataPointer bytes.length = bytes
      ∧ (advance io).unread = rest := by
  have hsz : ST_IOHeader.sizeof = 44 := rfl
  have hlen : io.CurBytes - io.DataPointer = bytes.length + rest.length := by
    rw [← length_unread, h, List.length_append]
  have htype : io.headerIOType io.DataPointer = leNat (bytes.take 4) := by
    have hword := word_unread io (k := 0) (by rw [length_unread]; omega)
    rw [h, List.drop_zero, List.take_append_of_le_length (by omega)] at hword
    exact hword
  have hsize : io.headerSize io.DataPointer = bytes.length := by
    have hword := word_unread io (k := 4) (by rw [length_unread]; omega)
    rw [h, List.drop_append_of_le_length (by omega),
      List.take_append_of_le_length (by rw [List.length_drop]; omega), hclaim] at hword
    exact hword
  refine ⟨⟨by omega, by omega, by omega⟩, htype, hsize, ?_, ?_⟩
  · have htake := congrArg (List.take bytes.length) h
    unfold unread at htake
    rw [ByteMemory.take_read io.Data _ (by omega), List.take_left' rfl] at htake
    exact htake
  · -- the pointer moves by the claimed size, over just the frame
    have hdrop := congrArg (List.drop bytes.length) h
    unfold unread at hdrop
    rw [ByteMemory.drop_read io.Data _ (by omega), List.drop_left' rfl] at hdrop
    unfold unread advance
    rw [hsize]
    show read io.Data (io.DataPointer + bytes.length) (io.CurBytes - (io.DataPointer + bytes.length))
      = rest
    rw [Nat.sub_add_eq]
    exact hdrop

/-- Behind the last byte the loop is left. -/
theorem pass_exit_of_unread_nil {H : Type*} {packetSize : H → Nat} {table : HandlerTable H}
    {io : ST_IOData} (h : io.unread = []) : pass packetSize table io = .exit := by
  have hlen := length_unread io
  rw [h, List.length_nil] at hlen
  apply pass_exit_of_not_ready
  intro hready
  have hguard := hready.1
  omega

section Handled

variable {H F : Type*} {packetSize : H → Nat} {table : HandlerTable H} {letters : F → List UInt8}
  {func : F → H}

/-- **The loop on frames that are handled**: it dispatches each of them, and is left behind them if
it is left in front of what follows. -/
theorem loop_handled {fs : List F}
    (hfs : ∀ f ∈ fs, FrameBytes packetSize table (func f) (letters f)) {part : List UInt8}
    (hpart : ∀ io, io.unread = part → pass packetSize table io = .exit) (io : ST_IOData)
    (hunread : io.unread = stream letters fs ++ part) :
    ∃ n, (loop packetSize table n io).outcome = .exit
      ∧ (loop packetSize table n io).calls.map Call.passed = fs.map (fun f => (func f, letters f))
      ∧ consumed (loop packetSize table n io).calls = (stream letters fs).length := by
  induction fs generalizing io with
  | nil =>
      rw [FrameStream.stream_nil, List.nil_append] at hunread
      refine ⟨1, ?_⟩
      rw [loop_exit packetSize table (hpart io hunread)]
      exact ⟨rfl, rfl, rfl⟩
  | cons f fs ih =>
      rw [FrameStream.stream_cons, List.append_assoc] at hunread
      -- one turn dispatches `f`, and the loop goes on behind it
      obtain ⟨hhead, hclaim, hslot, hwhole⟩ := hfs f List.mem_cons_self
      obtain ⟨hready, htype, hsize, hbytes, hnext⟩ := frame_at_pointer hunread hhead hclaim
      have hpass : pass packetSize table io
          = .dispatch (callAt packetSize io (func f)) (advance io) := by
        rw [pass_eq_dispatch]
        refine ⟨hready, rfl, func f, rfl, ?_⟩
        rw [htype]
        exact hslot
      obtain ⟨n, hexit, hcalls, hconsumed⟩ :=
        ih (fun g hg => hfs g (List.mem_cons_of_mem f hg)) (advance io) hnext
      refine ⟨n + 1, ?_⟩
      rw [loop_dispatch packetSize table hpass]
      refine ⟨hexit, ?_, ?_⟩
      · have hpacket : (callAt packetSize io (func f)).packet = letters f := by
          show read io.Data io.DataPointer (packetSize (func f)) = letters f
          rw [hwhole]
          exact hbytes
        rw [List.map_cons, List.map_cons, hcalls]
        exact congrArg (· :: _) (Prod.ext rfl hpacket)
      · rw [FrameStream.stream_cons, List.length_append, ← hconsumed, ← hsize]
        rfl

end Handled

/-- **A part of a frame at the pointer**: there is no whole frame, wherever the cut is. -/
theorem not_ready_of_part {io : ST_IOData} {post : List ClientFrame}
    (hpart : ∃ more, io.unread ++ more = stream ClientFrame.bytes post)
    (hshort : ∀ g rest, post = g :: rest → io.unread.length < g.bytes.length) :
    ¬ FrameReady io := by
  intro hready
  obtain ⟨hlt, hhead, hbody⟩ := hready
  obtain ⟨more, hmore⟩ := hpart
  have hlen := length_unread io
  have hsz : ST_IOHeader.sizeof = 44 := rfl
  cases post with
  | nil =>
      -- there is no next frame, so there are no unread bytes
      have := congrArg List.length hmore
      rw [List.length_append, FrameStream.stream_nil, List.length_nil] at this
      omega
  | cons g rest =>
      have hg := hshort g rest rfl
      -- the header is whole, so it is the frame's header and claims the whole frame
      have hsize : io.headerSize io.DataPointer = g.bytes.length := by
        have hword := word_unread io (k := 4) (by omega)
        have hsame : ((io.unread ++ more).drop 4).take 4
            = ((g.bytes ++ stream ClientFrame.bytes rest).drop 4).take 4 := by
          rw [hmore, FrameStream.stream_cons]
        rw [List.drop_append_of_le_length (by omega),
          List.take_append_of_le_length (by rw [List.length_drop]; omega),
          List.drop_append_of_le_length (by omega),
          List.take_append_of_le_length (by rw [List.length_drop]; omega)] at hsame
        rw [hsame, g.size_eq] at hword
        exact hword
      omega

/-- **The loop on frames**: it dispatches the whole frames and stops at the part behind them. -/
theorem loop_frames (fs post : List ClientFrame) (part : List UInt8) (io : ST_IOData)
    (hunread : io.unread = stream ClientFrame.bytes fs ++ part)
    (hpart : ∃ more, part ++ more = stream ClientFrame.bytes post)
    (hshort : ∀ g rest, post = g :: rest → part.length < g.bytes.length) :
    ∃ n, (loop packetSize Handler n io).outcome = .exit
      ∧ (loop packetSize Handler n io).calls.map Call.passed = fs.map ClientFrame.passed
      ∧ consumed (loop packetSize Handler n io).calls
        = (stream ClientFrame.bytes fs).length := by
  apply loop_handled (fun f _ => f.frameBytes) ?_ io hunread
  intro io' hio'
  rw [← hio'] at hpart hshort
  exact pass_exit_of_not_ready packetSize Handler (not_ready_of_part hpart hshort)

end ST_IOData

/-! ## §3. One receive of an aligned session. -/

namespace Receiving

variable {fs : List ClientFrame} {s : Receiving RequestHandler} {chunk : List UInt8}

/-- The buffer starts at a frame: everything received is frames that were dispatched, followed by
the kept part of the next one. -/
structure Aligned (fs done todo : List ClientFrame) (s : Receiving RequestHandler) : Prop where
  frames : fs = done ++ todo
  dispatched : s.calls.map Call.passed = done.map ClientFrame.passed
  received : s.received = stream ClientFrame.bytes done ++ s.io.received
  idle : s.io.Idle
  part : ∀ g rest, todo = g :: rest → s.io.CurBytes < g.bytes.length

theorem aligned_start (fs : List ClientFrame) (behind : Mem) :
    Aligned fs [] fs (start behind) where
  frames := rfl
  dispatched := rfl
  received := rfl
  idle := ST_IOData.OnAccept_idle behind
  part g _ _ := by
    have := g.header_le
    show 0 < _
    exact Nat.lt_of_lt_of_le (by decide) this

/-- The dispatched frames of an aligned session are the complete ones. -/
theorem Aligned.complete {done todo : List ClientFrame} (h : Aligned fs done todo s) :
    complete ClientFrame.bytes fs s.received.length = done := by
  refine FrameStream.complete_unique ClientFrame.bytes h.frames ?_ fun g rest hg => ?_
  · rw [h.received, List.length_append]
    exact Nat.le_add_right _ _
  · rw [h.received, List.length_append, ST_IOData.length_received]
    have := h.part g rest hg
    omega

/-- The receive fills the buffer, or its last byte is the last byte of a frame. -/
def FillsOrEnds (fs : List ClientFrame) (s : Receiving RequestHandler) (chunk : List UInt8) :
    Prop :=
  s.io.CurBytes + chunk.length = BUF_SIZE
    ∨ OnBoundary ClientFrame.bytes fs (s.received.length + chunk.length)

/-- What one receive of an aligned session does: the kept and the new bytes are `whole` frames,
which are dispatched, and a `part` of the next one. -/
structure AlignedReceive (fs done todo : List ClientFrame) (s : Receiving RequestHandler)
    (chunk : List UInt8) (whole post : List ClientFrame) (part : List UInt8) (io : ST_IOData)
    (calls : List (Call RequestHandler)) : Prop where
  handled : s.io.receive packetSize Handler chunk = some (io, calls)
  frames : todo = whole ++ post
  bytes : s.io.received ++ chunk = stream ClientFrame.bytes whole ++ part
  part_short : ∀ g rest, post = g :: rest → part.length < g.bytes.length
  dispatched : calls.map Call.passed = whole.map ClientFrame.passed
  consumed_eq : consumed calls = (stream ClientFrame.bytes whole).length
  boundary : OnBoundary ClientFrame.bytes fs (s.received.length + chunk.length) ↔ part = []

theorem aligned_receive {done todo : List ClientFrame} (h : Aligned fs done todo s)
    (hne : chunk ≠ []) (hstream : s.received ++ chunk <+: stream ClientFrame.bytes fs) :
    ∃ whole post part io calls,
      AlignedReceive fs done todo s chunk whole post part io calls := by
  have hgot : s.io.received ++ chunk <+: stream ClientFrame.bytes todo := by
    obtain ⟨more, hmore⟩ := hstream
    refine ⟨more, ?_⟩
    rw [h.received, h.frames, FrameStream.stream_append, List.append_assoc,
      List.append_assoc] at hmore
    rw [List.append_assoc]
    exact List.append_cancel_left hmore
  obtain ⟨post, part, htodo, hsplit, hpart, hshort⟩ := FrameStream.split_stream _ hgot
  have hcomplete := FrameStream.complete_append ClientFrame.bytes h.frames
    (s.io.received ++ chunk).length
  generalize complete ClientFrame.bytes todo (s.io.received ++ chunk).length = whole
    at htodo hsplit hcomplete
  -- the loop starts at the front of what was kept and what is new
  have hunread : (filled s.io chunk).unread = stream ClientFrame.bytes whole ++ part := by
    rw [← hsplit, ← ST_IOData.received_filled]
    unfold ST_IOData.unread ST_IOData.received
    rw [show (filled s.io chunk).DataPointer = 0 from h.idle.1, Nat.sub_zero]
  obtain ⟨n, hexit, hcalls, hconsumed⟩ :=
    ST_IOData.loop_frames whole post part (filled s.io chunk) hunread hpart hshort
  refine ⟨whole, post, part, _, _, ⟨(ST_IOData.receive_eq_some packetSize Handler).mpr
    ⟨hne, n, hexit, rfl, rfl⟩, htodo, hsplit, hshort, hcalls, hconsumed, ?_⟩⟩
  -- the receive ends with a frame exactly when no part of one is left over
  have htotal : s.received.length + chunk.length
      = (stream ClientFrame.bytes done).length + (s.io.received ++ chunk).length := by
    rw [h.received, List.length_append, List.length_append]
    omega
  rw [htotal, FrameStream.onBoundary_iff, hcomplete, FrameStream.stream_append,
    List.length_append, hsplit, List.length_append, ← List.length_eq_zero_iff]
  omega

/-- **One receive of an aligned session** is handled.  If it fills the buffer or ends with a frame,
the session is aligned again; otherwise the part of a frame at its end is forgotten. -/
theorem aligned_step {done todo : List ClientFrame} (h : Aligned fs done todo s)
    (hne : chunk ≠ []) (hstream : s.received ++ chunk <+: stream ClientFrame.bytes fs) :
    ∃ s', step packetSize Handler s chunk = some s'
      ∧ (FillsOrEnds fs s chunk → ∃ done' todo', Aligned fs done' todo' s')
      ∧ (¬ FillsOrEnds fs s chunk → accounted s' < accounted s + chunk.length) := by
  obtain ⟨whole, post, part, io, calls, hr⟩ := aligned_receive h hne hstream
  obtain ⟨hidle, -, hkept, -⟩ := ST_IOData.receive_spec packetSize Handler h.idle hr.handled
  refine ⟨⟨io, s.received ++ chunk, s.calls ++ calls⟩,
    (step_eq_some packetSize Handler).mpr ⟨io, calls, hr.handled, rfl⟩, fun hcond => ?_,
    fun hcond => ?_⟩
  · -- what is kept is the part, whether the buffer was full or nothing was left over
    have hkeep : io.received = part := by
      rw [hkept]
      by_cases hfull : s.io.CurBytes + chunk.length = BUF_SIZE
      · rw [if_pos hfull, hr.bytes, hr.consumed_eq, List.drop_left' rfl]
      · rw [if_neg hfull]
        exact (hr.boundary.mp (hcond.resolve_left hfull)).symm
    refine ⟨done ++ whole, post, ⟨?_, ?_, ?_, hidle, fun g rest hg => ?_⟩⟩
    · rw [h.frames, hr.frames, List.append_assoc]
    · show (s.calls ++ calls).map _ = _
      rw [List.map_append, List.map_append, h.dispatched, hr.dispatched]
    · show s.received ++ chunk = _ ++ io.received
      rw [hkeep, h.received, FrameStream.stream_append, List.append_assoc, List.append_assoc,
        hr.bytes]
    · show io.CurBytes < _
      rw [← ST_IOData.length_received io, hkeep]
      exact hr.part_short g rest hg
  · -- the buffer is emptied with a part of a frame in it
    unfold FillsOrEnds at hcond
    rw [not_or] at hcond
    rw [if_neg hcond.1] at hkept
    have hpos : 0 < part.length :=
      List.length_pos_of_ne_nil fun hp => hcond.2 (hr.boundary.mpr hp)
    have hlen := congrArg List.length hr.bytes
    rw [List.length_append, List.length_append, ST_IOData.length_received,
      ← hr.consumed_eq] at hlen
    have hcur : io.CurBytes = 0 := by
      rw [← ST_IOData.length_received io, hkept]
      rfl
    unfold accounted
    rw [ST_IOData.consumed_append]
    show _ + io.CurBytes < _
    omega

/-! ## §4. Whole streams. -/

/-- The frames passed to handlers so far are exactly those whose last byte has been received. -/
def Framed (fs : List ClientFrame) (s : Receiving RequestHandler) : Prop :=
  s.calls.map Call.passed
    = (complete ClientFrame.bytes fs s.received.length).map ClientFrame.passed

theorem Aligned.framed {done todo : List ClientFrame} (h : Aligned fs done todo s) :
    Framed fs s := by
  unfold Framed
  rw [h.complete, h.dispatched]

/-- Over any receives the accounted bytes grow by at most what was received. -/
theorem run_accounted {t : Receiving RequestHandler} {chunks : List (List UInt8)}
    (hidle : s.io.Idle)
    (hrun : StepMachine.run (step packetSize Handler) s chunks = some t) :
    t.io.Idle ∧ accounted t ≤ accounted s + chunks.flatten.length
      ∧ t.received = s.received ++ chunks.flatten := by
  induction chunks generalizing s with
  | nil =>
      rw [StepMachine.run_nil, Option.some.injEq] at hrun
      subst hrun
      exact ⟨hidle, by simp, by simp⟩
  | cons c chunks ih =>
      obtain ⟨s', hs', hrest⟩ := StepMachine.run_cons_eq_some.mp hrun
      obtain ⟨hidle', hacc, hrec⟩ := ih (step_idle packetSize Handler hidle hs') hrest
      -- the first receive and the others each account for no more than they bring
      have hone := step_accounted packetSize Handler hidle hs'
      refine ⟨hidle', ?_, ?_⟩
      · rw [List.flatten_cons, List.length_append]
        omega
      · rw [hrec, step_received packetSize Handler hs', List.flatten_cons, List.append_assoc]

theorem Fits.ne_nil (h : Fits s chunk) : chunk ≠ [] := List.ne_nil_of_length_pos h.1

/-- From an aligned session, receives that all fill the buffer or end with a frame are handled and keep
the session aligned. -/
theorem aligned_of_fillsOrEnds {done todo : List ClientFrame} (h : Aligned fs done todo s)
    {chunks : List (List UInt8)}
    (hfits : StepMachine.Along (step packetSize Handler) Fits s chunks)
    (hstream : s.received ++ chunks.flatten <+: stream ClientFrame.bytes fs)
    (hal : StepMachine.Along (step packetSize Handler) (FillsOrEnds fs) s chunks) :
    StepMachine.Safe (step packetSize Handler)
      (fun s => s.received <+: stream ClientFrame.bytes fs ∧ ∃ done todo, Aligned fs done todo s)
      s chunks := by
  induction chunks generalizing s done todo with
  | nil =>
      rw [List.flatten_nil, List.append_nil] at hstream
      exact ⟨hstream, done, todo, h⟩
  | cons c chunks ih =>
      have hhere := (List.prefix_append s.received _).trans hstream
      rw [List.flatten_cons, ← List.append_assoc] at hstream
      obtain ⟨s', hs', hgood, -⟩ := aligned_step h hfits.1.ne_nil
        ((List.prefix_append _ _).trans hstream)
      obtain ⟨done', todo', h'⟩ := hgood hal.1
      refine ⟨⟨hhere, done, todo, h⟩, s', hs', ih h' (hfits.2 s' hs') ?_ (hal.2 s' hs')⟩
      rw [step_received packetSize Handler hs']
      exact hstream

/-- From an aligned session, receives that all fill the buffer or end with a frame keep the
dispatched frames exact. -/
theorem safe_of_fillsOrEnds {done todo : List ClientFrame} (h : Aligned fs done todo s)
    {chunks : List (List UInt8)}
    (hfits : StepMachine.Along (step packetSize Handler) Fits s chunks)
    (hstream : s.received ++ chunks.flatten <+: stream ClientFrame.bytes fs)
    (hal : StepMachine.Along (step packetSize Handler) (FillsOrEnds fs) s chunks) :
    StepMachine.Safe (step packetSize Handler) (Framed fs) s chunks := by
  apply (aligned_of_fillsOrEnds h hfits hstream hal).mono
  intro s' hs'
  obtain ⟨-, done', todo', h'⟩ := hs'
  exact h'.framed

/-- From an aligned session, receives that account for every byte they bring all fill the buffer
or end with a frame. -/
theorem fillsOrEnds_of_accounted {done todo : List ClientFrame} (h : Aligned fs done todo s)
    {chunks : List (List UInt8)}
    (hfits : StepMachine.Along (step packetSize Handler) Fits s chunks)
    (hstream : s.received ++ chunks.flatten <+: stream ClientFrame.bytes fs)
    {t : Receiving RequestHandler}
    (hrun : StepMachine.run (step packetSize Handler) s chunks = some t)
    (hall : accounted s + chunks.flatten.length ≤ accounted t) :
    StepMachine.Along (step packetSize Handler) (FillsOrEnds fs) s chunks := by
  induction chunks generalizing s done todo with
  | nil => trivial
  | cons c chunks ih =>
      rw [List.flatten_cons, ← List.append_assoc] at hstream
      rw [List.flatten_cons, List.length_append] at hall
      obtain ⟨s', hs', hgood, hbad⟩ := aligned_step h hfits.1.ne_nil
        ((List.prefix_append _ _).trans hstream)
      obtain ⟨s'', hs'', hrest⟩ := StepMachine.run_cons_eq_some.mp hrun
      have hsame : s' = s'' := Option.some.inj (hs'.symm.trans hs'')
      subst hsame
      have hidle' := step_idle packetSize Handler h.idle hs'
      obtain ⟨-, hle, -⟩ := run_accounted hidle' hrest
      -- a forgotten part would be missing from the account at the end
      have hcond : FillsOrEnds fs s c := by
        by_contra hcond
        have := hbad hcond
        omega
      obtain ⟨done', todo', h'⟩ := hgood hcond
      have hone := step_accounted packetSize Handler h.idle hs'
      refine ⟨hcond, fun u hu => ?_⟩
      have hus : s' = u := Option.some.inj (hs'.symm.trans hu)
      subst hus
      refine ih h' (hfits.2 s' hs') ?_ hrest (by omega)
      rw [step_received packetSize Handler hs']
      exact hstream

/-- A call's claimed size stands in the packet it was given. -/
theorem step_sizes {s' : Receiving RequestHandler} (hidle : s.io.Idle)
    (h : step packetSize Handler s chunk = some s')
    (hsizes : ∀ c ∈ s.calls, c.size = leNat ((c.packet.drop 4).take 4)) :
    ∀ c ∈ s'.calls, c.size = leNat ((c.packet.drop 4).take 4) := by
  obtain ⟨io, calls, hrec, rfl⟩ := (step_eq_some packetSize Handler).mp h
  obtain ⟨-, -, -, hspec⟩ := ST_IOData.receive_spec packetSize Handler hidle hrec
  intro c hc
  rcases List.mem_append.mp hc with hold | hnew
  · exact hsizes c hold
  · -- the loop read the size out of the bytes it gave the handler
    obtain ⟨hsize, hpacket⟩ := hspec c hnew
    have hhead := PacketProcess.header_le_packetSize c.handler
    have hsz : ST_IOHeader.sizeof = 44 := rfl
    rw [hsize, hpacket]
    exact ByteMemory.word32_of_read _ _ (by omega)

theorem run_sizes {t : Receiving RequestHandler} {behind : Mem} {chunks : List (List UInt8)}
    (hrun : StepMachine.run (step packetSize Handler) (start behind) chunks = some t) :
    ∀ c ∈ t.calls, c.size = leNat ((c.packet.drop 4).take 4) := by
  have hboth : t.io.Idle ∧ ∀ c ∈ t.calls, c.size = leNat ((c.packet.drop 4).take 4) := by
    refine StepMachine.run_invariant (P := fun t : Receiving RequestHandler =>
      t.io.Idle ∧ ∀ c ∈ t.calls, c.size = leNat ((c.packet.drop 4).take 4)) ?_ ?_ hrun
    · intro u c u' hu hstep
      exact ⟨step_idle packetSize Handler hu.1 hstep, step_sizes hu.1 hstep hu.2⟩
    · exact ⟨ST_IOData.OnAccept_idle behind, by simp [start]⟩
  exact hboth.2

/-- Calls that were given frames, and have the sizes that stand in them, consume the frames. -/
theorem consumed_of_passed {calls : List (Call RequestHandler)}
    (hsizes : ∀ c ∈ calls, c.size = leNat ((c.packet.drop 4).take 4))
    (hpassed : calls.map Call.passed = fs.map ClientFrame.passed) :
    consumed calls = (stream ClientFrame.bytes fs).length := by
  induction calls generalizing fs with
  | nil =>
      rw [List.map_nil, eq_comm, List.map_eq_nil_iff] at hpassed
      rw [hpassed]
      rfl
  | cons c calls ih =>
      cases fs with
      | nil => exact absurd hpassed (by simp)
      | cons f fs =>
          rw [List.map_cons, List.map_cons, List.cons.injEq] at hpassed
          have hpacket : c.packet = f.bytes := congrArg Prod.snd hpassed.1
          have hsize : c.size = f.bytes.length := by
            rw [hsizes c (by simp), hpacket, f.size_eq]
          have hrest := ih (fun d hd => hsizes d (by simp [hd])) hpassed.2
          rw [FrameStream.stream_cons, List.length_append, ← hrest, ← hsize]
          rfl

/-- **Framing is exact exactly when no receive leaves a part of a frame in a buffer that is not
full.** -/
theorem framing_exact_iff (fs : List ClientFrame) (behind : Mem) (chunks : List (List UInt8))
    (hcut : chunks.flatten = stream ClientFrame.bytes fs)
    (hfits : StepMachine.Along (step packetSize Handler) Fits (start behind) chunks) :
    StepMachine.Safe (step packetSize Handler) (Framed fs) (start behind) chunks
      ↔ StepMachine.Along (step packetSize Handler) (FillsOrEnds fs) (start behind) chunks := by
  have hstart := aligned_start fs behind
  have hstream : (start behind : Receiving RequestHandler).received ++ chunks.flatten
      <+: stream ClientFrame.bytes fs := by
    refine ⟨[], ?_⟩
    rw [List.append_nil, ← hcut]
    rfl
  refine ⟨fun hsafe => ?_, fun hal => safe_of_fillsOrEnds hstart hfits hstream hal⟩
  -- at the end every frame is complete, so the calls account for the whole stream
  obtain ⟨t, hrun, hframed⟩ := hsafe.last
  obtain ⟨-, -, hreceived⟩ := run_accounted hstart.idle hrun
  have hall : t.calls.map Call.passed = fs.map ClientFrame.passed := by
    have hlen : t.received.length = (stream ClientFrame.bytes fs).length := by
      rw [hreceived, ← hcut]
      rfl
    unfold Framed at hframed
    rwa [hlen, FrameStream.complete_all] at hframed
  have hconsumed := consumed_of_passed (run_sizes hrun) hall
  refine fillsOrEnds_of_accounted hstart hfits hstream hrun ?_
  show 0 + 0 + _ ≤ consumed t.calls + t.io.CurBytes
  rw [hcut]
  omega

/-- A `C_Move` frame of 80 bytes, zero behind its header's type and size. -/
def moveFrame : ClientFrame where
  handler := .RecvMoveRequest
  bytes := [7, 0, 0, 0, 80, 0, 0, 0] ++ List.replicate 72 0
  length_eq := by decide
  ioType_eq := by decide
  size_eq := by decide

/-- Fifty-two moves have 64 bytes more than the buffer. -/
def manyMoves : List ClientFrame := List.replicate 52 moveFrame

/-- Their bytes in two receives, of which the first fills the buffer in the middle of a frame. -/
def fullCut : List (List UInt8) :=
  [(stream ClientFrame.bytes manyMoves).take BUF_SIZE, (stream ClientFrame.bytes manyMoves).drop BUF_SIZE]

theorem length_manyMoves : (stream ClientFrame.bytes manyMoves).length = 4160 := by
  decide +kernel

theorem flatten_fullCut : fullCut.flatten = stream ClientFrame.bytes manyMoves := by
  show _ ++ (_ ++ []) = _
  rw [List.append_nil, List.take_append_drop]

theorem length_take_manyMoves :
    ((stream ClientFrame.bytes manyMoves).take BUF_SIZE).length = BUF_SIZE := by
  have hbuf : BUF_SIZE = 4096 := rfl
  rw [List.length_take, length_manyMoves]
  omega

/-- The first receive fills the buffer. -/
theorem fills_take_manyMoves (behind : Mem) :
    FillsOrEnds manyMoves (start behind) ((stream ClientFrame.bytes manyMoves).take BUF_SIZE) := by
  left
  show 0 + _ = BUF_SIZE
  rw [length_take_manyMoves, Nat.zero_add]

/-- What the first receive keeps leaves room for the rest of the frame. -/
theorem fullCut_kept {s' : Receiving RequestHandler} (behind : Mem)
    (h : step packetSize Handler (start behind) ((stream ClientFrame.bytes manyMoves).take BUF_SIZE)
      = some s') : s'.io.CurBytes < 80 := by
  have hbuf : BUF_SIZE = 4096 := rfl
  have hlen := length_manyMoves
  have htake := length_take_manyMoves
  have hne : (stream ClientFrame.bytes manyMoves).take BUF_SIZE ≠ [] :=
    List.ne_nil_of_length_pos (by omega)
  obtain ⟨s'', hs'', hgood, -⟩ := aligned_step (aligned_start manyMoves behind) hne
    (List.take_prefix _ _)
  have hsame : s' = s'' := Option.some.inj (h.symm.trans hs'')
  obtain ⟨done, todo, haligned⟩ := hgood (fills_take_manyMoves behind)
  rw [← hsame] at haligned
  cases htodo : todo with
  | nil =>
      -- not all of the frames have been received
      have hreceived := congrArg List.length haligned.received
      rw [step_received packetSize Handler h, List.length_append, List.length_append, htake] at hreceived
      have hall : manyMoves = done := by rw [haligned.frames, htodo, List.append_nil]
      rw [← hall, hlen] at hreceived
      have hnone : (start behind : Receiving RequestHandler).received.length = 0 := rfl
      omega
  | cons g rest =>
      have hshort := haligned.part g rest htodo
      have hg : g ∈ manyMoves := by
        rw [haligned.frames, htodo]
        simp
      rw [List.eq_of_mem_replicate hg] at hshort
      exact hshort

/-- The second receive fits what is left of the window. -/
theorem fullCut_fits (behind : Mem) :
    StepMachine.Along (step packetSize Handler) Fits (start behind) fullCut := by
  have hbuf : BUF_SIZE = 4096 := rfl
  have hlen := length_manyMoves
  refine ⟨⟨?_, ?_⟩, fun s' hs' => ⟨⟨?_, ?_⟩, fun _ _ => trivial⟩⟩
  · rw [List.length_take]
    omega
  · show (List.take _ _).length ≤ BUF_SIZE - 0
    rw [List.length_take]
    omega
  · rw [List.length_drop]
    omega
  · have hkept := fullCut_kept behind hs'
    rw [List.length_drop]
    omega

/-- The first receive fills the buffer, and the second one ends with the last frame. -/
theorem fullCut_fillsOrEnds (behind : Mem) :
    StepMachine.Along (step packetSize Handler) (FillsOrEnds manyMoves) (start behind) fullCut := by
  have hbuf : BUF_SIZE = 4096 := rfl
  have hlen := length_manyMoves
  refine ⟨fills_take_manyMoves behind, fun s' hs' => ⟨Or.inr ?_, fun _ _ => trivial⟩⟩
  refine ⟨manyMoves, [], (List.append_nil _).symm, ?_⟩
  rw [step_received packetSize Handler hs', List.length_append, length_take_manyMoves,
    List.length_drop]
  have hnone : (start behind : Receiving RequestHandler).received.length = 0 := rfl
  omega

/-- Fifty-two moves in two receives, of which the first fills the buffer. -/
theorem framing_exact_full :
    StepMachine.Safe (step packetSize Handler) (Framed manyMoves) (start (fun _ => 0)) fullCut :=
  (framing_exact_iff manyMoves (fun _ => 0) fullCut flatten_fullCut (fullCut_fits _)).mpr
    (fullCut_fillsOrEnds _)

/-- **A frame cut in its header is lost**: after 10 and 70 bytes everything has been received, and
no handler has been called. -/
theorem cut_frame_lost :
    [moveFrame.bytes.take 10, moveFrame.bytes.drop 10].flatten
        = stream ClientFrame.bytes [moveFrame]
      ∧ StepMachine.Along (step packetSize Handler) Fits (start (fun _ => 0))
        [moveFrame.bytes.take 10, moveFrame.bytes.drop 10]
      ∧ ¬ StepMachine.Safe (step packetSize Handler) (Framed [moveFrame])
        (start (fun _ => 0)) [moveFrame.bytes.take 10, moveFrame.bytes.drop 10] := by
  refine ⟨by decide, by decide +kernel, fun hsafe => ?_⟩
  obtain ⟨t, hrun, hframed⟩ := hsafe.last
  have hend : (StepMachine.run (step packetSize Handler) (start (fun _ => 0))
      [moveFrame.bytes.take 10, moveFrame.bytes.drop 10]).map
        (fun t => (t.calls.map Call.passed, t.received.length)) = some ([], 80) := by
    decide +kernel
  rw [hrun, Option.map_some, Option.some.injEq, Prod.mk.injEq] at hend
  unfold Framed at hframed
  rw [hend.1, hend.2] at hframed
  exact absurd hframed (by decide)

end Receiving

end YServerCore
