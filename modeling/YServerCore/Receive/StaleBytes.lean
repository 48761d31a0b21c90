/-
  YServerCore.Receive.StaleBytes — whose bytes a handler's packet is made of.

  `HandleData` copies as many bytes as the packet struct has, while the loop has only checked that
  the bytes the header claims are there.  A frame that claims less than its struct gets the rest
  of its packet from what lies behind it: the next frame, or bytes of an earlier receive that were
  never cleared.

  Main results:
    * `loop_congr` — buffers that differ only in stale bytes dispatch alike, as long as every frame
      claims its whole struct.
    * `own_bytes_iff` — for every buffer and every receive, handlers see only bytes of their own
      frame exactly when every frame handed to one claims at least the size of its struct.
-/
import YServerCore.Receive.Bounds

namespace YServerCore

open ByteMemory (Mem read write word32)
open RequestHandler (packetSize)
open PacketProcess (Handler)

namespace ST_IOData

/-! ## §1. The calls of a loop. -/

section Calls

variable {H : Type*} (packetSize : H → Nat) (table : HandlerTable H)

/-- What a loop calls from one of its states on, it calls from its start on. -/
theorem LoopHead.calls {io head : ST_IOData} (h : LoopHead packetSize table io head) {n : Nat}
    {c : Call H} (hc : c ∈ (loop packetSize table n head).calls) :
    ∃ k, c ∈ (loop packetSize table k io).calls := by
  induction h generalizing n with
  | start => exact ⟨n, hc⟩
  | turn _ hturn ih =>
      apply ih (n := n + 1)
      rw [loop_dispatch packetSize table hturn]
      exact List.mem_cons_of_mem _ hc

/-- **The calls of a loop** are those of the turns made from its states. -/
theorem mem_calls_iff {io : ST_IOData} {c : Call H} :
    (∃ n, c ∈ (loop packetSize table n io).calls)
      ↔ ∃ head io', LoopHead packetSize table io head
        ∧ pass packetSize table head = .dispatch c io' := by
  refine ⟨fun h => ?_, fun h => ?_⟩
  · obtain ⟨n, hc⟩ := h
    induction n generalizing io with
    | zero => exact absurd hc (by simp [loop])
    | succ n ih =>
        cases hpass : pass packetSize table io with
        | exit =>
            rw [loop_exit packetSize table hpass] at hc
            exact absurd hc (by simp)
        | outOfTable =>
            rw [loop, hpass] at hc
            exact absurd hc (by simp)
        | dispatch d io₁ =>
            rw [loop_dispatch packetSize table hpass] at hc
            rcases List.mem_cons.mp hc with rfl | hc
            · exact ⟨io, io₁, LoopHead.start, hpass⟩
            · obtain ⟨head, io', hhead, hturn⟩ := ih hc
              exact ⟨head, io', hhead.behind packetSize table hpass, hturn⟩
  · obtain ⟨head, io', hhead, hturn⟩ := h
    apply hhead.calls packetSize table (n := 1)
    rw [loop_dispatch packetSize table hturn]
    exact List.mem_cons_self

end Calls

/-! ## §2. What a handler is meant to see. -/

/-- What `OnRecv` has passed to handlers after `n` turns of its loop. -/
def passed (n : Nat) (io : ST_IOData) (chunk : List UInt8) :
    List (RequestHandler × List UInt8) :=
  (loop packetSize Handler n (filled io chunk)).calls.map Call.passed

/-- Two buffers that differ at most in the stale bytes behind the received ones. -/
structure SameReceived (io io' : ST_IOData) : Prop where
  curBytes : io'.CurBytes = io.CurBytes
  dataPointer : io'.DataPointer = io.DataPointer
  received : io'.received = io.received

/-- The bytes of the frame a call was made for: as many as its header claims. -/
def frameBytes (io : ST_IOData) (c : Call RequestHandler) : List UInt8 :=
  read io.Data c.pos c.size

/-- **Handlers see only bytes of their own frame**: the stale bytes make no difference to what a
receive passes to its handlers, and a packet is a function of its handler and its frame's bytes,
whatever buffer the frame stands in. -/
structure OwnBytes (io : ST_IOData) (chunk : List UInt8) : Prop where
  stale : ∀ io', SameReceived io io' → ∀ n, passed n io' chunk = passed n io chunk
  own : ∀ n, ∀ c ∈ (loop packetSize Handler n (filled io chunk)).calls,
    ∀ io' chunk' n', ∀ c' ∈ (loop packetSize Handler n' (filled io' chunk')).calls,
      c'.handler = c.handler →
      frameBytes (filled io' chunk') c' = frameBytes (filled io chunk) c → c'.packet = c.packet

/-- Every whole frame with a handler that the claimed sizes lead to claims at least the size of its
handler's struct. -/
def FullClaims (bs : List UInt8) : Prop :=
  ∀ p func, FrameStart Handler bs p → WholeClaim bs p →
    Handler[claimedType bs p]? = some (some func) → packetSize func ≤ claimedSize bs p

/-- The unread bytes of a receive: what was received, kept and new, from the pointer on. -/
theorem unread_filled (io : ST_IOData) (chunk : List UInt8) :
    (filled io chunk).unread = (io.received ++ chunk).drop io.DataPointer := by
  rw [← received_filled]
  unfold unread received
  show read _ io.DataPointer ((filled io chunk).CurBytes - io.DataPointer) = _
  by_cases hptr : io.DataPointer ≤ (filled io chunk).CurBytes
  · rw [ByteMemory.drop_read _ 0 hptr, Nat.zero_add]
  · rw [List.drop_eq_nil_of_le (by rw [ByteMemory.length_read]; omega)]
    have hlen : (filled io chunk).CurBytes - io.DataPointer = 0 := by omega
    rw [hlen]
    rfl

/-! ## §3. Full claims are enough. -/

/-- A turn at a whole frame does what the table says. -/
theorem pass_of_ready {io : ST_IOData} (h : FrameReady io) :
    pass packetSize Handler io
      = match Handler[io.headerIOType io.DataPointer]? with
        | none => .outOfTable
        | some none => .exit
        | some (some func) => .dispatch (callAt packetSize io func) (advance io) := by
  obtain ⟨hguard, hhead, hbody⟩ := h
  unfold pass
  rw [if_pos hguard, if_neg (by omega), if_neg (by omega)]
  cases Handler[io.headerIOType io.DataPointer]? with
  | none => rfl
  | some slot => cases slot <;> rfl

/-- Blocks of received bytes are the same in both buffers. -/
theorem SameReceived.read_eq {io io' : ST_IOData} (h : SameReceived io io') {off len : Nat}
    (hin : off + len ≤ io.CurBytes) : read io'.Data off len = read io.Data off len := by
  have hsame : ((read io'.Data 0 io'.CurBytes).drop off).take len
      = ((read io.Data 0 io.CurBytes).drop off).take len :=
    congrArg (fun bs => (bs.drop off).take len) h.received
  rw [h.curBytes, ByteMemory.drop_read _ 0 (by omega), ByteMemory.drop_read _ 0 (by omega), Nat.zero_add,
    ByteMemory.take_read _ _ (by omega), ByteMemory.take_read _ _ (by omega)] at hsame
  exact hsame

/-- The header at the pointer is the same in both buffers. -/
theorem SameReceived.header {io io' : ST_IOData} (h : SameReceived io io')
    (hhead : io.DataPointer + ST_IOHeader.sizeof ≤ io.CurBytes) :
    io'.headerIOType io'.DataPointer = io.headerIOType io.DataPointer
      ∧ io'.headerSize io'.DataPointer = io.headerSize io.DataPointer := by
  have hsz : ST_IOHeader.sizeof = 44 := rfl
  unfold headerIOType headerSize word32
  rw [h.dataPointer, h.read_eq (by omega), h.read_eq (by omega)]
  exact ⟨rfl, rfl⟩

theorem SameReceived.frameReady_iff {io io' : ST_IOData} (h : SameReceived io io') :
    FrameReady io' ↔ FrameReady io := by
  unfold FrameReady
  rw [h.curBytes]
  by_cases hhead : io.DataPointer + ST_IOHeader.sizeof ≤ io.CurBytes
  · rw [(h.header hhead).2, h.dataPointer]
  · have hsz : ST_IOHeader.sizeof = 44 := rfl
    rw [h.dataPointer]
    constructor
    · intro hready
      exact absurd hready.2.1 (by omega)
    · intro hready
      exact absurd hready.2.1 (by omega)

/-- A receive keeps buffers alike that differ only in stale bytes. -/
theorem SameReceived.filled {io io' : ST_IOData} (h : SameReceived io io') (chunk : List UInt8) :
    SameReceived (filled io chunk) (ST_IOData.filled io' chunk) where
  curBytes := by
    show io'.CurBytes + _ = io.CurBytes + _
    rw [h.curBytes]
  dataPointer := h.dataPointer
  received := by rw [received_filled, received_filled, h.received]

/-- **One turn** on two such buffers: the same branch, and the same packet if the frame claims the
whole struct. -/
theorem pass_congr {io io' : ST_IOData} (h : SameReceived io io') :
    (pass packetSize Handler io = .exit ∧ pass packetSize Handler io' = .exit)
      ∨ (pass packetSize Handler io = .outOfTable ∧ pass packetSize Handler io' = .outOfTable)
      ∨ ∃ func, pass packetSize Handler io = .dispatch (callAt packetSize io func) (advance io)
        ∧ pass packetSize Handler io' = .dispatch (callAt packetSize io' func) (advance io')
        ∧ SameReceived (advance io) (advance io')
        ∧ (packetSize func ≤ io.headerSize io.DataPointer →
          (callAt packetSize io' func).passed = (callAt packetSize io func).passed) := by
  by_cases hready : FrameReady io
  · have hready' := h.frameReady_iff.mpr hready
    have hin : io.DataPointer + ST_IOHeader.sizeof ≤ io.CurBytes := by
      obtain ⟨hguard, hhead, -⟩ := hready
      omega
    obtain ⟨htype, hsize⟩ := h.header hin
    rw [pass_of_ready hready, pass_of_ready hready', htype]
    cases Handler[io.headerIOType io.DataPointer]? with
    | none => exact Or.inr (Or.inl ⟨rfl, rfl⟩)
    | some slot =>
        cases slot with
        | none => exact Or.inl ⟨rfl, rfl⟩
        | some func =>
            refine Or.inr (Or.inr ⟨func, rfl, rfl, ⟨h.curBytes, ?_, h.received⟩, fun hle => ?_⟩)
            · show io'.DataPointer + _ = io.DataPointer + _
              rw [hsize, h.dataPointer]
            · -- the struct ends inside the frame, and the frame inside the received bytes
              have hbody := hready.2.2
              show (func, read io'.Data io'.DataPointer (packetSize func)) = (func, _)
              rw [h.dataPointer, h.read_eq (by omega)]
              rfl
  · have hnot : ¬ FrameReady io' := fun hready' => hready (h.frameReady_iff.mp hready')
    exact Or.inl ⟨pass_exit_of_not_ready packetSize Handler hready,
      pass_exit_of_not_ready packetSize Handler hnot⟩

/-- **Any number of turns** on two such buffers pass the same packets to the same handlers, as long
as every frame claims its whole struct. -/
theorem loop_congr (n : Nat) {io io' : ST_IOData} (h : SameReceived io io')
    (hfull : ∀ head c io₁, LoopHead packetSize Handler io head →
      pass packetSize Handler head = .dispatch c io₁ → packetSize c.handler ≤ c.size) :
    (loop packetSize Handler n io').calls.map Call.passed
      = (loop packetSize Handler n io).calls.map Call.passed := by
  induction n generalizing io io' with
  | zero => rfl
  | succ n ih =>
      rcases pass_congr h with ⟨hexit, hexit'⟩ | ⟨hout, hout'⟩ | ⟨func, hpass, hpass', hnext, hpacket⟩
      · rw [loop_exit packetSize Handler hexit, loop_exit packetSize Handler hexit']
      · rw [loop, loop, hout, hout']
      · -- this turn passes the same packet, and the other turns start from buffers alike
        rw [loop_dispatch packetSize Handler hpass, loop_dispatch packetSize Handler hpass']
        have hrest := ih hnext (fun head c io₁ hhead hturn =>
          hfull head c io₁ (hhead.behind packetSize Handler hpass) hturn)
        have hone := hpacket (hfull io _ _ LoopHead.start hpass)
        rw [List.map_cons, List.map_cons, hrest, hone]

/-- A call's packet, size and place are those of the buffer it was made from. -/
theorem mem_calls_spec {n : Nat} {io : ST_IOData} {c : Call RequestHandler}
    (hc : c ∈ (loop packetSize Handler n io).calls) :
    c.size = io.headerSize c.pos ∧ c.packet = read io.Data c.pos (packetSize c.handler) :=
  (loop_spec packetSize Handler n io).sizes c hc

/-- A packet no longer than its frame is the front of the frame. -/
theorem packet_eq_take {n : Nat} {io : ST_IOData} {c : Call RequestHandler}
    (hc : c ∈ (loop packetSize Handler n io).calls) (hle : packetSize c.handler ≤ c.size) :
    c.packet = (frameBytes io c).take (packetSize c.handler) := by
  unfold frameBytes
  rw [ByteMemory.take_read _ _ hle]
  exact (mem_calls_spec hc).2

/-- The turns from a buffer dispatch frames that claim their whole structs. -/
theorem FullClaims.dispatched {io : ST_IOData} (h : FullClaims io.unread) {head io₁ : ST_IOData}
    {c : Call RequestHandler} (hhead : LoopHead packetSize Handler io head)
    (hturn : pass packetSize Handler head = .dispatch c io₁) : packetSize c.handler ≤ c.size := by
  obtain ⟨p, hp, rfl⟩ := (loopHead_unread_iff packetSize Handler io head).mp hhead
  obtain ⟨hready, -, func, rfl, hfunc⟩ := (pass_eq_dispatch packetSize Handler).mp hturn
  have hwhole := (frameReady_unread_iff io p).mp hready
  obtain ⟨htype, hsize⟩ := header_eq_claimed_unread io hwhole.1
  have hslot : Handler[claimedType io.unread p]? = some (some func) := by
    rw [← htype]
    exact hfunc
  have hle := h p func hp hwhole hslot
  rw [← hsize] at hle
  exact hle

/-- **Full claims are enough**: a receive whose frames claim their whole structs passes only bytes of
the frames themselves. -/
theorem ownBytes_of_fullClaims {io : ST_IOData} {chunk : List UInt8}
    (h : FullClaims (filled io chunk).unread) : OwnBytes io chunk where
  stale io' hsame n :=
    loop_congr n (hsame.filled chunk) fun _ _ _ hhead hturn => h.dispatched hhead hturn
  own n c hc io' chunk' n' c' hc' hfunc hframe := by
    obtain ⟨head, io₁, hhead, hturn⟩ := (mem_calls_iff packetSize Handler).mp ⟨n, hc⟩
    have hle := h.dispatched hhead hturn
    -- the frames are equally long, so the other frame is as long as its struct too
    have hsize : c'.size = c.size := by
      have hlen := congrArg List.length hframe
      unfold frameBytes at hlen
      rwa [ByteMemory.length_read, ByteMemory.length_read] at hlen
    rw [packet_eq_take hc hle, packet_eq_take hc' (by rw [hfunc, hsize]; exact hle), hframe, hfunc]

/-! ## §4. Full claims are needed. -/

/-- A struct goes on behind its header. -/
theorem header_lt_packetSize (h : RequestHandler) : ST_IOHeader.sizeof < packetSize h := by
  cases h <;> decide

/-- Frame starts depend on the headers that lead to them, and on no byte behind their own. -/
theorem FrameStart.of_take {bs bs' : List UInt8} {p : Nat} (h : FrameStart Handler bs p)
    (hlen : bs'.length = bs.length)
    (htake : bs'.take (p + ST_IOHeader.sizeof) = bs.take (p + ST_IOHeader.sizeof)) :
    FrameStart Handler bs' p := by
  induction h with
  | first => exact FrameStart.first
  | next hp hwhole hslot ih =>
      rename_i p _
      -- the header at `p` lies in front of the next one's end, so both have it
      have hfront : bs'.take (p + ST_IOHeader.sizeof) = bs.take (p + ST_IOHeader.sizeof) := by
        have := congrArg (List.take (p + ST_IOHeader.sizeof)) htake
        rwa [List.take_take, List.take_take, Nat.min_eq_left (by omega)] at this
      obtain ⟨htype, hsize⟩ := claimed_of_take hfront
      have hwhole' : WholeClaim bs' p := by
        unfold WholeClaim
        rw [hsize, hlen]
        exact hwhole
      rw [← htype] at hslot
      rw [← hsize]
      exact FrameStart.next (ih hfront) hwhole' hslot

/-- At a whole claim with a handler the loop calls the handler. -/
theorem exists_call {io : ST_IOData} {p : Nat} {func : RequestHandler}
    (hp : FrameStart Handler io.unread p) (hwhole : WholeClaim io.unread p)
    (hslot : Handler[claimedType io.unread p]? = some (some func)) :
    ∃ n, callAt packetSize (io.atPointer (io.DataPointer + p)) func
      ∈ (loop packetSize Handler n io).calls := by
  rw [mem_calls_iff]
  refine ⟨_, advance (io.atPointer (io.DataPointer + p)),
    (loopHead_unread_iff packetSize Handler io _).mpr ⟨p, hp, rfl⟩, ?_⟩
  rw [pass_eq_dispatch]
  refine ⟨(frameReady_unread_iff io p).mpr hwhole, rfl, func, rfl, ?_⟩
  show Handler[io.headerIOType (io.DataPointer + p)]? = _
  rw [(header_eq_claimed_unread io hwhole.1).1]
  exact hslot

/-- The buffer with another byte at an address. -/
def altered (io : ST_IOData) (a : Nat) : ST_IOData :=
  { io with Data := write io.Data a [io.Data a + 1] }

theorem length_unread_altered (io : ST_IOData) (a : Nat) :
    (altered io a).unread.length = io.unread.length := by
  rw [length_unread, length_unread]
  rfl

/-- The unread bytes in front of the altered one are the same. -/
theorem take_unread_altered {io : ST_IOData} {a n : Nat} (hlen : n ≤ io.unread.length)
    (ha : io.DataPointer + n ≤ a) : (altered io a).unread.take n = io.unread.take n := by
  rw [length_unread] at hlen
  unfold unread
  rw [ByteMemory.take_read _ _ hlen]
  show (read (altered io a).Data io.DataPointer (io.CurBytes - io.DataPointer)).take n = _
  rw [ByteMemory.take_read _ _ hlen]
  exact ByteMemory.read_write_before io.Data _ ha

theorem altered_byte_ne (io : ST_IOData) (a : Nat) :
    read (altered io a).Data a 1 ≠ read io.Data a 1 := by
  intro h
  have hnew : read (altered io a).Data a 1 = [io.Data a + 1] :=
    ByteMemory.read_write_self io.Data a [io.Data a + 1]
  have hold : read io.Data a 1 = [io.Data a] := rfl
  rw [hnew, hold, List.cons.injEq] at h
  have hone : (1 : UInt8) = 0 := by
    rw [← UInt8.add_right_inj (io.Data a), h.1, UInt8.add_zero]
  exact absurd hone (by decide)

/-- **A short claim lets foreign bytes in**: with another byte in the part of the struct the claim
does not cover, the same handler gets another packet for the same frame. -/
theorem short_claim_leaks {io : ST_IOData} {p : Nat} {func : RequestHandler}
    (hp : FrameStart Handler io.unread p) (hwhole : WholeClaim io.unread p)
    (hslot : Handler[claimedType io.unread p]? = some (some func))
    (hshort : claimedSize io.unread p < packetSize func) :
    ∃ (io' : ST_IOData) (c c' : Call RequestHandler) (n n' : Nat),
      c ∈ (loop packetSize Handler n io).calls ∧ c' ∈ (loop packetSize Handler n' io').calls
        ∧ c'.handler = c.handler ∧ frameBytes io' c' = frameBytes io c ∧ c'.packet ≠ c.packet := by
  have hhead := header_lt_packetSize func
  -- the last byte of the struct lies behind the header and behind the claimed bytes
  obtain ⟨k, hk⟩ : ∃ k, packetSize func = k + 1 := ⟨packetSize func - 1, by omega⟩
  obtain ⟨hlen, hfit⟩ := hwhole
  have hsame : (altered io (io.DataPointer + p + k)).unread.take (p + ST_IOHeader.sizeof)
      = io.unread.take (p + ST_IOHeader.sizeof) := take_unread_altered hlen (by omega)
  have hlength := length_unread_altered io (io.DataPointer + p + k)
  obtain ⟨htype, hsize⟩ := claimed_of_take hsame
  have hp' := hp.of_take hlength hsame
  have hwhole' : WholeClaim (altered io (io.DataPointer + p + k)).unread p := by
    unfold WholeClaim
    rw [hlength, hsize]
    exact ⟨hlen, hfit⟩
  have hslot' : Handler[claimedType (altered io (io.DataPointer + p + k)).unread p]?
      = some (some func) := by
    rw [htype]
    exact hslot
  obtain ⟨n, hc⟩ := exists_call hp ⟨hlen, hfit⟩ hslot
  obtain ⟨n', hc'⟩ := exists_call hp' hwhole' hslot'
  have hclaimed : io.headerSize (io.DataPointer + p) = claimedSize io.unread p :=
    (header_eq_claimed_unread io hlen).2
  have hclaimed' : (altered io (io.DataPointer + p + k)).headerSize (io.DataPointer + p)
      = claimedSize io.unread p := by
    rw [← hsize]
    exact (header_eq_claimed_unread _ hwhole'.1).2
  refine ⟨_, _, _, n, n', hc, hc', rfl, ?_, fun hpacket => ?_⟩
  · show read _ (io.DataPointer + p) (headerSize _ (io.DataPointer + p))
      = read io.Data (io.DataPointer + p) (io.headerSize (io.DataPointer + p))
    rw [hclaimed]
    show read _ _ ((altered io (io.DataPointer + p + k)).headerSize (io.DataPointer + p)) = _
    rw [hclaimed']
    exact ByteMemory.read_write_before io.Data _ (by omega)
  · -- the two packets are alike up to the last byte, which is the altered one
    have hbytes : read (altered io (io.DataPointer + p + k)).Data (io.DataPointer + p)
        (packetSize func) = read io.Data (io.DataPointer + p) (packetSize func) := hpacket
    rw [hk, ByteMemory.read_add, ByteMemory.read_add] at hbytes
    have hlast := List.append_inj_right hbytes (by simp)
    exact altered_byte_ne io _ hlast

/-! ## §5. Exactly when. -/

/-- **Handlers see only bytes of their own frame exactly when every frame claims its whole struct.**
For every buffer, wherever its pointer stands, and every receive: stale bytes make no difference
to what is passed to which handler, and every packet is determined by the bytes its frame's header
claims, if and only if every whole frame with a handler that the claimed sizes lead to in the
unread bytes claims at least the size of the handler's struct. -/
theorem own_bytes_iff (io : ST_IOData) (chunk : List UInt8) :
    OwnBytes io chunk ↔ FullClaims ((io.received ++ chunk).drop io.DataPointer) := by
  rw [← unread_filled]
  refine ⟨fun h p func hp hwhole hslot => ?_, ownBytes_of_fullClaims⟩
  by_contra hnot
  obtain ⟨io', c, c', n, n', hc, hc', hfunc, hframe, hne⟩ :=
    short_claim_leaks hp hwhole hslot (Nat.lt_of_not_le hnot)
  -- the altered buffer is the one of an empty receive
  have hfilled : filled io' [] = io' := by
    unfold filled
    rw [ByteMemory.write_nil]
    rfl
  rw [← hfilled] at hc' hframe
  exact hne (h.own n c hc io' [] n' c' hc' hfunc hframe)

/-- A `C_Login` header of 44 bytes that claims 44 bytes. -/
def shortLogin : List UInt8 := [3, 0, 0, 0, 44, 0, 0, 0] ++ List.replicate 36 0

/-- **Bytes of an earlier receive**: a whole login request, then a login header that claims 44 bytes.
The second request gets the `Id` and `Pw` of the first one; in a fresh buffer, which differs only
in the stale bytes, it gets zeros. -/
theorem earlier_login_leaks :
    ∃ io : ST_IOData,
      (receive packetSize Handler (OnAccept (fun _ => 0))
          ([3, 0, 0, 0, 92, 0, 0, 0] ++ List.replicate 84 65)).map Prod.fst = some io
        ∧ SameReceived (OnAccept (fun _ => 0)) io
        ∧ passed 1 io shortLogin = [(.RecvLoginRequest, shortLogin ++ List.replicate 48 65)]
        ∧ passed 1 (OnAccept (fun _ => 0)) shortLogin
          = [(.RecvLoginRequest, shortLogin ++ List.replicate 48 0)]
        ∧ ¬ OwnBytes (OnAccept (fun _ => 0)) shortLogin := by
  have hend : (receive packetSize Handler (OnAccept (fun _ => 0))
      ([3, 0, 0, 0, 92, 0, 0, 0] ++ List.replicate 84 65)).map
      (fun r => (r.1.CurBytes, r.1.DataPointer, passed 1 r.1 shortLogin))
      = some (0, 0, [(.RecvLoginRequest, shortLogin ++ List.replicate 48 65)]) := by
    decide +kernel
  obtain ⟨r, hr, hvalues⟩ := Option.map_eq_some_iff.mp hend
  rw [Prod.mk.injEq, Prod.mk.injEq] at hvalues
  obtain ⟨hcur, hptr, hpassed⟩ := hvalues
  have hfresh : passed 1 (OnAccept (fun _ => 0)) shortLogin
      = [(.RecvLoginRequest, shortLogin ++ List.replicate 48 0)] := by
    decide +kernel
  -- between the two receives the buffer holds nothing, so all its bytes are stale
  have hsame : SameReceived (OnAccept (fun _ => 0)) r.1 := by
    refine ⟨hcur, hptr, ?_⟩
    unfold received
    rw [hcur]
    rfl
  refine ⟨r.1, by rw [hr]; rfl, hsame, hpassed, hfresh, fun hown => ?_⟩
  have hequal := hown.stale r.1 hsame 1
  rw [hpassed, hfresh] at hequal
  exact absurd hequal (by decide)

end ST_IOData

end YServerCore
