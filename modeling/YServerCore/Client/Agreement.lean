/-
  YServerCore.Client.Agreement — the server's receive loop and the client's copy of it.

  The two loops have the same statements, and tables of 20 and of 10 entries.  With the same types
  registered they dispatch the same frames and leave the same buffer, as long as they come to no
  frame whose type is an index of the one table and not of the other.  At such a frame the server
  finds an empty entry and leaves its loop, and the client reads behind its table.

  Main results:
    * `pass_same` — what one turn of each makes of the same buffer.
    * `loop_same` — any number of turns, while no type from 10 to 19 is come to.
    * `receive_loops_agree_iff` — on a receive the two agree exactly when the claimed sizes lead to
      no whole claim of such a type.
-/
import YServerCore.Client.Loop
import YServerCore.Receive.Bounds

namespace YServerCore

open ByteMemory (Mem read write word32)
open ST_IOData (LoopEnd LoopHead FrameReady FrameStart WholeClaim claimedSize claimedType advance callAt
  filled loop pass settle receive)

/-! ## §1. Tables and outcomes. -/

/-- A handler is registered for the type. -/
def Registered {H : Type*} (table : HandlerTable H) (IOType : Nat) : Prop :=
  ∃ func, table[IOType]? = some (some func)

/-- Tables of the server's and the client's length in which the same types are registered. -/
structure SameTypes {S C : Type*} (server : HandlerTable S) (client : HandlerTable C) : Prop where
  server_length : server.length = 20
  client_length : client.length = 10
  same : ∀ IOType, Registered server IOType ↔ Registered client IOType

/-- The type is an index of the server's table, and not of the client's. -/
def Between (IOType : Nat) : Prop := 10 ≤ IOType ∧ IOType < 20

instance (IOType : Nat) : Decidable (Between IOType) := inferInstanceAs (Decidable (_ ∧ _))

/-- Type, position and size of the frames calls were made for. -/
def dispatched {H : Type*} (Data : Mem) (calls : List (Call H)) : List (Nat × Nat × Nat) :=
  calls.map (fun c => (word32 Data c.pos, c.pos, c.size))

/-- What one pass leaves of the buffer. -/
def bufferOf (io : ST_IOData) : Mem × Nat × Nat := (io.Data, io.CurBytes, io.DataPointer)

/-- The two loops have come equally far, over the same frames, to the same buffer. -/
structure SameEnd {S C : Type*} (e : LoopEnd S) (e' : LoopEnd C) : Prop where
  outcome : e.outcome = e'.outcome
  buffer : bufferOf e.io = bufferOf e'.io
  frames : dispatched e.io.Data e.calls = dispatched e.io.Data e'.calls

/-- The same frame in front of the same. -/
theorem SameEnd.cons {S C : Type*} {e : LoopEnd S} {e' : LoopEnd C} (h : SameEnd e e') {c : Call S}
    {c' : Call C} (hpos : c.pos = c'.pos) (hsize : c.size = c'.size) :
    SameEnd { e with calls := c :: e.calls } { e' with calls := c' :: e'.calls } := by
  refine ⟨h.outcome, h.buffer, ?_⟩
  have hframes := h.frames
  unfold dispatched at hframes ⊢
  rw [List.map_cons, List.map_cons, hpos, hsize, hframes]

/-- **The two agree on a receive**: after any number of turns they have come equally far (so one leaves
its table, or never ends, exactly when the other does), and what they return is the same. -/
structure Agree {S C : Type*} (sizeS : S → Nat) (sizeC : C → Nat) (server : HandlerTable S)
    (client : HandlerTable C) (p : Platform) (io : ST_IOData) (chunk : List UInt8) : Prop where
  turns : ∀ n, SameEnd (loop sizeS server n (filled io chunk))
    (Client.whileLoop sizeC client n (Client.recv p io (.bytes chunk)))
  returned : (receive sizeS server io chunk).map
      (fun r => (bufferOf r.1, dispatched (filled io chunk).Data r.2))
    = (Client.recieveTurn sizeC client p io (.bytes chunk)).map
      (fun r => (bufferOf r.1, dispatched (filled io chunk).Data r.2))

/-! ## §2. One turn of each. -/

section

variable {S C : Type*} (sizeS : S → Nat) (sizeC : C → Nat) {server : HandlerTable S}
  {client : HandlerTable C}

/-- A type without a handler: an empty entry of the table, or no index of it. -/
theorem entry_of_not_registered {H : Type*} {table : HandlerTable H} {IOType : Nat}
    (h : ¬ Registered table IOType) :
    table[IOType]? = if IOType < table.length then some none else none := by
  by_cases hlt : IOType < table.length
  · rw [if_pos hlt, List.getElem?_eq_getElem hlt, Option.some.injEq]
    cases hslot : table[IOType] with
    | none => rfl
    | some func =>
        refine absurd ⟨func, ?_⟩ h
        rw [List.getElem?_eq_getElem hlt, hslot]
  · rw [if_neg hlt, List.getElem?_eq_none (Nat.not_lt.mp hlt)]

/-- A turn at a whole frame of a type without a handler. -/
theorem pass_not_registered {H : Type*} (packetSize : H → Nat) {table : HandlerTable H}
    {io : ST_IOData} (hready : FrameReady io)
    (h : ¬ Registered table (io.headerIOType io.DataPointer)) :
    pass packetSize table io
      = if io.headerIOType io.DataPointer < table.length then .exit else .outOfTable := by
  have hslot := entry_of_not_registered h
  obtain ⟨hguard, hhead, hbody⟩ := hready
  unfold ST_IOData.pass
  rw [if_pos hguard, if_neg (Nat.not_lt.mpr hhead), if_neg (Nat.not_lt.mpr hbody), hslot]
  by_cases hlt : io.headerIOType io.DataPointer < table.length
  · rw [if_pos hlt, if_pos hlt]
  · rw [if_neg hlt, if_neg hlt]

/-- At a whole frame of a type between the lengths the server leaves its loop, and the client its
table. -/
theorem pass_between (h : SameTypes server client) {io : ST_IOData} (hready : FrameReady io)
    (hbetween : Between (io.headerIOType io.DataPointer)) :
    pass sizeS server io = .exit ∧ pass sizeC client io = .outOfTable := by
  obtain ⟨hten, htwenty⟩ := hbetween
  have hclient : ¬ Registered client (io.headerIOType io.DataPointer) := by
    intro hreg
    obtain ⟨func, hfunc⟩ := hreg
    obtain ⟨hlt, -⟩ := List.getElem?_eq_some_iff.mp hfunc
    rw [h.client_length] at hlt
    omega
  have hserver : ¬ Registered server (io.headerIOType io.DataPointer) :=
    fun hreg => hclient ((h.same _).mp hreg)
  rw [pass_not_registered sizeS hready hserver, pass_not_registered sizeC hready hclient,
    h.server_length, h.client_length, if_pos htwenty, if_neg (Nat.not_lt.mpr hten)]
  exact ⟨rfl, rfl⟩

/-- What the two make of one buffer. -/
inductive PassSame (sizeS : S → Nat) (sizeC : C → Nat) (server : HandlerTable S)
    (client : HandlerTable C) (io : ST_IOData) : Prop where
  | dispatch (func : S) (func' : C) :
      pass sizeS server io = .dispatch (callAt sizeS io func) (advance io) →
      pass sizeC client io = .dispatch (callAt sizeC io func') (advance io) → PassSame ..
  | exit : pass sizeS server io = .exit → pass sizeC client io = .exit → PassSame ..
  | outOfTable : pass sizeS server io = .outOfTable → pass sizeC client io = .outOfTable →
      PassSame ..
  | apart : FrameReady io → Between (io.headerIOType io.DataPointer) → PassSame ..

/-- **One turn of each on the same buffer.** -/
theorem pass_same (h : SameTypes server client) (io : ST_IOData) :
    PassSame sizeS sizeC server client io := by
  by_cases hready : FrameReady io
  · by_cases hreg : Registered server (io.headerIOType io.DataPointer)
    · obtain ⟨func', hfunc'⟩ := (h.same _).mp hreg
      obtain ⟨func, hfunc⟩ := hreg
      exact .dispatch func func'
        ((ST_IOData.pass_eq_dispatch sizeS server).mpr ⟨hready, rfl, func, rfl, hfunc⟩)
        ((ST_IOData.pass_eq_dispatch sizeC client).mpr ⟨hready, rfl, func', rfl, hfunc'⟩)
    · have hserver := pass_not_registered sizeS hready hreg
      have hclient := pass_not_registered sizeC hready (fun hc => hreg ((h.same _).mpr hc))
      rw [h.server_length] at hserver
      rw [h.client_length] at hclient
      -- the type against the two lengths
      by_cases hten : io.headerIOType io.DataPointer < 10
      · rw [if_pos (by omega)] at hserver
        rw [if_pos hten] at hclient
        exact .exit hserver hclient
      · rw [if_neg hten] at hclient
        by_cases htwenty : io.headerIOType io.DataPointer < 20
        · rw [if_pos htwenty] at hserver
          exact .apart hready ⟨by omega, htwenty⟩
        · rw [if_neg htwenty] at hserver
          exact .outOfTable hserver hclient
  · exact .exit (ST_IOData.pass_exit_of_not_ready sizeS server hready)
      (ST_IOData.pass_exit_of_not_ready sizeC client hready)

/-! ## §3. Any number of turns. -/

/-- No turn comes to a whole frame of a type between the lengths. -/
def NeverBetween (sizeS : S → Nat) (server : HandlerTable S) (io : ST_IOData) : Prop :=
  ∀ head, LoopHead sizeS server io head → FrameReady head →
    ¬ Between (head.headerIOType head.DataPointer)

/-- **Any number of turns**, while no type between the lengths is come to. -/
theorem loop_same (h : SameTypes server client) (n : Nat) {io : ST_IOData}
    (hnever : NeverBetween sizeS server io) :
    SameEnd (loop sizeS server n io) (loop sizeC client n io) := by
  induction n generalizing io with
  | zero => exact ⟨rfl, rfl, rfl⟩
  | succ n ih =>
      cases pass_same sizeS sizeC h io with
      | exit hserver hclient =>
          rw [ST_IOData.loop_exit sizeS server hserver, ST_IOData.loop_exit sizeC client hclient]
          exact ⟨rfl, rfl, rfl⟩
      | outOfTable hserver hclient =>
          rw [loop, loop, hserver, hclient]
          exact ⟨rfl, rfl, rfl⟩
      | apart hready hbetween => exact absurd hbetween (hnever io .start hready)
      | dispatch func func' hserver hclient =>
          rw [ST_IOData.loop_dispatch sizeS server hserver,
            ST_IOData.loop_dispatch sizeC client hclient]
          have hrest : SameEnd (loop sizeS server n (advance io)) (loop sizeC client n (advance io)) :=
            ih (fun head hhead => hnever head (hhead.behind sizeS server hserver))
          -- the two calls are for the same frame, and the rest is the same
          exact hrest.cons rfl rfl

/-- From a state both loops come to, they go on as if they had started there. -/
theorem outcomes_from (h : SameTypes server client) {io head : ST_IOData}
    (hhead : LoopHead sizeS server io head) :
    ∃ k, ∀ n, (loop sizeS server (n + k) io).outcome = (loop sizeS server n head).outcome
      ∧ (loop sizeC client (n + k) io).outcome = (loop sizeC client n head).outcome := by
  induction hhead with
  | start => exact ⟨0, fun n => ⟨rfl, rfl⟩⟩
  | @turn head head' c _ hturn ih =>
      obtain ⟨k, hk⟩ := ih
      refine ⟨k + 1, fun n => ?_⟩
      have hnext := hk (n + 1)
      rw [Nat.add_right_comm] at hnext
      rw [← Nat.add_assoc, hnext.1, hnext.2]
      cases pass_same sizeS sizeC h head with
      | exit hserver _ => exact absurd (hserver.symm.trans hturn) (by simp)
      | outOfTable hserver _ => exact absurd (hserver.symm.trans hturn) (by simp)
      | apart hready hbetween =>
          have hserver := (pass_between sizeS sizeC h hready hbetween).1
          exact absurd (hserver.symm.trans hturn) (by simp)
      | dispatch func func' hserver hclient =>
          have hsame := hserver.symm.trans hturn
          injection hsame with _ hio
          subst hio
          rw [ST_IOData.loop_dispatch sizeS server hserver,
            ST_IOData.loop_dispatch sizeC client hclient]
          exact ⟨rfl, rfl⟩

/-- **The loops come equally far exactly when no type between the lengths is come to.** -/
theorem outcomes_same_iff (h : SameTypes server client) (io : ST_IOData) :
    (∀ n, SameEnd (loop sizeS server n io) (loop sizeC client n io))
      ↔ NeverBetween sizeS server io := by
  refine ⟨fun hsame head hhead hready hbetween => ?_, fun hnever n => loop_same sizeS sizeC h n hnever⟩
  obtain ⟨k, hk⟩ := outcomes_from sizeS sizeC h hhead
  have hone := hk 1
  rw [(hsame (1 + k)).outcome] at hone
  -- one turn from there the server has left its loop and the client its table
  obtain ⟨hserver, hclient⟩ := pass_between sizeS sizeC h hready hbetween
  rw [ST_IOData.loop_exit sizeS server hserver, loop, hclient] at hone
  exact absurd (hone.1.symm.trans hone.2) (by simp)

/-! ## §4. One receive. -/

/-- A turn neither looks at what the buffer is for nor changes it. -/
theorem pass_usage {H : Type*} (packetSize : H → Nat) (table : HandlerTable H) (io : ST_IOData)
    (u : E_IOUsage) :
    pass packetSize table { io with Usage := u }
      = match pass packetSize table io with
        | .exit => .exit
        | .outOfTable => .outOfTable
        | .dispatch c io' => .dispatch c { io' with Usage := u } := by
  have hready : FrameReady { io with Usage := u } ↔ FrameReady io := Iff.rfl
  by_cases hr : FrameReady io
  · by_cases hreg : Registered table (io.headerIOType io.DataPointer)
    · obtain ⟨func, hfunc⟩ := hreg
      rw [(ST_IOData.pass_eq_dispatch packetSize table).mpr ⟨hr, rfl, func, rfl, hfunc⟩]
      exact (ST_IOData.pass_eq_dispatch packetSize table).mpr
        ⟨hready.mpr hr, rfl, func, rfl, hfunc⟩
    · have hturn : pass packetSize table { io with Usage := u } = _ :=
        pass_not_registered packetSize (hready.mpr hr) hreg
      rw [hturn, pass_not_registered packetSize hr hreg]
      show (if io.headerIOType io.DataPointer < table.length then _ else _) = _
      by_cases hlt : io.headerIOType io.DataPointer < table.length
      · rw [if_pos hlt]
      · rw [if_neg hlt]
  · rw [ST_IOData.pass_exit_of_not_ready packetSize table hr]
    exact ST_IOData.pass_exit_of_not_ready packetSize table (fun h => hr (hready.mp h))

/-- Neither does any number of turns. -/
theorem loop_usage {H : Type*} (packetSize : H → Nat) (table : HandlerTable H) (n : Nat)
    (io : ST_IOData) (u : E_IOUsage) :
    SameEnd (loop packetSize table n io) (loop packetSize table n { io with Usage := u }) := by
  induction n generalizing io with
  | zero => exact ⟨rfl, rfl, rfl⟩
  | succ n ih =>
      rw [loop, loop, pass_usage packetSize table io u]
      cases pass packetSize table io with
      | exit => exact ⟨rfl, rfl, rfl⟩
      | outOfTable => exact ⟨rfl, rfl, rfl⟩
      | dispatch c io' => exact (ih io').cons rfl rfl

theorem SameEnd.trans {A B D : Type*} {a : LoopEnd A} {b : LoopEnd B} {d : LoopEnd D}
    (h : SameEnd a b) (h' : SameEnd b d) : SameEnd a d := by
  refine ⟨h.outcome.trans h'.outcome, h.buffer.trans h'.buffer, ?_⟩
  have hdata : a.io.Data = b.io.Data := congrArg Prod.fst h.buffer
  rw [h.frames, hdata]
  exact h'.frames

theorem SameEnd.symm {A B : Type*} {a : LoopEnd A} {b : LoopEnd B} (h : SameEnd a b) :
    SameEnd b a := by
  have hdata : a.io.Data = b.io.Data := congrArg Prod.fst h.buffer
  refine ⟨h.outcome.symm, h.buffer.symm, ?_⟩
  rw [← hdata]
  exact h.frames.symm

/-- What stands behind the loops makes the same of the same buffer. -/
theorem bufferOf_settle {io io' : ST_IOData} (h : bufferOf io = bufferOf io') :
    bufferOf (settle io) = bufferOf (settle io') := by
  unfold bufferOf at h
  rw [Prod.mk.injEq, Prod.mk.injEq] at h
  obtain ⟨hdata, hcur, hptr⟩ := h
  unfold settle bufferOf
  rw [hdata, hcur, hptr]
  by_cases hfull : io'.CurBytes = BUF_SIZE
  · rw [if_pos hfull, if_pos hfull]
  · rw [if_neg hfull, if_neg hfull]

/-- The client's turns, from where the server's loop starts. -/
theorem whileLoop_same (p : Platform) {io : ST_IOData} {chunk : List UInt8}
    (hfits : io.CurBytes + chunk.length ≤ BUF_SIZE) (n : Nat) :
    SameEnd (loop sizeC client n (filled io chunk))
      (Client.whileLoop sizeC client n (Client.recv p io (.bytes chunk))) := by
  rw [Client.whileLoop_eq_loop, Client.recv_bytes p hfits]
  exact loop_usage sizeC client n (filled io chunk) .Read

/-- Loops that come equally far return the same. -/
theorem returned_same (p : Platform) {io : ST_IOData} {chunk : List UInt8} (hchunk : chunk ≠ [])
    (hfits : io.CurBytes + chunk.length ≤ BUF_SIZE)
    (hturns : ∀ n, SameEnd (loop sizeS server n (filled io chunk))
      (Client.whileLoop sizeC client n (Client.recv p io (.bytes chunk)))) :
    (receive sizeS server io chunk).map
        (fun r => (bufferOf r.1, dispatched (filled io chunk).Data r.2))
      = (Client.recieveTurn sizeC client p io (.bytes chunk)).map
        (fun r => (bufferOf r.1, dispatched (filled io chunk).Data r.2)) := by
  have hcur : (Client.recv p io (.bytes chunk)).CurBytes = (filled io chunk).CurBytes :=
    p.toSize_bytes hfits
  have hlen : chunk.length ≠ 0 := fun h => hchunk (List.length_eq_zero_iff.mp h)
  rw [ST_IOData.receive_eq, if_neg hlen]
  unfold Client.recieveTurn
  simp only [hcur]
  have hsame := hturns ((filled io chunk).CurBytes + 1)
  have hdata := (ST_IOData.loop_spec sizeS server ((filled io chunk).CurBytes + 1)
    (filled io chunk)).data
  generalize loop sizeS server ((filled io chunk).CurBytes + 1) (filled io chunk) = e at hsame hdata ⊢
  generalize Client.whileLoop sizeC client ((filled io chunk).CurBytes + 1)
    (Client.recv p io (.bytes chunk)) = e' at hsame ⊢
  by_cases hexit : e.outcome = .exit
  · have hframes := hsame.frames
    rw [hdata] at hframes
    rw [if_pos hexit, if_pos (hsame.outcome.symm.trans hexit), Option.map_some, Option.map_some,
      hframes]
    show some (bufferOf (settle e.io), _) = some (bufferOf (settle e'.io), _)
    rw [bufferOf_settle hsame.buffer]
  · rw [if_neg hexit, if_neg (fun h => hexit (hsame.outcome.trans h))]
    rfl

/-- What the loop comes to, in terms of the claims in the received bytes. -/
theorem neverBetween_iff {io : ST_IOData} (hptr : io.DataPointer = 0) (chunk : List UInt8) :
    NeverBetween sizeS server (filled io chunk)
      ↔ ∀ q, FrameStart server (io.received ++ chunk) q → WholeClaim (io.received ++ chunk) q →
          ¬ Between (claimedType (io.received ++ chunk) q) := by
  have hfront : (filled io chunk).DataPointer = 0 := hptr
  have hbytes := ST_IOData.received_filled io chunk
  -- a head of the loop is a position the claimed sizes lead to
  have htype : ∀ q, WholeClaim (io.received ++ chunk) q →
      (filled io chunk).headerIOType q = claimedType (io.received ++ chunk) q := by
    intro q hwhole
    rw [← hbytes] at hwhole ⊢
    have hin : q + ST_IOHeader.sizeof ≤ (filled io chunk).CurBytes := by
      rw [← ST_IOData.length_received]
      exact hwhole.1
    exact (ST_IOData.header_eq_claimed _ hin).1
  constructor
  · intro hnever q hq hwhole hbetween
    rw [← hbytes] at hq
    have hhead := (ST_IOData.loopHead_iff sizeS server hfront _).mpr ⟨q, hq, rfl⟩
    refine hnever _ hhead ((ST_IOData.frameReady_iff _ q).mpr (hbytes ▸ hwhole)) ?_
    show Between ((filled io chunk).headerIOType q)
    rw [htype q hwhole]
    exact hbetween
  · intro hclaims head hhead hready hbetween
    obtain ⟨q, hq, rfl⟩ := (ST_IOData.loopHead_iff sizeS server hfront _).mp hhead
    have hwhole := (ST_IOData.frameReady_iff _ q).mp hready
    rw [hbytes] at hq hwhole
    refine hclaims q hq hwhole ?_
    rw [← htype q hwhole]
    exact hbetween

/-- **The two loops agree exactly when no type between the lengths is come to.**  For tables of 20 and
10 entries with the same types registered, every read state with the pointer at the front, every
chunk that fits, and either platform: no whole claim that the claimed sizes lead to, in the kept
bytes and the new ones, is of a type from 10 to 19. -/
theorem receive_loops_agree_iff (h : SameTypes server client) (p : Platform) (io : ST_IOData)
    (hptr : io.DataPointer = 0) (chunk : List UInt8) (hchunk : chunk ≠ [])
    (hfits : io.CurBytes + chunk.length ≤ BUF_SIZE) :
    Agree sizeS sizeC server client p io chunk
      ↔ ∀ q, FrameStart server (io.received ++ chunk) q → WholeClaim (io.received ++ chunk) q →
          ¬ Between (claimedType (io.received ++ chunk) q) := by
  rw [← neverBetween_iff sizeS hptr chunk, ← outcomes_same_iff sizeS sizeC h]
  constructor
  · intro hagree n
    exact (hagree.turns n).trans (whileLoop_same sizeC p hfits n).symm
  · intro hsame
    have hturns := fun n => (hsame n).trans (whileLoop_same sizeC p hfits n)
    exact ⟨hturns, returned_same sizeS sizeC p hchunk hfits hturns⟩

end

/-- The client's registrations on a table of the server's length. -/
def longTable : HandlerTable ClientHandler := Client.SetHandler (List.replicate 20 none)

/-- With `S_Chat` registered alone, the two tables have the same types. -/
theorem sameTypes_longTable : SameTypes longTable Client.Handler where
  server_length := by decide
  client_length := by decide
  same IOType := by
    by_cases hlt : IOType < 10
    · have hall : ∀ k < 10, longTable[k]? = Client.Handler[k]? := by decide
      unfold Registered
      rw [hall IOType hlt]
    · have hlong : ∀ k < 20, 10 ≤ k → longTable[k]? = some none := by decide
      have hclient : Client.Handler[IOType]? = none := List.getElem?_eq_none (Nat.not_lt.mp hlt)
      unfold Registered
      rw [hclient]
      refine ⟨fun h => ?_, fun h => absurd h (by simp)⟩
      obtain ⟨func, hfunc⟩ := h
      by_cases htwenty : IOType < 20
      · rw [hlong IOType htwenty (Nat.not_lt.mp hlt)] at hfunc
        exact absurd hfunc (by simp)
      · rw [List.getElem?_eq_none (by show 20 ≤ IOType; omega)] at hfunc
        exact absurd hfunc (by simp)

/-- A header of this type that claims 44 bytes. -/
def headerOf (IOType : UInt8) : List UInt8 := [IOType, 0, 0, 0, 44, 0, 0, 0] ++ List.replicate 36 0

/-- A chat frame, and behind it a header of type 0. -/
def chatThenNone : List UInt8 :=
  [6, 0, 0, 0, 68, 2, 0, 0] ++ List.replicate 572 0 ++ headerOf 0

/-- The claims in it lead to its front and to the header behind the chat. -/
theorem frameStart_chatThenNone {q : Nat} (h : FrameStart longTable chatThenNone q) :
    q = 0 ∨ q = 580 := by
  induction h with
  | first => exact Or.inl rfl
  | next _ _ hfunc ih =>
      rcases ih with rfl | rfl
      · have hsize : claimedSize chatThenNone 0 = 580 := by decide +kernel
        exact Or.inr (by omega)
      · -- a header of type 0 has no handler
        have hnone : longTable[claimedType chatThenNone 580]? = some none := by decide +kernel
        rw [hnone] at hfunc
        exact absurd hfunc (by simp)

/-- Both dispatch the chat frame, and leave their loop on the header of type 0. -/
theorem receive_loops_agree_chat :
    (receive ClientHandler.packetSize longTable (ST_IOData.OnAccept (fun _ => 0)) chatThenNone).map
        (fun r => r.2.length) = some 1
      ∧ Agree ClientHandler.packetSize ClientHandler.packetSize longTable Client.Handler .x64
        (ST_IOData.OnAccept (fun _ => 0)) chatThenNone := by
  refine ⟨by decide +kernel, (receive_loops_agree_iff _ _ sameTypes_longTable .x64 _ rfl chatThenNone
    (by decide +kernel) (by decide +kernel)).mpr ?_⟩
  intro q hq _
  have hbytes : (ST_IOData.OnAccept (fun _ => 0)).received ++ chatThenNone = chatThenNone := rfl
  rw [hbytes] at hq ⊢
  rcases frameStart_chatThenNone hq with rfl | rfl
  · decide +kernel
  · decide +kernel

/-- **The client reads behind its table** on a header of type 15, where the server leaves its loop and
receives on. -/
theorem type_fifteen_apart :
    (receive ClientHandler.packetSize longTable (ST_IOData.OnAccept (fun _ => 0))
        (headerOf 15)).map (fun r => (r.1.CurBytes, r.1.DataPointer, r.2)) = some (0, 0, [])
      ∧ (Client.recieveTurn ClientHandler.packetSize Client.Handler .x64
          (ST_IOData.OnAccept (fun _ => 0)) (.bytes (headerOf 15))).isNone = true
      ∧ (Client.whileLoop ClientHandler.packetSize Client.Handler 1 (Client.recv .x64
          (ST_IOData.OnAccept (fun _ => 0)) (.bytes (headerOf 15)))).outcome = .outOfTable
      ∧ ¬ Agree ClientHandler.packetSize ClientHandler.packetSize longTable Client.Handler .x64
        (ST_IOData.OnAccept (fun _ => 0)) (headerOf 15) := by
  have hserver : (loop ClientHandler.packetSize longTable 1
      (filled (ST_IOData.OnAccept (fun _ => 0)) (headerOf 15))).outcome = .exit := by
    decide +kernel
  have hclient : (Client.whileLoop ClientHandler.packetSize Client.Handler 1 (Client.recv .x64
      (ST_IOData.OnAccept (fun _ => 0)) (.bytes (headerOf 15)))).outcome = .outOfTable := by
    decide +kernel
  refine ⟨by decide +kernel, by decide +kernel, hclient, fun hagree => ?_⟩
  have hsame := (hagree.turns 1).outcome
  rw [hserver, hclient] at hsame
  exact absurd hsame (by simp)

end YServerCore
