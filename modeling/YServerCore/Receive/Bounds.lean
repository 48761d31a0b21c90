/-
  YServerCore.Receive.Bounds — the reads the receive loop makes while it dispatches.

  A turn of the loop reads a header, then a table entry, then a packet.  The two length checks
  bound the header, and they bound the frame by the size it claims; nothing bounds the type by
  the length of the table, and nothing bounds the packet struct, whose size the type fixes, by
  the claimed size.

  Main results:
    * `loopHead_unread_iff` — the loop comes to a position exactly when the claimed sizes lead there.
    * `readsInRange_iff` — one receive reads in range exactly when the claims it comes to are fair.
    * `reads_in_bounds_iff` — the same for every sequence of receives.
-/
import YServerCore.Receive.Framing

namespace YServerCore

open ByteMemory (Mem read leNat word32)
open RequestHandler (packetSize)
open PacketProcess (Handler)

/-! ## §1. The reads of one turn. -/

/-- A read made while dispatching. -/
inductive Access where
  /-- `sizeof(ST_IOHeader)` bytes of the data from an offset on. -/
  | header (off : Nat)
  /-- An entry of the handler table. -/
  | handler (index : Nat)
  /-- The bytes of a packet struct from an offset of the data on. -/
  | packet (off len : Nat)
  deriving DecidableEq, Repr

/-- The read stays inside what it reads from: the received bytes, the table, the array. -/
def Access.InRange (tableLength CurBytes : Nat) : Access → Prop
  | .header off => off + ST_IOHeader.sizeof ≤ CurBytes
  | .handler index => index < tableLength
  | .packet off len => off + len ≤ BUF_SIZE

namespace ST_IOData

variable {H : Type*} (packetSize : H → Nat) (table : HandlerTable H)

/-- The reads of one turn of the loop, in order. -/
def accesses (io : ST_IOData) : List Access :=
  if io.DataPointer < io.CurBytes then
    if io.CurBytes - io.DataPointer < ST_IOHeader.sizeof then []
    else if io.CurBytes - io.DataPointer < io.headerSize io.DataPointer then
      [.header io.DataPointer]
    else
      .header io.DataPointer :: .handler (io.headerIOType io.DataPointer) ::
        match table[io.headerIOType io.DataPointer]? with
        | some (some func) => [.packet io.DataPointer (packetSize func)]
        | _ => []
  else []

/-- **The reads of a turn**: the header when it is there; with a whole frame the table's entry, and the
packet when the entry has a handler. -/
theorem mem_accesses_iff {io : ST_IOData} {a : Access} :
    a ∈ accesses packetSize table io
      ↔ (a = .header io.DataPointer ∧ io.DataPointer < io.CurBytes
          ∧ ST_IOHeader.sizeof ≤ io.CurBytes - io.DataPointer)
        ∨ FrameReady io ∧ (a = .handler (io.headerIOType io.DataPointer)
          ∨ ∃ func, table[io.headerIOType io.DataPointer]? = some (some func)
            ∧ a = .packet io.DataPointer (packetSize func)) := by
  unfold accesses FrameReady
  by_cases hguard : io.DataPointer < io.CurBytes
  · by_cases hhead : io.CurBytes - io.DataPointer < ST_IOHeader.sizeof
    · rw [if_pos hguard, if_pos hhead]
      simp [Nat.not_le.mpr hhead]
    · by_cases hbody : io.CurBytes - io.DataPointer < io.headerSize io.DataPointer
      · rw [if_pos hguard, if_neg hhead, if_pos hbody]
        simp [hguard, Nat.not_lt.mp hhead, Nat.not_le.mpr hbody]
      · rw [if_pos hguard, if_neg hhead, if_neg hbody]
        cases hslot : table[io.headerIOType io.DataPointer]? with
        | none => simp [hguard, Nat.not_lt.mp hhead, Nat.not_lt.mp hbody]
        | some slot =>
            cases slot with
            | none => simp [hguard, Nat.not_lt.mp hhead, Nat.not_lt.mp hbody]
            | some func => simp [hguard, Nat.not_lt.mp hhead, Nat.not_lt.mp hbody]
  · rw [if_neg hguard]
    simp [hguard]

/-- The states the loop has at the head of its turns. -/
inductive LoopHead (io₀ : ST_IOData) : ST_IOData → Prop where
  | start : LoopHead io₀ io₀
  | turn {io io' : ST_IOData} {c : Call H} : LoopHead io₀ io →
      pass packetSize table io = .dispatch c io' → LoopHead io₀ io'

/-- The states behind the first turn are states of the whole loop. -/
theorem LoopHead.behind {io₀ io₁ io : ST_IOData} {c : Call H}
    (hpass : pass packetSize table io₀ = .dispatch c io₁) (h : LoopHead packetSize table io₁ io) :
    LoopHead packetSize table io₀ io := by
  induction h with
  | start => exact LoopHead.turn LoopHead.start hpass
  | turn _ hnext ih => exact LoopHead.turn ih hnext

/-- Every read of a receive is in range, however many turns its loop makes. -/
def ReadsInRange (io : ST_IOData) (chunk : List UInt8) : Prop :=
  ∀ head, LoopHead packetSize table (filled io chunk) head →
    ∀ a ∈ accesses packetSize table head, a.InRange table.length head.CurBytes

/-! ## §2. The claims in the received bytes. -/

/-- The type claimed by a header at a position of the bytes. -/
def claimedType (bs : List UInt8) (p : Nat) : Nat := leNat ((bs.drop p).take 4)

/-- The size claimed by a header at a position of the bytes. -/
def claimedSize (bs : List UInt8) (p : Nat) : Nat := leNat ((bs.drop (p + 4)).take 4)

/-- The claim at a position depends on the bytes up to the end of its header. -/
theorem claimed_of_take {bs bs' : List UInt8} {p : Nat}
    (h : bs'.take (p + ST_IOHeader.sizeof) = bs.take (p + ST_IOHeader.sizeof)) :
    claimedType bs' p = claimedType bs p ∧ claimedSize bs' p = claimedSize bs p := by
  have hword : ∀ k, k + 4 ≤ ST_IOHeader.sizeof → ∀ b : List UInt8,
      (b.drop (p + k)).take 4 = ((b.take (p + ST_IOHeader.sizeof)).drop (p + k)).take 4 := by
    intro k hk b
    rw [List.drop_take, List.take_take, Nat.min_eq_left (by omega)]
  unfold claimedType claimedSize
  have htype := hword 0 (by decide)
  rw [Nat.add_zero] at htype
  rw [htype bs', htype bs, hword 4 (by decide) bs', hword 4 (by decide) bs, h]
  exact ⟨rfl, rfl⟩

/-- A header at the position, and all the bytes it claims. -/
def WholeClaim (bs : List UInt8) (p : Nat) : Prop :=
  p + ST_IOHeader.sizeof ≤ bs.length ∧ p + claimedSize bs p ≤ bs.length

/-- The positions the claimed sizes lead to, over whole claims of types with a handler. -/
inductive FrameStart (bs : List UInt8) : Nat → Prop where
  | first : FrameStart bs 0
  | next {p : Nat} {func : H} : FrameStart bs p → WholeClaim bs p →
      table[claimedType bs p]? = some (some func) → FrameStart bs (p + claimedSize bs p)

/-- The claim names an entry of the table, and a size that is not below its handler's packet struct
where the struct would reach over the end of the array. -/
def FairClaim (bs : List UInt8) (p : Nat) : Prop :=
  claimedType bs p < table.length
    ∧ ∀ func, table[claimedType bs p]? = some (some func) →
        packetSize func ≤ claimedSize bs p ∨ p + packetSize func ≤ BUF_SIZE

/-- Every whole claim in the kept bytes and the new ones is fair. -/
def FairClaims (io : ST_IOData) (chunk : List UInt8) : Prop :=
  ∀ p, FrameStart table (io.received ++ chunk) p → WholeClaim (io.received ++ chunk) p →
    FairClaim packetSize table (io.received ++ chunk) p

/-! ## §3. The loop follows the claims. -/

/-- The state of the loop at a position. -/
def atPointer (io : ST_IOData) (p : Nat) : ST_IOData := { io with DataPointer := p }

/-- The loop's header at a distance from the pointer is the claim in the unread bytes. -/
theorem header_eq_claimed_unread (io : ST_IOData) {p : Nat}
    (h : p + ST_IOHeader.sizeof ≤ io.unread.length) :
    io.headerIOType (io.DataPointer + p) = claimedType io.unread p
      ∧ io.headerSize (io.DataPointer + p) = claimedSize io.unread p := by
  have hsz : ST_IOHeader.sizeof = 44 := rfl
  have htype := word_unread io (k := p) (by omega)
  have hsize := word_unread io (k := p + 4) (by omega)
  exact ⟨htype, hsize⟩

/-- A whole frame stands at a distance from the pointer exactly when the unread bytes have a whole
claim there. -/
theorem frameReady_unread_iff (io : ST_IOData) (p : Nat) :
    FrameReady (io.atPointer (io.DataPointer + p)) ↔ WholeClaim io.unread p := by
  unfold FrameReady WholeClaim
  show io.DataPointer + p < io.CurBytes
    ∧ ST_IOHeader.sizeof ≤ io.CurBytes - (io.DataPointer + p)
    ∧ io.headerSize (io.DataPointer + p) ≤ io.CurBytes - (io.DataPointer + p) ↔ _
  have hsz : ST_IOHeader.sizeof = 44 := rfl
  have hlen := length_unread io
  by_cases hhead : p + ST_IOHeader.sizeof ≤ io.unread.length
  · rw [(header_eq_claimed_unread io hhead).2]
    omega
  · exact ⟨fun h => absurd h.2.1 (by omega), fun h => absurd h.1 hhead⟩

/-- **The loop follows the claims**: from any pointer on, the states it comes to are the positions
the claimed sizes of the unread bytes lead to. -/
theorem loopHead_unread_iff (io₀ io : ST_IOData) :
    LoopHead packetSize table io₀ io
      ↔ ∃ p, FrameStart table io₀.unread p ∧ io = io₀.atPointer (io₀.DataPointer + p) := by
  refine ⟨fun h => ?_, fun h => ?_⟩
  · induction h with
    | start => exact ⟨0, FrameStart.first, rfl⟩
    | turn _ hpass ih =>
        -- a dispatching turn leaves a whole claim with a handler behind
        obtain ⟨p, hp, rfl⟩ := ih
        obtain ⟨hready, rfl, func, -, hfunc⟩ := (pass_eq_dispatch packetSize table).mp hpass
        have hwhole := (frameReady_unread_iff io₀ p).mp hready
        have hclaim := header_eq_claimed_unread io₀ hwhole.1
        have hslot : table[claimedType io₀.unread p]? = some (some func) := by
          rw [← hclaim.1]
          exact hfunc
        refine ⟨_, FrameStart.next hp hwhole hslot, ?_⟩
        rw [← hclaim.2, ← Nat.add_assoc]
        rfl
  · obtain ⟨p, hp, rfl⟩ := h
    induction hp with
    | first => exact LoopHead.start
    | next hp hwhole hfunc ih =>
        -- at a whole claim with a handler the loop dispatches
        rename_i p func
        have hclaim := header_eq_claimed_unread io₀ hwhole.1
        have hpass : pass packetSize table (io₀.atPointer (io₀.DataPointer + p))
            = .dispatch (callAt packetSize (io₀.atPointer (io₀.DataPointer + p)) func)
              (advance (io₀.atPointer (io₀.DataPointer + p))) := by
          rw [pass_eq_dispatch]
          refine ⟨(frameReady_unread_iff io₀ p).mpr hwhole, rfl, func, rfl, ?_⟩
          show table[io₀.headerIOType (io₀.DataPointer + p)]? = _
          rw [hclaim.1]
          exact hfunc
        have hnext : io₀.atPointer (io₀.DataPointer + (p + claimedSize io₀.unread p))
            = advance (io₀.atPointer (io₀.DataPointer + p)) := by
          rw [← hclaim.2, ← Nat.add_assoc]
          rfl
        rw [hnext]
        exact LoopHead.turn ih hpass

/-- With the pointer at the front everything received is unread. -/
theorem unread_of_front {io : ST_IOData} (hptr : io.DataPointer = 0) :
    io.unread = io.received := by
  unfold unread received
  rw [hptr, Nat.sub_zero]

/-- The loop's header at a position is the claim in the received bytes. -/
theorem header_eq_claimed (io : ST_IOData) {p : Nat}
    (h : p + ST_IOHeader.sizeof ≤ io.CurBytes) :
    io.headerIOType p = claimedType io.received p
      ∧ io.headerSize p = claimedSize io.received p := by
  have hfront : (io.atPointer 0).unread = io.received := unread_of_front rfl
  have hclaim := header_eq_claimed_unread (io.atPointer 0) (p := p)
  rw [hfront, length_received] at hclaim
  have hat : (io.atPointer 0).DataPointer + p = p := Nat.zero_add p
  rw [hat] at hclaim
  exact hclaim h

/-- A whole frame stands at the pointer exactly when the received bytes have a whole claim. -/
theorem frameReady_iff (io : ST_IOData) (p : Nat) :
    FrameReady (io.atPointer p) ↔ WholeClaim io.received p := by
  have hready := frameReady_unread_iff (io.atPointer 0) p
  have hat : (io.atPointer 0).DataPointer + p = p := Nat.zero_add p
  have hfront : (io.atPointer 0).unread = io.received := unread_of_front rfl
  rw [hat, hfront] at hready
  exact hready

/-- The loop that starts at the front follows the claims in the received bytes. -/
theorem loopHead_iff {io₀ : ST_IOData} (hptr : io₀.DataPointer = 0) (io : ST_IOData) :
    LoopHead packetSize table io₀ io
      ↔ ∃ p, FrameStart table io₀.received p ∧ io = io₀.atPointer p := by
  rw [loopHead_unread_iff, unread_of_front hptr, hptr]
  simp only [Nat.zero_add]

/-- The reads at a position are in range exactly when a whole claim there is fair. -/
theorem accesses_inRange_iff {io : ST_IOData} (hcur : io.CurBytes ≤ BUF_SIZE) (p : Nat) :
    (∀ a ∈ accesses packetSize table (io.atPointer p), a.InRange table.length io.CurBytes)
      ↔ (WholeClaim io.received p → FairClaim packetSize table io.received p) := by
  have hsz : ST_IOHeader.sizeof = 44 := rfl
  constructor
  · intro hreads hwhole
    have hready := (frameReady_iff io p).mpr hwhole
    -- the header is where the received bytes have the claim
    have hlen : p + ST_IOHeader.sizeof ≤ io.CurBytes := by
      rw [← length_received io]
      exact hwhole.1
    have htype := (header_eq_claimed io hlen).1
    refine ⟨?_, fun func hfunc => Or.inr ?_⟩
    · rw [← htype]
      exact hreads _ ((mem_accesses_iff packetSize table).mpr (Or.inr ⟨hready, Or.inl rfl⟩))
    · rw [← htype] at hfunc
      have hpacket := hreads _ ((mem_accesses_iff packetSize table).mpr
        (Or.inr ⟨hready, Or.inr ⟨func, hfunc, rfl⟩⟩))
      exact hpacket
  · intro hfair a ha
    rcases (mem_accesses_iff packetSize table).mp ha with ⟨rfl, hguard, hhead⟩ | ⟨hready, hread⟩
    · show p + ST_IOHeader.sizeof ≤ io.CurBytes
      have hlt : p < io.CurBytes := hguard
      have hle : ST_IOHeader.sizeof ≤ io.CurBytes - p := hhead
      omega
    · have hwhole := (frameReady_iff io p).mp hready
      have hlen : p + ST_IOHeader.sizeof ≤ io.CurBytes := by
        rw [← length_received io]
        exact hwhole.1
      have hfit : p + claimedSize io.received p ≤ io.CurBytes := by
        rw [← length_received io]
        exact hwhole.2
      have htype : (io.atPointer p).headerIOType (io.atPointer p).DataPointer
          = claimedType io.received p := (header_eq_claimed io hlen).1
      rw [htype] at hread
      rcases hread with rfl | ⟨func, hfunc, rfl⟩
      · exact (hfair hwhole).1
      · show p + packetSize func ≤ BUF_SIZE
        -- a struct that is no longer than the claim ends inside the received bytes
        rcases (hfair hwhole).2 func hfunc with hle | hle
        · omega
        · exact hle

/-- **One receive** reads in range exactly when every whole claim it comes to is fair. -/
theorem readsInRange_iff {io : ST_IOData} (hidle : Idle io) {chunk : List UInt8}
    (hfit : chunk.length ≤ BUF_SIZE - io.CurBytes) :
    ReadsInRange packetSize table io chunk ↔ FairClaims packetSize table io chunk := by
  have hptr : (filled io chunk).DataPointer = 0 := hidle.1
  have hcur : io.CurBytes ≤ BUF_SIZE := hidle.2
  have hcur' : (filled io chunk).CurBytes ≤ BUF_SIZE := by
    show io.CurBytes + chunk.length ≤ BUF_SIZE
    omega
  unfold ReadsInRange FairClaims
  rw [← received_filled]
  refine ⟨fun h p hp => ?_, fun h head hhead => ?_⟩
  · have hhead : LoopHead packetSize table (filled io chunk) ((filled io chunk).atPointer p) :=
      (loopHead_iff packetSize table hptr _).mpr ⟨p, hp, rfl⟩
    exact (accesses_inRange_iff packetSize table hcur' p).mp (h _ hhead)
  · obtain ⟨p, hp, rfl⟩ := (loopHead_iff packetSize table hptr head).mp hhead
    exact (accesses_inRange_iff packetSize table hcur' p).mpr (h p hp)

end ST_IOData

/-! ## §4. Whole sequences of receives. -/

namespace Receiving

/-- **Dispatching reads in range exactly while the claims are fair.**  For every sequence of
receives of arbitrary bytes: every header read lies in the received bytes, every index in the
table and every packet read in the array, in every receive, if and only if in every receive
each whole claim the loop comes to names an entry of the table, and a size that is not below its
packet struct where the struct would reach over the end of the array. -/
theorem reads_in_bounds_iff (behind : Mem) (chunks : List (List UInt8))
    (hfits : StepMachine.Along (step packetSize Handler) Fits (start behind) chunks) :
    StepMachine.Along (step packetSize Handler)
        (fun s chunk => ST_IOData.ReadsInRange packetSize Handler s.io chunk) (start behind) chunks
      ↔ StepMachine.Along (step packetSize Handler)
        (fun s chunk => ST_IOData.FairClaims packetSize Handler s.io chunk)
        (start behind) chunks := by
  refine StepMachine.along_congr (G := Fits) (I := fun s => s.io.Idle) ?_ ?_
    (ST_IOData.OnAccept_idle behind) hfits
  · intro s chunk s' hidle _ _ hstep
    exact step_idle packetSize Handler hidle hstep
  · intro s chunk hidle hfit
    exact ST_IOData.readsInRange_iff packetSize Handler hidle hfit.2

/-- A `C_Login` header that claims 92 bytes, and 48 bytes behind it. -/
def loginBytes : List UInt8 := [3, 0, 0, 0, 92, 0, 0, 0] ++ List.replicate 84 0

/-- A whole login request: the claims lead to its start and its end, and reads stay in range. -/
theorem reads_in_bounds_login :
    StepMachine.Along (step packetSize Handler)
      (fun s chunk => ST_IOData.ReadsInRange packetSize Handler s.io chunk)
      (start (fun _ => 0)) [loginBytes] := by
  have hpos : ∀ p, ST_IOData.FrameStart Handler loginBytes p → p = 0 ∨ p = 92 := by
    intro p hp
    induction hp with
    | first => exact Or.inl rfl
    | next _ hwhole _ ih =>
        rcases ih with rfl | rfl
        · exact Or.inr (by decide)
        · exact absurd hwhole.1 (by decide)
  refine (reads_in_bounds_iff (fun _ => 0) [loginBytes] (by decide +kernel)).mpr ?_
  refine ⟨fun p hp hwhole => ?_, fun _ _ => trivial⟩
  rcases hpos p hp with rfl | rfl
  · refine ⟨by decide, fun func _ => Or.inr ?_⟩
    show 0 + packetSize func ≤ BUF_SIZE
    cases func <;> decide
  · exact absurd hwhole.1 (by decide)

/-- The first read past its bounds: a header with the type 20 reads past the table, and a
`C_Login` header that claims 44 bytes at position 4052 of a full buffer has 92 bytes copied, 48 of
them from behind the array. -/
theorem reads_out_of_bounds :
    (¬ StepMachine.Along (step packetSize Handler)
        (fun s chunk => ST_IOData.ReadsInRange packetSize Handler s.io chunk)
        (start (fun _ => 0)) [[20, 0, 0, 0, 44, 0, 0, 0] ++ List.replicate 36 0])
      ∧ ¬ StepMachine.Along (step packetSize Handler)
        (fun s chunk => ST_IOData.ReadsInRange packetSize Handler s.io chunk)
        (start (fun _ => 0)) [[3, 0, 0, 0, 212, 15, 0, 0] ++ List.replicate 4044 0
          ++ ([3, 0, 0, 0, 44, 0, 0, 0] ++ List.replicate 36 0)] := by
  refine ⟨fun h => ?_, fun h => ?_⟩
  · have hfair := (ST_IOData.readsInRange_iff packetSize Handler
      (ST_IOData.OnAccept_idle _) (by decide)).mp h.1 0 ST_IOData.FrameStart.first
      ⟨by decide, by decide⟩
    exact absurd hfair.1 (by decide)
  · have hslot : Handler[E_IOType.C_Login.code]? = some (some .RecvLoginRequest) := by decide
    have hfair := (ST_IOData.readsInRange_iff packetSize Handler
      (ST_IOData.OnAccept_idle _) (by decide +kernel)).mp h.1 4052
      (ST_IOData.FrameStart.next ST_IOData.FrameStart.first
        ⟨by decide +kernel, by decide +kernel⟩ hslot)
      ⟨by decide +kernel, by decide +kernel⟩
    exact absurd (hfair.2 .RecvLoginRequest (by decide +kernel)) (by decide +kernel)

end Receiving

end YServerCore
