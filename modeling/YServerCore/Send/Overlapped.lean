/-
  YServerCore.Send.Overlapped — sends that are still pending when `WSASend` returns.

  An overlapped send owns its range of the write buffer, and the one `OVERLAPPED` of the buffer,
  until its completion; which of the contents the range has had in between reach the peer is up
  to the system, byte by byte.  `Send` resets `CurBytes` as soon as `WSASend` returns, so the next
  copy goes to the front of the buffer whether the send has completed or not.

  Main results:
    * `stable_iff_inTurn` — one section leaves the pending sends alone exactly when it waits for
      them.
    * `posted_send_stable_iff` — in every run the pending sends are left alone and the peer gets
      the packets in order exactly when every section waits for them.
-/
import YServerCore.Send.SendPacket

namespace YServerCore

open ByteMemory (Mem read write word32)

/-! ## §1. Pending sends. -/

/-- A send the system has not completed: its range, and the contents the range has had since. -/
structure PendingSend where
  off : Nat
  len : Nat
  contents : List (List UInt8)
  deriving DecidableEq, Repr

/-- The content of the range after a write to the buffer. -/
def PendingSend.see (p : PendingSend) (Data : Mem) : PendingSend :=
  { p with contents := p.contents ++ [read Data p.off p.len] }

/-- What the system may deliver: of every byte of the range, one it has had since the post. -/
def PendingSend.Delivers (p : PendingSend) (bytes : List UInt8) : Prop :=
  bytes.length = p.len ∧ ∀ i < p.len, ∃ content ∈ p.contents, bytes[i]? = content[i]?

instance (p : PendingSend) (bytes : List UInt8) : Decidable (p.Delivers bytes) :=
  inferInstanceAs (Decidable (_ ∧ _))

/-- What the callers and the system do to one session. -/
inductive OverlappedAction (τ : Type*) where
  /-- A new call of `SendPacket`, up to the end of its first section. -/
  | copy (t : τ) (Packet : Mem)
  /-- The second section, up to the return. -/
  | post (t : τ)
  /-- The system completes the oldest pending send, having delivered these bytes, and a worker handles
  the completion. -/
  | complete (bytes : List UInt8)

/-- The write side of a session and its peer: the buffer, the pending sends in the order of their
posts, what the peer has received, the packets in the order of their copies, the threads between
their sections, and whether a completion has closed the session. -/
structure OverlappedSending (τ : Type*) where
  io : ST_IOData
  pending : List PendingSend := []
  peer : List UInt8 := []
  copied : List (List UInt8) := []
  calls : τ → Bool := fun _ => false
  closed : Bool := false

namespace OverlappedSending

variable {τ : Type*} [DecidableEq τ]

/-- A freshly accepted session. -/
def start (Data : Mem) : OverlappedSending τ where
  io := { Usage := .Write, Data := Data }

/-- One section of one thread, or one completion; a closed session has none. -/
def step (s : OverlappedSending τ) (a : OverlappedAction τ) : Option (OverlappedSending τ) :=
  if s.closed then none
  else
    match a with
    | .copy t Packet =>
        if s.calls t then none
        else
          (s.io.copyPacket Packet).map (fun io =>
            { s with
              io := io
              pending := s.pending.map (fun p => p.see io.Data)
              copied := s.copied ++ [packetBytes Packet]
              calls := Function.update s.calls t true })
    | .post t =>
        if s.calls t then
          some { s with
            io := s.io.Send.1
            pending := s.pending ++
              [⟨s.io.Send.2.1, s.io.Send.2.2, [read s.io.Data s.io.Send.2.1 s.io.Send.2.2]⟩]
            calls := Function.update s.calls t false }
        else none
    | .complete bytes =>
        match s.pending with
        | [] => none
        | p :: rest =>
            if p.Delivers bytes then
              some { s with
                pending := rest
                peer := s.peer ++ bytes
                closed := ST_IOData.sendCompleted bytes.length }
            else none

/-! ## §2. What the sections may do, and what the peer gets. -/

/-- The section leaves the pending sends alone: a copy writes into none of their ranges, and a post
does not use the `OVERLAPPED` of one. -/
def Stable (s : OverlappedSending τ) : OverlappedAction τ → Prop
  | .copy _ Packet => ∀ p ∈ s.pending, ∀ i,
      ¬ ((s.io.CurBytes ≤ i ∧ i < s.io.CurBytes + word32 Packet 4)
        ∧ (p.off ≤ i ∧ i < p.off + p.len))
  | .post _ => s.pending = []
  | .complete _ => True

/-- The peer has received the packets in the order of their copies, and all bytes that are neither
pending nor unsent. -/
def Delivered (s : OverlappedSending τ) : Prop :=
  s.peer <+: s.copied.flatten
    ∧ (s.pending = [] → s.peer ++ s.io.unsent = s.copied.flatten)

/-- The section waits for the pending sends: bytes are copied only while no byte is pending, and a
post is made only while no send is pending. -/
def InTurn (s : OverlappedSending τ) : OverlappedAction τ → Prop
  | .copy _ Packet => word32 Packet 4 = 0 ∨ ∀ p ∈ s.pending, p.len = 0
  | .post _ => s.pending = []
  | .complete _ => True

instance (s : OverlappedSending τ) (a : OverlappedAction τ) : Decidable (InTurn s a) := by
  cases a <;> unfold InTurn <;> infer_instance

/-! ## §3. Sections that wait. -/

/-- The pending bytes of a session whose sections wait: there is at most one pending send, its range
has had one content, and nothing is unsent in front of that range's end. -/
structure Quiet (s : OverlappedSending τ) (bytes : List UInt8) : Prop where
  stream : s.peer ++ bytes ++ s.io.unsent = s.copied.flatten
  front : bytes ≠ [] → s.io.CurBytes = 0
  held : read s.io.Data 0 bytes.length = bytes
  pending : (s.pending = [] ∧ bytes = []) ∨ ∃ p, s.pending = [p] ∧ p.off = 0
    ∧ p.len = bytes.length ∧ ∀ content ∈ p.contents, content = bytes

omit [DecidableEq τ] in
theorem quiet_start (Data : Mem) : Quiet (start Data : OverlappedSending τ) [] where
  stream := rfl
  front h := absurd rfl h
  held := rfl
  pending := Or.inl ⟨rfl, rfl⟩

/-- A range with one content delivers it. -/
theorem delivers_eq {p : PendingSend} {bytes got : List UInt8} (hlen : p.len = bytes.length)
    (hone : ∀ content ∈ p.contents, content = bytes) (h : p.Delivers got) : got = bytes := by
  obtain ⟨hgot, hbytes⟩ := h
  refine List.ext_getElem? fun i => ?_
  by_cases hi : i < p.len
  · obtain ⟨content, hmem, heq⟩ := hbytes i hi
    rw [heq, hone content hmem]
  · rw [List.getElem?_eq_none (by omega), List.getElem?_eq_none (by omega)]

omit [DecidableEq τ] in
/-- **In a quiet session a section leaves the pending send alone exactly when it waits for it.** -/
theorem stable_iff_inTurn {s : OverlappedSending τ} {bytes : List UInt8} (h : Quiet s bytes)
    (a : OverlappedAction τ) : Stable s a ↔ InTurn s a := by
  cases a with
  | post t => exact Iff.rfl
  | complete got => exact Iff.rfl
  | copy t Packet =>
      unfold Stable InTurn
      refine ⟨fun hstable => ?_, fun hturn p hp i hi => ?_⟩
      · by_cases hsize : word32 Packet 4 = 0
        · exact Or.inl hsize
        · apply Or.inr
          intro p hp
          by_contra hlen
          -- a pending byte leaves the unsent part empty, so the copy starts on that byte
          rcases h.pending with hnil | hone
          · rw [hnil.1] at hp
            exact absurd hp (by simp)
          · obtain ⟨q, hq, hoff, hqlen, -⟩ := hone
            rw [hq, List.mem_singleton] at hp
            subst hp
            have hne : bytes ≠ [] := by
              intro hnil
              rw [hnil] at hqlen
              exact hlen hqlen
            have hcur := h.front hne
            refine hstable p (by rw [hq]; exact List.mem_singleton.mpr rfl) 0 ?_
            omega
      · rcases hturn with hsize | hlen
        · omega
        · have := hlen p hp
          omega

omit [DecidableEq τ] in
/-- While a byte is pending, a copy that waits copies nothing. -/
theorem Quiet.size_eq_zero {s : OverlappedSending τ} {bytes : List UInt8} (h : Quiet s bytes)
    (hne : bytes ≠ []) {t : τ} {Packet : Mem} (hturn : InTurn s (.copy t Packet)) :
    word32 Packet 4 = 0 := by
  rcases hturn with hsize | hlen
  · exact hsize
  · rcases h.pending with hnil | hone
    · exact absurd hnil.2 hne
    · obtain ⟨p, hp, -, hplen, -⟩ := hone
      have hzero := hlen p (by rw [hp]; exact List.mem_singleton.mpr rfl)
      rw [hplen] at hzero
      exact absurd (List.length_eq_zero_iff.mp hzero) hne

omit [DecidableEq τ] in
/-- Without a pending send no byte is pending. -/
theorem Quiet.bytes_eq_nil {s : OverlappedSending τ} {bytes : List UInt8} (h : Quiet s bytes)
    (hnone : s.pending = []) : bytes = [] := by
  rcases h.pending with hnil | hone
  · exact hnil.2
  · obtain ⟨p, hp, -⟩ := hone
    rw [hnone] at hp
    exact absurd hp (by simp)

omit [DecidableEq τ] in
/-- The peer of a quiet session has what `Delivered` asks for. -/
theorem Quiet.delivered {s : OverlappedSending τ} {bytes : List UInt8} (h : Quiet s bytes) :
    Delivered s := by
  refine ⟨⟨bytes ++ s.io.unsent, ?_⟩, fun hnone => ?_⟩
  · rw [← List.append_assoc]
    exact h.stream
  · have hempty := h.bytes_eq_nil hnone
    have hstream := h.stream
    rw [hempty, List.append_nil] at hstream
    exact hstream

/-- A copy that waits: the range keeps its content, as nothing is written or it has no bytes. -/
theorem Quiet.copy {s : OverlappedSending τ} {bytes : List UInt8} (hq : Quiet s bytes) {t : τ}
    {Packet : Mem} {io : ST_IOData} (hturn : InTurn s (.copy t Packet))
    (hcopy : s.io.copyPacket Packet = some io) :
    Quiet { s with
      io := io
      pending := s.pending.map (fun p => p.see io.Data)
      copied := s.copied ++ [packetBytes Packet]
      calls := Function.update s.calls t true } bytes := by
  obtain ⟨hunsent, -, hcur, hdata⟩ := ST_IOData.copyPacket_spec hcopy
  have hheld : read io.Data 0 bytes.length = bytes := by
    rw [hdata]
    by_cases hempty : bytes = []
    · rw [hempty]
      rfl
    · have hnil : packetBytes Packet = [] := by
        rw [← List.length_eq_zero_iff, length_packetBytes]
        exact hq.size_eq_zero hempty hturn
      rw [hnil, ByteMemory.write_nil]
      exact hq.held
  constructor
  · show s.peer ++ bytes ++ io.unsent = (s.copied ++ [packetBytes Packet]).flatten
    rw [hunsent, List.flatten_append, List.flatten_singleton, ← hq.stream, List.append_assoc,
      List.append_assoc, List.append_assoc]
  · intro hne
    show io.CurBytes = 0
    rw [hcur, hq.front hne, hq.size_eq_zero hne hturn]
  · exact hheld
  · rcases hq.pending with hnil | hone
    · refine Or.inl ⟨?_, hnil.2⟩
      show s.pending.map _ = []
      rw [hnil.1]
      rfl
    · obtain ⟨p, hp, hoff, hlen, hcontents⟩ := hone
      refine Or.inr ⟨p.see io.Data, ?_, hoff, hlen, fun content hmem => ?_⟩
      · show s.pending.map _ = _
        rw [hp]
        rfl
      · rcases List.mem_append.mp hmem with hold | hnew
        · exact hcontents content hold
        · rw [List.mem_singleton.mp hnew, hoff, hlen]
          exact hheld

/-- A post that waits: the unsent bytes become the pending ones. -/
theorem Quiet.post {s : OverlappedSending τ} {bytes : List UInt8} (hq : Quiet s bytes)
    (hnone : s.pending = []) (t : τ) :
    Quiet { s with
      io := s.io.Send.1
      pending := s.pending ++
        [⟨s.io.Send.2.1, s.io.Send.2.2, [read s.io.Data s.io.Send.2.1 s.io.Send.2.2]⟩]
      calls := Function.update s.calls t false } s.io.unsent := by
  have hempty := hq.bytes_eq_nil hnone
  constructor
  · show s.peer ++ s.io.unsent ++ [] = s.copied.flatten
    rw [List.append_nil, ← hq.stream, hempty, List.append_nil]
  · intro _
    rfl
  · show read s.io.Data 0 s.io.unsent.length = s.io.unsent
    rw [ST_IOData.length_unsent]
    rfl
  · refine Or.inr ⟨⟨0, s.io.CurBytes, [s.io.unsent]⟩, ?_, rfl, ?_, ?_⟩
    · show s.pending ++ [_] = [_]
      rw [hnone]
      rfl
    · exact (ST_IOData.length_unsent s.io).symm
    · intro content hmem
      exact List.mem_singleton.mp hmem

omit [DecidableEq τ] in
/-- A completion: the range has had one content only, so that is what the peer gets. -/
theorem Quiet.complete {s : OverlappedSending τ} {bytes got : List UInt8} (hq : Quiet s bytes)
    {p : PendingSend} {rest : List PendingSend} (hp : s.pending = p :: rest) (hgot : p.Delivers got) :
    Quiet { s with
      pending := rest
      peer := s.peer ++ got
      closed := ST_IOData.sendCompleted got.length } [] := by
  rcases hq.pending with hnil | hone
  · rw [hnil.1] at hp
    exact absurd hp (by simp)
  · obtain ⟨q, hq', -, hlen, hcontents⟩ := hone
    rw [hq', List.cons.injEq] at hp
    obtain ⟨rfl, rfl⟩ := hp
    have hsame : got = bytes := delivers_eq hlen hcontents hgot
    constructor
    · show s.peer ++ got ++ [] ++ s.io.unsent = s.copied.flatten
      rw [List.append_nil, hsame, hq.stream]
    · intro hne
      exact absurd rfl hne
    · rfl
    · exact Or.inl ⟨rfl, rfl⟩

/-- **One section that waits** leaves a quiet session quiet. -/
theorem step_quiet {s s' : OverlappedSending τ} {a : OverlappedAction τ}
    (h : ∃ bytes, Quiet s bytes) (hturn : InTurn s a) (hstep : step s a = some s') :
    ∃ bytes, Quiet s' bytes := by
  obtain ⟨bytes, hq⟩ := h
  simp only [step, Option.ite_none_left_eq_some] at hstep
  obtain ⟨-, hstep⟩ := hstep
  cases a with
  | copy t Packet =>
      simp only [Option.ite_none_left_eq_some, Option.map_eq_some_iff] at hstep
      obtain ⟨-, io, hcopy, rfl⟩ := hstep
      exact ⟨bytes, hq.copy hturn hcopy⟩
  | post t =>
      simp only [Option.ite_none_right_eq_some, Option.some.injEq] at hstep
      obtain ⟨-, rfl⟩ := hstep
      exact ⟨s.io.unsent, hq.post hturn t⟩
  | complete got =>
      cases hpending : s.pending with
      | nil =>
          simp only [hpending] at hstep
          exact absurd hstep (by simp)
      | cons p rest =>
          simp only [hpending, Option.ite_none_right_eq_some, Option.some.injEq] at hstep
          obtain ⟨hgot, rfl⟩ := hstep
          exact ⟨[], hq.complete hpending hgot⟩

/-! ## §4. Whole runs. -/

/-- **Pending sends are left alone exactly while every section waits for them.**  In every run of
any threads' sections and of completions: no copy writes into the range of a pending send, no
two sends use the `OVERLAPPED` at once and the peer gets the packets in order, if and only if
bytes are copied only while no byte is pending and posts are made only while no send is. -/
theorem posted_send_stable_iff (Data : Mem) (as : List (OverlappedAction τ))
    (s : OverlappedSending τ) (hrun : StepMachine.run step (start Data) as = some s) :
    (StepMachine.Along step Stable (start Data) as
        ∧ StepMachine.Safe step Delivered (start Data) as)
      ↔ StepMachine.Along step InTurn (start Data) as := by
  have hiff : StepMachine.Along step Stable (start Data) as
      ↔ StepMachine.Along step InTurn (start Data) as := by
    refine StepMachine.along_congr (I := fun s => ∃ bytes, Quiet s bytes) ?_ ?_
      ⟨[], quiet_start Data⟩ (StepMachine.along_enabled_of_run hrun)
    · intro s a s' hq _ hturn hstep
      exact step_quiet hq hturn hstep
    · intro s a hq _
      obtain ⟨bytes, hq⟩ := hq
      exact stable_iff_inTurn hq a
  rw [hiff]
  refine ⟨fun h => h.1, fun hturn => ⟨hturn, ?_⟩⟩
  refine StepMachine.safe_of_along (I := fun s => ∃ bytes, Quiet s bytes) ?_ ?_
    ⟨[], quiet_start Data⟩ hrun hturn
  · intro s a s' hq hturn hstep
    exact step_quiet hq hturn hstep
  · intro s hq
    obtain ⟨bytes, hq⟩ := hq
    exact hq.delivered

/-- A packet of 44 bytes that differs from `Sending.headerPacket` in its first byte. -/
def movedPacket : Mem := fun i => if i = 0 then 8 else if i = 4 then 44 else 0

/-- Two packets of one thread, each of them complete before the next copy. -/
theorem posted_send_stable_in_turn :
    ∃ s : OverlappedSending Unit,
      StepMachine.run step (start (fun _ => 0))
          [.copy () Sending.headerPacket, .post (), .complete (packetBytes Sending.headerPacket),
            .copy () movedPacket, .post (), .complete (packetBytes movedPacket)] = some s
        ∧ (StepMachine.Along step Stable (start (fun _ => 0))
            [.copy () Sending.headerPacket, .post (), .complete (packetBytes Sending.headerPacket),
              .copy () movedPacket, .post (), .complete (packetBytes movedPacket)]
          ∧ StepMachine.Safe step Delivered (start (fun _ => 0))
            [.copy () Sending.headerPacket, .post (), .complete (packetBytes Sending.headerPacket),
              .copy () movedPacket, .post (), .complete (packetBytes movedPacket)]) := by
  have hsome : (StepMachine.run step (start (fun _ => 0) : OverlappedSending Unit)
      [.copy () Sending.headerPacket, .post (), .complete (packetBytes Sending.headerPacket),
        .copy () movedPacket, .post (), .complete (packetBytes movedPacket)]).isSome := by
    decide +kernel
  obtain ⟨s, hs⟩ := Option.isSome_iff_exists.mp hsome
  exact ⟨s, hs, (posted_send_stable_iff (fun _ => 0) _ s hs).mpr (by decide +kernel)⟩

/-- **A pending packet is overwritten**: the second packet is copied before the first one's send
completes, and the peer gets the second packet's bytes for the first. -/
theorem posted_send_overwritten :
    ∃ s : OverlappedSending Unit,
      StepMachine.run step (start (fun _ => 0))
          [.copy () Sending.headerPacket, .post (), .copy () movedPacket,
            .complete (packetBytes movedPacket)] = some s
        ∧ ¬ StepMachine.Along step Stable (start (fun _ => 0) : OverlappedSending Unit)
          [.copy () Sending.headerPacket, .post (), .copy () movedPacket,
            .complete (packetBytes movedPacket)]
        ∧ ¬ Delivered s := by
  have hend : (StepMachine.run step (start (fun _ => 0) : OverlappedSending Unit)
      [.copy () Sending.headerPacket, .post (), .copy () movedPacket,
        .complete (packetBytes movedPacket)]).map
      (fun s => (s.peer.head?, s.copied.flatten.head?)) = some (some 8, some 0) := by
    decide +kernel
  have hmid : (StepMachine.run step (start (fun _ => 0) : OverlappedSending Unit)
      [.copy () Sending.headerPacket, .post ()]).map
      (fun s => (s.io.CurBytes, s.pending.map (fun p => (p.off, p.len)))) = some (0, [(0, 44)]) := by
    decide +kernel
  obtain ⟨s, hs, hheads⟩ := Option.map_eq_some_iff.mp hend
  obtain ⟨m, hm, hpending⟩ := Option.map_eq_some_iff.mp hmid
  rw [Prod.mk.injEq] at hheads hpending
  refine ⟨s, hs, fun hstable => ?_, fun hdel => ?_⟩
  · -- the second copy starts on the first byte of the pending range
    have hcopy := ((StepMachine.along_snoc [_, _] _).mp
      ((StepMachine.along_snoc [_, _, _] _).mp hstable).1).2 m hm
    obtain ⟨p, hp, hrange⟩ := List.map_eq_singleton_iff.mp hpending.2
    rw [Prod.mk.injEq] at hrange
    have hsize : word32 movedPacket 4 = 44 := by decide
    refine hcopy p (by rw [hp]; exact List.mem_singleton.mpr rfl) 0 ?_
    omega
  · obtain ⟨more, hmore⟩ := hdel.1
    have hhead := congrArg List.head? hmore
    rw [List.head?_append, hheads.1, hheads.2, Option.some_or] at hhead
    exact absurd hhead (by decide)

end OverlappedSending

end YServerCore
