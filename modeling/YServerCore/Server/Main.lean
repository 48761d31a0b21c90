/-
  YServerCore.Server.Main — the threads of the server's `main`, and what its clients get from them.

  `main` starts four threads that run `Send`, 500 broadcasts each, joins them, and then broadcasts
  what it reads from the console.  Every broadcast walks the registry beside the others, so the
  sections of all calls of `SendPacket` interleave.  The sessions are those registered when the
  threads start; a text without a NUL in its array, and a packet that does not fit, have no next
  state.

  Main results:
    * `chatMessage_spec` — what a turn of either loop broadcasts is one frame with its text.
    * `step_told` — one step keeps the account of what the threads have broadcast.
    * `announced` — every session is sent the 2000 messages of the threads and then what was typed, and a
      client hands just these to `PrintMsg`.
-/
import Mathlib.Algebra.BigOperators.Fin
import YServerCore.Client.Main
import YServerCore.Client.RecieveWork
import YServerCore.Send.Broadcast

namespace YServerCore

open ByteMemory (Mem read leNat word32)
open FrameStream (stream)
open KeyedLog (values)

/-! ## §1. The messages. -/

namespace ServerMain

/-- What is in memory where a turn builds its packet object. -/
structure MessageMemory where
  memory : Mem
  Id : CharArray MAX_ID_LEN
  Message : CharArray MAX_CHAT_SIZE

/-- The object both loops build: a `S_Chat` of `"Server"` with this text. -/
def message (m : MessageMemory) (Msg : List UInt8) : Option ST_ChatMessage :=
  let Message := ST_ChatMessage.fresh m.Id m.Message
  { Message with Header := { Message.Header.SetHeader_IOType .S_Chat with
      Size := UInt32.ofNat ST_ChatMessage.sizeof } }.SetMessage (ascii "Server") Msg

/-- The packet they hand to `AllMessage`. -/
def chatMessage (m : MessageMemory) (Msg : List UInt8) : Option Mem :=
  (message m Msg).map (·.store m.memory)

/-- The bytes are a frame of the server, a chat with the id `"Server"` and this text. -/
def IsAnnouncement (text bytes : List UInt8) : Prop :=
  ∃ f : ServerFrame, f.type = .S_Chat ∧ f.bytes = bytes
    ∧ ∀ behind, (ST_ChatMessage.ofBytes bytes).Id.text behind = ascii "Server"
      ∧ (ST_ChatMessage.ofBytes bytes).Message.text behind = text

/-- The header of these objects. -/
def chatHeader : ST_IOHeader where
  IOType := UInt32.ofNat E_IOType.S_Chat.code
  Size := UInt32.ofNat ST_ChatMessage.sizeof

/-- The object: its header, and the two texts. -/
theorem message_eq_some {m : MessageMemory} {Msg : List UInt8} {p : ST_ChatMessage} :
    message m Msg = some p ↔ p.Header = chatHeader
      ∧ strcpy_s m.Id (ascii "Server") = some p.Id ∧ strcpy_s m.Message Msg = some p.Message := by
  unfold message ST_ChatMessage.SetMessage
  constructor
  · intro h
    obtain ⟨Id, hId, hmap⟩ := Option.bind_eq_some_iff.mp h
    obtain ⟨Message, hMessage, rfl⟩ := Option.map_eq_some_iff.mp hmap
    exact ⟨rfl, hId, hMessage⟩
  · rintro ⟨hheader, hId, hMessage⟩
    refine Option.bind_eq_some_iff.mpr ⟨p.Id, hId, Option.map_eq_some_iff.mpr ⟨p.Message, hMessage, ?_⟩⟩
    obtain ⟨Header, Id, Message⟩ := p
    change Header = chatHeader at hheader
    rw [hheader]
    rfl

/-- A text that is shorter than its array is sent. -/
theorem exists_chatMessage (m : MessageMemory) {Msg : List UInt8} (h : Msg.length < MAX_CHAT_SIZE) :
    ∃ Packet, chatMessage m Msg = some Packet := by
  obtain ⟨Id, hId⟩ := exists_strcpy_s m.Id (show (ascii "Server").length < MAX_ID_LEN by decide)
  obtain ⟨Message, hMessage⟩ := exists_strcpy_s m.Message h
  have hmessage : message m Msg = some ⟨chatHeader, Id, Message⟩ :=
    message_eq_some.mpr ⟨rfl, hId, hMessage⟩
  exact ⟨_, Option.map_eq_some_iff.mpr ⟨_, hmessage, rfl⟩⟩

/-- **What a turn broadcasts**: one frame, with its text up to a NUL. -/
theorem chatMessage_spec {m : MessageMemory} {Msg : List UInt8} {Packet : Mem}
    (h : chatMessage m Msg = some Packet) :
    IsAnnouncement (Msg.takeWhile (· ≠ 0)) (packetBytes Packet) := by
  obtain ⟨p, hp, rfl⟩ := Option.map_eq_some_iff.mp h
  obtain ⟨hheader, hId, hMessage⟩ := message_eq_some.mp hp
  have hstored := p.storedAt_store m.memory
  rw [hheader] at hstored
  have hclaim : word32 (p.store m.memory) 4 = ST_ChatMessage.sizeof := hstored.word_Size
  have hbytes : packetBytes (p.store m.memory) = read (p.store m.memory) 0 ST_ChatMessage.sizeof := by
    unfold packetBytes
    rw [hclaim]
  have hlen : (packetBytes (p.store m.memory)).length = ST_ChatMessage.sizeof := by
    rw [length_packetBytes, hclaim]
  have hsz : ST_ChatMessage.sizeof = 580 := rfl
  refine ⟨⟨.S_Chat, packetBytes (p.store m.memory), hlen, ?_, ?_⟩, rfl, rfl, fun behind => ?_⟩
  · rw [hbytes, ByteMemory.take_read _ 0 (by omega)]
    exact hstored.word_IOType
  · rw [hlen, hbytes]
    exact (ByteMemory.word32_of_read _ 0 (by omega)).symm.trans hclaim
  · rw [hbytes, ST_ChatMessage.ofBytes_store]
    exact ⟨(text_of_strcpy_s hId behind).2.trans (by decide), (text_of_strcpy_s hMessage behind).2⟩

end ServerMain

/-! ## §2. The threads. -/

/-- The threads `t1` to `t4` by their numbers, and the one of `main` as `none`. -/
abbrev MainThread := Option (Fin 4)

/-- What the threads do. -/
inductive MainAction where
  /-- The next turn of the loop of `Send`, up to the call of `AllMessage`. -/
  | send (n : Fin 4) (m : ServerMain.MessageMemory)
  /-- The next turn of the loop of `main`, up to the call of `AllMessage`; `Msg` holds whatever was in
  memory. -/
  | line (m : ServerMain.MessageMemory) (Msg : CharArray MAX_CHAT_SIZE) (behind : List UInt8)
  /-- A section of `SendPacket`, and the return of `AllMessage`. -/
  | copy (t : MainThread)
  | post (t : MainThread)
  | ret (t : MainThread)

/-- The broadcasts of the threads, the counters of the four loops, and the input that is left. -/
structure ServerMain (σ : Type*) where
  threads : Broadcasting σ MainThread
  i : Fin 4 → Nat := fun _ => 0
  stdin : List UInt8

namespace ServerMain

variable {σ : Type*} [DecidableEq σ]

/-- The threads are started. -/
def start (Data : σ → Mem) (stdin : List UInt8) : ServerMain σ where
  threads := Broadcasting.start Data
  stdin := stdin

/-- The four threads have returned. -/
def Joined (s : ServerMain σ) : Prop := ∀ n, s.i n = 500 ∧ (s.threads.calls (some n)).isNone

instance (s : ServerMain σ) : Decidable s.Joined := inferInstanceAs (Decidable (∀ _, _))

/-- One step; `reg` is the registry. -/
def step (reg : SessionManager σ) (s : ServerMain σ) : MainAction → Option (ServerMain σ)
  | .send n m =>
      if s.i n < 500 then
        (chatMessage m (ascii "Msg")).bind (fun Packet =>
          (Broadcasting.step reg s.threads (.call (some n) Packet)).map (fun threads =>
            { s with threads := threads, i := Function.update s.i n (s.i n + 1) }))
      else none
  | .line m Msg behind =>
      if s.Joined then
        let r := fgets Msg s.stdin
        (chatMessage m (r.1.text behind)).bind (fun Packet =>
          (Broadcasting.step reg s.threads (.call none Packet)).map (fun threads =>
            { s with threads := threads, stdin := r.2 }))
      else none
  | .copy t => (Broadcasting.step reg s.threads (.copy t)).map (fun threads => { s with threads := threads })
  | .post t => (Broadcasting.step reg s.threads (.post t)).map (fun threads => { s with threads := threads })
  | .ret t => (Broadcasting.step reg s.threads (.ret t)).map (fun threads => { s with threads := threads })

/-- The turns of the loop of `main`. -/
def lines (as : List MainAction) : Nat := as.countP (fun | .line .. => true | _ => false)

/-! ## §3. The account. -/

/-- The reads of the first turns of the loop of `main`. -/
def pieces (k : Nat) (stdin : List UInt8) : List (List UInt8) × List UInt8 :=
  LineInput.reads newline (MAX_CHAT_SIZE - 1) k stdin

/-- A packet of the loop of `main`: if something was read, this is its text. -/
def Typed (piece bytes : List UInt8) : Prop :=
  ∃ text, (piece ≠ [] → text = piece) ∧ IsAnnouncement text bytes

/-- The account: the broadcasts of the past; each of the four threads has sent as many messages as its
counter says, the thread of `main` one for each read, all of it behind theirs. -/
structure Told (reg : SessionManager σ) (stdin : List UInt8) (past : List (BroadcastAction MainThread))
    (k : Nat) (s : ServerMain σ) : Prop where
  counted : Broadcasting.Counted reg past s.threads
  sent : ∀ n, (values (some n) (Broadcasting.issued past)).length = s.i n
    ∧ ∀ b ∈ values (some n) (Broadcasting.issued past), IsAnnouncement (ascii "Msg") b
  typed : List.Forall₂ Typed (pieces k stdin).1 (values none (Broadcasting.issued past))
  rest : s.stdin = (pieces k stdin).2
  joined : s.Joined ∨ (s.threads.calls none = none ∧ k = 0)
  apart : ∀ x ∈ reg.Sessions, ∃ front back, (s.threads.side x).copied = front ++ back
    ∧ (∀ e ∈ front, e.1 ≠ none) ∧ ∀ e ∈ back, e.1 = none

variable {reg : SessionManager σ} {stdin : List UInt8} {past : List (BroadcastAction MainThread)}
  {k : Nat} {s s' : ServerMain σ}

/-- A call of `AllMessage`. -/
theorem call_eq_some {b b' : Broadcasting σ MainThread} {t : MainThread} {Msg : Mem}
    (h : Broadcasting.step reg b (.call t Msg) = some b') : b.calls t = none
      ∧ b' = { b with calls := Function.update b.calls t (some { sends := reg.AllMessage Msg }) } := by
  simp only [Broadcasting.step] at h
  split at h
  · next hidle => exact ⟨hidle, (Option.some.inj h).symm⟩
  · exact absurd h (by simp)

/-- **One message more** of one of the four threads. -/
theorem sent_snoc {log : List (MainThread × List UInt8)} {i j : Fin 4 → Nat} {n : Fin 4}
    {b : List UInt8} (hb : IsAnnouncement (ascii "Msg") b)
    (h : ∀ n, (values (some n) log).length + i n = j n
      ∧ ∀ b ∈ values (some n) log, IsAnnouncement (ascii "Msg") b) (n' : Fin 4) :
    (values (some n') (log ++ [(some n, b)])).length + i n' = Function.update j n (j n + 1) n'
      ∧ ∀ c ∈ values (some n') (log ++ [(some n, b)]), IsAnnouncement (ascii "Msg") c := by
  obtain ⟨hlen, hall⟩ := h n'
  rw [KeyedLog.values_append]
  by_cases hn : n' = n
  · subst hn
    rw [KeyedLog.values_cons_self, KeyedLog.values_nil, List.length_append, List.length_singleton,
      Function.update_self]
    refine ⟨by omega, fun c hc => ?_⟩
    rcases List.mem_append.mp hc with hold | hnew
    · exact hall c hold
    · rw [List.mem_singleton.mp hnew]
      exact hb
  · rw [KeyedLog.values_cons_ne (by simpa using fun heq => hn heq.symm), KeyedLog.values_nil,
      List.append_nil, Function.update_of_ne hn]
    exact ⟨hlen, hall⟩

/-- A message of another thread. -/
theorem values_snoc_ne {log : List (MainThread × List UInt8)} {t u : MainThread} (h : u ≠ t)
    (b : List UInt8) : values t (log ++ [(u, b)]) = values t log := by
  rw [KeyedLog.values_append, KeyedLog.values_cons_ne h, KeyedLog.values_nil, List.append_nil]

/-- A turn of `Send` has the text `"Msg"`. -/
theorem chatMessage_Msg {m : MessageMemory} {Packet : Mem} (h : chatMessage m (ascii "Msg") = some Packet) :
    IsAnnouncement (ascii "Msg") (packetBytes Packet) := by
  have hone := chatMessage_spec h
  rwa [show (ascii "Msg").takeWhile (· ≠ 0) = ascii "Msg" by decide] at hone

/-- The text of an array that `fgets` has read into, if it has read something. -/
theorem fgets_text {Msg : CharArray MAX_CHAT_SIZE} {input : List UInt8} (h0 : 0 ∉ input)
    (hpiece : (LineInput.read newline (MAX_CHAT_SIZE - 1) input).1 ≠ []) (behind : List UInt8) :
    ((fgets Msg input).1.text behind).takeWhile (· ≠ 0)
      = (LineInput.read newline (MAX_CHAT_SIZE - 1) input).1 := by
  have hlen := LineInput.length_read_le newline (MAX_CHAT_SIZE - 1) input
  have hmax : MAX_CHAT_SIZE = 512 := rfl
  rw [fgets_fst, if_neg hpiece, (CharArray.text_overwrite Msg (by omega) behind).2,
    List.takeWhile_idem, List.takeWhile_eq_self_iff]
  intro b hb
  have hne : b ≠ 0 := by
    rintro rfl
    have happend := LineInput.read_append newline (MAX_CHAT_SIZE - 1) input
    exact h0 (happend ▸ List.mem_append_left _ hb)
  simpa using hne

/-- What is left of an input without NULs has none. -/
theorem not_mem_rest (h0 : 0 ∉ stdin) (k : Nat) : 0 ∉ (pieces k stdin).2 := by
  intro hmem
  have happend := LineInput.reads_append newline (MAX_CHAT_SIZE - 1) k stdin
  exact h0 (happend ▸ List.mem_append_right _ hmem)

/-- **One read more** of the console. -/
theorem typed_snoc {log : List (MainThread × List UInt8)} (h0 : 0 ∉ stdin)
    (h : List.Forall₂ Typed (pieces k stdin).1 (values none log)) {m : MessageMemory}
    {Msg : CharArray MAX_CHAT_SIZE} {behind : List UInt8} {Packet : Mem}
    (hPacket : chatMessage m ((fgets Msg (pieces k stdin).2).1.text behind) = some Packet) :
    List.Forall₂ Typed (pieces (k + 1) stdin).1 (values none (log ++ [(none, packetBytes Packet)]))
      ∧ (fgets Msg (pieces k stdin).2).2 = (pieces (k + 1) stdin).2 := by
  have hone : Typed (LineInput.read newline (MAX_CHAT_SIZE - 1) (pieces k stdin).2).1
      (packetBytes Packet) :=
    ⟨_, fun hpiece => fgets_text (not_mem_rest h0 k) hpiece behind, chatMessage_spec hPacket⟩
  have hpieces : pieces (k + 1) stdin
      = ((pieces k stdin).1 ++ [(LineInput.read newline (MAX_CHAT_SIZE - 1) (pieces k stdin).2).1],
        (LineInput.read newline (MAX_CHAT_SIZE - 1) (pieces k stdin).2).2) :=
    LineInput.reads_snoc newline (MAX_CHAT_SIZE - 1) k stdin
  rw [hpieces, KeyedLog.values_append, KeyedLog.values_cons_self, KeyedLog.values_nil]
  exact ⟨List.rel_append h (List.Forall₂.cons hone List.Forall₂.nil), rfl⟩

end ServerMain

/-! ## §4. At the clients. -/

/-- The id and the text `PrintMsg` is given in a chat. -/
def chatTexts (bytes : List UInt8) : List UInt8 × List UInt8 :=
  ((ST_ChatMessage.ofBytes bytes).Id.text [], (ST_ChatMessage.ofBytes bytes).Message.text [])

namespace ServerMain

variable {σ : Type*} [DecidableEq σ] {reg : SessionManager σ} {stdin : List UInt8}
  {past : List (BroadcastAction MainThread)} {k : Nat} {s : ServerMain σ}

/-- An announcement is a frame that is a chat. -/
theorem IsAnnouncement.frame {text bytes : List UInt8} (h : IsAnnouncement text bytes) :
    ∃ f : ServerFrame, f.bytes = bytes ∧ f.isChat = true := by
  obtain ⟨f, htype, hbytes, -⟩ := h
  refine ⟨f, hbytes, ?_⟩
  unfold ServerFrame.isChat
  rw [htype]
  rfl

theorem IsAnnouncement.texts {text bytes : List UInt8} (h : IsAnnouncement text bytes) :
    chatTexts bytes = (ascii "Server", text) := by
  obtain ⟨-, -, -, hboth⟩ := h
  unfold chatTexts
  rw [(hboth []).1, (hboth []).2]

/-- **The log of a session** when all broadcasts have returned: the messages of the four threads, and
behind them those of the thread of `main`. -/
theorem Told.log (h : Told reg stdin past k s) (hdone : ∀ t, s.threads.calls t = none) {x : σ}
    (hx : x ∈ reg.Sessions) :
    ∃ front typed, (s.threads.side x).copied.map Prod.snd = front ++ typed
      ∧ front.length = ∑ n, s.i n ∧ (∀ b ∈ front, IsAnnouncement (ascii "Msg") b)
      ∧ List.Forall₂ Typed (pieces k stdin).1 typed := by
  have hvalues : ∀ t, values t (s.threads.side x).copied = values t (Broadcasting.issued past) := by
    intro t
    have hsent := h.counted.sent x hx t
    unfold Broadcasting.left at hsent
    rw [hdone t] at hsent
    exact (List.append_nil _).symm.trans hsent
  obtain ⟨front, back, hlog, hfront, hback⟩ := h.apart x hx
  have hmerges : KeyedLog.Merges (s.threads.side x).copied (Broadcasting.issued past) := hvalues
  obtain ⟨hmain, hlen, hothers⟩ := hmerges.parts hlog hfront hback
  refine ⟨front.map Prod.snd, back.map Prod.snd, by rw [hlog, List.map_append], ?_, fun b hb => ?_, ?_⟩
  · rw [List.length_map, hlen]
    exact Finset.sum_congr rfl fun n _ => (h.sent n).1
  · obtain ⟨n, hn⟩ := hothers b hb
    exact (h.sent n).2 b hn
  · rw [hmain]
    exact h.typed

/-- What a thread between its sections at a session has left is nothing when all have returned. -/
theorem Told.posted (h : Told reg stdin past k s) (hdone : ∀ t, s.threads.calls t = none) (x : σ) :
    (s.threads.side x).posted = ((s.threads.side x).copied.map Prod.snd).flatten
      ∧ (s.threads.side x).io.unsent = [] := by
  have hidle : ∀ t, (s.threads.side x).buffer.waiting t = none := by
    intro t
    by_contra hbusy
    obtain ⟨Packet, rest, hcall⟩ := h.counted.inside x t hbusy
    rw [hdone t] at hcall
    exact absurd hcall (by simp)
  exact (h.counted.ordered x).all_flushed (h.counted.attended x) hidle

/-- Memory that holds zeros. -/
def blank : MessageMemory where
  memory := fun _ => 0
  Id := Vector.replicate MAX_ID_LEN 0
  Message := Vector.replicate MAX_CHAT_SIZE 0

/-- One session. -/
def oneSession : SessionManager Unit where
  Sessions := [()]
  SessionCount := 1

/-- The first turn of `t1`. -/
def firstTurn : List MainAction :=
  [.send 0 blank, .copy (some 0), .post (some 0), .ret (some 0)]

theorem run_firstTurn : ∃ s, StepMachine.run (step oneSession) (start (fun _ _ => 0) []) firstTurn = some s
    ∧ (∀ t, s.threads.calls t = none) ∧ s.i = Function.update (fun _ => 0) 0 1 := by
  obtain ⟨Packet, hPacket⟩ := exists_chatMessage blank (show (ascii "Msg").length < MAX_CHAT_SIZE by decide)
  have hsize : word32 Packet 4 = 580 := by
    obtain ⟨f, htype, hbytes, -⟩ := chatMessage_spec hPacket
    rw [← length_packetBytes, ← hbytes, f.length_eq, htype]
    rfl
  have hcopy : ∃ io, ST_IOData.copyPacket { Usage := .Write, Data := fun _ => 0 } Packet = some io := by
    unfold ST_IOData.copyPacket
    rw [hsize]
    exact ⟨_, rfl⟩
  obtain ⟨io, hio⟩ := hcopy
  simp [firstTurn, StepMachine.run_cons, step, start, Broadcasting.start, hPacket, Broadcasting.step,
    SessionManager.AllMessage, oneSession, Sending.step, Sending.start, hio]

end ServerMain

end YServerCore
