/-
  YServerCore.Network.Chats — what is typed at a client, and what the server prints of it.

  The client's loop makes a chat of every read of its input and gives it to the socket as one frame;
  the server's workers cut the stream into receives, find the frames again, and start a task for
  each; the tasks run in any order, and each prints its id and its text.

  Main results:
    * `log_accounted` — at any time, the tasks that have run and those that wait are the calls made,
      and the log is what the first have printed.
    * `bytes_of_chat`, `RecvChatMessage_log_chat` — the bytes of a chat built as in `main`, and what is
      printed of it.
    * `typed_logged` — when a session's stream is well cut, its log has the lines of what was typed
      that have been received, each once.
-/
import YServerCore.Client.Main
import YServerCore.Lib.KeyedLog
import YServerCore.Network.Serving

namespace YServerCore

open ByteMemory (Mem leNat word32)
open FrameStream (stream complete)
open KeyedLog (values)
open RequestHandler (packetSize)
open PacketProcess (Handler)

/-! ## §1. The log and the calls. -/

namespace Serving

variable {σ τ : Type*} [DecidableEq σ] [DecidableEq τ] {s s' : Serving σ τ} {x : σ}

/-- **The log of a session accounts for its calls**: these are the calls whose tasks have run and those
whose tasks wait, and what is printed is what the first have printed, in the order they ran. -/
def LogAccounted (s : Serving σ τ) (x : σ) : Prop :=
  ∃ ran : List (Call RequestHandler × Environment),
    (ran.map Prod.fst ++ values x s.tasks).Perm (s.calls x)
      ∧ values x s.log = ran.flatMap (fun r => r.1.printed r.2)

omit [DecidableEq τ] in
/-- The calls an action makes are the tasks it starts. -/
theorem record_calls (d : Dispatching σ τ) (a : WorkerAction σ τ) (x : σ) :
    (Dispatching.record d a).calls x = d.calls x ++ values x (started d a) := by
  cases a with
  | completion worker session op transferSize result =>
      cases op with
      | send => exact (List.append_nil _).symm
      | receive =>
          simp only [Dispatching.record, started, KeyedLog.values_nil, List.append_nil]
          split <;> rfl
  | point worker =>
      cases hworker : d.worker worker with
      | none =>
          simp only [Dispatching.record, started, hworker, KeyedLog.values_nil, List.append_nil]
      | some r =>
          obtain ⟨session, stage⟩ := r
          cases stage with
          | loop =>
              simp only [Dispatching.record, started, hworker]
              by_cases hx : x = session
              · subst hx
                rw [Function.update_self, KeyedLog.values_map_self]
              · rw [Function.update_of_ne hx, KeyedLog.values_map_ne (Ne.symm hx), List.append_nil]
          | _ => simp only [Dispatching.record, started, hworker, KeyedLog.values_nil, List.append_nil]
  | _ => exact (List.append_nil _).symm

/-- **One step** keeps the account. -/
theorem logAccounted_step {a : ServingAction σ τ} (h : LogAccounted s x)
    (hstep : step s a = some s') : LogAccounted s' x := by
  obtain ⟨ran, hperm, hlog⟩ := h
  cases a with
  | network a =>
      obtain ⟨d', hd', rfl⟩ := Option.map_eq_some_iff.mp hstep
      obtain ⟨w, -, rfl⟩ := Option.map_eq_some_iff.mp hd'
      refine ⟨ran, ?_, hlog⟩
      show (ran.map Prod.fst ++ values x (s.tasks ++ started s.toDispatching a)).Perm
        ((Dispatching.record s.toDispatching a).calls x)
      rw [record_calls, KeyedLog.values_append, ← List.append_assoc]
      exact hperm.append_right _
  | task i env =>
      cases htask : s.tasks[i]? with
      | none =>
          simp only [step, htask] at hstep
          exact absurd hstep (by simp)
      | some r =>
          obtain ⟨session, c⟩ := r
          simp only [step, htask, Option.map_eq_some_iff] at hstep
          obtain ⟨-, -, rfl⟩ := hstep
          by_cases hx : x = session
          · subst hx
            -- the task moves from those that wait to those that ran
            obtain ⟨front, back, hsplit, -, herase⟩ := KeyedLog.split_at htask
            refine ⟨ran ++ [(c, env)], ?_, ?_⟩
            · show ((ran ++ [(c, env)]).map Prod.fst ++ values x (s.tasks.eraseIdx i)).Perm _
              rw [hsplit, KeyedLog.values_append, KeyedLog.values_cons_self] at hperm
              rw [herase, KeyedLog.values_append, List.map_append, List.map_singleton,
                List.append_assoc, List.singleton_append]
              exact (List.perm_middle.symm.append_left _).trans hperm
            · show values x (s.log ++ (c.printed env).map (fun p => (x, p))) = _
              rw [KeyedLog.values_append, KeyedLog.values_map_self, hlog, List.flatMap_append,
                List.flatMap_singleton]
          · refine ⟨ran, ?_, ?_⟩
            · show (ran.map Prod.fst ++ values x (s.tasks.eraseIdx i)).Perm _
              rw [KeyedLog.values_eraseIdx_ne htask (Ne.symm hx)]
              exact hperm
            · show values x (s.log ++ (c.printed env).map (fun p => (session, p))) = _
              rw [KeyedLog.values_append, KeyedLog.values_map_ne (Ne.symm hx), List.append_nil]
              exact hlog

/-- **Every run** keeps the account. -/
theorem log_accounted {io : σ → ST_IOData} {UserInfo : σ → ST_UserInfo}
    {as : List (ServingAction σ τ)} (hrun : StepMachine.run step (start io UserInfo) as = some s)
    (x : σ) : LogAccounted s x := by
  apply StepMachine.run_invariant (P := fun s : Serving σ τ => LogAccounted s x) ?_ ?_ hrun
  · intro s a s' h hstep
    exact logAccounted_step h hstep
  · exact ⟨[], List.Perm.nil, rfl⟩

end Serving

/-! ## §2. What is printed of a chat. -/

namespace Client

/-- The line of a chat of `main`. -/
def chatLine (text : List UInt8) : LogCall where
  format := ascii "%s : %s"
  args := [some (ascii "Client"), some text]

/-- The header of a chat of `main`. -/
def chatHeader : ST_IOHeader where
  IOType := UInt32.ofNat E_IOType.C_Chat.code
  Size := UInt32.ofNat ST_ChatMessage.sizeof

/-- The packet `main` builds: its header, and the two texts. -/
theorem chatMessage_eq_some {Id : CharArray MAX_ID_LEN} {Message : CharArray MAX_CHAT_SIZE}
    {id Msg : List UInt8} {Packet : ST_ChatMessage} (h : chatMessage Id Message id Msg = some Packet) :
    Packet.Header = chatHeader ∧ strcpy_s Id id = some Packet.Id
      ∧ strcpy_s Message Msg = some Packet.Message := by
  unfold chatMessage ST_ChatMessage.SetMessage at h
  obtain ⟨Id', hId, hmap⟩ := Option.bind_eq_some_iff.mp h
  obtain ⟨Message', hMessage, rfl⟩ := Option.map_eq_some_iff.mp hmap
  exact ⟨rfl, hId, hMessage⟩

section

variable {memory : Mem} {Id : CharArray MAX_ID_LEN} {Message : CharArray MAX_CHAT_SIZE}
  {id : {t : List UInt8 // t.length < MAX_ID_LEN}}
  {Msg : {t : List UInt8 // t.length < MAX_CHAT_SIZE}} {w : SocketWrite}

/-- The bytes on the socket are those of the packet. -/
theorem bytes_of_perform (h : (ClientOperation.SendToServer memory Id Message id Msg).perform = some w) :
    ∃ Packet, chatMessage Id Message id.val Msg.val = some Packet
      ∧ w.bytes = ByteMemory.read (Packet.store memory) 0 ST_ChatMessage.sizeof := by
  obtain ⟨Packet, hbuilt, hw⟩ := Option.map_eq_some_iff.mp
    (show (chatMessage Id Message id.val Msg.val).map
      (fun Packet => SendToServer (Packet.store memory) ST_ChatMessage.sizeof) = some w from h)
  refine ⟨Packet, hbuilt, ?_⟩
  have hclaim : word32 (Packet.store memory) 4 = ST_ChatMessage.sizeof := by
    rw [(Packet.storedAt_store memory).word_Size, (chatMessage_eq_some hbuilt).1]
    rfl
  subst hw
  show ByteMemory.read (Packet.store memory) 0 (word32 (Packet.store memory) 4) = _
  rw [hclaim]

/-- **The bytes of a chat on the wire**: the header with its padding, the id and the text, each with its
NUL and what its array held behind it. -/
theorem bytes_of_chat (h : (ClientOperation.SendToServer memory Id Message id Msg).perform = some w) :
    w.bytes = ByteMemory.read (chatHeader.store memory) 0 ST_IOHeader.sizeof
      ++ (id.val.takeWhile (· ≠ 0) ++ 0 :: Id.toList.drop ((id.val.takeWhile (· ≠ 0)).length + 1))
      ++ (Msg.val.takeWhile (· ≠ 0)
        ++ 0 :: Message.toList.drop ((Msg.val.takeWhile (· ≠ 0)).length + 1)) := by
  obtain ⟨Packet, hbuilt, hbytes⟩ := bytes_of_perform h
  obtain ⟨hheader, hId, hMessage⟩ := chatMessage_eq_some hbuilt
  have hsizeof : ST_ChatMessage.sizeof = ST_IOHeader.sizeof + MAX_ID_LEN + MAX_CHAT_SIZE := rfl
  rw [hbytes, ← (strcpy_s_eq_some.mp hId).2, ← (strcpy_s_eq_some.mp hMessage).2, hsizeof,
    ByteMemory.read_add, ByteMemory.read_add, Nat.zero_add, Nat.zero_add, ← hheader]
  unfold ST_ChatMessage.store
  rw [CharArray.read_write, ByteMemory.read_write_before _ _ (by omega),
    ByteMemory.read_write_before _ _ (by omega), ByteMemory.read_write_before _ _ (by omega),
    CharArray.read_write]

/-- **What is printed of a chat** that `SendToServer` has given to the socket: its texts, up to a NUL in
them, whatever stands behind the object. -/
theorem RecvChatMessage_log_chat
    (h : (ClientOperation.SendToServer memory Id Message id Msg).perform = some w)
    (behind : List UInt8) :
    RecvChatMessage_log (ST_ChatMessage.ofBytes w.bytes) behind
      = ⟨ascii "%s : %s", [some (id.val.takeWhile (· ≠ 0)), some (Msg.val.takeWhile (· ≠ 0))]⟩ := by
  obtain ⟨Packet, hbuilt, hbytes⟩ := bytes_of_perform h
  obtain ⟨-, hId, hMessage⟩ := chatMessage_eq_some hbuilt
  rw [hbytes, ST_ChatMessage.ofBytes_store]
  unfold RecvChatMessage_log
  rw [(text_of_strcpy_s hId _).2, (text_of_strcpy_s hMessage _).2]

end

/-- A turn that is no `SendUserInfo` sends a chat of `main`, with a text without NULs. -/
theorem mainTurn_chat {m : MainMemory} {stdin : List UInt8} (h : (mainTurn m stdin).1.isUserInfo = false) :
    ∃ Msg, (mainTurn m stdin).1 = .SendToServer m.memory m.Id m.Message chatId Msg
      ∧ Msg.val.takeWhile (· ≠ 0) = Msg.val := by
  have htyped := (mainTurn_eq m stdin).1
  unfold mainTurn at h htyped ⊢
  by_cases heq : (fgets (Vector.replicate MAX_CHAT_SIZE 0) stdin).1.text m.behind = ascii "UserInfo"
  · simp only [if_pos heq] at h
    exact absurd h (by simp [ClientOperation.isUserInfo])
  · simp only [if_neg heq] at htyped ⊢
    have htext : (fgets (Vector.replicate MAX_CHAT_SIZE 0) stdin).1.text m.behind
        = (LineInput.read newline (MAX_CHAT_SIZE - 1) stdin).1.takeWhile (· ≠ 0) := htyped
    have hnul : ((fgets (Vector.replicate MAX_CHAT_SIZE 0) stdin).1.text m.behind).takeWhile (· ≠ 0)
        = (fgets (Vector.replicate MAX_CHAT_SIZE 0) stdin).1.text m.behind := by
      rw [htext, List.takeWhile_idem]
    exact ⟨_, rfl, hnul⟩

/-- The line printed of an operation of the loop. -/
theorem printed_of_main {ms : List MainMemory} {stdin : List UInt8} {op : ClientOperation}
    (hop : op ∈ (main ms stdin).1) (hchat : op.isUserInfo = false) {w : SocketWrite}
    (hw : op.perform = some w) (behind : List UInt8) :
    RecvChatMessage_log (ST_ChatMessage.ofBytes w.bytes) behind = chatLine op.typed := by
  obtain ⟨i, hi⟩ := List.mem_iff_getElem?.mp hop
  obtain ⟨m, rfl⟩ := main_getElem? hi
  obtain ⟨Msg, hturn, hnul⟩ := mainTurn_chat hchat
  rw [hturn] at hw ⊢
  rw [RecvChatMessage_log_chat hw behind, hnul]
  rfl

/-! ## §3. From the console to the log. -/

/-- Only `C_Chat` has the handler for chats. -/
theorem ioType_of_handler {k : Nat} (h : PacketProcess.Handler[k]? = some (some .RecvChatMessage)) :
    k = E_IOType.C_Chat.code := by
  have hk : k < PacketProcess.Handler.length := (List.getElem?_eq_some_iff.mp h).1
  have hall : ∀ j < 20, PacketProcess.Handler[j]? = some (some .RecvChatMessage) →
      j = E_IOType.C_Chat.code := by
    decide
  exact hall k hk h

/-- The bytes of a chat are a frame. -/
theorem exists_clientFrame {bytes : List UInt8}
    (h : FrameBytes RequestHandler.packetSize PacketProcess.Handler .RecvChatMessage bytes) :
    ∃ f : ClientFrame, f.handler = .RecvChatMessage ∧ f.bytes = bytes :=
  ⟨⟨.RecvChatMessage, bytes, h.whole.symm, ioType_of_handler h.handler, h.size_eq⟩, rfl, rfl⟩

/-- **What the loop gives to its socket** when it sends no account: a frame for each read, of which its
line is printed. -/
theorem main_frames {stdin : List UInt8} {ms : List MainMemory}
    (hchats : ∀ op ∈ (main ms stdin).1, op.isUserInfo = false) :
    ∃ fs : List ClientFrame,
      (main ms stdin).1.map (fun op => op.perform.map SocketWrite.bytes)
          = fs.map (fun f => some f.bytes)
        ∧ (∀ f ∈ fs, f.handler = .RecvChatMessage)
        ∧ ∀ behind, fs.map (fun f => RecvChatMessage_log (ST_ChatMessage.ofBytes f.bytes) behind)
          = (main ms stdin).1.map (fun op => chatLine op.typed) := by
  have hprinted : ∀ op ∈ (main ms stdin).1, ∀ w, op.perform = some w → ∀ behind,
      RecvChatMessage_log (ST_ChatMessage.ofBytes w.bytes) behind = chatLine op.typed :=
    fun op hop w hw => printed_of_main hop (hchats op hop) hw
  obtain ⟨ws, hws, hall⟩ := ClientOperation.perform_chats hchats
  generalize (main ms stdin).1 = ops at hprinted hws
  clear hchats
  induction ops generalizing ws with
  | nil => exact ⟨[], rfl, by simp, fun _ => rfl⟩
  | cons op ops ih =>
      cases ws with
      | nil => exact absurd hws (by simp)
      | cons w ws =>
          rw [List.map_cons, List.map_cons, List.cons.injEq] at hws
          rw [List.forall_mem_cons] at hall hprinted
          obtain ⟨f, hhandler, hbytes⟩ := exists_clientFrame hall.1.2
          obtain ⟨fs, hfs, hhandlers, hlines⟩ := ih ws hall.2 hprinted.2 hws.2
          refine ⟨f :: fs, ?_, List.forall_mem_cons.mpr ⟨hhandler, hhandlers⟩, fun behind => ?_⟩
          · rw [List.map_cons, List.map_cons, hfs, hws.1, hbytes]
            rfl
          · rw [List.map_cons, List.map_cons, hlines behind, hbytes, hprinted.1 w hws.1 behind]

end Client

namespace Serving

variable {σ τ : Type*} [DecidableEq σ] [DecidableEq τ]

/-- The line of a frame of a chat. -/
def lineOf (bytes : List UInt8) : LogCall := RecvChatMessage_log (ST_ChatMessage.ofBytes bytes) []

/-- What is printed for calls that were given frames of chats, whatever stands behind their packets. -/
theorem printed_of_passed {calls : List (Call RequestHandler)} {fs : List ClientFrame}
    (hpassed : calls.map Call.passed <+: fs.map ClientFrame.passed)
    (hfs : ∀ f ∈ fs, f.handler = .RecvChatMessage
      ∧ ∀ behind, RecvChatMessage_log (ST_ChatMessage.ofBytes f.bytes) behind = lineOf f.bytes)
    {c : Call RequestHandler} (hc : c ∈ calls) (env : Environment) :
    c.printed env = [lineOf c.packet] := by
  obtain ⟨f, hf, hpass⟩ := List.mem_map.mp (hpassed.subset (List.mem_map_of_mem hc))
  have hhandler : f.handler = c.handler := congrArg Prod.fst hpass
  have hbytes : f.bytes = c.packet := congrArg Prod.snd hpass
  obtain ⟨hchat, hline⟩ := hfs f hf
  unfold Call.printed
  rw [if_pos (hhandler ▸ hchat), ← hbytes, hline]

omit [DecidableEq τ] in
/-- **The log of a session whose frames are chats**: with the lines of the tasks that wait it has the
lines of the calls made. -/
theorem LogAccounted.lines {s : Serving σ τ} {x : σ} (h : LogAccounted s x) {fs : List ClientFrame}
    (hpassed : (s.calls x).map Call.passed <+: fs.map ClientFrame.passed)
    (hfs : ∀ f ∈ fs, f.handler = .RecvChatMessage
      ∧ ∀ behind, RecvChatMessage_log (ST_ChatMessage.ofBytes f.bytes) behind = lineOf f.bytes) :
    (values x s.log ++ (values x s.tasks).map (fun c => lineOf c.packet)).Perm
      (((s.calls x).map Call.passed).map (fun p => lineOf p.2)) := by
  obtain ⟨ran, hperm, hlog⟩ := h
  have hran : values x s.log = (ran.map Prod.fst).map (fun c => lineOf c.packet) := by
    rw [hlog, List.map_map]
    have hone : ∀ r ∈ ran, r.1.printed r.2 = [lineOf r.1.packet] := by
      intro r hr
      apply printed_of_passed hpassed hfs
      exact hperm.subset (List.mem_append_left _ (List.mem_map_of_mem hr))
    clear hperm hlog
    induction ran with
    | nil => rfl
    | cons r ran ih =>
        rw [List.forall_mem_cons] at hone
        rw [List.flatMap_cons, hone.1, ih hone.2]
        rfl
  rw [hran, ← List.map_append, List.map_map]
  exact hperm.map _

/-- **From the console to the log.**  A client's loop reads any input without NULs and never comes to
send its account; the server runs any sessions with any number of workers and tasks in any order,
and one of the sessions receives what the client has sent, in receives that each fill the buffer or
end with a frame.  Then the texts the client has read are what was typed so far, and the session's
log has, in some order and each once, lines of those texts that have been received whole: all of
them when no worker and no task of the session is left. -/
theorem typed_logged (stdin : List UInt8) (h0 : 0 ∉ stdin) (ms : List Client.MainMemory)
    (hchats : ∀ op ∈ (Client.main ms stdin).1, op.isUserInfo = false) (io : σ → ST_IOData)
    (UserInfo : σ → ST_UserInfo) (as : List (ServingAction σ τ)) (s : Serving σ τ)
    (hrun : StepMachine.run step (start io UserInfo) as = some s)
    (hdeliver : StepMachine.Along step Delivers (start io UserInfo) as) (x : σ) :
    ∃ (fs : List ClientFrame) (pieces : List (List UInt8)),
      (Client.main ms stdin).1.map (fun op => op.perform.map SocketWrite.bytes)
          = fs.map (fun f => some f.bytes)
        ∧ pieces.flatten ++ (Client.main ms stdin).2 = stdin
        ∧ (Dispatching.WellCut fs (io x).Data (s.chunks x) →
          (∃ later, (values x s.log ++ later).Perm
              ((pieces.take (complete ClientFrame.bytes fs (s.chunks x).flatten.length).length).map
                Client.chatLine))
            ∧ ((∀ t, ¬ s.InOnRecv x t) → values x s.tasks = [] →
              (values x s.log).Perm
                ((pieces.take (complete ClientFrame.bytes fs (s.chunks x).flatten.length).length).map
                  Client.chatLine))
            ∧ ((∀ t, ¬ s.InOnRecv x t) → values x s.tasks = [] →
              (s.chunks x).flatten = stream ClientFrame.bytes fs →
              (values x s.log).Perm (pieces.map Client.chatLine))) := by
  obtain ⟨fs, hfs, hhandlers, hlines⟩ := Client.main_frames hchats
  obtain ⟨htyped, hleft, -⟩ := Client.main_typed h0 ms
  refine ⟨fs, (Client.main ms stdin).1.map ClientOperation.typed, hfs, ?_, fun hcut => ?_⟩
  · rw [htyped, hleft]
    exact LineInput.reads_append newline _ _ _
  · have hfollows := follows_run hrun hdeliver x
    obtain ⟨hbegin, hall⟩ := hfollows.framed hcut
    have haccount := log_accounted hrun x
    -- the complete frames are the first ones, and so are their lines
    obtain ⟨post, hpost, -⟩ := FrameStream.complete_spec ClientFrame.bytes fs (s.chunks x).flatten.length
    have hlines_all : (fs.map (fun f => lineOf f.bytes))
        = ((Client.main ms stdin).1.map ClientOperation.typed).map Client.chatLine := by
      rw [List.map_map]
      exact hlines []
    have hfirst : (complete ClientFrame.bytes fs (s.chunks x).flatten.length).map
          (fun f => lineOf f.bytes)
        = (((Client.main ms stdin).1.map ClientOperation.typed).take
            (complete ClientFrame.bytes fs (s.chunks x).flatten.length).length).map
          Client.chatLine := by
      rw [List.map_take, ← hlines_all, ← List.map_take]
      generalize complete ClientFrame.bytes fs (s.chunks x).flatten.length = done at hpost
      rw [hpost, List.take_left' rfl]
    have hchat : ∀ f ∈ complete ClientFrame.bytes fs (s.chunks x).flatten.length,
        f.handler = .RecvChatMessage
          ∧ ∀ behind, RecvChatMessage_log (ST_ChatMessage.ofBytes f.bytes) behind = lineOf f.bytes := by
      intro f hf
      have hmem : f ∈ fs := hpost ▸ List.mem_append_left _ hf
      refine ⟨hhandlers f hmem, fun behind => ?_⟩
      have hsame := (hlines behind).trans (hlines []).symm
      exact List.map_inj_left.mp hsame f hmem
    have hlog := haccount.lines hbegin hchat
    have hidle : (∀ t, ¬ s.InOnRecv x t) → values x s.tasks = [] → (values x s.log).Perm
        ((((Client.main ms stdin).1.map ClientOperation.typed).take
          (complete ClientFrame.bytes fs (s.chunks x).flatten.length).length).map
            Client.chatLine) := by
      intro hno hnone
      rw [hnone, List.map_nil, List.append_nil, hall hno, List.map_map] at hlog
      rw [← hfirst]
      exact hlog
    refine ⟨?_, hidle, fun hno hnone hreceived => ?_⟩
    · obtain ⟨rest, hrest⟩ := hbegin
      refine ⟨(values x s.tasks).map (fun c => lineOf c.packet) ++ rest.map (fun p => lineOf p.2), ?_⟩
      have hmapped := congrArg (List.map (fun p => lineOf p.2)) hrest
      rw [List.map_append] at hmapped
      rw [← hfirst, ← List.append_assoc]
      exact (hlog.append_right _).trans (List.Perm.of_eq (hmapped.trans List.map_map))
    · have hlast := hidle hno hnone
      rw [hreceived, FrameStream.complete_all] at hlast
      have hlength := congrArg List.length hlines_all
      rw [List.length_map, List.length_map] at hlength
      rw [hlength, List.take_length] at hlast
      exact hlast

/-- The frame of the chat `hi`, built in memory that holds zeros. -/
def hiFrame : List UInt8 :=
  [5, 0, 0, 0, 68, 2, 0, 0] ++ List.replicate 36 0 ++ ascii "Client" ++ List.replicate 18 0
    ++ ascii "hi\n" ++ List.replicate 509 0

/-- `hi` is typed, received and printed. -/
theorem typed_logged_hi :
    ∃ (s : Serving Nat Nat) (pieces : List (List UInt8)),
      StepMachine.run step
          (start (fun _ => {}) (fun _ => ST_UserInfo.fresh Server.refusing.Id Server.refusing.Pw))
          [.network (.accept 7 true), .network (.acceptReady 7), .network (.acceptRecv 7 true),
            .network (.arrive 7 hiFrame), .network (.completion 1 7 .receive 580 true),
            .network (.point 1), .network (.point 1), .task 0 Server.refusing, .network (.point 1),
            .network (.point 1), .network (.point 1), .network (.recv 1 true)] = some s
        ∧ s.log.length = 1 ∧ pieces.flatten = ascii "hi\n"
        ∧ ((∀ t, ¬ s.InOnRecv 7 t) → (values 7 s.log).Perm (pieces.map Client.chatLine)) := by
  have hend : (StepMachine.run step
      (start (fun _ => {}) (fun _ => ST_UserInfo.fresh Server.refusing.Id Server.refusing.Pw) :
        Serving Nat Nat)
      [.network (.accept 7 true), .network (.acceptReady 7), .network (.acceptRecv 7 true),
        .network (.arrive 7 hiFrame), .network (.completion 1 7 .receive 580 true),
        .network (.point 1), .network (.point 1), .task 0 Server.refusing, .network (.point 1),
        .network (.point 1), .network (.point 1), .network (.recv 1 true)]).map
        (fun s => (s.log.length, s.tasks, s.chunks 7)) = some (1, [], [hiFrame]) := by
    decide +kernel
  obtain ⟨s, hs, hall⟩ := Option.map_eq_some_iff.mp hend
  rw [Prod.mk.injEq, Prod.mk.injEq] at hall
  obtain ⟨hlog, htasks, hchunks⟩ := hall
  obtain ⟨fs, pieces, hfs, hpieces, hline⟩ := typed_logged (ascii "hi\n") (by decide) [Client.blank]
    (by decide +kernel) _ _ _ s hs (by decide +kernel) 7
  have hsent : (Client.main [Client.blank] (ascii "hi\n")).1.map
      (fun op => op.perform.map SocketWrite.bytes) = [some hiFrame] := by
    have hturn : (Client.mainTurn Client.blank (ascii "hi\n")).1.isUserInfo = false := by
      decide +kernel
    have htyped := (Client.mainTurn_typed (show 0 ∉ ascii "hi\n" by decide) Client.blank).1
    obtain ⟨Msg, hop, -⟩ := Client.mainTurn_chat hturn
    obtain ⟨w, hw, -⟩ := Client.SendToServer_chat Client.blank.memory Client.blank.Id
      Client.blank.Message Client.chatId Msg
    rw [hop] at htyped
    have hMsg : Msg.val = ascii "hi\n" := htyped
    have hbytes := Client.bytes_of_chat hw
    rw [hMsg] at hbytes
    show [(Client.mainTurn Client.blank (ascii "hi\n")).1.perform.map SocketWrite.bytes] = _
    rw [hop, hw, Option.map_some, hbytes]
    decide +kernel
  rw [hsent] at hfs
  -- the only frame is the one that was sent
  obtain ⟨f, rfl, hf⟩ : ∃ f, fs = [f] ∧ f.bytes = hiFrame := by
    obtain ⟨f, hfsf, hbytes⟩ := List.map_eq_singleton_iff.mp hfs.symm
    exact ⟨f, hfsf, Option.some.inj hbytes⟩
  have hstream : (s.chunks 7).flatten = stream ClientFrame.bytes [f] := by
    rw [hchunks, FrameStream.stream_cons, FrameStream.stream_nil, hf]
    rfl
  have hcut : Dispatching.WellCut [f] (fun _ => 0) (s.chunks 7) := by
    refine ⟨⟨[], by rw [List.append_nil, hstream]⟩, ?_, ?_⟩
    · rw [hchunks]
      decide +kernel
    · rw [hchunks]
      refine ⟨Or.inr ⟨[f], [], rfl, ?_⟩, fun _ _ => trivial⟩
      rw [FrameStream.stream_cons, FrameStream.stream_nil, hf, List.append_nil]
      have hnothing : (Receiving.start (fun _ => 0) : Receiving RequestHandler).received.length = 0 :=
        rfl
      rw [hnothing, Nat.zero_add]
  refine ⟨s, pieces, hs, hlog, ?_, fun hno => ?_⟩
  · have hrest : (Client.main [Client.blank] (ascii "hi\n")).2 = [] := by decide +kernel
    rw [hrest, List.append_nil] at hpieces
    exact hpieces
  · refine (hline hcut).2.2 hno ?_ hstream
    rw [htasks]
    rfl

end Serving

end YServerCore
