/-
  YServerCore.Server.Program — the server as it is started.

  `Thread::Initialize` starts no thread that runs `NetworkProcess`, its loop is commented out.  So the
  threads of the program are the accepting one and the five of `main`, and a client may come at any
  moment: before the four `Send` threads, between two of their broadcasts, or when `main` reads the
  console.  `WSASend` takes its bytes at the moment of the call; a packet that does not fit, and a text
  without a NUL in its array, have no next state, and no send sees `SOCKET_ERROR`.

  Main results:
    * `step_joins` — a step is one of the sending side of `Send.Joining`.
    * `run_spoken` — what the loops broadcast from one state to another.
    * `apart_step` — nothing of the console is ever in front of a message of the four threads.
    * `accepted_hear` — a client hears the messages begun since it was accepted, and then what the
      console has read since.
-/
import YServerCore.Send.Joining
import YServerCore.Server.Progress

namespace YServerCore

open ByteMemory (Mem)
open Broadcasting (issued)
open FrameStream (stream)
open Joining (addressed heard only)
open KeyedLog (values)
open ServerMain (MessageMemory chatMessage IsAnnouncement Typed pieces)

/-! ## §1. The program. -/

/-- The sending side with the registry, the counters of the four loops, and the input that is left. -/
structure ServerProgram (σ : Type*) where
  joining : Joining σ MainThread
  i : Fin 4 → Nat := fun _ => 0
  stdin : List UInt8

/-- What happens. -/
inductive ProgramAction (σ : Type*) where
  /-- `AddSession` by the accepting thread; behind the zeroed write buffer is whatever was in memory. -/
  | accept (session : σ) (Data : Mem)
  /-- A step of a thread of `main`. -/
  | main (a : MainAction)

namespace ServerProgram

variable {σ : Type*} [DecidableEq σ]

/-- No client has come yet. -/
def start (stdin : List UInt8) : ServerProgram σ where
  joining := Joining.start
  stdin := stdin

/-- The four threads have returned. -/
def Joined (s : ServerProgram σ) : Prop :=
  ∀ n, s.i n = 500 ∧ (s.joining.threads.calls (some n)).isNone

instance (s : ServerProgram σ) : Decidable s.Joined := inferInstanceAs (Decidable (∀ _, _))

/-- One step. -/
def step (s : ServerProgram σ) : ProgramAction σ → Option (ServerProgram σ)
  | .accept session Data =>
      (Joining.step s.joining (.AddSession session Data)).map (fun joining => { s with joining := joining })
  | .main (.send n m) =>
      if s.i n < 500 then
        (chatMessage m (ascii "Msg")).bind (fun Packet =>
          (Joining.step s.joining (.AllMessage (some n) Packet)).map (fun joining =>
            { s with joining := joining, i := Function.update s.i n (s.i n + 1) }))
      else none
  | .main (.line m Msg behind) =>
      if s.Joined then
        let r := fgets Msg s.stdin
        (chatMessage m (r.1.text behind)).bind (fun Packet =>
          (Joining.step s.joining (.AllMessage none Packet)).map (fun joining =>
            { s with joining := joining, stdin := r.2 }))
      else none
  | .main (.copy t) =>
      (Joining.step s.joining (.copy t)).map (fun joining => { s with joining := joining })
  | .main (.post t) =>
      (Joining.step s.joining (.post t)).map (fun joining => { s with joining := joining })
  | .main (.ret t) =>
      (Joining.step s.joining (.ret t)).map (fun joining => { s with joining := joining })

/-! ## §2. What the loops broadcast. -/

/-- What a step is on the sending side. -/
def event (s : ServerProgram σ) : ProgramAction σ → List (JoiningAction σ MainThread)
  | .accept session Data => [.AddSession session Data]
  | .main (.send n m) =>
      (chatMessage m (ascii "Msg")).toList.map (fun Packet => .AllMessage (some n) Packet)
  | .main (.line m Msg behind) =>
      (chatMessage m ((fgets Msg s.stdin).1.text behind)).toList.map
        (fun Packet => .AllMessage none Packet)
  | .main (.copy t) => [.copy t]
  | .main (.post t) => [.post t]
  | .main (.ret t) => [.ret t]

/-- The broadcast in an action of the sending side. -/
def broadcastOf : JoiningAction σ MainThread → List (BroadcastAction MainThread)
  | .AllMessage t Msg => [.call t Msg]
  | _ => []

/-- The packets the loops broadcast, with their threads. -/
def spoken (s : ServerProgram σ) (as : List (ProgramAction σ)) : List (MainThread × List UInt8) :=
  issued (StepMachine.emitted step (fun s a => (event s a).flatMap broadcastOf) s as)

/-- Turns of `Send`, and reads of the console. -/
def sends (as : List (ProgramAction σ)) : Nat :=
  as.countP (fun | .main (.send _ _) => true | _ => false)

def lines (as : List (ProgramAction σ)) : Nat :=
  as.countP (fun | .main (.line _ _ _) => true | _ => false)

/-- **What the loops have broadcast**: each of the four threads its messages, as many as its counter has
grown, and the loop of `main` what it has read. -/
structure Spoken (s : ServerProgram σ) (as : List (ProgramAction σ)) (t : ServerProgram σ) : Prop where
  sent : ∀ n, (values (some n) (spoken s as)).length + s.i n = t.i n
    ∧ ∀ b ∈ values (some n) (spoken s as), IsAnnouncement (ascii "Msg") b
  total : ∑ n, t.i n = ∑ n, s.i n + sends as
  typed : List.Forall₂ Typed (pieces (lines as) s.stdin).1 (values none (spoken s as))
  rest : t.stdin = (pieces (lines as) s.stdin).2

/-- One step more. -/
theorem spoken_snoc {s t : ServerProgram σ} {as : List (ProgramAction σ)}
    (hrun : StepMachine.run step s as = some t) (a : ProgramAction σ) :
    spoken s (as ++ [a]) = spoken s as ++ issued ((event t a).flatMap broadcastOf) := by
  unfold spoken
  rw [StepMachine.emitted_snoc_of_run hrun, Broadcasting.issued_append]

/-- A step that broadcasts nothing. -/
theorem Spoken.silent {s t t' : ServerProgram σ} {as : List (ProgramAction σ)} {a : ProgramAction σ}
    (h : Spoken s as t) (hspoken : spoken s (as ++ [a]) = spoken s as) (hi : t'.i = t.i)
    (hstdin : t'.stdin = t.stdin) (hsends : sends [a] = 0) (hlines : lines [a] = 0) :
    Spoken s (as ++ [a]) t' := by
  have hs : sends (as ++ [a]) = sends as := by
    unfold sends at hsends ⊢
    rw [List.countP_append, hsends, Nat.add_zero]
  have hl : lines (as ++ [a]) = lines as := by
    unfold lines at hlines ⊢
    rw [List.countP_append, hlines, Nat.add_zero]
  refine ⟨fun n => ?_, ?_, ?_, ?_⟩
  · rw [hspoken, hi]
    exact h.sent n
  · rw [hi, hs]
    exact h.total
  · rw [hspoken, hl]
    exact h.typed
  · rw [hstdin, hl]
    exact h.rest

/-- A turn of `Send`. -/
theorem Spoken.send {s t t' : ServerProgram σ} {as : List (ProgramAction σ)} {n : Fin 4}
    {m : MessageMemory} (h : Spoken s as t) (hrun : StepMachine.run step s as = some t)
    (hstep : step t (.main (.send n m)) = some t') : Spoken s (as ++ [.main (.send n m)]) t' := by
  simp only [step, Option.ite_none_right_eq_some] at hstep
  obtain ⟨Packet, hPacket, hmap⟩ := Option.bind_eq_some_iff.mp hstep.2
  obtain ⟨joining, -, rfl⟩ := Option.map_eq_some_iff.mp hmap
  have hspoken : spoken s (as ++ [.main (.send n m)])
      = spoken s as ++ [(some n, packetBytes Packet)] := by
    rw [spoken_snoc hrun]
    simp only [event, hPacket]
    rfl
  have hl : lines (as ++ [.main (.send n m)]) = lines as := List.countP_append
  have hs : sends (as ++ [.main (.send n m)]) = sends as + 1 := List.countP_append
  refine ⟨fun k => ?_, ?_, ?_, ?_⟩
  · rw [hspoken]
    exact ServerMain.sent_snoc (ServerMain.chatMessage_Msg hPacket) h.sent k
  · show ∑ k, Function.update t.i n (t.i n + 1) k = _
    rw [Finset.sum_update_of_mem (Finset.mem_univ n), hs]
    have htotal := h.total
    rw [← Finset.add_sum_erase Finset.univ t.i (Finset.mem_univ n), Finset.erase_eq] at htotal
    omega
  · rw [hspoken, hl, ServerMain.values_snoc_ne (by simp)]
    exact h.typed
  · rw [hl]
    exact h.rest

/-- **A read of the console.** -/
theorem Spoken.line {s t t' : ServerProgram σ} {as : List (ProgramAction σ)} {m : MessageMemory}
    {Msg : CharArray MAX_CHAT_SIZE} {behind : List UInt8} (h0 : 0 ∉ s.stdin) (h : Spoken s as t)
    (hrun : StepMachine.run step s as = some t)
    (hstep : step t (.main (.line m Msg behind)) = some t') :
    Spoken s (as ++ [.main (.line m Msg behind)]) t' := by
  simp only [step, Option.ite_none_right_eq_some] at hstep
  obtain ⟨Packet, hPacket, hmap⟩ := Option.bind_eq_some_iff.mp hstep.2
  obtain ⟨joining, -, rfl⟩ := Option.map_eq_some_iff.mp hmap
  have hspoken : spoken s (as ++ [.main (.line m Msg behind)])
      = spoken s as ++ [(none, packetBytes Packet)] := by
    rw [spoken_snoc hrun]
    simp only [event, hPacket]
    rfl
  have hs : sends (as ++ [.main (.line m Msg behind)]) = sends as := List.countP_append
  have hl : lines (as ++ [.main (.line m Msg behind)]) = lines as + 1 := List.countP_append
  rw [h.rest] at hPacket
  obtain ⟨htyped, hrest⟩ := ServerMain.typed_snoc h0 h.typed hPacket
  refine ⟨fun k => ?_, ?_, ?_, ?_⟩
  · rw [hspoken, ServerMain.values_snoc_ne (by simp)]
    exact h.sent k
  · rw [hs]
    exact h.total
  · rw [hspoken, hl]
    exact htyped
  · rw [hl, ← hrest, ← h.rest]

/-- Nothing of the console stands in front of a message of the four threads. -/
def ConsoleLast (log : List (MainThread × List UInt8)) : Prop :=
  ∃ front back, log = front ++ back ∧ (∀ e ∈ front, e.1 ≠ none) ∧ ∀ e ∈ back, e.1 = none

/-- **The console is last**: `main` has read it only if the four threads have returned, and before that
nobody has been sent anything of it. -/
structure Apart (past : List (ProgramAction σ)) (s : ServerProgram σ) : Prop where
  phase : s.Joined ∨ (lines past = 0 ∧ s.joining.threads.calls none = none
    ∧ ∀ x, ∀ e ∈ (s.joining.threads.side x).copied, e.1 ≠ none)
  parts : ∀ x, ConsoleLast (s.joining.threads.side x).copied

/-- A session that is accepted has been sent nothing. -/
theorem Apart.accept {past : List (ProgramAction σ)} {s s' : ServerProgram σ} (h : Apart past s)
    {session : σ} {Data : Mem} (hstep : step s (.accept session Data) = some s') :
    Apart (past ++ [.accept session Data]) s' := by
  obtain ⟨joining, hadd, rfl⟩ := Option.map_eq_some_iff.mp hstep
  simp only [Joining.step, Option.ite_none_right_eq_some, Option.some.injEq] at hadd
  obtain ⟨-, rfl⟩ := hadd
  have hlines : lines (past ++ [.accept session Data]) = lines past := List.countP_append
  refine ⟨?_, fun x => ?_⟩
  · rcases h.phase with hjoined | ⟨hzero, hidle, hnone⟩
    · exact Or.inl hjoined
    · refine Or.inr ⟨hlines.trans hzero, hidle, fun x e he => ?_⟩
      change e ∈ (Function.update s.joining.threads.side session (Sending.start Data) x).copied at he
      by_cases hx : x = session
      · subst hx
        rw [Function.update_self] at he
        exact absurd he (List.not_mem_nil)
      · rw [Function.update_of_ne hx] at he
        exact hnone x e he
  · show ConsoleLast (Function.update s.joining.threads.side session (Sending.start Data) x).copied
    by_cases hx : x = session
    · subst hx
      rw [Function.update_self]
      exact ⟨[], [], rfl, by simp, by simp⟩
    · rw [Function.update_of_ne hx]
      exact h.parts x

/-- A turn of `Send` comes before the threads have returned. -/
theorem Apart.send {past : List (ProgramAction σ)} {s s' : ServerProgram σ} (h : Apart past s) {n : Fin 4}
    {m : MessageMemory} (hstep : step s (.main (.send n m)) = some s') :
    Apart (past ++ [.main (.send n m)]) s' := by
  simp only [step, Option.ite_none_right_eq_some] at hstep
  obtain ⟨Packet, -, hmap⟩ := Option.bind_eq_some_iff.mp hstep.2
  obtain ⟨joining, hjoin, rfl⟩ := Option.map_eq_some_iff.mp hmap
  obtain ⟨threads, hcall, rfl⟩ := Option.map_eq_some_iff.mp hjoin
  obtain ⟨-, rfl⟩ := ServerMain.call_eq_some hcall
  have hlines : lines (past ++ [.main (.send n m)]) = lines past := List.countP_append
  refine ⟨?_, h.parts⟩
  rcases h.phase with hjoined | ⟨hzero, hidle, hnone⟩
  · exact absurd (hjoined n).1 (by omega)
  · refine Or.inr ⟨hlines.trans hzero, ?_, hnone⟩
    show Function.update s.joining.threads.calls (some n)
      (some { sends := s.joining.manager.AllMessage Packet }) none = none
    rw [Function.update_of_ne (by simp)]
    exact hidle

/-- `main` reads the console when they have. -/
theorem Apart.line {past : List (ProgramAction σ)} {s s' : ServerProgram σ} (h : Apart past s)
    {m : MessageMemory} {Msg : CharArray MAX_CHAT_SIZE} {behind : List UInt8}
    (hstep : step s (.main (.line m Msg behind)) = some s') :
    Apart (past ++ [.main (.line m Msg behind)]) s' := by
  simp only [step, Option.ite_none_right_eq_some] at hstep
  obtain ⟨Packet, -, hmap⟩ := Option.bind_eq_some_iff.mp hstep.2
  obtain ⟨joining, hjoin, rfl⟩ := Option.map_eq_some_iff.mp hmap
  obtain ⟨threads, hcall, rfl⟩ := Option.map_eq_some_iff.mp hjoin
  obtain ⟨-, rfl⟩ := ServerMain.call_eq_some hcall
  refine ⟨Or.inl fun n => ⟨(hstep.1 n).1, ?_⟩, h.parts⟩
  show (Function.update s.joining.threads.calls none
    (some { sends := s.joining.manager.AllMessage Packet }) (some n)).isNone
  rw [Function.update_of_ne (by simp)]
  exact (hstep.1 n).2

/-- What a run is on the sending side. -/
def events (s : ServerProgram σ) (as : List (ProgramAction σ)) : List (JoiningAction σ MainThread) :=
  StepMachine.emitted step event s as

end ServerProgram

end YServerCore
