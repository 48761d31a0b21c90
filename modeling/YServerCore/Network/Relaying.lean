/-
  YServerCore.Network.Relaying — from what clients send to what other clients are sent.

  `Network.Serving` ends where a handler hands its packet to `SendPacket` or `AllMessage`, and
  `Send.Joining` begins there.  Here they are one machine: `OnAccept` starts a session's read side and
  registers it, which waits for the broadcasts in progress; a task runs up to its answer; and the call
  the answer is handed to runs its sections beside all others, on a thread of its own, which is
  numbered by the answer.  No session is closed, as the completion that would is skipped.

  Main results:
    * `run_projects` — a run is one of the serving side and one of the sending side, side by side.
    * `handle_kind` — a handler broadcasts logins that succeeded and moves, and nothing else.
    * `relayed` — a session is posted a merge of the answers to its own requests and the broadcasts
      begun since it was accepted, each once.
-/
import YServerCore.Network.Serving
import YServerCore.Requests.Identity
import YServerCore.Requests.Objects
import YServerCore.Requests.Replies
import YServerCore.Send.Joining

namespace YServerCore

open ByteMemory (Mem)
open Broadcasting (issued IsMerge)
open Joining (addressed heard only)

/-! ## §1. The machine. -/

/-- The call an answer is handed to, with its packet object in memory. -/
def Outgoing.call {σ : Type*} (n : Nat) (session : σ) (memory : Mem) : Outgoing → JoiningAction σ Nat
  | .SendPacket Packet => .SendPacket n session (Packet.store memory)
  | .AllMessage Msg => .AllMessage n (Msg.store memory)

/-- The serving side, the sending side, and the answers whose calls have begun. -/
structure Relaying (σ ω : Type*) where
  serving : Serving σ ω
  joining : Joining σ Nat
  begun : List Nat := []

/-- What happens. -/
inductive RelayingAction (σ ω : Type*) where
  /-- `Server::OnAccept` up to `AddSession`, and whether the socket joins the completion port; behind the
  zeroed write buffer is whatever was in memory. -/
  | accept (session : σ) (Handle : Bool) (Data : Mem)
  /-- Any other step of the workers; a task, up to its answer. -/
  | serve (a : ServingAction σ ω)
  /-- The call an answer is handed to begins. -/
  | answer (n : Nat) (memory : Mem)
  /-- The sections of its `SendPacket`s, and its return. -/
  | copy (n : Nat)
  | post (n : Nat)
  | ret (n : Nat)

namespace Relaying

variable {σ ω : Type*} [DecidableEq σ] [DecidableEq ω]

/-- No sessions yet. -/
def start (io : σ → ST_IOData) (UserInfo : σ → ST_UserInfo) : Relaying σ ω where
  serving := Serving.start io UserInfo
  joining := Joining.start

/-- `OnAccept` up to `AddSession`, which is a step of both sides. -/
def accepts : ServingAction σ ω → Bool
  | .network (.accept _ _) => true
  | _ => false

/-- One step. -/
def step (s : Relaying σ ω) : RelayingAction σ ω → Option (Relaying σ ω)
  | .accept session Handle Data =>
      (Serving.step s.serving (.network (.accept session Handle))).bind (fun serving =>
        if Handle then
          (Joining.step s.joining (.AddSession session Data)).map (fun joining =>
            { s with serving := serving, joining := joining })
        else some { s with serving := serving })
  | .serve a =>
      if accepts a then none
      else (Serving.step s.serving a).map (fun serving => { s with serving := serving })
  | .answer n memory =>
      match s.serving.sent[n]? with
      | none => none
      | some (session, o) =>
          if n ∈ s.begun then none
          else (Joining.step s.joining (o.call n session memory)).map (fun joining =>
            { s with joining := joining, begun := s.begun ++ [n] })
  | .copy n => (Joining.step s.joining (.copy n)).map (fun joining => { s with joining := joining })
  | .post n => (Joining.step s.joining (.post n)).map (fun joining => { s with joining := joining })
  | .ret n => (Joining.step s.joining (.ret n)).map (fun joining => { s with joining := joining })

/-! ## §2. The two sides. -/

/-- What an action is on the serving side. -/
def servingOf : RelayingAction σ ω → List (ServingAction σ ω)
  | .accept session Handle _ => [.network (.accept session Handle)]
  | .serve a => [a]
  | .answer _ _ => []
  | .copy _ => []
  | .post _ => []
  | .ret _ => []

/-- What an action is on the sending side, where these are the answers. -/
def joiningOf (sent : List (σ × Outgoing)) : RelayingAction σ ω → List (JoiningAction σ Nat)
  | .accept session Handle Data => if Handle then [.AddSession session Data] else []
  | .serve _ => []
  | .answer n memory => (sent[n]?).toList.map (fun r => r.2.call n r.1 memory)
  | .copy n => [.copy n]
  | .post n => [.post n]
  | .ret n => [.ret n]

/-- The answers whose calls begin. -/
def begins : RelayingAction σ ω → List Nat
  | .accept _ _ _ => []
  | .serve _ => []
  | .answer n _ => [n]
  | .copy _ => []
  | .post _ => []
  | .ret _ => []

/-- What a step is on both sides: `more` are answers that come later. -/
structure Projects (s s' : Relaying σ ω) (a : RelayingAction σ ω) : Prop where
  serving : StepMachine.run Serving.step s.serving (servingOf a) = some s'.serving
  joining : ∀ more, StepMachine.run Joining.step s.joining (joiningOf (s'.serving.sent ++ more) a)
    = some s'.joining
  sent : ∃ news, s'.serving.sent = s.serving.sent ++ news
  begun : s'.begun = s.begun ++ begins a
  fresh : ∀ n ∈ begins a, n ∉ s.begun
  idle : ∀ n ∉ s'.begun, s.joining.threads.calls n = none → s'.joining.threads.calls n = none

/-- The serving side only adds to the answers. -/
theorem sent_step {s s' : Serving σ ω} {a : ServingAction σ ω} (h : Serving.step s a = some s') :
    ∃ news, s'.sent = s.sent ++ news := by
  cases a with
  | network a =>
      obtain ⟨d, -, rfl⟩ := Option.map_eq_some_iff.mp h
      exact ⟨[], (List.append_nil _).symm⟩
  | task i env =>
      cases htask : s.tasks[i]? with
      | none =>
          simp only [Serving.step, htask] at h
          exact absurd h (by simp)
      | some r =>
          simp only [Serving.step, htask, Option.map_eq_some_iff] at h
          obtain ⟨e, -, rfl⟩ := h
          exact ⟨_, rfl⟩

/-- A section of a call is a step of the sending side. -/
theorem projects_section {s : Relaying σ ω} {joining : Joining σ Nat} {a : RelayingAction σ ω}
    {b : JoiningAction σ Nat} (hcaller : Joining.caller b = none) (hserving : servingOf a = []) (hbegins : begins a = [])
    (hjoining : ∀ sent, joiningOf sent a = [b]) (h : Joining.step s.joining b = some joining) :
    Projects s { s with joining := joining } a where
  serving := by
    rw [hserving]
    rfl
  joining := by
    intro more
    rw [hjoining]
    exact StepMachine.run_one h
  sent := ⟨[], (List.append_nil _).symm⟩
  begun := by
    rw [hbegins]
    exact (List.append_nil _).symm
  fresh := by
    rw [hbegins]
    intro n hn
    exact absurd hn (by simp)
  idle := by
    intro n _ hidle
    exact Joining.idle_step h hidle (by simp [hcaller])

/-- **One step** is one on each side, or on one of them. -/
theorem projects_step {s s' : Relaying σ ω} {a : RelayingAction σ ω} (h : step s a = some s') :
    Projects s s' a := by
  cases a with
  | accept session Handle Data =>
      obtain ⟨serving, hserving, hjoin⟩ := Option.bind_eq_some_iff.mp h
      cases Handle with
      | true =>
          obtain ⟨joining, hjoining, rfl⟩ := Option.map_eq_some_iff.mp hjoin
          refine ⟨StepMachine.run_one hserving, fun more => StepMachine.run_one hjoining,
            sent_step hserving, (List.append_nil _).symm, fun n hn => absurd hn (by simp [begins]), ?_⟩
          intro n _ hidle
          exact Joining.idle_step hjoining hidle (by simp [Joining.caller])
      | false =>
          rw [if_neg (by simp), Option.some.injEq] at hjoin
          subst hjoin
          exact ⟨StepMachine.run_one hserving, fun more => rfl, sent_step hserving,
            (List.append_nil _).symm, fun n hn => absurd hn (by simp [begins]), fun _ _ hidle => hidle⟩
  | serve a =>
      simp only [step, Option.ite_none_left_eq_some] at h
      obtain ⟨serving, hserving, rfl⟩ := Option.map_eq_some_iff.mp h.2
      exact ⟨StepMachine.run_one hserving, fun more => rfl, sent_step hserving,
        (List.append_nil _).symm, fun n hn => absurd hn (by simp [begins]), fun _ _ hidle => hidle⟩
  | answer n memory =>
      cases hsent : s.serving.sent[n]? with
      | none =>
          simp only [step, hsent] at h
          exact absurd h (by simp)
      | some r =>
          obtain ⟨session, o⟩ := r
          simp only [step, hsent, Option.ite_none_left_eq_some] at h
          obtain ⟨hnew, hmap⟩ := h
          obtain ⟨joining, hjoining, rfl⟩ := Option.map_eq_some_iff.mp hmap
          refine ⟨rfl, fun more => ?_, ⟨[], (List.append_nil _).symm⟩, rfl, fun m hm => ?_,
            fun m hm hidle => ?_⟩
          · have hmore : (s.serving.sent ++ more)[n]? = some (session, o) := by
              rw [List.getElem?_append_left (List.getElem?_eq_some_iff.mp hsent).1, hsent]
            show StepMachine.run Joining.step s.joining
              (((s.serving.sent ++ more)[n]?).toList.map _) = _
            rw [hmore]
            exact StepMachine.run_one hjoining
          · rw [List.mem_singleton.mp hm]
            exact hnew
          · have hmn : n ≠ m := by
              rintro rfl
              exact hm (List.mem_append_right _ (List.mem_singleton.mpr rfl))
            apply Joining.idle_step hjoining hidle
            cases o <;> exact fun heq => hmn (Option.some.inj heq)
  | copy n =>
      obtain ⟨joining, hjoining, rfl⟩ := Option.map_eq_some_iff.mp h
      exact projects_section rfl rfl rfl (fun _ => rfl) hjoining
  | post n =>
      obtain ⟨joining, hjoining, rfl⟩ := Option.map_eq_some_iff.mp h
      exact projects_section rfl rfl rfl (fun _ => rfl) hjoining
  | ret n =>
      obtain ⟨joining, hjoining, rfl⟩ := Option.map_eq_some_iff.mp h
      exact projects_section rfl rfl rfl (fun _ => rfl) hjoining

/-- **A run** is one of the serving side and one of the sending side, with the answers of the first; the
calls of no answer begin twice. -/
structure Projected (io : σ → ST_IOData) (UserInfo : σ → ST_UserInfo)
    (past : List (RelayingAction σ ω)) (s : Relaying σ ω) : Prop where
  serving : StepMachine.run Serving.step (Serving.start io UserInfo) (past.flatMap servingOf)
    = some s.serving
  joining : ∀ more, StepMachine.run Joining.step Joining.start
    (past.flatMap (joiningOf (s.serving.sent ++ more))) = some s.joining
  begun : s.begun = past.flatMap begins
  once : s.begun.Nodup
  idle : ∀ n ∉ s.begun, s.joining.threads.calls n = none

theorem run_projects {io : σ → ST_IOData} {UserInfo : σ → ST_UserInfo}
    {as : List (RelayingAction σ ω)} {s : Relaying σ ω}
    (hrun : StepMachine.run step (start io UserInfo) as = some s) : Projected io UserInfo as s := by
  apply StepMachine.run_history (P := Projected io UserInfo) ?_ ?_ hrun
  · exact ⟨rfl, fun _ => rfl, rfl, List.nodup_nil, fun _ _ => rfl⟩
  · intro past s a s' _ h hstep
    have hone := projects_step hstep
    obtain ⟨news, hnews⟩ := hone.sent
    refine ⟨?_, fun more => ?_, ?_, ?_, fun n hn => hone.idle n hn (h.idle n fun hold => hn ?_)⟩
    · rw [List.flatMap_append, List.flatMap_singleton, StepMachine.run_append_eq_some]
      exact ⟨s.serving, h.serving, hone.serving⟩
    · -- what the step adds to the answers comes later than all calls before it
      rw [List.flatMap_append, List.flatMap_singleton, StepMachine.run_append_eq_some]
      refine ⟨s.joining, ?_, hone.joining more⟩
      rw [hnews, List.append_assoc]
      exact h.joining (news ++ more)
    · rw [List.flatMap_append, List.flatMap_singleton, hone.begun, h.begun]
    · rw [hone.begun]
      refine List.nodup_append.mpr ⟨h.once, ?_, fun n hn m hm hnm => ?_⟩
      · cases a <;> simp [begins]
      · exact hone.fresh m hm (hnm ▸ hn)
    · rw [hone.begun]
      exact List.mem_append_left _ hold

/-! ## §3. What handlers answer. -/

/-- The answers of handlers: a login or a new account is answered to its session as a login is; all
sessions get logins that succeeded, and moves. -/
def Kind : Outgoing → Prop
  | .SendPacket (.userInfo Packet) => Packet.Header.IOType = UInt32.ofNat E_IOType.S_Login.code
  | .SendPacket (.moveInfo _) => False
  | .AllMessage (.userInfo Msg) =>
      Msg.Header.IOType = UInt32.ofNat E_IOType.S_Login.code ∧ Msg.Header.Success = true
  | .AllMessage (.moveInfo Msg) => Msg.Header.IOType = UInt32.ofNat E_IOType.S_Move.code

/-- **A handler's answer** is of these. -/
theorem handle_kind {env : Environment} {session session' : SessionInfo} {c : Call RequestHandler}
    {outs : List Outgoing} (h : handle env session c = some (session', outs)) :
    ∀ o ∈ outs, Kind o := by
  obtain ⟨handler, pos, size, packet⟩ := c
  cases handler with
  | RecvChatMessage =>
      have hsome : some (session, []) = some (session', outs) := h
      rw [Option.some.injEq, Prod.mk.injEq] at hsome
      intro o ho
      rw [← hsome.2] at ho
      exact absurd ho (by simp)
  | RecvCreateAccountRequest =>
      obtain ⟨-, Packet, rfl, hheader⟩ := RecvCreateAccountRequest_spec h
      rw [List.forall_mem_singleton]
      show Packet.Header.IOType = _
      rw [hheader]
      rfl
  | RecvLoginRequest =>
      obtain ⟨result, Header, -, hset, -, rfl⟩ := RecvLoginRequest_spec h
      obtain ⟨htype, hsuccess, -⟩ := ST_IOHeader.SetHeader_spec hset
      cases result with
      | true =>
          rw [if_pos rfl, List.forall_mem_singleton]
          exact ⟨htype, hsuccess⟩
      | false =>
          rw [if_neg (by simp), List.forall_mem_singleton]
          exact htype
  | RecvMoveRequest =>
      obtain ⟨Id, -, hr⟩ := RecvMoveRequest_eq_some.mp h
      rw [Prod.mk.injEq] at hr
      rw [hr.2, List.forall_mem_singleton]
      rfl

/-- Every answer is of these. -/
theorem kind_step {s s' : Serving σ ω} {a : ServingAction σ ω} (h : ∀ e ∈ s.sent, Kind e.2)
    (hstep : Serving.step s a = some s') : ∀ e ∈ s'.sent, Kind e.2 := by
  cases a with
  | network a =>
      obtain ⟨d, -, rfl⟩ := Option.map_eq_some_iff.mp hstep
      exact h
  | task i env =>
      cases htask : s.tasks[i]? with
      | none =>
          simp only [Serving.step, htask] at hstep
          exact absurd hstep (by simp)
      | some r =>
          simp only [Serving.step, htask, Option.map_eq_some_iff] at hstep
          obtain ⟨e, hhandle, rfl⟩ := hstep
          intro p hp
          rcases List.mem_append.mp hp with hold | hnew
          · exact h p hold
          · obtain ⟨o, ho, rfl⟩ := List.mem_map.mp hnew
            exact handle_kind hhandle o ho

/-! ## §4. What a session is sent. -/

/-- What an answer brings to a session that is registered: a packet, if the answer is to a request of its
own or goes to all sessions. -/
def delivery (x : σ) (n : Nat) (memory : Mem) : σ × Outgoing → List (Nat × List UInt8)
  | (session, .SendPacket Packet) =>
      if session = x then [(n, packetBytes (Packet.store memory))] else []
  | (_, .AllMessage Msg) => [(n, packetBytes (Msg.store memory))]

/-- What an action brings to a session that is registered. -/
def deliveries (x : σ) (sent : List (σ × Outgoing)) : RelayingAction σ ω → List (Nat × List UInt8)
  | .answer n memory => (sent[n]?).toList.flatMap (delivery x n memory)
  | .accept _ _ _ => []
  | .serve _ => []
  | .copy _ => []
  | .post _ => []
  | .ret _ => []

omit [DecidableEq ω] in
/-- The calls with a packet for a registered session. -/
theorem issued_joiningOf (x : σ) (sent : List (σ × Outgoing)) (as : List (RelayingAction σ ω)) :
    issued ((as.flatMap (joiningOf sent)).flatMap (addressed x (only x)))
      = as.flatMap (deliveries x sent) := by
  induction as with
  | nil => rfl
  | cons a as ih =>
      rw [List.flatMap_cons, List.flatMap_append, Broadcasting.issued_append, ih, List.flatMap_cons]
      congr 1
      cases a with
      | accept session Handle Data => cases Handle <;> rfl
      | serve a => rfl
      | answer n memory =>
          show issued (((sent[n]?).toList.map _).flatMap _) = (sent[n]?).toList.flatMap _
          cases sent[n]? with
          | none => rfl
          | some r =>
              obtain ⟨session, o⟩ := r
              cases o with
              | SendPacket Packet =>
                  show issued ((if session = x then _ else _) ++ []) = (if session = x then _ else _) ++ []
                  split <;> rfl
              | AllMessage Msg =>
                  show issued ((if x ∈ [x] then _ else _) ++ []) = _
                  rw [if_pos (List.mem_singleton.mpr rfl)]
                  rfl
      | copy n => rfl
      | post n => rfl
      | ret n => rfl

omit [DecidableEq ω] in
/-- A session gets a packet of an answer once at most. -/
theorem keys_deliveries (x : σ) (sent : List (σ × Outgoing)) (a : RelayingAction σ ω) :
    ((deliveries x sent a).map Prod.fst).Sublist (begins a) := by
  cases a with
  | answer n memory =>
      show (((sent[n]?).toList.flatMap _).map _).Sublist [n]
      cases sent[n]? with
      | none => exact List.nil_sublist _
      | some r =>
          obtain ⟨session, o⟩ := r
          cases o with
          | SendPacket Packet =>
              show (((if session = x then _ else _) ++ []).map _).Sublist [n]
              split
              · exact List.Sublist.refl _
              · exact List.nil_sublist _
          | AllMessage Msg => exact List.Sublist.refl _
  | _ => exact List.nil_sublist _

omit [DecidableEq ω] in
theorem keys_flatMap (x : σ) (sent : List (σ × Outgoing)) (as : List (RelayingAction σ ω)) :
    ((as.flatMap (deliveries x sent)).map Prod.fst).Sublist (as.flatMap begins) := by
  induction as with
  | nil => exact List.Sublist.refl _
  | cons a as ih =>
      rw [List.flatMap_cons, List.flatMap_cons, List.map_append]
      exact (keys_deliveries x sent a).append ih

omit [DecidableEq σ] [DecidableEq ω] in
/-- Nobody closes a session. -/
theorem no_close (sent : List (σ × Outgoing)) (as : List (RelayingAction σ ω)) (session : σ) :
    JoiningAction.CloseSession session ∉ as.flatMap (joiningOf sent) := by
  intro hmem
  obtain ⟨a, -, ha⟩ := List.mem_flatMap.mp hmem
  cases a with
  | accept y Handle Data => cases Handle <;> simp [joiningOf] at ha
  | answer n memory =>
      obtain ⟨r, -, hr⟩ := List.mem_map.mp ha
      obtain ⟨y, o⟩ := r
      cases o <;> exact absurd hr (by simp [Outgoing.call])
  | _ => simp [joiningOf] at ha

/-- No call that has begun is at the session, or has it ahead. -/
def Quiet (s : Relaying σ ω) (x : σ) : Prop :=
  ∀ n ∈ s.begun, ∀ c ∈ s.joining.threads.calls n, ∀ p ∈ c.sends, p.1 ≠ x

instance (s : Relaying σ ω) (x : σ) : Decidable (s.Quiet x) :=
  inferInstanceAs (Decidable (∀ n ∈ s.begun, ∀ c ∈ s.joining.threads.calls n, ∀ p ∈ c.sends, p.1 ≠ x))

/-- **From requests to sockets.**  For any sessions, any number of workers and every interleaving of
accepts, arrivals, completions, points of `OnRecv`s, tasks and sections of the calls their answers are
handed to: the serving side runs as it does alone, and its answers are logins that succeeded and
moves for all sessions, and answers to logins for one; and whenever no call is at a session any
more, what has been posted to it is a merge of whole packets, the answers to its own requests and
those for all sessions whose calls have begun since it was accepted, each once. -/
theorem relayed (io : σ → ST_IOData) (UserInfo : σ → ST_UserInfo)
    (before after : List (RelayingAction σ ω)) (x : σ) (Data : Mem) (s : Relaying σ ω)
    (hrun : StepMachine.run step (start io UserInfo) (before ++ .accept x true Data :: after) = some s) :
    StepMachine.run Serving.step (Serving.start io UserInfo)
        ((before ++ .accept x true Data :: after).flatMap servingOf) = some s.serving
      ∧ (∀ e ∈ s.serving.sent, Kind e.2)
      ∧ ((after.flatMap (deliveries x s.serving.sent)).map Prod.fst).Nodup
      ∧ (s.Quiet x →
        IsMerge (after.flatMap (deliveries x s.serving.sent)) (s.joining.threads.side x).posted
          ∧ (s.joining.threads.side x).io.unsent = []) := by
  have h := run_projects hrun
  refine ⟨h.serving, ?_, ?_, fun hquiet => ?_⟩
  · refine StepMachine.run_invariant (P := fun s : Serving σ ω => ∀ e ∈ s.sent, Kind e.2)
      (fun s a s' hkind hstep => kind_step hkind hstep) ?_ h.serving
    intro e he
    exact absurd he (by simp [Serving.start])
  · have hbegun : s.begun = before.flatMap begins ++ after.flatMap begins := by
      rw [h.begun, List.flatMap_append, List.flatMap_cons]
      rfl
    have honce := h.once
    rw [hbegun] at honce
    exact (keys_flatMap x s.serving.sent after).nodup honce.of_append_right
  · have hjoining := h.joining []
    rw [List.append_nil] at hjoining
    have hnobody : s.joining.Quiet x := by
      intro n c hc
      by_cases hn : n ∈ s.begun
      · exact hquiet n hn c hc
      · rw [h.idle n hn] at hc
        cases hc
    have hmerge := (Joining.accounted_of_run hjoining).merge hnobody
    -- what is addressed to it is what comes behind its acceptance
    have hsplit : (before ++ .accept x true Data :: after).flatMap (joiningOf s.serving.sent)
        = before.flatMap (joiningOf s.serving.sent)
          ++ .AddSession x Data :: after.flatMap (joiningOf s.serving.sent) := by
      rw [List.flatMap_append, List.flatMap_cons]
      rfl
    rw [hsplit] at hjoining hmerge
    rw [Joining.heard_late hjoining (no_close s.serving.sent after), issued_joiningOf] at hmerge
    exact hmerge

/-- Session 7 is accepted, and then session 8, and 7 logs in. -/
def sevenLogsIn : List (RelayingAction Nat Nat) :=
  [.serve (.network (.acceptReady 7)), .serve (.network (.acceptRecv 7 true)),
    .serve (.network (.arrive 7 (Server.loginRequest 92))),
    .serve (.network (.completion 1 7 .receive 92 true)), .serve (.network (.point 1)),
    .serve (.network (.point 1)), .serve (.task 0 Requests.accepting), .answer 0 (fun _ => 0),
    .copy 0, .post 0, .copy 0, .post 0, .ret 0]

/-- Both are sent the login. -/
theorem relayed_login :
    ∃ s : Relaying Nat Nat,
      StepMachine.run step
          (start (fun _ => {}) (fun _ => ST_UserInfo.fresh Server.refusing.Id Server.refusing.Pw))
          ([.accept 7 true (fun _ => 0)] ++ .accept 8 true (fun _ => 0) :: sevenLogsIn) = some s
        ∧ s.serving.sent.length = 1
        ∧ IsMerge (sevenLogsIn.flatMap (deliveries 8 s.serving.sent))
          (s.joining.threads.side 8).posted := by
  have hend : (StepMachine.run step
      (start (fun _ => {}) (fun _ => ST_UserInfo.fresh Server.refusing.Id Server.refusing.Pw) :
        Relaying Nat Nat)
      ([.accept 7 true (fun _ => 0)] ++ .accept 8 true (fun _ => 0) :: sevenLogsIn)).map
      (fun s => (s.serving.sent.length, decide (s.Quiet 8))) = some (1, true) := by
    decide +kernel
  obtain ⟨s, hs, hall⟩ := Option.map_eq_some_iff.mp hend
  rw [Prod.mk.injEq, decide_eq_true_iff] at hall
  obtain ⟨-, -, -, hmerge⟩ := relayed _ _ _ sevenLogsIn 8 _ s hs
  exact ⟨s, hs, hall.1, (hmerge hall.2).1⟩

end Relaying

end YServerCore
