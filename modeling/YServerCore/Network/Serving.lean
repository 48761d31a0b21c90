/-
  YServerCore.Network.Serving — the workers with the tasks they start.

  `HandleData` is called inside a turn of an `OnRecv`, by the worker that makes the turn, and starts a
  task that runs at any later moment.  Here the machine of `Network.History` has the tasks as well:
  the members the handlers use, the tasks that have not run yet, the packets they have sent, and
  what `RecvChatMessage` has printed.

  `Requests.Server` is the same server seen from further away: bytes come to a session all at once,
  and the two turns that leave a loop and settle the buffer are one.

  Main results:
    * `beside_step` — every step stands for none or one of the actions of `Requests.Server`.
    * `serving_refines` — every run of workers and tasks is, seen so, a run of `Requests.Server`, with the
      same sessions, tasks and packets.
-/
import YServerCore.Network.Dispatching
import YServerCore.Requests.FormatStrings

namespace YServerCore

open ByteMemory (Mem write)
open RequestHandler (packetSize)
open PacketProcess (Handler)

/-! ## §1. The machine with its tasks. -/

/-- What `RecvChatMessage` prints; `behind` is the text behind its packet object. -/
def RecvChatMessage_log (msg : ST_ChatMessage) (behind : List UInt8) : LogCall where
  format := ascii "%s : %s"
  args := [some (msg.Id.text (msg.Message.text behind)), some (msg.Message.text behind)]

/-- What a task prints, if it is one for a chat message. -/
def Call.printed (c : Call RequestHandler) (env : Environment) : List LogCall :=
  if c.handler = .RecvChatMessage then
    [RecvChatMessage_log (ST_ChatMessage.ofBytes c.packet) env.behind]
  else []

/-- The workers with their history, the members the handlers use, the tasks that have not run yet, the
packets sent so far and the chat messages printed so far, each with its session. -/
structure Serving (σ τ : Type*) extends Dispatching σ τ where
  info : σ → SessionInfo
  tasks : List (σ × Call RequestHandler) := []
  sent : List (σ × Outgoing) := []
  log : List (σ × LogCall) := []

/-- What happens. -/
inductive ServingAction (σ τ : Type*) where
  | network (a : WorkerAction σ τ)
  /-- The task at a position runs. -/
  | task (i : Nat) (env : Environment)

namespace Serving

variable {σ τ : Type*} [DecidableEq σ] [DecidableEq τ]

/-- The tasks an action starts. -/
def started (s : Dispatching σ τ) : WorkerAction σ τ → List (σ × Call RequestHandler)
  | .point worker =>
      match s.worker worker with
      | some (session, .loop) =>
          (Dispatching.callsOf ((s.io session).pass packetSize Handler)).map (fun c => (session, c))
      | _ => []
  | _ => []

/-- One step. -/
def step (s : Serving σ τ) : ServingAction σ τ → Option (Serving σ τ)
  | .network a =>
      (Dispatching.step s.toDispatching a).map (fun d =>
        { s with toDispatching := d, tasks := s.tasks ++ started s.toDispatching a })
  | .task i env =>
      match s.tasks[i]? with
      | none => none
      | some (session, c) =>
          (handle env (s.info session) c).map (fun r =>
            { s with
              info := Function.update s.info session r.1
              tasks := s.tasks.eraseIdx i
              sent := s.sent ++ r.2.map (fun o => (session, o))
              log := s.log ++ (c.printed env).map (fun p => (session, p)) })

/-- No sessions yet; their memory holds whatever it holds. -/
def start (io : σ → ST_IOData) (UserInfo : σ → ST_UserInfo) : Serving σ τ where
  toDispatching := Dispatching.start io
  info := fun session => { UserInfo := UserInfo session }

/-- What `WSARecv` promises. -/
def Delivers (s : Serving σ τ) : ServingAction σ τ → Prop
  | .network a => Dispatching.Delivers s.toDispatching a
  | .task _ _ => True

instance (s : Serving σ τ) : (a : ServingAction σ τ) → Decidable (Delivers s a)
  | .network a => inferInstanceAs (Decidable (Dispatching.Delivers s.toDispatching a))
  | .task _ _ => isTrue trivial

/-- The action of `Requests.Server` a step stands for. -/
def event (s : Serving σ τ) : ServingAction σ τ → List (ServerAction σ)
  | .network (.point worker) =>
      match s.worker worker with
      -- the bytes are there for `OnRecv` from its first point on
      | some (session, .called _) => [.recv session ((s.chunks session).getLastD [])]
      | some (session, .loop) =>
          (Dispatching.callsOf ((s.io session).pass packetSize Handler)).map (fun _ => .turn session)
      | some (session, .settled) => [.turn session]
      | _ => []
  | .network _ => []
  | .task i env => [.task i env]

/-! ## §2. Beside the server. -/

/-- Where an `OnRecv` is, in terms of the session's buffer `io'` at the server. -/
def StageOf (chunk : List UInt8) (io io' : ST_IOData) (inLoop : Bool) : OnRecvStage → Prop
  | .called TransferSize =>
      TransferSize = chunk.length ∧ io = Dispatching.landed io' chunk ∧ inLoop = false
  | .loop => io = io' ∧ inLoop = true
  | .left => io = io' ∧ inLoop = true ∧ io'.pass packetSize Handler = .exit
  | .settled => io = io'.settle ∧ inLoop = true ∧ io'.pass packetSize Handler = .exit
  | .recv => True

/-- One session, and the session at the server. -/
structure SessionBeside (s : Dispatching σ τ) (io' : ST_IOData) (inLoop : Bool) (x : σ) : Prop where
  unused : s.accept x = .unused →
    io' = ST_IOData.OnAccept (s.io x).Data ∧ s.arrived x = [] ∧ inLoop = false
  idle : s.accept x ≠ .unused → (∀ t, ¬ s.InOnRecv x t) →
    s.io x = Dispatching.landed io' (s.arrived x) ∧ inLoop = false
  busy : ∀ t stage, s.worker t = some (x, stage) → stage ≠ .recv →
    s.arrived x = [] ∧ StageOf ((s.chunks x).getLastD []) (s.io x) io' inLoop stage

/-- **A state beside one of the server.** -/
structure Beside (s : Serving σ τ) (t : Server σ) : Prop where
  sessions : ∀ x, SessionBeside s.toDispatching (t.io x) (t.inLoop x) x
  info : t.info = s.info
  tasks : t.tasks = s.tasks
  sent : t.sent = s.sent

/-! ## §3. One step. -/

section

variable {d d' : Dispatching σ τ} {io' : ST_IOData} {inLoop : Bool} {x : σ}

omit [DecidableEq σ] [DecidableEq τ] in
/-- A session that nothing has changed of. -/
theorem SessionBeside.same (h : SessionBeside d io' inLoop x) (hsame : Dispatching.Same d d' x) :
    SessionBeside d' io' inLoop x := by
  constructor
  · intro hunused
    rw [hsame.io, hsame.arrived]
    exact h.unused (hsame.unused.mp hunused)
  · intro hused hno
    rw [hsame.io, hsame.arrived]
    refine h.idle (fun hunused => hused (hsame.unused.mpr hunused)) fun t ht => hno t ?_
    obtain ⟨stage, ht, hne⟩ := ht
    exact ⟨stage, (hsame.worker t stage).mpr ht, hne⟩
  · intro t stage ht hne
    rw [hsame.io, hsame.arrived, hsame.chunks]
    exact h.busy t stage ((hsame.worker t stage).mp ht) hne

omit [DecidableEq σ] [DecidableEq τ] in
/-- **A step that is no point** leaves a session beside the same one. -/
theorem SessionBeside.quiet {a : WorkerAction σ τ} (h : SessionBeside d io' inLoop x)
    (hquiet : ∀ worker, a ≠ .point worker) (hstep : Dispatching.SessionStep d d' x a) :
    SessionBeside d' io' inLoop x := by
  cases hstep with
  | same _ hsame => exact h.same hsame
  | accept hunused hused hio harr hchunks hcalls hnone =>
      obtain ⟨hio', hempty, hout⟩ := h.unused hunused
      refine ⟨fun hno => absurd hno hused, fun _ _ => ⟨?_, hout⟩,
        fun t stage ht => absurd ht (hnone t stage)⟩
      rw [hio, harr, hempty, Dispatching.landed_nil, hio']
  | arrive hused hused' hempty hio harr hchunks hcalls hnone hnone' =>
      obtain ⟨hio₀, hout⟩ := h.idle hused fun t ht => hnone t _ ht.choose_spec.1
      refine ⟨fun hno => absurd hno hused', fun _ _ => ⟨?_, hout⟩,
        fun t stage ht => absurd ht (hnone' t stage)⟩
      rw [hempty, Dispatching.landed_nil] at hio₀
      rw [hio, harr, hio₀]
  | completion hused hused' hsize hio harr hchunks hcalls hnone hworker honly =>
      obtain ⟨hio₀, hout⟩ := h.idle hused fun t ht => hnone t _ ht.choose_spec.1
      refine ⟨fun hno => absurd hno hused', fun _ hno => ?_, fun t stage ht _ => ?_⟩
      · exact absurd ⟨_, hworker, by simp⟩ (hno _)
      · rw [honly t stage ht, hchunks, List.getLastD_concat]
        exact ⟨harr, hsize, hio.trans hio₀, hout⟩
  | point => exact absurd rfl (hquiet _)
  | recv hused hused' hio harr hchunks hcalls honly hnone' =>
      refine ⟨fun hno => absurd hno hused', fun _ _ => ?_,
        fun t stage ht => absurd ht (hnone' t stage)⟩
      rw [hio, harr]
      refine h.idle hused fun t ht => ?_
      obtain ⟨stage, ht, hne⟩ := ht
      exact hne (honly t stage ht)

omit [DecidableEq σ] [DecidableEq τ] in
/-- A point leads to a state beside this one, if the next stage is beside it. -/
theorem SessionBeside.of_stage {worker : τ} {stage : OnRecvStage}
    (hused' : d'.accept x ≠ .unused) (harr : d'.arrived x = [])
    (hworker' : d'.worker worker = some (x, stage))
    (honly : ∀ t stage', d'.worker t = some (x, stage') → stage' = stage) (hne : stage ≠ .recv)
    (hstage : StageOf ((d'.chunks x).getLastD []) (d'.io x) io' inLoop stage) :
    SessionBeside d' io' inLoop x := by
  refine ⟨fun hno => absurd hno hused', fun _ hno => ?_, fun t stage' ht _ => ?_⟩
  · exact absurd ⟨stage, hworker', hne⟩ (hno worker)
  · rw [honly t stage' ht]
    exact ⟨harr, hstage⟩

end

section

variable {s : Serving σ τ} {t : Server σ} {d' : Dispatching σ τ} {x : σ} {worker : τ}

/-- What a point does at the server: the actions it stands for start its tasks, concern the session it is
in alone, and lead to a state beside. -/
structure PointBeside (s : Serving σ τ) (t : Server σ) (d' : Dispatching σ τ) (x : σ) (worker : τ)
    (t' : Server σ) : Prop where
  run : StepMachine.run Server.step t (event s (.network (.point worker))) = some t'
  session : SessionBeside d' (t'.io x) (t'.inLoop x) x
  others : ∀ y, y ≠ x → t'.io y = t.io y ∧ t'.inLoop y = t.inLoop y
  info : t'.info = t.info
  tasks : t'.tasks = t.tasks ++ started s.toDispatching (.point worker)
  sent : t'.sent = t.sent

omit [DecidableEq τ] in
/-- **A point of an `OnRecv`** is the arrival of its bytes, a turn of its loop, or nothing. -/
theorem point_beside {stage : OnRecvStage} {e : ST_IOData × OnRecvStage}
    (h : SessionBeside s.toDispatching (t.io x) (t.inLoop x) x)
    (hused' : d'.accept x ≠ .unused) (hworker : s.worker worker = some (x, stage))
    (hpoint : Workers.onRecvPoint (s.io x) stage = some e) (hio : d'.io x = e.1)
    (harr : d'.arrived x = s.arrived x) (hworker' : d'.worker worker = some (x, e.2))
    (honly : ∀ u stage', d'.worker u = some (x, stage') → stage' = e.2) :
    ∃ t', PointBeside s t d' x worker t' := by
  have hnotrecv : stage ≠ .recv := by
    rintro rfl
    exact absurd hpoint (by simp [Workers.onRecvPoint])
  obtain ⟨hempty, hstage⟩ := h.busy worker stage hworker hnotrecv
  have harr' : d'.arrived x = [] := harr.trans hempty
  cases stage with
  | called TransferSize =>
      simp only [Workers.onRecvPoint, Option.ite_none_left_eq_some, Option.some.injEq] at hpoint
      obtain ⟨hsize, rfl⟩ := hpoint
      obtain ⟨hlen, hlanded, hout⟩ := hstage
      have hchunk : (s.chunks x).getLastD [] ≠ [] := by
        intro hnil
        rw [hnil] at hlen
        exact hsize hlen
      refine ⟨{ t with
          io := Function.update t.io x ((t.io x).filled ((s.chunks x).getLastD []))
          inLoop := Function.update t.inLoop x true }, ?_, ?_,
        fun y hy => ⟨Function.update_of_ne hy _ _, Function.update_of_ne hy _ _⟩, rfl, ?_, rfl⟩
      · simp only [event, hworker]
        rw [StepMachine.run_cons_eq_some]
        exact ⟨_, if_pos ⟨hout, hchunk⟩, rfl⟩
      · refine .of_stage hused' harr' hworker' honly (by simp) ⟨?_, Function.update_self x _ _⟩
        show d'.io x = Function.update t.io x _ x
        rw [Function.update_self, hio, hlanded, hlen]
        rfl
      · simp only [started, hworker]
        exact (List.append_nil _).symm
  | loop =>
      obtain ⟨hsame, hin⟩ := hstage
      cases hpass : (s.io x).pass packetSize Handler with
      | exit =>
          simp only [Workers.onRecvPoint, hpass, Option.some.injEq] at hpoint
          subst hpoint
          refine ⟨t, ?_, ?_, fun _ _ => ⟨rfl, rfl⟩, rfl, ?_, rfl⟩
          · simp only [event, hworker, hpass]
            rfl
          · refine .of_stage hused' harr' hworker' honly (by simp) ⟨hio.trans hsame, hin, ?_⟩
            rw [← hsame]
            exact hpass
          · simp only [started, hworker, hpass]
            exact (List.append_nil _).symm
      | outOfTable =>
          simp only [Workers.onRecvPoint, hpass] at hpoint
          exact absurd hpoint (by simp)
      | dispatch c io =>
          simp only [Workers.onRecvPoint, hpass, Option.some.injEq] at hpoint
          subst hpoint
          refine ⟨{ t with io := Function.update t.io x io, tasks := t.tasks ++ [(x, c)] }, ?_, ?_,
            fun y hy => ⟨Function.update_of_ne hy _ _, rfl⟩, rfl, ?_, rfl⟩
          · simp only [event, hworker, hpass]
            show StepMachine.run Server.step t [.turn x] = _
            rw [StepMachine.run_cons_eq_some]
            refine ⟨_, ?_, rfl⟩
            rw [Server.step, if_pos hin, ← hsame, hpass]
          · refine .of_stage hused' harr' hworker' honly (by simp) ⟨?_, hin⟩
            show d'.io x = Function.update t.io x io x
            rw [Function.update_self, hio]
          · simp only [started, hworker, hpass]
            rfl
  | left =>
      simp only [Workers.onRecvPoint, Option.some.injEq] at hpoint
      subst hpoint
      obtain ⟨hsame, hin, hpass⟩ := hstage
      refine ⟨t, ?_, ?_, fun _ _ => ⟨rfl, rfl⟩, rfl, ?_, rfl⟩
      · simp only [event, hworker]
        rfl
      · refine .of_stage hused' harr' hworker' honly (by simp) ⟨?_, hin, hpass⟩
        rw [hio, hsame]
      · simp only [started, hworker]
        exact (List.append_nil _).symm
  | settled =>
      simp only [Workers.onRecvPoint, Option.some.injEq] at hpoint
      subst hpoint
      obtain ⟨hsame, hin, hpass⟩ := hstage
      refine ⟨{ t with
          io := Function.update t.io x (t.io x).settle.ReadyToRecieve.1
          inLoop := Function.update t.inLoop x false }, ?_, ?_,
        fun y hy => ⟨Function.update_of_ne hy _ _, Function.update_of_ne hy _ _⟩, rfl, ?_, rfl⟩
      · simp only [event, hworker]
        rw [StepMachine.run_cons_eq_some]
        refine ⟨_, ?_, rfl⟩
        rw [Server.step, if_pos hin, hpass]
      · -- the worker is behind `ReadyToRecieve`, and the session out of its `OnRecv`
        refine ⟨fun hno => absurd hno hused', fun _ _ => ⟨?_, Function.update_self x _ _⟩, ?_⟩
        · show d'.io x = Dispatching.landed (Function.update t.io x _ x) (d'.arrived x)
          rw [Function.update_self, harr', Dispatching.landed_nil, hio, hsame]
        · intro u stage' hu hne
          exact absurd (honly u stage' hu) hne
      · simp only [started, hworker]
        exact (List.append_nil _).symm
  | recv => exact absurd rfl hnotrecv

end

/-- **One step** of workers and tasks is none or one of the server's. -/
theorem beside_step {s s' : Serving σ τ} {t : Server σ} {a : ServingAction σ τ}
    (hheld : ∀ x, ∃ holder, s.HeldBy x holder) (h : Beside s t) (hdeliver : Delivers s a)
    (hstep : step s a = some s') :
    ∃ t', StepMachine.run Server.step t (event s a) = some t' ∧ Beside s' t' := by
  cases a with
  | network a =>
      obtain ⟨d', hd', rfl⟩ := Option.map_eq_some_iff.mp hstep
      have hsessions := Dispatching.sessionStep_of_step hheld hdeliver hd'
      by_cases hpoint : ∃ worker, a = .point worker
      · obtain ⟨worker, rfl⟩ := hpoint
        obtain ⟨x, stage, e, hworker, honpoint, -⟩ :=
          Workers.point_eq_some (Dispatching.workers_step hd')
        -- the session the worker is in makes the point, and no other changes
        have hown : ∃ t', PointBeside s t d' x worker t' := by
          cases hsessions x with
          | same hno _ => exact absurd hworker (hno worker stage rfl)
          | point hused' hworker₀ hpoint₀ hio harr _ _ hworker' honly =>
              exact point_beside (h.sessions x) hused' hworker₀ hpoint₀ hio harr hworker' honly
        obtain ⟨t', ht'⟩ := hown
        refine ⟨t', ht'.run, ⟨fun y => ?_, ht'.info.trans h.info, ?_, ht'.sent.trans h.sent⟩⟩
        · by_cases hy : y = x
          · exact hy ▸ ht'.session
          · rw [(ht'.others y hy).1, (ht'.others y hy).2]
            cases hsessions y with
            | same _ hsame => exact (h.sessions y).same hsame
            | point _ hworker₀ =>
                rw [hworker, Option.some.injEq, Prod.mk.injEq] at hworker₀
                exact absurd hworker₀.1.symm hy
        · rw [ht'.tasks, h.tasks]
      · have hquiet : ∀ worker, a ≠ .point worker := fun worker ha => hpoint ⟨worker, ha⟩
        have hevent : event s (.network a) = [] ∧ started s.toDispatching a = [] := by
          cases a with
          | point worker => exact absurd rfl (hquiet worker)
          | _ => exact ⟨rfl, rfl⟩
        refine ⟨t, by rw [hevent.1]; rfl,
          ⟨fun y => (h.sessions y).quiet hquiet (hsessions y), h.info, ?_, h.sent⟩⟩
        rw [h.tasks, hevent.2]
        exact (List.append_nil _).symm
  | task i env =>
      cases htask : s.tasks[i]? with
      | none =>
          simp only [step, htask] at hstep
          exact absurd hstep (by simp)
      | some r =>
          obtain ⟨session, c⟩ := r
          simp only [step, htask, Option.map_eq_some_iff] at hstep
          obtain ⟨r, hr, rfl⟩ := hstep
          refine ⟨{ t with
              info := Function.update t.info session r.1
              tasks := t.tasks.eraseIdx i
              sent := t.sent ++ r.2.map (fun o => (session, o)) }, ?_, ⟨h.sessions, ?_, ?_, ?_⟩⟩
          · show StepMachine.run Server.step t [.task i env] = _
            rw [StepMachine.run_cons_eq_some]
            refine ⟨_, ?_, rfl⟩
            simp only [Server.step, h.tasks, htask, h.info, hr, Option.map_some]
          · show Function.update t.info _ _ = _
            rw [h.info]
          · show t.tasks.eraseIdx i = _
            rw [h.tasks]
          · show t.sent ++ _ = _
            rw [h.sent]

/-! ## §4. Whole runs. -/

omit [DecidableEq σ] [DecidableEq τ] in
theorem beside_start (io : σ → ST_IOData) (UserInfo : σ → ST_UserInfo) :
    Beside (start io UserInfo : Serving σ τ) (Server.start (fun x => (io x).Data) UserInfo) where
  sessions x := by
    refine ⟨fun _ => ⟨rfl, rfl, rfl⟩, fun hused => absurd rfl hused, fun t stage ht => ?_⟩
    exact absurd ht (by simp [start, Dispatching.start])
  info := rfl
  tasks := rfl
  sent := rfl

/-- A task leaves the network side as it is. -/
theorem toDispatching_task {s s' : Serving σ τ} {i : Nat} {env : Environment}
    (hstep : step s (.task i env) = some s') : s'.toDispatching = s.toDispatching := by
  cases htask : s.tasks[i]? with
  | none =>
      simp only [step, htask] at hstep
      exact absurd hstep (by simp)
  | some r =>
      simp only [step, htask, Option.map_eq_some_iff] at hstep
      obtain ⟨-, -, rfl⟩ := hstep
      rfl

/-- Every step leaves the read sides in one hand. -/
theorem heldBy_step {s s' : Serving σ τ} {a : ServingAction σ τ}
    (h : ∀ x, ∃ holder, s.HeldBy x holder) (hstep : step s a = some s') :
    ∀ x, ∃ holder, s'.HeldBy x holder := by
  cases a with
  | network a =>
      obtain ⟨d', hd', rfl⟩ := Option.map_eq_some_iff.mp hstep
      exact Workers.heldBy_step h (Dispatching.workers_step hd')
  | task i env =>
      rw [toDispatching_task hstep]
      exact h

/-- Every run keeps each session beside a lone run over its own receives. -/
theorem follows_run {io : σ → ST_IOData} {UserInfo : σ → ST_UserInfo}
    {as : List (ServingAction σ τ)} {s : Serving σ τ}
    (hrun : StepMachine.run step (start io UserInfo) as = some s)
    (hdeliver : StepMachine.Along step Delivers (start io UserInfo) as) (x : σ) :
    Dispatching.Follows (io x).Data s.toDispatching x := by
  have hsafe : StepMachine.Safe step
      (fun s : Serving σ τ => Dispatching.Follows (io x).Data s.toDispatching x)
      (start io UserInfo) as := by
    refine StepMachine.safe_of_along (D := Delivers) (I := fun s : Serving σ τ =>
      (∀ y, ∃ holder, s.HeldBy y holder) ∧ Dispatching.Follows (io x).Data s.toDispatching x) ?_
      (fun _ hI => hI.2) ⟨Workers.heldBy_start io, Dispatching.follows_start io x⟩ hrun hdeliver
    intro s a s' hI hD hstep
    refine ⟨heldBy_step hI.1 hstep, ?_⟩
    cases a with
    | network a =>
        obtain ⟨d', hd', rfl⟩ := Option.map_eq_some_iff.mp hstep
        exact hI.2.step (Dispatching.sessionStep_of_step hI.1 hD hd' x)
    | task i env =>
        rw [toDispatching_task hstep]
        exact hI.2
  obtain ⟨s', hs', h⟩ := hsafe.last
  rw [hrun, Option.some.injEq] at hs'
  exact hs' ▸ h

/-- **Workers and tasks refine the server.**  For any sessions, any number of workers and every
interleaving of accepts, arrivals, completions, points of `OnRecv`s and tasks, with any bytes and any
answers of the database: the actions that the steps stand for are a run of `Requests.Server`, which
ends with the same members of the sessions, the same tasks and the same packets sent, and with the
same buffer in every session that no worker is in, but for the bytes of an outstanding receive. -/
theorem serving_refines (io : σ → ST_IOData) (UserInfo : σ → ST_UserInfo)
    (as : List (ServingAction σ τ)) (s : Serving σ τ)
    (hrun : StepMachine.run step (start io UserInfo) as = some s)
    (hdeliver : StepMachine.Along step Delivers (start io UserInfo) as) :
    ∃ t : Server σ,
      StepMachine.run Server.step (Server.start (fun x => (io x).Data) UserInfo)
          (StepMachine.emitted step event (start io UserInfo) as) = some t
        ∧ t.info = s.info ∧ t.tasks = s.tasks ∧ t.sent = s.sent
        ∧ ∀ x, s.accept x ≠ .unused → (∀ w, ¬ s.InOnRecv x w) →
          s.io x = Dispatching.landed (t.io x) (s.arrived x) ∧ t.inLoop x = false := by
  have hstart : (∀ x, ∃ holder, (start io UserInfo : Serving σ τ).HeldBy x holder)
      ∧ Beside (start io UserInfo : Serving σ τ) (Server.start (fun x => (io x).Data) UserInfo) :=
    ⟨Workers.heldBy_start io, beside_start io UserInfo⟩
  obtain ⟨t, ht, -, hbeside⟩ := StepMachine.run_emitted
    (R := fun (s : Serving σ τ) (t : Server σ) => (∀ x, ∃ holder, s.HeldBy x holder) ∧ Beside s t)
    (fun s a s' t hR hG hstep => by
      obtain ⟨t', hrun, hbeside⟩ := beside_step hR.1 hR.2 hG hstep
      exact ⟨t', hrun, heldBy_step hR.1 hstep, hbeside⟩) hstart hdeliver hrun
  exact ⟨t, ht, hbeside.info, hbeside.tasks, hbeside.sent, fun x hused hno =>
    (hbeside.sessions x).idle hused hno⟩

/-- A login and a chat of two sessions, with the login's task between the turns of the chat's loop. -/
theorem serving_refines_two :
    ∃ s : Serving Nat Nat, ∃ t : Server Nat,
      StepMachine.run step
          (start (fun _ => {}) (fun _ => ST_UserInfo.fresh Server.refusing.Id Server.refusing.Pw))
          [.network (.accept 7 true), .network (.acceptReady 7), .network (.acceptRecv 7 true),
            .network (.accept 8 true), .network (.acceptReady 8), .network (.acceptRecv 8 true),
            .network (.arrive 7 (Server.loginRequest 92)),
            .network (.arrive 8 ([5, 0, 0, 0, 68, 2, 0, 0] ++ List.replicate 572 0)),
            .network (.completion 1 7 .receive 92 true), .network (.point 1), .network (.point 1),
            .network (.completion 2 8 .receive 580 true), .network (.point 2),
            .task 0 Server.refusing, .network (.point 2), .network (.point 1),
            .task 0 Server.refusing] = some s
        ∧ s.tasks = [] ∧ s.sent.length = 1 ∧ s.log.length = 1
        ∧ t.info = s.info ∧ t.tasks = s.tasks ∧ t.sent = s.sent := by
  have hend : (StepMachine.run step
      (start (fun _ => {}) (fun _ => ST_UserInfo.fresh Server.refusing.Id Server.refusing.Pw) :
        Serving Nat Nat)
      [.network (.accept 7 true), .network (.acceptReady 7), .network (.acceptRecv 7 true),
        .network (.accept 8 true), .network (.acceptReady 8), .network (.acceptRecv 8 true),
        .network (.arrive 7 (Server.loginRequest 92)),
        .network (.arrive 8 ([5, 0, 0, 0, 68, 2, 0, 0] ++ List.replicate 572 0)),
        .network (.completion 1 7 .receive 92 true), .network (.point 1), .network (.point 1),
        .network (.completion 2 8 .receive 580 true), .network (.point 2),
        .task 0 Server.refusing, .network (.point 2), .network (.point 1),
        .task 0 Server.refusing]).map (fun s => (s.tasks, s.sent.length, s.log.length))
      = some ([], 1, 1) := by
    decide +kernel
  obtain ⟨s, hs, hall⟩ := Option.map_eq_some_iff.mp hend
  rw [Prod.mk.injEq, Prod.mk.injEq] at hall
  obtain ⟨t, -, hinfo, htasks, hsent, -⟩ := serving_refines _ _ _ s hs (by decide +kernel)
  exact ⟨s, t, hs, hall.1, hall.2.1, hall.2.2, hinfo, htasks, hsent⟩

end Serving

end YServerCore
