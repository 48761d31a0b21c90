/-
  YServerCore.Requests.Order — in which order the requests of a session take effect.

  `HandleData` copies the packet of every frame into a task of its own, starts it with `std::async`
  and drops the future, so nothing makes a task wait for the task of an earlier frame of its
  session.  The tasks of the server are numbered here as they are dispatched.

  A task is one step: what is said here is about tasks that do not overlap, each running its handler
  to the end before the next one begins.  `RecvLoginRequest` sets `UserInfo`, then `SessionState`, and
  then broadcasts without a lock, and nothing here is said of a task that comes in between.

  Main results:
    * `serve_moves` — handlers that run one after another broadcast their positions in that order.
    * `inRunOrder_step` — the members of a session and what it has sent are those of its tasks
      handled in the order they ran.
    * `frame_order_iff` — in every run, and for every session, this is the order of the frames
      exactly when each task of the session that runs is the session's oldest.
-/
import Mathlib.Data.List.InsertIdx
import YServerCore.Lib.TaskPool
import YServerCore.Requests.Server

namespace YServerCore

open KeyedLog (values Oldest)
open RequestHandler (packetSize)
open PacketProcess (Handler)

/-! ## §1. Handlers one after another. -/

/-- A session's requests, each with what its handler depends on, handled one after another: the members
they leave, and the packets they send. -/
def serve (info : SessionInfo) :
    List (Call RequestHandler × Environment) → Option (SessionInfo × List Outgoing)
  | [] => some (info, [])
  | (c, env) :: rs =>
      (handle env info c).bind (fun r => (serve r.1 rs).map (fun q => (q.1, r.2 ++ q.2)))

/-- The first request, and the others behind it. -/
theorem serve_cons {info info' : SessionInfo} {c : Call RequestHandler} {env : Environment}
    {rs : List (Call RequestHandler × Environment)} {outs : List Outgoing} :
    serve info ((c, env) :: rs) = some (info', outs)
      ↔ ∃ mid first rest, handle env info c = some (mid, first) ∧ serve mid rs = some (info', rest)
        ∧ outs = first ++ rest := by
  rw [serve, Option.bind_eq_some_iff]
  constructor
  · intro h
    obtain ⟨r, hr, hrest⟩ := h
    obtain ⟨q, hq, hpair⟩ := Option.map_eq_some_iff.mp hrest
    rw [Prod.mk.injEq] at hpair
    exact ⟨r.1, r.2, q.2, hr, by rw [hq, ← hpair.1], hpair.2.symm⟩
  · intro h
    obtain ⟨mid, first, rest, hfirst, hrest, rfl⟩ := h
    exact ⟨(mid, first), hfirst, by rw [hrest]; rfl⟩

/-- One more request. -/
theorem serve_snoc {info info' : SessionInfo} {rs : List (Call RequestHandler × Environment)}
    {outs : List Outgoing} (h : serve info rs = some (info', outs)) (c : Call RequestHandler)
    (env : Environment) :
    serve info (rs ++ [(c, env)]) = (handle env info' c).map (fun r => (r.1, outs ++ r.2)) := by
  induction rs generalizing info outs with
  | nil =>
      have hnil : some (info, []) = some (info', outs) := h
      rw [Option.some.injEq, Prod.mk.injEq] at hnil
      rw [← hnil.1, ← hnil.2]
      show (handle env info c).bind (fun r => some (r.1, r.2 ++ [])) = _
      rw [Option.map_eq_bind]
      simp only [List.append_nil, List.nil_append, Function.comp_def]
  | cons r rs ih =>
      obtain ⟨c', env'⟩ := r
      obtain ⟨mid, first, rest, hfirst, hrest, rfl⟩ := serve_cons.mp h
      -- the request is the last of the rest as well
      rw [List.cons_append, serve, hfirst, Option.bind_some, ih hrest, Option.map_map]
      simp only [Function.comp_def, List.append_assoc]

/-- The position of a packet. -/
def ST_MoveInfo.position (p : ST_MoveInfo) : UInt32 × UInt32 × UInt32 := (p.x, p.y, p.z)

/-- The position of a broadcast `S_Move` packet. -/
def Outgoing.movedTo : Outgoing → Option (UInt32 × UInt32 × UInt32)
  | .AllMessage (.moveInfo Msg) => some Msg.position
  | .AllMessage (.userInfo _) => none
  | .SendPacket _ => none

/-- The position of a `C_Move` frame. -/
def Call.moveTo (c : Call RequestHandler) : Option (UInt32 × UInt32 × UInt32) :=
  if c.handler = .RecvMoveRequest then some (ST_MoveInfo.ofBytes c.packet).position else none

/-- A handler broadcasts the position of its frame, if that is a move. -/
theorem handle_moves {env : Environment} {info info' : SessionInfo} {c : Call RequestHandler}
    {outs : List Outgoing} (h : handle env info c = some (info', outs)) :
    outs.filterMap Outgoing.movedTo = c.moveTo.toList := by
  obtain ⟨handler, pos, size, packet⟩ := c
  cases handler with
  | RecvChatMessage =>
      have hsome : some (info, []) = some (info', outs) := h
      rw [Option.some.injEq, Prod.mk.injEq] at hsome
      rw [← hsome.2]
      rfl
  | RecvCreateAccountRequest =>
      obtain ⟨-, Packet, rfl, -⟩ := RecvCreateAccountRequest_outgoing h
      rfl
  | RecvLoginRequest =>
      obtain ⟨result, Header, -, -, -, rfl⟩ := RecvLoginRequest_spec h
      cases result <;> rfl
  | RecvMoveRequest =>
      obtain ⟨Id, -, hr⟩ := RecvMoveRequest_eq_some.mp h
      rw [Prod.mk.injEq] at hr
      rw [hr.2]
      rfl

/-- **Positions are broadcast in order.** -/
theorem serve_moves {info info' : SessionInfo} {rs : List (Call RequestHandler × Environment)}
    {outs : List Outgoing} (h : serve info rs = some (info', outs)) :
    outs.filterMap Outgoing.movedTo = (rs.map Prod.fst).filterMap Call.moveTo := by
  induction rs generalizing info outs with
  | nil =>
      have hnil : some (info, []) = some (info', outs) := h
      rw [Option.some.injEq, Prod.mk.injEq] at hnil
      rw [← hnil.2]
      rfl
  | cons r rs ih =>
      obtain ⟨c, env⟩ := r
      obtain ⟨mid, first, rest, hfirst, hrest, rfl⟩ := serve_cons.mp h
      have hmove : first.filterMap Outgoing.movedTo = c.moveTo.toList := handle_moves hfirst
      rw [List.filterMap_append, hmove, ih hrest, List.map_cons]
      cases hmove : c.moveTo with
      | none =>
          rw [List.filterMap_cons_none hmove]
          rfl
      | some m =>
          rw [List.filterMap_cons_some hmove]
          rfl

/-! ## §2. Numbered tasks. -/

/-- The server, and its tasks with the numbers of their frames. -/
structure NumberedServer (σ : Type*) where
  server : Server σ
  pool : TaskPool σ (Call RequestHandler) Environment := {}

namespace NumberedServer

variable {σ : Type*} [DecidableEq σ]

def start (behind : σ → ByteMemory.Mem) (UserInfo : σ → ST_UserInfo) : NumberedServer σ where
  server := Server.start behind UserInfo

/-- What an action does to the tasks. -/
def follow (d : NumberedServer σ) : ServerAction σ → TaskPool σ (Call RequestHandler) Environment
  | .recv _ _ => d.pool
  | .turn session =>
      match (d.server.io session).pass packetSize Handler with
      | .exit => d.pool
      | .outOfTable => d.pool
      | .dispatch c _ => d.pool.dispatch session c
  | .task i env => d.pool.run i env

/-- One step of the server. -/
def step (d : NumberedServer σ) (a : ServerAction σ) : Option (NumberedServer σ) :=
  (d.server.step a).map (fun server => { server := server, pool := d.follow a })

/-- **The numbers do not change what the server does.** -/
theorem run_server (d : NumberedServer σ) (as : List (ServerAction σ)) :
    (StepMachine.run step d as).map NumberedServer.server
      = StepMachine.run Server.step d.server as := by
  induction as generalizing d with
  | nil => rfl
  | cons a as ih =>
      rw [StepMachine.run_cons, StepMachine.run_cons]
      unfold step
      cases d.server.step a with
      | none => rfl
      | some server =>
          rw [Option.map_some, Option.bind_some, Option.bind_some]
          exact ih _

/-- A session's requests take effect in the order its tasks run, each of its frames once at most. -/
structure InRunOrder (UserInfo : σ → ST_UserInfo) (session : σ) (d : NumberedServer σ) : Prop where
  frames : d.pool.Sound session
  effects : serve { UserInfo := UserInfo session } ((d.pool.ran session).map Prod.snd)
    = some (d.server.info session, values session d.server.sent)

/-- **A session's requests take effect in the order of its frames**: those of its first frames, one
after another, with their positions broadcast in that order. -/
structure InFrameOrder (UserInfo : σ → ST_UserInfo) (session : σ) (d : NumberedServer σ) : Prop where
  order : d.pool.InOrder session
  frames : (d.pool.ran session).map (fun r => r.2.1)
    = (d.pool.dispatched session).take (d.pool.ran session).length
  effects : serve { UserInfo := UserInfo session } ((d.pool.ran session).map Prod.snd)
    = some (d.server.info session, values session d.server.sent)
  moves : (values session d.server.sent).filterMap Outgoing.movedTo
    = ((d.pool.dispatched session).take (d.pool.ran session).length).filterMap Call.moveTo

/-- A task of the session that runs is the session's oldest. -/
def OldestRuns (session : σ) (d : NumberedServer σ) : ServerAction σ → Prop
  | .recv _ _ => True
  | .turn _ => True
  | .task i _ => ∀ r ∈ d.server.tasks[i]?, r.1 = session → Oldest d.server.tasks i

instance (session : σ) (d : NumberedServer σ) : ∀ a, Decidable (OldestRuns session d a)
  | .recv _ _ => isTrue trivial
  | .turn _ => isTrue trivial
  | .task i _ =>
      inferInstanceAs (Decidable
        (∀ r ∈ d.server.tasks[i]?, r.1 = session → Oldest d.server.tasks i))

/-- Effects in run order are effects in frame order exactly when the tasks have run in order. -/
theorem InRunOrder.inFrameOrder_iff {UserInfo : σ → ST_UserInfo} {session : σ}
    {d : NumberedServer σ} (h : InRunOrder UserInfo session d) :
    InFrameOrder UserInfo session d ↔ d.pool.InOrder session := by
  constructor
  · intro hframe
    exact hframe.order
  · intro horder
    have hframes := h.frames.calls_eq_take horder
    refine ⟨horder, hframes, h.effects, ?_⟩
    rw [serve_moves h.effects, ← hframes, List.map_map]
    rfl

/-! ## §3. One step. -/

/-- The tasks of the server are those of the pool. -/
def Linked (d : NumberedServer σ) : Prop :=
  d.server.tasks = d.pool.waiting.map (fun w => (w.1, w.2.2))

/-- **What one step does** to the numbered tasks, and what a task does to the server. -/
theorem step_cases {d d' : NumberedServer σ} {a : ServerAction σ} (hlinked : d.Linked)
    (h : step d a = some d') :
    (∃ io inLoop, d' = { d with server := { d.server with io := io, inLoop := inLoop } }
        ∧ ∀ i env, a ≠ .task i env)
      ∨ (∃ io session c, d' = {
            server := { d.server with io := io, tasks := d.server.tasks ++ [(session, c)] }
            pool := d.pool.dispatch session c } ∧ ∀ i env, a ≠ .task i env)
      ∨ ∃ i env session n c r, a = .task i env ∧ d.pool.waiting[i]? = some (session, (n, c))
          ∧ handle env (d.server.info session) c = some r
          ∧ d' = {
            server := { d.server with
              info := Function.update d.server.info session r.1
              tasks := d.server.tasks.eraseIdx i
              sent := d.server.sent ++ r.2.map (fun o => (session, o)) }
            pool := d.pool.run i env } := by
  obtain ⟨server, hserver, rfl⟩ := Option.map_eq_some_iff.mp h
  rcases Server.step_cases hserver with ⟨session, chunk, rfl, rfl⟩ | ⟨session, rfl, hpass, rfl⟩ |
    ⟨session, c, io, rfl, hpass, rfl⟩ | ⟨i, env, session, c, r, rfl, htask, hhandle, rfl⟩
  · exact Or.inl ⟨_, _, rfl, by simp⟩
  · have hfollow : d.follow (.turn session) = d.pool := by
      simp only [follow, hpass]
    rw [hfollow]
    exact Or.inl ⟨_, _, rfl, by simp⟩
  · have hfollow : d.follow (.turn session) = d.pool.dispatch session c := by
      simp only [follow, hpass]
    rw [hfollow]
    exact Or.inr (Or.inl ⟨_, session, c, rfl, by simp⟩)
  · -- the task stands in the pool at the same place
    rw [hlinked, List.getElem?_map, Option.map_eq_some_iff] at htask
    obtain ⟨⟨session', n, c'⟩, hwait, hsame⟩ := htask
    rw [Prod.mk.injEq] at hsame
    obtain ⟨rfl, rfl⟩ := hsame
    exact Or.inr (Or.inr ⟨i, env, session', n, c', r, rfl, hwait, hhandle, rfl⟩)

theorem linked_step {d d' : NumberedServer σ} {a : ServerAction σ} (hlinked : d.Linked)
    (h : step d a = some d') : d'.Linked := by
  rcases step_cases hlinked h with ⟨io, inLoop, rfl, -⟩ | ⟨io, session, c, rfl, -⟩ |
    ⟨i, env, session, n, c, r, -, hwait, -, rfl⟩
  · exact hlinked
  · show d.server.tasks ++ [(session, c)] = (d.pool.waiting ++ [(session, (_, c))]).map _
    rw [List.map_append, hlinked]
    rfl
  · show d.server.tasks.eraseIdx i = ((d.pool.run i env).waiting).map _
    rw [TaskPool.run_of_getElem? hwait, hlinked, List.eraseIdx_map]

/-- **One step** keeps the effects of every session those of its tasks in the order they ran. -/
theorem inRunOrder_step {UserInfo : σ → ST_UserInfo} {session : σ} {d d' : NumberedServer σ}
    {a : ServerAction σ} (hlinked : d.Linked) (hrun : InRunOrder UserInfo session d)
    (h : step d a = some d') : InRunOrder UserInfo session d' := by
  rcases step_cases hlinked h with ⟨io, inLoop, rfl, -⟩ | ⟨io, session', c, rfl, -⟩ |
    ⟨i, env, session', n, c, r, -, hwait, hhandle, rfl⟩
  · exact ⟨hrun.frames, hrun.effects⟩
  · exact ⟨hrun.frames.dispatch session' c, hrun.effects⟩
  · constructor
    · exact hrun.frames.run i env
    · show serve _ (((d.pool.run i env).ran session).map Prod.snd)
        = some (Function.update d.server.info session' r.1 session,
          values session (d.server.sent ++ r.2.map (fun o => (session', o))))
      by_cases hsession : session' = session
      · -- the task is the last one its session has run
        subst hsession
        rw [TaskPool.ran_run_self hwait, List.map_append, List.map_singleton,
          serve_snoc hrun.effects, hhandle, KeyedLog.values_append, KeyedLog.values_map_self,
          Function.update_self]
        rfl
      · rw [TaskPool.ran_run_ne hwait hsession, hrun.effects, KeyedLog.values_append,
          KeyedLog.values_map_ne hsession, List.append_nil,
          Function.update_of_ne (Ne.symm hsession)]

omit [DecidableEq σ] in
/-- The condition is about tasks only. -/
theorem oldestRuns_of_ne_task {session : σ} {d : NumberedServer σ} {a : ServerAction σ}
    (ha : ∀ i env, a ≠ .task i env) : OldestRuns session d a := by
  cases a with
  | recv session' chunk => trivial
  | turn session' => trivial
  | task i env => exact absurd rfl (ha i env)

/-- **One step** keeps the order of a session's frames exactly when a task of the session that runs
is its oldest. -/
theorem inOrder_step_iff {session : σ} {d d' : NumberedServer σ} {a : ServerAction σ}
    (hlinked : d.Linked) (hqueued : d.pool.Queued session) (horder : d.pool.InOrder session)
    (h : step d a = some d') :
    (d'.pool.InOrder session ↔ OldestRuns session d a)
      ∧ (d'.pool.InOrder session → d'.pool.Queued session) := by
  rcases step_cases hlinked h with ⟨io, inLoop, rfl, ha⟩ | ⟨io, session', c, rfl, ha⟩ |
    ⟨i, env, session', n, c, r, rfl, hwait, -, rfl⟩
  · have hold : OldestRuns session d a := oldestRuns_of_ne_task ha
    exact ⟨⟨fun _ => hold, fun _ => horder⟩, fun _ => hqueued⟩
  · have hold : OldestRuns session d a := oldestRuns_of_ne_task ha
    exact ⟨⟨fun _ => hold, fun _ => horder⟩, fun _ => hqueued.dispatch session' c⟩
  · have hold : OldestRuns session d (.task i env)
        ↔ (session' = session → Oldest d.pool.waiting i) := by
      show (∀ r ∈ d.server.tasks[i]?, r.1 = session → Oldest d.server.tasks i) ↔ _
      rw [hlinked, KeyedLog.oldest_map, List.getElem?_map, hwait]
      simp
    rw [hold]
    by_cases hsession : session' = session
    · subst hsession
      have hiff := TaskPool.inOrder_run_iff hqueued horder hwait env
      constructor
      · rw [hiff]
        exact ⟨fun h _ => h, fun h => h rfl⟩
      · intro hnext
        exact hqueued.run hwait (hiff.mp hnext) env
    · -- a task of another session
      have hran := TaskPool.ran_run_ne hwait hsession env
      have hvalues := TaskPool.values_run_ne hwait hsession env
      constructor
      · unfold TaskPool.InOrder TaskPool.ranNumbers
        simp only [hran]
        exact ⟨fun _ h => absurd h hsession, fun _ => horder⟩
      · intro _
        unfold TaskPool.Queued TaskPool.ranNumbers TaskPool.waitingNumbers
        simp only [hran, hvalues, TaskPool.dispatched_run]
        exact hqueued

/-! ## §4. Whole runs. -/

/-- **Requests take effect in the order their tasks run.**  For every sequence of receives by any
sessions and every schedule of the loops' turns and of tasks that run one after another: each
session's members and the packets it has sent are those of its tasks handled one after another in
the order they ran, each frame once at most; and this is the order of the session's frames, with its
positions broadcast in that order, if and only if every task of the session that runs is the oldest
of those that wait. -/
theorem frame_order_iff (behind : σ → ByteMemory.Mem) (UserInfo : σ → ST_UserInfo) (session : σ)
    (as : List (ServerAction σ)) (d : NumberedServer σ)
    (hrun : StepMachine.run step (start behind UserInfo) as = some d) :
    StepMachine.Safe step (InRunOrder UserInfo session) (start behind UserInfo) as
      ∧ (StepMachine.Safe step (InFrameOrder UserInfo session) (start behind UserInfo) as
        ↔ StepMachine.Along step (OldestRuns session) (start behind UserInfo) as) := by
  have hlinked : (start behind UserInfo : NumberedServer σ).Linked := rfl
  have hstart : InRunOrder UserInfo session (start behind UserInfo) := ⟨TaskPool.sound_empty _, rfl⟩
  have hqueued : (start behind UserInfo : NumberedServer σ).pool.Queued session := rfl
  have horder : (start behind UserInfo : NumberedServer σ).pool.InOrder session := rfl
  constructor
  · apply StepMachine.safe_of_run (I := fun d => d.Linked ∧ InRunOrder UserInfo session d)
    · intro d a d' hI hstep
      exact ⟨linked_step hI.1 hstep, inRunOrder_step hI.1 hI.2 hstep⟩
    · intro d hI
      exact hI.2
    · exact ⟨hlinked, hstart⟩
    · exact hrun
  · apply StepMachine.safe_iff_along_of_run
      (I := fun d => d.Linked ∧ InRunOrder UserInfo session d ∧ d.pool.Queued session)
    · intro d a d' hI hP hstep hP'
      have hnext := inRunOrder_step hI.1 hI.2.1 hstep
      refine ⟨linked_step hI.1 hstep, hnext, ?_⟩
      exact (inOrder_step_iff hI.1 hI.2.2 hP.order hstep).2 hP'.order
    · intro d a d' hI hP hstep
      rw [(inRunOrder_step hI.1 hI.2.1 hstep).inFrameOrder_iff]
      exact (inOrder_step_iff hI.1 hI.2.2 hP.order hstep).1
    · exact ⟨hlinked, hstart, hqueued⟩
    · exact hstart.inFrameOrder_iff.mpr horder
    · exact hrun

/-- A `C_Move` frame to this place. -/
def moveFrame (x : UInt8) : List UInt8 :=
  [7, 0, 0, 0, 80, 0, 0, 0] ++ List.replicate 60 0 ++ [x, 0, 0, 0] ++ List.replicate 8 0

/-- One session whose memory is zero. -/
def zeroed : NumberedServer Unit :=
  start (fun _ _ => 0) (fun _ => ST_UserInfo.fresh Server.refusing.Id Server.refusing.Pw)

/-- Two moves of one receive, with their tasks run in order. -/
theorem frame_order_two_moves :
    StepMachine.Safe step
      (InFrameOrder (fun _ => ST_UserInfo.fresh Server.refusing.Id Server.refusing.Pw) ()) zeroed
      [.recv () (moveFrame 1 ++ moveFrame 2), .turn (), .turn (), .turn (),
        .task 0 Server.refusing, .task 0 Server.refusing] := by
  have hsome : (StepMachine.run step zeroed
      [.recv () (moveFrame 1 ++ moveFrame 2), .turn (), .turn (), .turn (),
        .task 0 Server.refusing, .task 0 Server.refusing]).isSome := by
    decide +kernel
  obtain ⟨d, hd⟩ := Option.isSome_iff_exists.mp hsome
  exact (frame_order_iff _ _ () _ d hd).2.mpr (by decide +kernel)

/-- **A stale position is broadcast last**: the task of the second move runs first. -/
theorem moves_overtake :
    ∃ d : NumberedServer Unit,
      StepMachine.run step zeroed
          [.recv () (moveFrame 1 ++ moveFrame 2), .turn (), .turn (), .turn (),
            .task 1 Server.refusing, .task 0 Server.refusing] = some d
        ∧ (d.pool.dispatched ()).filterMap Call.moveTo = [(1, 0, 0), (2, 0, 0)]
        ∧ (values () d.server.sent).filterMap Outgoing.movedTo = [(2, 0, 0), (1, 0, 0)]
        ∧ ¬ InFrameOrder (fun _ => ST_UserInfo.fresh Server.refusing.Id Server.refusing.Pw) () d := by
  have hend : (StepMachine.run step zeroed
      [.recv () (moveFrame 1 ++ moveFrame 2), .turn (), .turn (), .turn (),
        .task 1 Server.refusing, .task 0 Server.refusing]).map
      (fun d => ((d.pool.dispatched ()).filterMap Call.moveTo,
        (values () d.server.sent).filterMap Outgoing.movedTo, d.pool.ranNumbers ()))
      = some ([(1, 0, 0), (2, 0, 0)], [(2, 0, 0), (1, 0, 0)], [1, 0]) := by
    decide +kernel
  obtain ⟨d, hd, hall⟩ := Option.map_eq_some_iff.mp hend
  rw [Prod.mk.injEq, Prod.mk.injEq] at hall
  obtain ⟨hframes, hsent, hran⟩ := hall
  refine ⟨d, hd, hframes, hsent, fun hframe => ?_⟩
  have horder : d.pool.ranNumbers () = List.range (d.pool.ran ()).length := hframe.order
  have hlen : (d.pool.ran ()).length = 2 := by
    have hnumbers := congrArg List.length hran
    unfold TaskPool.ranNumbers at hnumbers
    rw [List.length_map] at hnumbers
    exact hnumbers
  rw [hran, hlen] at horder
  exact absurd horder (by decide)

end NumberedServer

end YServerCore
