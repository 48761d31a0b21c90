/-
  YServerCore.Network.Lifetime — who touches a session after it was deleted.

  `CloseSession` deletes its session wherever it is called from: in front of the loop of an `OnRecv`
  that got 0 bytes, in a failed `Send` inside `SendPacket`, or from outside.  The rest of the call
  goes on, and so do the other calls on the session and the tasks that hold its pointer.  A call is
  a list of points here, each of which touches one session at most; calls take their points in any
  order, and `CloseSession` waits for the broadcasts, which hold the registry's mutex.

  Main results:
    * `alive_step` — a clean step keeps everything that is still to run off deleted sessions.
    * `untouched_of_clean` — in every run of clean steps no deleted session is touched.
    * `touched_after_close` — a call that uses its session behind the close touches it next.
-/
import YServerCore.Lib.StepMachine
import YServerCore.Packet.PacketProcess
import YServerCore.Registry.SessionManager

namespace YServerCore

open SwapRemove (swapRemove)

/-! ## §1. Calls as lists of points. -/

/-- A point of a call. -/
inductive SessionPoint (σ : Type*) where
  /-- Members of the session are read or written, its mutex is locked or unlocked, or a receive is
  posted. -/
  | use (session : σ)
  /-- A turn of the loop of `OnRecv`. -/
  | loop (session : σ)
  /-- The packet of a `SendPacket` is copied into the write buffer, if it fits. -/
  | copy (session : σ)
  /-- `Send`. -/
  | send (session : σ)
  /-- `CloseSession`. -/
  | close (session : σ)
  /-- `AllMessage` takes the registry's mutex and starts its loop. -/
  | broadcast
  /-- `AllMessage` lets the mutex go. -/
  | unlock
  deriving DecidableEq, Repr

/-- How a point turns out: a turn of the loop dispatches a frame or ends the loop, a packet that is
copied or sent fails or not, and the other points have one outcome only. -/
inductive PointOutcome where
  | ok
  | dispatch (handler : RequestHandler)
  | failed
  deriving DecidableEq, Repr

/-- The calls that are made on sessions. -/
inductive SessionCall (σ : Type*) where
  | OnRecv (session : σ) (TransferSize : Nat)
  | OnSend (session : σ) (TransferSize : Nat)
  | SendPacket (session : σ)
  | AllMessage
  | CloseSession (session : σ)
  deriving DecidableEq, Repr

namespace SessionPoint

variable {σ : Type*}

/-- `Session::SendPacket` up to its copy. -/
def SendPacket (session : σ) : List (SessionPoint σ) := [.use session, .copy session]

/-- The session a point touches. -/
def session : SessionPoint σ → Option σ
  | use session => some session
  | loop session => some session
  | copy session => some session
  | send session => some session
  | close session => some session
  | broadcast => none
  | unlock => none

/-- The points a point leads to, in front of the rest of its call. -/
def next (Sessions : List σ) : SessionPoint σ → PointOutcome → List (SessionPoint σ)
  | use _, _ => []
  | loop session, .dispatch _ => [.loop session]
  | loop _, .ok => []
  | loop _, .failed => []
  -- a full buffer: the packet is sent again, then the outer lock is released
  | copy session, .failed => SendPacket session ++ [.use session]
  | copy session, .ok => [.use session, .use session, .send session]
  | copy session, .dispatch _ => [.use session, .use session, .send session]
  | send session, .failed => [.close session, .use session]
  | send session, .ok => [.use session]
  | send session, .dispatch _ => [.use session]
  | close _, _ => []
  | broadcast, _ => Sessions.flatMap SendPacket ++ [.unlock]
  | unlock, _ => []

/-- The task a turn of the loop starts. -/
def spawned : SessionPoint σ → PointOutcome → List (σ × RequestHandler)
  | loop session, .dispatch handler => [(session, handler)]
  | _, _ => []

/-- The session a point deletes. -/
def deleted : SessionPoint σ → List σ
  | close session => [session]
  | _ => []

/-- The sessions the points of a call touch. -/
def touched (ps : List (SessionPoint σ)) : List σ := ps.filterMap session

end SessionPoint

open SessionPoint (touched)

namespace SessionCall

variable {σ : Type*}

/-- The points of a call. -/
def points : SessionCall σ → List (SessionPoint σ)
  | OnRecv session TransferSize =>
      (if TransferSize = 0 then [.close session] else [])
        ++ [.use session, .loop session, .use session]
  | OnSend session TransferSize => if TransferSize = 0 then [.close session] else []
  | SendPacket session => SessionPoint.SendPacket session
  | AllMessage => [.broadcast]
  | CloseSession session => [.close session]

end SessionCall

/-- The points of a handler, with the answer of the database. -/
def RequestHandler.points {σ : Type*} (session : σ) (result : Bool) :
    RequestHandler → List (SessionPoint σ)
  | RecvChatMessage => []
  | RecvCreateAccountRequest => SessionPoint.SendPacket session
  | RecvLoginRequest => if result then [.use session, .broadcast] else SessionPoint.SendPacket session
  | RecvMoveRequest => [.use session, .broadcast]

/-! ## §2. The sessions and the calls in progress. -/

/-- What happens. -/
inductive LifetimeAction (σ : Type*) where
  /-- A new session is registered. -/
  | accept (session : σ)
  | call (c : SessionCall σ)
  /-- The waiting task at a position starts. -/
  | task (j : Nat) (result : Bool)
  /-- The call at a position takes its next point. -/
  | point (i : Nat) (outcome : PointOutcome)
  deriving DecidableEq, Repr

/-- The registry, the sessions that were deleted, the calls in progress with the points they have
left, the tasks that wait, and the deleted sessions that were touched. -/
structure Lifetime (σ : Type*) where
  manager : SessionManager σ := {}
  deleted : List σ := []
  calls : List (List (SessionPoint σ)) := []
  tasks : List (σ × RequestHandler) := []
  late : List σ := []

namespace Lifetime

variable {σ : Type*} [DecidableEq σ]

/-- A broadcast holds the registry's mutex. -/
def Broadcasting (s : Lifetime σ) : Prop := ∃ ps ∈ s.calls, .unlock ∈ ps

instance (s : Lifetime σ) : Decidable s.Broadcasting :=
  inferInstanceAs (Decidable (∃ ps ∈ s.calls, SessionPoint.unlock ∈ ps))

/-- The registry behind a point; a close waits for the broadcasts. -/
def managerAfter (s : Lifetime σ) : SessionPoint σ → Option (SessionManager σ)
  | .close session => if s.Broadcasting then none else s.manager.CloseSession session
  | _ => some s.manager

/-- One step. -/
def step (s : Lifetime σ) : LifetimeAction σ → Option (Lifetime σ)
  | .accept session =>
      if s.Broadcasting then none else some { s with manager := s.manager.AddSession session }
  | .call c => some { s with calls := s.calls ++ [c.points] }
  | .task j result =>
      match s.tasks[j]? with
      | none => none
      | some (session, handler) =>
          some { s with
            calls := s.calls ++ [handler.points session result]
            tasks := s.tasks.eraseIdx j }
  | .point i outcome =>
      match s.calls[i]? with
      | some (p :: ps) =>
          (s.managerAfter p).map (fun manager => {
            manager := manager
            deleted := s.deleted ++ p.deleted
            calls := s.calls.set i (p.next s.manager.Sessions outcome ++ ps)
            tasks := s.tasks ++ p.spawned outcome
            late := s.late ++ p.session.toList.filter (· ∈ s.deleted) })
      | _ => none

/-- **No deleted session was touched.** -/
def Untouched (s : Lifetime σ) : Prop := s.late = []

instance (s : Lifetime σ) : Decidable s.Untouched := inferInstanceAs (Decidable (_ = _))

/-- Nothing that is still to run refers to the session: no call in progress, among them the rest of
the call at this position, and no waiting task with a handler that uses its session. -/
def Unreferenced (s : Lifetime σ) (session : σ) (i : Nat) (rest : List (SessionPoint σ)) : Prop :=
  (∀ ps ∈ s.calls.set i rest, session ∉ touched ps)
    ∧ ∀ t ∈ s.tasks, t.2 ≠ .RecvChatMessage → t.1 ≠ session

instance (s : Lifetime σ) (session : σ) (i : Nat) (rest : List (SessionPoint σ)) :
    Decidable (s.Unreferenced session i rest) :=
  inferInstanceAs (Decidable (_ ∧ _))

/-- A session that is deleted stands at its position in the registry, and nothing else refers to it. -/
def CleanClose (s : Lifetime σ) (i : Nat) : List (SessionPoint σ) → Prop
  | .close session :: rest =>
      SessionManager.InPlace ⟨s.manager, ∅⟩ (.close session) ∧ s.Unreferenced session i rest
  | _ => True

instance (s : Lifetime σ) (i : Nat) : ∀ ps, Decidable (s.CleanClose i ps)
  | [] => isTrue trivial
  | .close session :: rest =>
      inferInstanceAs (Decidable
        (SessionManager.InPlace ⟨s.manager, ∅⟩ (.close session) ∧ s.Unreferenced session i rest))
  | .use _ :: _ => isTrue trivial
  | .loop _ :: _ => isTrue trivial
  | .copy _ :: _ => isTrue trivial
  | .send _ :: _ => isTrue trivial
  | .broadcast :: _ => isTrue trivial
  | .unlock :: _ => isTrue trivial

/-- A registered session is a new object, a call that touches its session is made on one that has not
been deleted, and sessions are deleted cleanly. -/
def Clean (s : Lifetime σ) : LifetimeAction σ → Prop
  | .accept session => session ∉ s.deleted ∧ session ∉ s.manager.Sessions
  | .call c => ∀ session ∈ touched c.points, session ∉ s.deleted
  | .task _ _ => True
  | .point i _ => ∀ ps ∈ s.calls[i]?, s.CleanClose i ps

instance (s : Lifetime σ) (a : LifetimeAction σ) : Decidable (Clean s a) := by
  cases a <;> unfold Clean <;> infer_instance

/-! ## §3. What the points touch. -/

section

omit [DecidableEq σ]

theorem touched_append (ps qs : List (SessionPoint σ)) : touched (ps ++ qs) = touched ps ++ touched qs :=
  List.filterMap_append

/-- A point leads to points on its own session, or on registered ones. -/
theorem touched_next {Sessions : List σ} {p : SessionPoint σ} {outcome : PointOutcome} {x : σ}
    (h : x ∈ touched (p.next Sessions outcome)) : p.session = some x ∨ x ∈ Sessions := by
  cases p with
  | use session => exact absurd h (by simp [SessionPoint.next, touched])
  | close session => exact absurd h (by simp [SessionPoint.next, touched])
  | unlock => exact absurd h (by simp [SessionPoint.next, touched])
  | loop session =>
      left
      cases outcome <;> simp [SessionPoint.next, touched, SessionPoint.session] at h ⊢
      exact h.symm
  | copy session =>
      left
      cases outcome <;>
        simp [SessionPoint.next, touched, SessionPoint.session, SessionPoint.SendPacket] at h ⊢ <;>
        exact h.symm
  | send session =>
      left
      cases outcome <;> simp [SessionPoint.next, touched, SessionPoint.session] at h ⊢ <;> exact h.symm
  | broadcast =>
      right
      obtain ⟨q, hq, hx⟩ := List.mem_filterMap.mp h
      rcases List.mem_append.mp hq with hloop | hlast
      · obtain ⟨session, hmem, hq⟩ := List.mem_flatMap.mp hloop
        have hsession : q.session = some session := by
          simp only [SessionPoint.SendPacket, List.mem_cons, List.not_mem_nil, or_false] at hq
          rcases hq with rfl | rfl <;> rfl
        rw [hsession, Option.some.injEq] at hx
        rw [← hx]
        exact hmem
      · rw [List.mem_singleton.mp hlast] at hx
        exact absurd hx (by simp [SessionPoint.session])

theorem mem_spawned {p : SessionPoint σ} {outcome : PointOutcome} {t : σ × RequestHandler}
    (h : t ∈ p.spawned outcome) : p.session = some t.1 := by
  cases p <;> cases outcome <;> simp [SessionPoint.spawned] at h
  rw [h]
  rfl

/-- A handler touches its session, and `RecvChatMessage` not even that. -/
theorem touched_handler {session x : σ} {result : Bool} {handler : RequestHandler}
    (h : x ∈ touched (handler.points session result)) :
    x = session ∧ handler ≠ .RecvChatMessage := by
  cases handler with
  | RecvChatMessage => exact absurd h (by simp [RequestHandler.points, touched])
  | RecvCreateAccountRequest =>
      refine ⟨?_, by simp⟩
      simpa [RequestHandler.points, touched, SessionPoint.session, SessionPoint.SendPacket] using h
  | RecvLoginRequest =>
      refine ⟨?_, by simp⟩
      cases result <;>
        simpa [RequestHandler.points, touched, SessionPoint.session, SessionPoint.SendPacket] using h
  | RecvMoveRequest =>
      refine ⟨?_, by simp⟩
      simpa [RequestHandler.points, touched, SessionPoint.session] using h

end

/-! ## §4. One step. -/

/-- Everything that is still to run, and the registry, are about sessions that have not been deleted. -/
structure Alive (s : Lifetime σ) : Prop where
  calls : ∀ ps ∈ s.calls, ∀ session ∈ touched ps, session ∉ s.deleted
  tasks : ∀ t ∈ s.tasks, t.2 ≠ .RecvChatMessage → t.1 ∉ s.deleted
  Sessions : ∀ session ∈ s.manager.Sessions, session ∉ s.deleted
  nodup : s.manager.Sessions.Nodup
  late : s.late = []

/-- A point that deletes nothing leaves the registry alone. -/
theorem managerAfter_of_not_close {s : Lifetime σ} {p : SessionPoint σ} {m : SessionManager σ}
    (h : s.managerAfter p = some m) (hp : p.deleted = []) : m = s.manager := by
  cases p with
  | close session => exact absurd hp (by simp [SessionPoint.deleted])
  | use session => exact (Option.some.inj h).symm
  | loop session => exact (Option.some.inj h).symm
  | copy session => exact (Option.some.inj h).symm
  | send session => exact (Option.some.inj h).symm
  | broadcast => exact (Option.some.inj h).symm
  | unlock => exact (Option.some.inj h).symm

omit [DecidableEq σ] in
/-- A session that is closed in place is gone, and the others stay. -/
theorem sessions_close {m m' : SessionManager σ} {session : σ} (hnodup : m.Sessions.Nodup)
    (hplace : SessionManager.InPlace ⟨m, ∅⟩ (.close session))
    (h : m.CloseSession session = some m') :
    m'.Sessions.Nodup ∧ session ∉ m'.Sessions ∧ ∀ x ∈ m'.Sessions, x ∈ m.Sessions := by
  obtain ⟨i, hi, rfl⟩ := Option.map_eq_some_iff.mp h
  obtain ⟨hid, hlt⟩ := SessionManager.position_eq_some hi
  obtain ⟨-, hget⟩ := hplace
  have hat : m.Sessions[i] = session := by
    show m.Sessions[i] = session
    rw [hid, Int.toNat_natCast, List.getElem?_eq_getElem hlt, Option.some.injEq] at hget
    exact hget
  have hperm : (session :: swapRemove m.Sessions i).Perm m.Sessions := by
    rw [← hat]
    exact SwapRemove.swapRemove_perm m.Sessions i hlt
  have hall : (session :: swapRemove m.Sessions i).Nodup := hperm.nodup_iff.mpr hnodup
  rw [List.nodup_cons] at hall
  exact ⟨hall.2, hall.1, fun x hx => hperm.subset (List.mem_cons_of_mem session hx)⟩

omit [DecidableEq σ] in
/-- The points a call is left with touch what it touched before, or registered sessions. -/
theorem touched_set {s : Lifetime σ} {i : Nat} {p : SessionPoint σ} {rest ps : List (SessionPoint σ)}
    {outcome : PointOutcome} {x : σ} (hget : s.calls[i]? = some (p :: rest))
    (hps : ps ∈ s.calls.set i (p.next s.manager.Sessions outcome ++ rest)) (hx : x ∈ touched ps) :
    (∃ qs ∈ s.calls, x ∈ touched qs) ∨ x ∈ s.manager.Sessions := by
  rcases List.mem_or_eq_of_mem_set hps with hold | rfl
  · exact Or.inl ⟨ps, hold, hx⟩
  · have hmem : p :: rest ∈ s.calls := List.mem_of_getElem? hget
    rw [touched_append] at hx
    rcases List.mem_append.mp hx with hnext | hrest
    · rcases touched_next hnext with hp | hreg
      · exact Or.inl ⟨_, hmem, List.mem_filterMap.mpr ⟨p, List.mem_cons_self, hp⟩⟩
      · exact Or.inr hreg
    · refine Or.inl ⟨_, hmem, ?_⟩
      show x ∈ touched ([p] ++ rest)
      rw [touched_append]
      exact List.mem_append_right _ hrest

/-- What a point of a call does. -/
theorem step_point {s s' : Lifetime σ} {i : Nat} {outcome : PointOutcome} :
    step s (.point i outcome) = some s' ↔ ∃ p rest m, s.calls[i]? = some (p :: rest)
      ∧ s.managerAfter p = some m
      ∧ s' = {
          manager := m
          deleted := s.deleted ++ p.deleted
          calls := s.calls.set i (p.next s.manager.Sessions outcome ++ rest)
          tasks := s.tasks ++ p.spawned outcome
          late := s.late ++ p.session.toList.filter (· ∈ s.deleted) } := by
  simp only [step]
  constructor
  · intro h
    split at h
    · next p rest hget =>
        obtain ⟨m, hm, rfl⟩ := Option.map_eq_some_iff.mp h
        exact ⟨p, rest, m, hget, hm, rfl⟩
    · exact absurd h (by simp)
  · intro h
    obtain ⟨p, rest, m, hget, hm, rfl⟩ := h
    rw [hget]
    simp only [hm, Option.map_some]

omit [DecidableEq σ] in
/-- The session of a point that is next to run has not been deleted. -/
theorem Alive.head {s : Lifetime σ} (halive : s.Alive) {i : Nat} {p : SessionPoint σ}
    {rest : List (SessionPoint σ)} (hget : s.calls[i]? = some (p :: rest)) {x : σ}
    (hx : p.session = some x) : x ∉ s.deleted :=
  halive.calls _ (List.mem_of_getElem? hget) x
    (List.mem_filterMap.mpr ⟨p, List.mem_cons_self, hx⟩)

/-- It is not touched late. -/
theorem Alive.late_nil {s : Lifetime σ} (halive : s.Alive) {i : Nat} {p : SessionPoint σ}
    {rest : List (SessionPoint σ)} (hget : s.calls[i]? = some (p :: rest)) :
    s.late ++ p.session.toList.filter (· ∈ s.deleted) = [] := by
  rw [halive.late, List.nil_append, List.filter_eq_nil_iff]
  intro x hx
  rw [decide_eq_true_eq]
  exact halive.head hget (Option.mem_toList.mp hx)

/-- A point that deletes nothing. -/
theorem alive_point {s s' : Lifetime σ} {i : Nat} {outcome : PointOutcome} {p : SessionPoint σ}
    {rest : List (SessionPoint σ)} (halive : s.Alive) (hget : s.calls[i]? = some (p :: rest))
    (hp : p.deleted = []) (h : step s (.point i outcome) = some s') : s'.Alive := by
  obtain ⟨q, qs, m, hq, hm, rfl⟩ := step_point.mp h
  rw [hget, Option.some.injEq, List.cons.injEq] at hq
  obtain ⟨rfl, rfl⟩ := hq
  have hmanager : m = s.manager := managerAfter_of_not_close hm hp
  subst hmanager
  rw [hp, List.append_nil]
  constructor
  · intro ps hps x hx
    rcases touched_set hget hps hx with ⟨qs, hqs, hold⟩ | hreg
    · exact halive.calls qs hqs x hold
    · exact halive.Sessions x hreg
  · intro t ht hchat
    rcases List.mem_append.mp ht with hold | hnew
    · exact halive.tasks t hold hchat
    · exact halive.head hget (mem_spawned hnew)
  · exact halive.Sessions
  · exact halive.nodup
  · exact halive.late_nil hget

/-- A close that is clean. -/
theorem alive_close {s s' : Lifetime σ} {i : Nat} {outcome : PointOutcome} {session : σ}
    {rest : List (SessionPoint σ)} (halive : s.Alive)
    (hget : s.calls[i]? = some (.close session :: rest))
    (hclean : s.CleanClose i (.close session :: rest))
    (h : step s (.point i outcome) = some s') : s'.Alive := by
  obtain ⟨hplace, hcalls, htasks⟩ := hclean
  obtain ⟨q, qs, m, hq, hm, rfl⟩ := step_point.mp h
  rw [hget, Option.some.injEq, List.cons.injEq] at hq
  obtain ⟨rfl, rfl⟩ := hq
  simp only [managerAfter, Option.ite_none_left_eq_some] at hm
  obtain ⟨hnodup, hgone, hkept⟩ := sessions_close halive.nodup hplace hm.2
  -- whoever is neither deleted before nor the session is not deleted now
  have hdeleted : ∀ x, x ∉ s.deleted → x ≠ session → x ∉ s.deleted ++ [session] := by
    intro x hold hne hx
    rcases List.mem_append.mp hx with h | h
    · exact hold h
    · exact hne (List.mem_singleton.mp h)
  constructor
  · intro ps hps x hx
    apply hdeleted
    · rcases touched_set hget hps hx with ⟨qs, hqs, hold⟩ | hreg
      · exact halive.calls qs hqs x hold
      · exact halive.Sessions x hreg
    · intro heq
      exact hcalls ps hps (heq ▸ hx)
  · intro t ht hchat
    have hold : t ∈ s.tasks := by
      rcases List.mem_append.mp ht with h | h
      · exact h
      · exact absurd h (by simp [SessionPoint.spawned])
    exact hdeleted t.1 (halive.tasks t hold hchat) (htasks t hold hchat)
  · intro x hx
    apply hdeleted x (halive.Sessions x (hkept x hx))
    intro heq
    exact hgone (heq ▸ hx)
  · exact hnodup
  · exact halive.late_nil hget

omit [DecidableEq σ] in
/-- A call that starts on sessions that have not been deleted. -/
theorem alive_start {s : Lifetime σ} {ps : List (SessionPoint σ)} {tasks : List (σ × RequestHandler)}
    (halive : s.Alive) (hps : ∀ x ∈ touched ps, x ∉ s.deleted) (htasks : ∀ t ∈ tasks, t ∈ s.tasks) :
    Alive { s with calls := s.calls ++ [ps], tasks := tasks } where
  calls := by
    intro qs hqs x hx
    rcases List.mem_append.mp hqs with hold | hnew
    · exact halive.calls qs hold x hx
    · rw [List.mem_singleton.mp hnew] at hx
      exact hps x hx
  tasks := by
    intro t ht hchat
    exact halive.tasks t (htasks t ht) hchat
  Sessions := halive.Sessions
  nodup := halive.nodup
  late := halive.late

omit [DecidableEq σ] in
/-- A new session is registered. -/
theorem alive_accept {s : Lifetime σ} {session : σ} {m : SessionManager σ} (halive : s.Alive)
    (hdeleted : session ∉ s.deleted) (hnew : session ∉ s.manager.Sessions)
    (hm : m.Sessions = s.manager.Sessions ++ [session]) : Alive { s with manager := m } where
  calls := halive.calls
  tasks := halive.tasks
  Sessions := by
    show ∀ x ∈ m.Sessions, x ∉ s.deleted
    intro x hx
    rw [hm, List.mem_append, List.mem_singleton] at hx
    rcases hx with hold | rfl
    · exact halive.Sessions x hold
    · exact hdeleted
  nodup := by
    show m.Sessions.Nodup
    rw [hm, List.nodup_append]
    refine ⟨halive.nodup, List.nodup_singleton session, ?_⟩
    intro x hx y hy heq
    rw [List.mem_singleton.mp hy] at heq
    exact hnew (heq ▸ hx)
  late := halive.late

/-- **A clean step** keeps everything that is still to run off deleted sessions. -/
theorem alive_step {s s' : Lifetime σ} {a : LifetimeAction σ} (halive : s.Alive) (hclean : s.Clean a)
    (h : step s a = some s') : s'.Alive := by
  cases a with
  | accept session =>
      simp only [step, Option.ite_none_left_eq_some, Option.some.injEq] at h
      obtain ⟨-, rfl⟩ := h
      exact alive_accept halive hclean.1 hclean.2 rfl
  | call c =>
      rw [step, Option.some.injEq] at h
      subst h
      apply alive_start halive
      · intro x hx
        exact hclean x hx
      · intro t ht
        exact ht
  | task j result =>
      simp only [step] at h
      split at h
      · exact absurd h (by simp)
      · next session handler hget =>
          rw [Option.some.injEq] at h
          subst h
          apply alive_start halive
          · intro x hx
            obtain ⟨rfl, hchat⟩ := touched_handler hx
            exact halive.tasks _ (List.mem_of_getElem? hget) hchat
          · intro t ht
            exact List.mem_of_mem_eraseIdx ht
  | point i outcome =>
      obtain ⟨p, rest, m, hget, -, -⟩ := step_point.mp h
      have hpoint := hclean (p :: rest) hget
      cases p with
      | close session => exact alive_close halive hget hpoint h
      | use session => exact alive_point halive hget rfl h
      | loop session => exact alive_point halive hget rfl h
      | copy session => exact alive_point halive hget rfl h
      | send session => exact alive_point halive hget rfl h
      | broadcast => exact alive_point halive hget rfl h
      | unlock => exact alive_point halive hget rfl h

/-- **A call that goes on behind its close** touches the deleted session with its next point: the
`OnRecv` of 0 bytes, and the `SendPacket` of a failed send. -/
theorem touched_after_close {s s' : Lifetime σ} {i : Nat} {outcome : PointOutcome} {session : σ}
    {rest : List (SessionPoint σ)} (hget : s.calls[i]? = some (.close session :: .use session :: rest))
    (h : step s (.point i outcome) = some s') (outcome' : PointOutcome) :
    ∃ s'', step s' (.point i outcome') = some s'' ∧ session ∈ s''.late := by
  obtain ⟨q, qs, m, hq, hm, rfl⟩ := step_point.mp h
  rw [hget, Option.some.injEq, List.cons.injEq] at hq
  obtain ⟨rfl, rfl⟩ := hq
  have hlt : i < s.calls.length := (List.getElem?_eq_some_iff.mp hget).1
  refine ⟨_, step_point.mpr ⟨.use session, rest, m, ?_, rfl, rfl⟩, ?_⟩
  · show (s.calls.set i (.use session :: rest))[i]? = _
    rw [List.getElem?_set_self hlt]
  · apply List.mem_append_right
    show session ∈ [session].filter (· ∈ s.deleted ++ [session])
    simp

/-! ## §5. Whole runs. -/

/-- **A closed session is not touched again while sessions are deleted cleanly.**  For every
interleaving of calls of `OnRecv`, `OnSend`, `SendPacket`, `AllMessage` and `CloseSession` and of the
tasks, with any sizes and outcomes: if calls that touch their session are made on sessions that have
not been deleted and registered sessions are new, and if at every close the session stands at the
position its `SessionID` names, and neither the rest of any call in progress nor a waiting task refers
to it, then no deleted session is ever touched. -/
theorem untouched_of_clean (as : List (LifetimeAction σ)) (s : Lifetime σ)
    (hrun : StepMachine.run step {} as = some s) (hclean : StepMachine.Along step Clean {} as) :
    StepMachine.Safe step Untouched {} as := by
  apply StepMachine.safe_of_along (I := Alive) ?_ ?_ ?_ hrun hclean
  · intro s a s' halive hclean hstep
    exact alive_step halive hclean hstep
  · intro s halive
    exact halive.late
  · constructor
    · intro ps hps
      exact absurd hps (by simp)
    · intro t ht
      exact absurd ht (by simp)
    · intro session hmem
      exact absurd hmem (by simp)
    · exact List.nodup_nil
    · rfl

/-- A session that receives a frame, has its task run, and is closed when its send completes with 0
bytes. -/
theorem untouched_closed_last :
    StepMachine.Safe step Untouched ({} : Lifetime Nat)
      [.accept 1, .call (.OnRecv 1 80), .point 0 .ok, .point 0 (.dispatch .RecvMoveRequest),
        .point 0 .failed, .point 0 .ok, .task 0 true, .point 1 .ok, .point 1 .ok, .point 1 .ok,
        .point 1 .ok, .point 1 .ok, .point 1 .ok, .point 1 .ok, .point 1 .ok, .point 1 .ok,
        .call (.OnSend 1 0), .point 2 .ok] := by
  have hsome : (StepMachine.run step ({} : Lifetime Nat)
      [.accept 1, .call (.OnRecv 1 80), .point 0 .ok, .point 0 (.dispatch .RecvMoveRequest),
        .point 0 .failed, .point 0 .ok, .task 0 true, .point 1 .ok, .point 1 .ok, .point 1 .ok,
        .point 1 .ok, .point 1 .ok, .point 1 .ok, .point 1 .ok, .point 1 .ok, .point 1 .ok,
        .call (.OnSend 1 0), .point 2 .ok]).isSome := by
    decide +kernel
  obtain ⟨s, hs⟩ := Option.isSome_iff_exists.mp hsome
  exact untouched_of_clean _ s hs (by decide +kernel)

/-- **A deleted session is touched**: an `OnRecv` of 0 bytes closes its session and goes on. -/
theorem deleted_touched :
    ∃ s : Lifetime Nat,
      StepMachine.run step {} [.accept 1, .call (.OnRecv 1 0), .point 0 .ok, .point 0 .ok] = some s
        ∧ s.deleted = [1] ∧ s.late = [1] ∧ ¬ s.Untouched := by
  have hend : (StepMachine.run step ({} : Lifetime Nat)
      [.accept 1, .call (.OnRecv 1 0), .point 0 .ok, .point 0 .ok]).map
      (fun s => (s.deleted, s.late)) = some ([1], [1]) := by
    decide +kernel
  obtain ⟨s, hs, hall⟩ := Option.map_eq_some_iff.mp hend
  rw [Prod.mk.injEq] at hall
  refine ⟨s, hs, hall.1, hall.2, fun huntouched => ?_⟩
  have hlate : s.late = [] := huntouched
  rw [hall.2] at hlate
  exact absurd hlate (by simp)

end Lifetime

end YServerCore
