/-
  YServerCore.Send.Joining — what a session hears when sessions come and go.

  `AddSession` and `CloseSession` own the registry's mutex, so they wait for the broadcasts that share
  it, and a broadcast walks the vector as it is when it starts.  Beside that, `SendPacket` is called
  for one session, without the registry.  A session is an object here, and an address that is used
  again is another one; a section on a deleted session has no next state, nor has a packet that does
  not fit.  No send sees `SOCKET_ERROR`.

  Main results:
    * `step_accounted` — every step keeps, for each session, the account of the packets addressed to
      it.
    * `joined_hear` — whenever nobody is at a session any more, it has been posted a merge of the
      packets addressed to it.
    * `heard_late` — while nothing is closed, these are the broadcasts since it came, and its own.
-/
import YServerCore.Send.Broadcast

namespace YServerCore

open ByteMemory (Mem)
open KeyedLog (values)
open Broadcasting (Counted issued left IsMerge)
open SwapRemove (swapRemove)

/-! ## §1. Sessions that come and go. -/

/-- What has become of a session object. -/
inductive Life where
  | unborn
  | live
  | deleted
  deriving DecidableEq, Repr

/-- What the threads do. -/
inductive JoiningAction (σ τ : Type*) where
  /-- `AddSession` of a new object; what is behind its zeroed array is whatever was in memory. -/
  | AddSession (session : σ) (Data : Mem)
  | CloseSession (session : σ)
  /-- `AllMessage(Msg)` is called, and shares the registry's mutex. -/
  | AllMessage (t : τ) (Msg : Mem)
  /-- `session->SendPacket(Packet)` is called. -/
  | SendPacket (t : τ) (session : σ) (Packet : Mem)
  /-- The two sections of the next `SendPacket`. -/
  | copy (t : τ)
  | post (t : τ)
  /-- The call of the thread returns. -/
  | ret (t : τ)

/-- The registry, the write sides of the sessions with the threads inside their calls, the threads that
share the registry's mutex, and what has become of the objects. -/
structure Joining (σ τ : Type*) where
  manager : SessionManager σ := {}
  threads : Broadcasting σ τ
  sharing : Finset τ := ∅
  life : σ → Life := fun _ => .unborn

namespace Joining

variable {σ τ : Type*} [DecidableEq σ] [DecidableEq τ]

/-- No session has come yet. -/
def start : Joining σ τ where
  threads := Broadcasting.start (fun _ _ => 0)

/-- The session a thread is at lives. -/
def AtLive (s : Joining σ τ) (t : τ) : Prop :=
  ∀ c ∈ s.threads.calls t, ∀ p ∈ c.sends.head?, s.life p.1 = .live

instance (s : Joining σ τ) (t : τ) : Decidable (s.AtLive t) :=
  inferInstanceAs (Decidable (∀ _ ∈ _, ∀ _ ∈ _, _))

/-- One step. -/
def step (s : Joining σ τ) : JoiningAction σ τ → Option (Joining σ τ)
  | .AddSession session Data =>
      if s.sharing = ∅ ∧ s.life session = .unborn then
        some { s with
          manager := s.manager.AddSession session
          threads := { s.threads with
            side := Function.update s.threads.side session (Sending.start Data) }
          life := Function.update s.life session .live }
      else none
  | .CloseSession session =>
      if s.sharing = ∅ ∧ s.life session = .live then
        (s.manager.CloseSession session).map (fun manager =>
          { s with manager := manager, life := Function.update s.life session .deleted })
      else none
  | .AllMessage t Msg =>
      (Broadcasting.step s.manager s.threads (.call t Msg)).map (fun threads =>
        { s with threads := threads, sharing := insert t s.sharing })
  | .SendPacket t session Packet =>
      if s.threads.calls t = none ∧ s.life session = .live then
        some { s with
          threads := { s.threads with
            calls := Function.update s.threads.calls t (some { sends := [(session, Packet)] }) } }
      else none
  | .copy t =>
      if s.AtLive t then
        (Broadcasting.step s.manager s.threads (.copy t)).map (fun threads =>
          { s with threads := threads })
      else none
  | .post t =>
      if s.AtLive t then
        (Broadcasting.step s.manager s.threads (.post t)).map (fun threads =>
          { s with threads := threads })
      else none
  | .ret t =>
      (Broadcasting.step s.manager s.threads (.ret t)).map (fun threads =>
        { s with threads := threads, sharing := s.sharing.erase t })

/-- **What one step does**: a session comes or goes, a call starts, or a section of one is run. -/
theorem step_cases {s s' : Joining σ τ} {a : JoiningAction σ τ} (h : step s a = some s') :
    (∃ session Data, a = .AddSession session Data ∧ s.life session = .unborn
        ∧ s' = { s with
            manager := s.manager.AddSession session
            threads := { s.threads with
              side := Function.update s.threads.side session (Sending.start Data) }
            life := Function.update s.life session .live })
      ∨ (∃ session manager, a = .CloseSession session
        ∧ s.manager.CloseSession session = some manager
        ∧ s' = { s with manager := manager, life := Function.update s.life session .deleted })
      ∨ (∃ t Msg, a = .AllMessage t Msg ∧ s.threads.calls t = none
        ∧ s' = { s with
            threads := { s.threads with
              calls := Function.update s.threads.calls t (some { sends := s.manager.AllMessage Msg }) }
            sharing := insert t s.sharing })
      ∨ (∃ t session Packet, a = .SendPacket t session Packet ∧ s.threads.calls t = none
        ∧ s.life session = .live
        ∧ s' = { s with
            threads := { s.threads with
              calls := Function.update s.threads.calls t (some { sends := [(session, Packet)] }) } })
      ∨ ∃ b threads sharing, Broadcasting.step s.manager s.threads b = some threads
        ∧ ((∃ t, a = .copy t ∧ b = .copy t) ∨ (∃ t, a = .post t ∧ b = .post t)
          ∨ ∃ t, a = .ret t ∧ b = .ret t)
        ∧ s' = { s with threads := threads, sharing := sharing } := by
  cases a with
  | AddSession session Data =>
      simp only [step, Option.ite_none_right_eq_some, Option.some.injEq] at h
      exact Or.inl ⟨session, Data, rfl, h.1.2, h.2.symm⟩
  | CloseSession session =>
      simp only [step, Option.ite_none_right_eq_some] at h
      obtain ⟨manager, hclose, rfl⟩ := Option.map_eq_some_iff.mp h.2
      exact Or.inr (Or.inl ⟨session, manager, rfl, hclose, rfl⟩)
  | AllMessage t Msg =>
      obtain ⟨threads, hcall, rfl⟩ := Option.map_eq_some_iff.mp h
      refine Or.inr (Or.inr (Or.inl ⟨t, Msg, rfl, ?_⟩))
      rcases Broadcasting.step_cases hcall with ⟨u, Msg', ha, hidle, rfl⟩ | ⟨u, x, P, rest, io, ha, -⟩ |
        ⟨u, x, P, rest, io, ha, -⟩ | ⟨u, copied, ha, -⟩
      · rw [BroadcastAction.call.injEq] at ha
        rw [ha.1, ha.2]
        exact ⟨hidle, rfl⟩
      all_goals exact absurd ha (by simp)
  | SendPacket t session Packet =>
      simp only [step, Option.ite_none_right_eq_some, Option.some.injEq] at h
      exact Or.inr (Or.inr (Or.inr (Or.inl ⟨t, session, Packet, rfl, h.1.1, h.1.2, h.2.symm⟩)))
  | copy t =>
      simp only [step, Option.ite_none_right_eq_some] at h
      obtain ⟨threads, hcopy, rfl⟩ := Option.map_eq_some_iff.mp h.2
      exact Or.inr (Or.inr (Or.inr (Or.inr ⟨_, threads, _, hcopy, Or.inl ⟨t, rfl, rfl⟩, rfl⟩)))
  | post t =>
      simp only [step, Option.ite_none_right_eq_some] at h
      obtain ⟨threads, hpost, rfl⟩ := Option.map_eq_some_iff.mp h.2
      exact Or.inr (Or.inr (Or.inr (Or.inr ⟨_, threads, _, hpost, Or.inr (Or.inl ⟨t, rfl, rfl⟩), rfl⟩)))
  | ret t =>
      obtain ⟨threads, hret, rfl⟩ := Option.map_eq_some_iff.mp h
      exact Or.inr (Or.inr (Or.inr (Or.inr ⟨_, threads, _, hret, Or.inr (Or.inr ⟨t, rfl, rfl⟩), rfl⟩)))

/-- The thread whose call starts. -/
def caller : JoiningAction σ τ → Option τ
  | .AddSession _ _ => none
  | .CloseSession _ => none
  | .AllMessage t _ => some t
  | .SendPacket t _ _ => some t
  | .copy _ => none
  | .post _ => none
  | .ret _ => none

/-- A thread that is in no call stays so until one of its own starts. -/
theorem idle_step {s s' : Joining σ τ} {a : JoiningAction σ τ} (h : step s a = some s') {t : τ}
    (hidle : s.threads.calls t = none) (ht : caller a ≠ some t) : s'.threads.calls t = none := by
  rcases step_cases h with ⟨session, Data, rfl, -, rfl⟩ | ⟨session, manager, rfl, -, rfl⟩ |
    ⟨u, Msg, rfl, -, rfl⟩ | ⟨u, session, Packet, rfl, -, -, rfl⟩ | ⟨b, threads, sharing, hb, hab, rfl⟩
  · exact hidle
  · exact hidle
  · have htu : t ≠ u := fun heq => ht (congrArg some heq.symm)
    exact (Function.update_of_ne htu _ _).trans hidle
  · have htu : t ≠ u := fun heq => ht (congrArg some heq.symm)
    exact (Function.update_of_ne htu _ _).trans hidle
  · -- a section is of a thread in a call
    have hne : ∀ {u : τ} {c : BroadcastCall σ}, s.threads.calls u = some c → t ≠ u := by
      rintro u c hu rfl
      rw [hidle] at hu
      cases hu
    rcases Broadcasting.step_cases hb with ⟨u, Msg, rfl, hu, rfl⟩ |
      ⟨u, session, Packet, rest, io, -, hu, -, rfl⟩ | ⟨u, session, Packet, rest, io, -, hu, -, rfl⟩ |
      ⟨u, copied, -, hu, rfl⟩
    · rcases hab with ⟨u', -, hb'⟩ | ⟨u', -, hb'⟩ | ⟨u', -, hb'⟩ <;> cases hb'
    · exact (Function.update_of_ne (hne hu) _ _).trans hidle
    · exact (Function.update_of_ne (hne hu) _ _).trans hidle
    · exact (Function.update_of_ne (hne hu) _ _).trans hidle

/-! ## §2. What is addressed to a session. -/

/-- The registry behind an action. -/
def registry (m : SessionManager σ) : JoiningAction σ τ → SessionManager σ
  | .AddSession session _ => m.AddSession session
  | .CloseSession session => (m.CloseSession session).getD m
  | .AllMessage _ _ => m
  | .SendPacket _ _ _ => m
  | .copy _ => m
  | .post _ => m
  | .ret _ => m

/-- The call in an action that has a packet for this session, if `m` is the registry. -/
def addressed (x : σ) (m : SessionManager σ) : JoiningAction σ τ → List (BroadcastAction τ)
  | .AddSession _ _ => []
  | .CloseSession _ => []
  | .AllMessage t Msg => if x ∈ m.Sessions then [.call t Msg] else []
  | .SendPacket t session Packet => if session = x then [.call t Packet] else []
  | .copy _ => []
  | .post _ => []
  | .ret _ => []

/-- The calls of a run with a packet for this session: the broadcasts that are issued while it is
registered, and the calls of its own `SendPacket`. -/
def heard (x : σ) : SessionManager σ → List (JoiningAction σ τ) → List (BroadcastAction τ)
  | _, [] => []
  | m, a :: as => addressed x m a ++ heard x (registry m a) as

omit [DecidableEq τ] in
theorem heard_append (x : σ) (m : SessionManager σ) (as bs : List (JoiningAction σ τ)) :
    heard x m (as ++ bs) = heard x m as ++ heard x (as.foldl registry m) bs := by
  induction as generalizing m with
  | nil => rfl
  | cons a as ih =>
      show addressed x m a ++ heard x (registry m a) (as ++ bs) = _
      rw [ih, ← List.append_assoc]
      rfl

omit [DecidableEq τ] in
theorem heard_snoc (x : σ) (m : SessionManager σ) (as : List (JoiningAction σ τ))
    (a : JoiningAction σ τ) :
    heard x m (as ++ [a]) = heard x m as ++ addressed x (as.foldl registry m) a := by
  rw [heard_append]
  show _ ++ (addressed x _ a ++ []) = _
  rw [List.append_nil]

/-! ## §3. The account of one session. -/

/-- The registry of one session. -/
def only (x : σ) : SessionManager σ where
  Sessions := [x]

omit [DecidableEq σ] in
/-- The account of a run depends on what was issued alone. -/
theorem counted_congr [DecidableEq σ] {m : SessionManager σ} {past past' : List (BroadcastAction τ)}
    {b : Broadcasting σ τ} (h : Counted m past b) (hissued : issued past' = issued past) :
    Counted m past' b where
  ordered := h.ordered
  attended := h.attended
  inside := h.inside
  sent := by
    rw [hissued]
    exact h.sent

/-- **A call that starts** has for a session what is addressed to it. -/
theorem begin_counted {x : σ} {past : List (BroadcastAction τ)} {b : Broadcasting σ τ}
    (h : Counted (only x) past b) {t : τ} (hidle : b.calls t = none) {sends : List (σ × Mem)}
    {news : List (BroadcastAction τ)}
    (hnews : issued news = ((values x sends).map packetBytes).map (fun bytes => (t, bytes))) :
    Counted (only x) (past ++ news)
      { b with calls := Function.update b.calls t (some { sends := sends }) } where
  ordered := h.ordered
  attended := h.attended
  inside := by
    intro y u hu
    obtain ⟨Packet, rest, hcall⟩ := h.inside y u hu
    have hut : u ≠ t := by
      rintro rfl
      rw [hidle] at hcall
      exact absurd hcall (by simp)
    refine ⟨Packet, rest, ?_⟩
    show Function.update b.calls t _ u = _
    rw [Function.update_of_ne hut]
    exact hcall
  sent := by
    intro y hy u
    have hyx : y = x := List.mem_singleton.mp hy
    subst hyx
    have hold := h.sent y hy u
    rw [Broadcasting.issued_append, KeyedLog.values_append, ← hold, hnews, List.append_assoc]
    show _ ++ left (Function.update b.calls t _) u y = _
    congr 1
    by_cases hut : u = t
    · subst hut
      have hnone : left b.calls u y = [] := by
        unfold left
        rw [hidle]
        rfl
      rw [Broadcasting.left_self, hnone, KeyedLog.values_map_self]
      rfl
    · rw [Broadcasting.left_of_ne hut, KeyedLog.values_map_ne fun htu => hut htu.symm, List.append_nil]

/-- A session that comes, and that nothing was addressed to, has an empty write side. -/
theorem fresh_counted {x : σ} {past : List (BroadcastAction τ)} {b : Broadcasting σ τ}
    (h : Counted (only x) past b) {session : σ} (hsilent : x = session → issued past = [])
    (Data : Mem) :
    Counted (only x) past
      { b with side := Function.update b.side session (Sending.start Data) } where
  ordered := by
    intro y
    by_cases hy : y = session
    · subst hy
      simp only [Function.update_self]
      exact WriteBuffer.ordered_init
    · simp only [Function.update_of_ne hy]
      exact h.ordered y
  attended := by
    intro y
    by_cases hy : y = session
    · subst hy
      simp only [Function.update_self]
      exact Or.inl rfl
    · simp only [Function.update_of_ne hy]
      exact h.attended y
  inside := by
    intro y u hu
    by_cases hy : y = session
    · subst hy
      simp only [Function.update_self] at hu
      exact absurd rfl hu
    · simp only [Function.update_of_ne hy] at hu
      exact h.inside y u hu
  sent := by
    intro y hy u
    have hyx : y = x := List.mem_singleton.mp hy
    have hold := h.sent y hy u
    by_cases hys : y = session
    · -- nothing was addressed to it, so nobody has anything left for it
      have hnone := hsilent (hyx.symm.trans hys)
      rw [hnone, KeyedLog.values_nil, List.append_eq_nil_iff] at hold
      subst hys
      simp only [Function.update_self]
      rw [hnone, hold.2]
      rfl
    · simp only [Function.update_of_ne hys]
      exact hold

/-- **The account**: for each session, the account of the calls that have a packet for it; the registry
holds no session twice and none before it has come, and nothing is addressed to those. -/
structure Accounted (past : List (JoiningAction σ τ)) (s : Joining σ τ) : Prop where
  counted : ∀ x, Counted (only x) (heard x {} past) s.threads
  manager : s.manager = past.foldl registry {}
  nodup : s.manager.Sessions.Nodup
  born : ∀ x ∈ s.manager.Sessions, s.life x ≠ .unborn
  silent : ∀ x, s.life x = .unborn → heard x {} past = []

theorem accounted_start : Accounted [] (start : Joining σ τ) where
  counted x := Broadcasting.counted_start (only x) _
  manager := rfl
  nodup := List.nodup_nil
  born x hx := absurd hx (by simp [start])
  silent _ _ := rfl

/-! ## §4. One step. -/

omit [DecidableEq τ] in
/-- An action that has a packet for nobody. -/
theorem heard_quiet (x : σ) {past : List (JoiningAction σ τ)} {a : JoiningAction σ τ}
    (ha : ∀ m : SessionManager σ, addressed x m a = []) :
    heard x {} (past ++ [a]) = heard x {} past := by
  rw [heard_snoc, ha, List.append_nil]

/-- The session that comes is registered, and has heard nothing. -/
theorem add_accounted {past : List (JoiningAction σ τ)} {s : Joining σ τ} (h : Accounted past s)
    {session : σ} {Data : Mem} (hnew : s.life session = .unborn) :
    Accounted (past ++ [.AddSession session Data]) { s with
      manager := s.manager.AddSession session
      threads := { s.threads with
        side := Function.update s.threads.side session (Sending.start Data) }
      life := Function.update s.life session .live } where
  counted := by
    intro x
    rw [heard_quiet x fun _ => rfl]
    apply fresh_counted (h.counted x)
    intro hx
    rw [h.silent x (hx ▸ hnew)]
    rfl
  manager := by
    rw [List.foldl_append, ← h.manager]
    rfl
  nodup := by
    show (s.manager.Sessions ++ [session]).Nodup
    rw [List.nodup_append]
    refine ⟨h.nodup, List.nodup_singleton session, ?_⟩
    intro x hx y hy hxy
    rw [List.mem_singleton] at hy
    exact h.born x hx (hxy ▸ hy ▸ hnew)
  born := by
    intro x hx
    show Function.update s.life session .live x ≠ .unborn
    by_cases hxs : x = session
    · subst hxs
      rw [Function.update_self]
      exact fun heq => by cases heq
    · rw [Function.update_of_ne hxs]
      rcases List.mem_append.mp hx with hold | hone
      · exact h.born x hold
      · exact absurd (List.mem_singleton.mp hone) hxs
  silent := by
    intro x hx
    have hxs : x ≠ session := by
      rintro rfl
      simp only [Function.update_self] at hx
      cases hx
    simp only [Function.update_of_ne hxs] at hx
    rw [heard_quiet x fun _ => rfl]
    exact h.silent x hx

/-- A close takes one entry out of the registry, and leaves the threads where they are. -/
theorem close_accounted {past : List (JoiningAction σ τ)} {s : Joining σ τ} (h : Accounted past s)
    {session : σ} {manager : SessionManager σ} (hclose : s.manager.CloseSession session = some manager) :
    Accounted (past ++ [.CloseSession session])
      { s with manager := manager, life := Function.update s.life session .deleted } := by
  obtain ⟨i, hi, hmanager⟩ := Option.map_eq_some_iff.mp hclose
  have hperm := SwapRemove.swapRemove_perm s.manager.Sessions i (SessionManager.position_eq_some hi).2
  have hSessions : manager.Sessions = swapRemove s.manager.Sessions i := by
    rw [← hmanager]
  refine ⟨fun x => ?_, ?_, ?_, fun x hx => ?_, fun x hx => ?_⟩
  · rw [heard_quiet x fun _ => rfl]
    exact h.counted x
  · show manager = _
    rw [List.foldl_append, ← h.manager]
    show manager = (s.manager.CloseSession session).getD s.manager
    rw [hclose]
    rfl
  · show manager.Sessions.Nodup
    rw [hSessions]
    exact (List.nodup_cons.mp (hperm.nodup_iff.mpr h.nodup)).2
  · show Function.update s.life session .deleted x ≠ .unborn
    by_cases hxs : x = session
    · subst hxs
      rw [Function.update_self]
      exact fun heq => by cases heq
    · rw [Function.update_of_ne hxs]
      apply h.born x
      change x ∈ manager.Sessions at hx
      rw [hSessions] at hx
      exact hperm.mem_iff.mp (List.mem_cons_of_mem _ hx)
  · have hxs : x ≠ session := by
      rintro rfl
      simp only [Function.update_self] at hx
      cases hx
    simp only [Function.update_of_ne hxs] at hx
    rw [heard_quiet x fun _ => rfl]
    exact h.silent x hx

/-- A session that is not registered gets nothing from a broadcast. -/
theorem values_AllMessage_of_not_mem {m : SessionManager σ} {x : σ} (hx : x ∉ m.Sessions) (Msg : Mem) :
    values x (m.AllMessage Msg) = [] := by
  rw [List.eq_nil_iff_forall_not_mem]
  intro p hp
  obtain ⟨y, hy, heq⟩ := List.mem_map.mp (KeyedLog.mem_values.mp hp)
  rw [Prod.mk.injEq] at heq
  exact hx (heq.1 ▸ hy)

/-- **A broadcast that starts** has its packet for every session that is registered. -/
theorem broadcast_accounted {past : List (JoiningAction σ τ)} {s : Joining σ τ} (h : Accounted past s)
    {t : τ} {Msg : Mem} (hidle : s.threads.calls t = none) :
    Accounted (past ++ [.AllMessage t Msg]) { s with
      threads := { s.threads with
        calls := Function.update s.threads.calls t (some { sends := s.manager.AllMessage Msg }) }
      sharing := insert t s.sharing } where
  counted := by
    intro x
    rw [heard_snoc, ← h.manager]
    apply begin_counted (h.counted x) hidle
    show issued (if x ∈ s.manager.Sessions then _ else _) = _
    by_cases hx : x ∈ s.manager.Sessions
    · rw [if_pos hx, Broadcasting.values_AllMessage h.nodup hx]
      rfl
    · rw [if_neg hx, values_AllMessage_of_not_mem hx]
      rfl
  manager := by
    rw [List.foldl_append]
    exact h.manager
  nodup := h.nodup
  born := h.born
  silent := by
    intro x hx
    rw [heard_snoc, h.silent x hx, ← h.manager]
    exact if_neg fun hmem => h.born x hmem hx

/-- A call for one session has its packet for it. -/
theorem send_accounted {past : List (JoiningAction σ τ)} {s : Joining σ τ} (h : Accounted past s)
    {t : τ} {session : σ} {Packet : Mem} (hidle : s.threads.calls t = none)
    (hlive : s.life session = .live) :
    Accounted (past ++ [.SendPacket t session Packet]) { s with
      threads := { s.threads with
        calls := Function.update s.threads.calls t (some { sends := [(session, Packet)] }) } } where
  counted := by
    intro x
    rw [heard_snoc, ← h.manager]
    apply begin_counted (h.counted x) hidle
    show issued (if session = x then _ else _) = _
    by_cases hx : session = x
    · rw [if_pos hx, hx, KeyedLog.values_cons_self]
      rfl
    · rw [if_neg hx, KeyedLog.values_cons_ne hx]
      rfl
  manager := by
    rw [List.foldl_append]
    exact h.manager
  nodup := h.nodup
  born := h.born
  silent := by
    intro x hx
    rw [heard_snoc, h.silent x hx]
    apply if_neg
    rintro rfl
    change s.life session = .unborn at hx
    rw [hlive] at hx
    cases hx

/-- A section of a call, and its return, are addressed to nobody. -/
theorem section_accounted {past : List (JoiningAction σ τ)} {s : Joining σ τ} (h : Accounted past s)
    {a : JoiningAction σ τ} {b : BroadcastAction τ} {threads : Broadcasting σ τ} {sharing : Finset τ}
    (hstep : Broadcasting.step s.manager s.threads b = some threads)
    (hab : (∃ t, a = .copy t ∧ b = .copy t) ∨ (∃ t, a = .post t ∧ b = .post t)
      ∨ ∃ t, a = .ret t ∧ b = .ret t) :
    Accounted (past ++ [a]) { s with threads := threads, sharing := sharing } := by
  have hsilent : ∀ x (m : SessionManager σ), addressed x m a = [] := by
    intro x m
    rcases hab with ⟨t, rfl, -⟩ | ⟨t, rfl, -⟩ | ⟨t, rfl, -⟩ <;> rfl
  have hregistry : ∀ m : SessionManager σ, registry m a = m := by
    intro m
    rcases hab with ⟨t, rfl, -⟩ | ⟨t, rfl, -⟩ | ⟨t, rfl, -⟩ <;> rfl
  have hissued : issued [b] = [] := by
    rcases hab with ⟨t, -, rfl⟩ | ⟨t, -, rfl⟩ | ⟨t, -, rfl⟩ <;> rfl
  refine ⟨fun x => ?_, ?_, h.nodup, h.born, fun x hx => ?_⟩
  · rw [heard_quiet x (hsilent x)]
    have honly : Broadcasting.step (only x) s.threads b = some threads := by
      rw [← hstep]
      rcases hab with ⟨t, -, rfl⟩ | ⟨t, -, rfl⟩ | ⟨t, -, rfl⟩ <;> rfl
    have hcounted := Broadcasting.step_counted (List.nodup_singleton x) (h.counted x) honly
    exact counted_congr hcounted (Broadcasting.issued_silent _ hissued).symm
  · rw [List.foldl_append, ← h.manager]
    exact (hregistry s.manager).symm
  · rw [heard_quiet x (hsilent x)]
    exact h.silent x hx

/-- **One step** keeps the account. -/
theorem step_accounted {past : List (JoiningAction σ τ)} {s s' : Joining σ τ} {a : JoiningAction σ τ}
    (h : Accounted past s) (hstep : step s a = some s') : Accounted (past ++ [a]) s' := by
  rcases step_cases hstep with ⟨session, Data, rfl, hnew, rfl⟩ | ⟨session, manager, rfl, hclose, rfl⟩ |
    ⟨t, Msg, rfl, hidle, rfl⟩ | ⟨t, session, Packet, rfl, hidle, hlive, rfl⟩ |
    ⟨b, threads, sharing, hsection, hab, rfl⟩
  · exact add_accounted h hnew
  · exact close_accounted h hclose
  · exact broadcast_accounted h hidle
  · exact send_accounted h hidle hlive
  · exact section_accounted h hsection hab

/-! ## §5. Whole runs. -/

theorem accounted_of_run {as : List (JoiningAction σ τ)} {s : Joining σ τ}
    (hrun : StepMachine.run step start as = some s) : Accounted as s := by
  apply StepMachine.run_history (P := Accounted) accounted_start ?_ hrun
  intro past s a s' _ haccounted hstep
  exact step_accounted haccounted hstep

/-- Nobody is at a session, or has it ahead. -/
def Quiet (s : Joining σ τ) (x : σ) : Prop :=
  ∀ t, ∀ c ∈ s.threads.calls t, ∀ p ∈ c.sends, p.1 ≠ x

omit [DecidableEq τ] in
/-- Nobody has anything left for a session that is quiet. -/
theorem Quiet.left {s : Joining σ τ} {x : σ} (h : s.Quiet x) (t : τ) :
    left s.threads.calls t x = [] := by
  unfold Broadcasting.left
  cases hcall : s.threads.calls t with
  | none => rfl
  | some c =>
      rw [Option.elim_some, List.map_eq_nil_iff, List.eq_nil_iff_forall_not_mem]
      intro Packet hPacket
      have hmem : (x, Packet) ∈ c.sends := by
        have hcopy := KeyedLog.mem_values.mp hPacket
        unfold BroadcastCall.toCopy at hcopy
        split at hcopy
        · exact List.mem_of_mem_tail hcopy
        · exact hcopy
      exact h t c hcall (x, Packet) hmem rfl

/-- What a thread has copied to a session, and what it has left for it. -/
theorem Accounted.sent {past : List (JoiningAction σ τ)} {s : Joining σ τ} (h : Accounted past s)
    (x : σ) (t : τ) : values t (s.threads.side x).copied ++ left s.threads.calls t x
      = values t (issued (heard x {} past)) :=
  (h.counted x).sent x (List.mem_singleton.mpr rfl) t

/-- **A session that is quiet** has been posted all that was copied to it, and that is what was
addressed to it. -/
theorem Accounted.flushed {past : List (JoiningAction σ τ)} {s : Joining σ τ} (h : Accounted past s)
    {x : σ} (hquiet : s.Quiet x) :
    (s.threads.side x).posted = WriteBuffer.letters (s.threads.side x).copied
      ∧ (s.threads.side x).io.unsent = []
      ∧ KeyedLog.Merges (s.threads.side x).copied (issued (heard x {} past)) := by
  have hcounted := h.counted x
  have hidle : ∀ t, (s.threads.side x).buffer.waiting t = none := by
    intro t
    by_contra hbusy
    obtain ⟨Packet, rest, hcall⟩ := hcounted.inside x t hbusy
    exact hquiet t _ hcall (x, Packet) List.mem_cons_self rfl
  obtain ⟨hposted, hunsent⟩ := (hcounted.ordered x).all_flushed (hcounted.attended x) hidle
  refine ⟨hposted, hunsent, fun t => ?_⟩
  -- nobody has anything left for it, so what has been copied is all
  have hone := h.sent x t
  rw [hquiet.left t, List.append_nil] at hone
  exact hone

theorem Accounted.merge {past : List (JoiningAction σ τ)} {s : Joining σ τ} (h : Accounted past s)
    {x : σ} (hquiet : s.Quiet x) : IsMerge (issued (heard x {} past)) (s.threads.side x).posted
      ∧ (s.threads.side x).io.unsent = [] := by
  obtain ⟨hposted, hunsent, hmerges⟩ := h.flushed hquiet
  exact ⟨⟨_, hposted, hmerges.perm, hmerges⟩, hunsent⟩

omit [DecidableEq τ] in
/-- While nothing is closed, every broadcast is addressed to a registered session. -/
theorem heard_registered {x : σ} {m : SessionManager σ} {as : List (JoiningAction σ τ)}
    (hx : x ∈ m.Sessions) (hopen : ∀ session, .CloseSession session ∉ as) :
    heard x m as = as.flatMap (addressed x (only x)) := by
  induction as generalizing m with
  | nil => rfl
  | cons a as ih =>
      have hsame : addressed x m a = addressed x (only x) a ∧ x ∈ (registry m a).Sessions := by
        cases a with
        | AddSession session Data => exact ⟨rfl, List.mem_append_left _ hx⟩
        | CloseSession session => exact absurd List.mem_cons_self (hopen session)
        | AllMessage t Msg =>
            refine ⟨?_, hx⟩
            show (if x ∈ m.Sessions then _ else _) = if x ∈ [x] then _ else _
            rw [if_pos hx, if_pos (List.mem_singleton.mpr rfl)]
        | SendPacket t session Packet => exact ⟨rfl, hx⟩
        | copy t => exact ⟨rfl, hx⟩
        | post t => exact ⟨rfl, hx⟩
        | ret t => exact ⟨rfl, hx⟩
      rw [List.flatMap_cons, ← hsame.1, ← ih hsame.2 fun session hmem =>
        hopen session (List.mem_cons_of_mem _ hmem)]
      rfl

/-- **A session that comes late** has heard nothing before, and hears every broadcast since. -/
theorem heard_late {x : σ} {Data : Mem} {before after : List (JoiningAction σ τ)} {s : Joining σ τ}
    (hrun : StepMachine.run step start (before ++ .AddSession x Data :: after) = some s)
    (hopen : ∀ session, .CloseSession session ∉ after) :
    heard x {} (before ++ .AddSession x Data :: after) = after.flatMap (addressed x (only x)) := by
  obtain ⟨s₁, hbefore, hrest⟩ := (StepMachine.run_append_eq_some _ _).mp hrun
  obtain ⟨s₂, hadd, -⟩ := StepMachine.run_cons_eq_some.mp hrest
  have h := accounted_of_run hbefore
  simp only [step, Option.ite_none_right_eq_some] at hadd
  have hsilent := h.silent x hadd.1.2
  rw [heard_append, hsilent, List.nil_append]
  show heard x ((before.foldl registry {}).AddSession x) after = _
  exact heard_registered (List.mem_append_right _ (List.mem_singleton.mpr rfl)) hopen

/-- **Sessions hear what is addressed to them.**  For every interleaving of accepts, closes, broadcasts
and calls of `SendPacket`, by any threads: what has been posted to a session and what is unsent
are packets in which each thread's are, in its order and from the first on, those addressed to
it, the broadcasts issued while it was registered and the calls of its own `SendPacket`; and
whenever nobody is at the session or has it ahead, all of them have been posted.  Since a session
has come, and while none is closed, these are all broadcasts, and the calls of its own. -/
theorem joined_hear (as : List (JoiningAction σ τ)) (s : Joining σ τ)
    (hrun : StepMachine.run step start as = some s) (x : σ) :
    (∃ log, (s.threads.side x).posted ++ (s.threads.side x).io.unsent = WriteBuffer.letters log
        ∧ ∀ t, values t log <+: values t (issued (heard x {} as)))
      ∧ (s.Quiet x → IsMerge (issued (heard x {} as)) (s.threads.side x).posted
        ∧ (s.threads.side x).io.unsent = [])
      ∧ ∀ before after Data, as = before ++ .AddSession x Data :: after →
        (∀ session, .CloseSession session ∉ after) →
        heard x {} as = after.flatMap (addressed x (only x)) := by
  have h := accounted_of_run hrun
  refine ⟨⟨(s.threads.side x).copied, ((h.counted x).ordered x).order, fun t => ⟨_, h.sent x t⟩⟩,
    h.merge, ?_⟩
  intro before after Data has hopen
  subst has
  exact heard_late hrun hopen

/-- Session 2 comes between two broadcasts, and is sent a reply beside the second one. -/
def oneLate : List (JoiningAction Nat Bool) :=
  [.AddSession 1 (fun _ => 0), .AllMessage false Sending.headerPacket, .copy false, .post false,
    .ret false, .AddSession 2 (fun _ => 0), .AllMessage true Sending.headerPacket, .copy true,
    .SendPacket false 2 Sending.headerPacket, .post true, .copy true, .copy false, .post true,
    .post false, .ret true, .ret false]

theorem joined_hear_late :
    ∃ s : Joining Nat Bool, StepMachine.run step start oneLate = some s
      ∧ IsMerge [(true, packetBytes Sending.headerPacket), (false, packetBytes Sending.headerPacket)]
        (s.threads.side 2).posted := by
  have hend : (StepMachine.run step (start : Joining Nat Bool) oneLate).map
      (fun s => ((s.threads.calls false).isNone, (s.threads.calls true).isNone))
      = some (true, true) := by
    decide +kernel
  obtain ⟨s, hs, hidle⟩ := Option.map_eq_some_iff.mp hend
  rw [Prod.mk.injEq, Option.isNone_iff_eq_none, Option.isNone_iff_eq_none] at hidle
  have hquiet : s.Quiet 2 := by
    intro t c hc
    cases t with
    | false =>
        rw [hidle.1] at hc
        cases hc
    | true =>
        rw [hidle.2] at hc
        cases hc
  obtain ⟨-, hmerge, -⟩ := joined_hear oneLate s hs 2
  exact ⟨s, hs, (hmerge hquiet).1⟩

end Joining

end YServerCore
