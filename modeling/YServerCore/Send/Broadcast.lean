/-
  YServerCore.Send.Broadcast — concurrent broadcasts to a fixed set of sessions.

  `AllMessage` shares the registry's mutex, so several broadcasts walk the same vector at the same
  time and meet at each session in any order.  At a session each of them is a call of `SendPacket`:
  it copies its packet in one section and posts the buffer in another.  `WSASend` takes its bytes at
  the moment of the call here, and a copy that does not fit has no next state.

  Main results:
    * `step_counted` — every section keeps the account of what each thread has sent to a session.
    * `broadcasts_merge` — when all broadcasts have returned, each session has been sent a merge of
      the threads' packets.
-/
import YServerCore.Lib.KeyedLog
import YServerCore.Registry.SessionManager
import YServerCore.Send.SendPacket

namespace YServerCore

open ByteMemory (Mem)
open KeyedLog (values)

/-! ## §1. The sections of all broadcasts. -/

/-- A call of `AllMessage`: the calls of `SendPacket` it has left, and whether the first of them is
behind its first section. -/
structure BroadcastCall (σ : Type*) where
  sends : List (σ × Mem)
  copied : Bool := false

/-- The calls of `SendPacket` that have not copied their packet yet. -/
def BroadcastCall.toCopy {σ : Type*} (c : BroadcastCall σ) : List (σ × Mem) :=
  if c.copied then c.sends.tail else c.sends

/-- What the threads do. -/
inductive BroadcastAction (τ : Type*) where
  /-- `AllMessage(Msg)` is called, and shares the registry's mutex. -/
  | call (t : τ) (Msg : Mem)
  /-- The first section of the next `SendPacket`. -/
  | copy (t : τ)
  /-- Its second section, up to the return. -/
  | post (t : τ)
  /-- The loop is at its end, and `AllMessage` returns. -/
  | ret (t : τ)

/-- The write sides of the sessions, and the threads inside `AllMessage`. -/
structure Broadcasting (σ τ : Type*) where
  side : σ → Sending τ
  calls : τ → Option (BroadcastCall σ) := fun _ => none

namespace Broadcasting

variable {σ τ : Type*} [DecidableEq σ] [DecidableEq τ]

/-- Freshly accepted sessions. -/
def start (Data : σ → Mem) : Broadcasting σ τ where
  side := fun x => Sending.start (Data x)

/-- The packets of the broadcasts of a run with their threads, in the order they were issued. -/
def issued : List (BroadcastAction τ) → List (τ × List UInt8)
  | [] => []
  | .call t Msg :: as => (t, packetBytes Msg) :: issued as
  | .copy _ :: as => issued as
  | .post _ :: as => issued as
  | .ret _ :: as => issued as

/-- One section of one thread. -/
def step (m : SessionManager σ) (s : Broadcasting σ τ) : BroadcastAction τ → Option (Broadcasting σ τ)
  | .call t Msg =>
      match s.calls t with
      | none => some { s with calls := Function.update s.calls t (some { sends := m.AllMessage Msg }) }
      | some _ => none
  | .copy t =>
      match s.calls t with
      | some ⟨(session, Packet) :: rest, false⟩ =>
          ((s.side session).step (.copy t Packet)).map (fun io => {
            side := Function.update s.side session io
            calls := Function.update s.calls t (some ⟨(session, Packet) :: rest, true⟩) })
      | _ => none
  | .post t =>
      match s.calls t with
      | some ⟨(session, _) :: rest, true⟩ =>
          ((s.side session).step (.post t)).map (fun io => {
            side := Function.update s.side session io
            calls := Function.update s.calls t (some ⟨rest, false⟩) })
      | _ => none
  | .ret t =>
      match s.calls t with
      | some ⟨[], _⟩ => some { s with calls := Function.update s.calls t none }
      | _ => none

/-- **What one step does**: a broadcast starts or ends, or a section of its `SendPacket` is run. -/
theorem step_cases {m : SessionManager σ} {s s' : Broadcasting σ τ} {a : BroadcastAction τ}
    (h : step m s a = some s') :
    (∃ t Msg, a = .call t Msg ∧ s.calls t = none
        ∧ s' = { s with calls := Function.update s.calls t (some { sends := m.AllMessage Msg }) })
      ∨ (∃ t session Packet rest io, a = .copy t
        ∧ s.calls t = some ⟨(session, Packet) :: rest, false⟩
        ∧ (s.side session).step (.copy t Packet) = some io
        ∧ s' = {
            side := Function.update s.side session io
            calls := Function.update s.calls t (some ⟨(session, Packet) :: rest, true⟩) })
      ∨ (∃ t session Packet rest io, a = .post t
        ∧ s.calls t = some ⟨(session, Packet) :: rest, true⟩
        ∧ (s.side session).step (.post t) = some io
        ∧ s' = {
            side := Function.update s.side session io
            calls := Function.update s.calls t (some ⟨rest, false⟩) })
      ∨ ∃ t copied, a = .ret t ∧ s.calls t = some ⟨[], copied⟩
        ∧ s' = { s with calls := Function.update s.calls t none } := by
  cases a with
  | call t Msg =>
      simp only [step] at h
      split at h
      · next hidle => exact Or.inl ⟨t, Msg, rfl, hidle, (Option.some.inj h).symm⟩
      · exact absurd h (by simp)
  | copy t =>
      simp only [step] at h
      split at h
      · next session Packet rest hcall =>
          obtain ⟨io, hio, rfl⟩ := Option.map_eq_some_iff.mp h
          exact Or.inr (Or.inl ⟨t, session, Packet, rest, io, rfl, hcall, hio, rfl⟩)
      · exact absurd h (by simp)
  | post t =>
      simp only [step] at h
      split at h
      · next session Packet rest hcall =>
          obtain ⟨io, hio, rfl⟩ := Option.map_eq_some_iff.mp h
          exact Or.inr (Or.inr (Or.inl ⟨t, session, Packet, rest, io, rfl, hcall, hio, rfl⟩))
      · exact absurd h (by simp)
  | ret t =>
      simp only [step] at h
      split at h
      · next copied hcall =>
          exact Or.inr (Or.inr (Or.inr ⟨t, copied, rfl, hcall, (Option.some.inj h).symm⟩))
      · exact absurd h (by simp)

omit [DecidableEq σ] [DecidableEq τ] in
theorem issued_append (as bs : List (BroadcastAction τ)) :
    issued (as ++ bs) = issued as ++ issued bs := by
  induction as with
  | nil => rfl
  | cons a as ih =>
      cases a with
      | call t Msg => exact congrArg ((t, packetBytes Msg) :: ·) ih
      | copy t => exact ih
      | post t => exact ih
      | ret t => exact ih

omit [DecidableEq τ] in
/-- A section that issues nothing. -/
theorem issued_silent (past : List (BroadcastAction τ)) {a : BroadcastAction τ}
    (ha : issued [a] = []) : issued (past ++ [a]) = issued past := by
  rw [issued_append, ha, List.append_nil]

/-- The packets a thread has still to copy to a session. -/
def left (calls : τ → Option (BroadcastCall σ)) (t : τ) (x : σ) : List (List UInt8) :=
  ((calls t).elim [] (fun c => values x c.toCopy)).map packetBytes

theorem left_self (calls : τ → Option (BroadcastCall σ)) (t : τ) (c : Option (BroadcastCall σ)) (x : σ) :
    left (Function.update calls t c) t x = (c.elim [] (fun c => values x c.toCopy)).map packetBytes := by
  unfold left
  rw [Function.update_self]

theorem left_of_ne {t u : τ} (h : u ≠ t) (calls : τ → Option (BroadcastCall σ))
    (c : Option (BroadcastCall σ)) (x : σ) :
    left (Function.update calls t c) u x = left calls u x := by
  unfold left
  rw [Function.update_of_ne h]

/-- A call that has as much left for a session as the thread's last one changes nothing for it. -/
theorem left_update {calls : τ → Option (BroadcastCall σ)} {t : τ} {c : Option (BroadcastCall σ)} {x : σ}
    (h : c.elim [] (fun c => values x c.toCopy) = (calls t).elim [] (fun c => values x c.toCopy))
    (u : τ) : left (Function.update calls t c) u x = left calls u x := by
  by_cases hut : u = t
  · subst hut
    rw [left_self, h]
    rfl
  · exact left_of_ne hut _ _ _

/-- A broadcast calls `SendPacket` once for each session of the vector. -/
theorem values_AllMessage {m : SessionManager σ} (hnodup : m.Sessions.Nodup) {x : σ}
    (hx : x ∈ m.Sessions) (Msg : Mem) : values x (m.AllMessage Msg) = [Msg] := by
  unfold SessionManager.AllMessage
  generalize m.Sessions = Sessions at hnodup hx
  induction Sessions with
  | nil => exact absurd hx (by simp)
  | cons y ys ih =>
      rw [List.nodup_cons] at hnodup
      rw [List.map_cons]
      by_cases hxy : y = x
      · -- the session does not come again
        subst hxy
        rw [KeyedLog.values_cons_self]
        have hnone : values y (ys.map (fun Session => (Session, Msg))) = [] := by
          rw [List.eq_nil_iff_forall_not_mem]
          intro p hp
          obtain ⟨z, hz, hpz⟩ := List.mem_map.mp (KeyedLog.mem_values.mp hp)
          rw [Prod.mk.injEq] at hpz
          exact hnodup.1 (hpz.1 ▸ hz)
        rw [hnone]
      · rw [KeyedLog.values_cons_ne hxy]
        exact ih hnodup.2 ((List.mem_cons.mp hx).resolve_left fun h => hxy h.symm)

/-- **The account of a run**: each session's write side is in order; a thread between its two sections at
a session is inside its `SendPacket` for it; and what a thread has copied to a session, followed
by what it has left, is what it has issued. -/
structure Counted (m : SessionManager σ) (past : List (BroadcastAction τ)) (s : Broadcasting σ τ) :
    Prop where
  ordered : ∀ x, WriteBuffer.Ordered (s.side x).buffer
  attended : ∀ x, WriteBuffer.Attended (s.side x).buffer
  inside : ∀ x t, (s.side x).calls t ≠ none →
    ∃ Packet rest, s.calls t = some ⟨(x, Packet) :: rest, true⟩
  sent : ∀ x ∈ m.Sessions, ∀ t,
    values t (s.side x).copied ++ left s.calls t x = values t (issued past)

omit [DecidableEq σ] in
theorem counted_start (m : SessionManager σ) (Data : σ → Mem) [DecidableEq σ] :
    Counted m [] (start Data : Broadcasting σ τ) where
  ordered _ := WriteBuffer.ordered_init
  attended _ := Or.inl rfl
  inside _ _ h := absurd rfl h
  sent _ _ _ := rfl

/-- The write side of every session stays in order when a section runs on one of them. -/
theorem sides_step {s : Broadcasting σ τ} (hordered : ∀ x, WriteBuffer.Ordered (s.side x).buffer)
    (hattended : ∀ x, WriteBuffer.Attended (s.side x).buffer) {session : σ} {a : SendAction τ}
    {io : Sending τ} (hio : (s.side session).step a = some io) (x : σ) :
    WriteBuffer.Ordered (Function.update s.side session io x).buffer
      ∧ WriteBuffer.Attended (Function.update s.side session io x).buffer := by
  have hmove := Sending.step_refines hio
  by_cases hx : x = session
  · subst hx
    rw [Function.update_self]
    exact ⟨WriteBuffer.step_ordered (hordered x) hmove, WriteBuffer.step_attended hmove⟩
  · rw [Function.update_of_ne hx]
    exact ⟨hordered x, hattended x⟩

/-- A section of one thread leaves the other threads where they are, at every session. -/
theorem calls_of_ne {s : Broadcasting σ τ} {session : σ} {io : Sending τ} {t u : τ} (hut : u ≠ t)
    {k : Option Nat} (hcalls : io.calls = Function.update (s.side session).calls t k)
    (x : σ) : (Function.update s.side session io x).calls u = (s.side x).calls u := by
  by_cases hx : x = session
  · subst hx
    rw [Function.update_self, hcalls, Function.update_of_ne hut]
  · rw [Function.update_of_ne hx]

/-! ## §3. One section. -/

/-- A broadcast that starts has its packet left for every session. -/
theorem call_counted {m : SessionManager σ} (hnodup : m.Sessions.Nodup)
    {past : List (BroadcastAction τ)} {s : Broadcasting σ τ} (h : Counted m past s) {t : τ} {Msg : Mem}
    (hidle : s.calls t = none) :
    Counted m (past ++ [.call t Msg])
      { s with calls := Function.update s.calls t (some { sends := m.AllMessage Msg }) } where
  ordered := h.ordered
  attended := h.attended
  inside := by
    intro x u hu
    obtain ⟨Packet, rest, hcall⟩ := h.inside x u hu
    have hut : u ≠ t := by
      rintro rfl
      rw [hidle] at hcall
      exact absurd hcall (by simp)
    refine ⟨Packet, rest, ?_⟩
    show Function.update s.calls t _ u = _
    rw [Function.update_of_ne hut]
    exact hcall
  sent := by
    intro x hx u
    have hold := h.sent x hx u
    rw [issued_append, KeyedLog.values_append, ← hold]
    show _ ++ left (Function.update s.calls t _) u x = _ ++ values u [(t, packetBytes Msg)]
    by_cases hut : u = t
    · subst hut
      have hnone : left s.calls u x = [] := by
        unfold left
        rw [hidle]
        rfl
      rw [left_self, hnone, List.append_nil, KeyedLog.values_cons_self]
      show _ ++ (values x (m.AllMessage Msg)).map packetBytes = _
      rw [values_AllMessage hnodup hx]
      rfl
    · rw [left_of_ne hut, KeyedLog.values_cons_ne fun h => hut h.symm, KeyedLog.values_nil,
        List.append_nil]

/-- **A copy** moves its packet from what is left for the session to what has been copied to it. -/
theorem copy_counted {m : SessionManager σ} {past : List (BroadcastAction τ)} {s : Broadcasting σ τ}
    (h : Counted m past s) {t : τ} {session : σ} {Packet : Mem} {rest : List (σ × Mem)} {io : Sending τ}
    (hcall : s.calls t = some ⟨(session, Packet) :: rest, false⟩)
    (hio : (s.side session).step (.copy t Packet) = some io) :
    Counted m (past ++ [.copy t]) {
      side := Function.update s.side session io
      calls := Function.update s.calls t (some ⟨(session, Packet) :: rest, true⟩) } := by
  have hsides := sides_step h.ordered h.attended hio
  obtain ⟨hcopied, hcalls⟩ := Sending.step_copy hio
  refine ⟨fun x => (hsides x).1, fun x => (hsides x).2, fun x u hu => ?_, fun x hx u => ?_⟩
  · -- the thread itself is at this session now; another one is where it was
    by_cases hut : u = t
    · subst hut
      simp only [Function.update_self]
      by_cases hxs : x = session
      · exact ⟨Packet, rest, by rw [hxs]⟩
      · simp only [Function.update_of_ne hxs] at hu
        obtain ⟨Packet', rest', hcall'⟩ := h.inside x u hu
        rw [hcall] at hcall'
        exact absurd hcall' (by simp)
    · simp only [Function.update_of_ne hut]
      rw [calls_of_ne hut hcalls] at hu
      exact h.inside x u hu
  · have hold := h.sent x hx u
    rw [issued_silent past rfl, ← hold]
    by_cases hxs : x = session
    · -- here the packet goes from the one list into the other
      subst hxs
      simp only [Function.update_self]
      rw [hcopied, KeyedLog.values_append, List.append_assoc]
      by_cases hut : u = t
      · subst hut
        have hleft : left s.calls u x = packetBytes Packet :: (values x rest).map packetBytes := by
          unfold left
          rw [hcall]
          show (values x ((x, Packet) :: rest)).map packetBytes = _
          rw [KeyedLog.values_cons_self, List.map_cons]
        rw [left_self, hleft, KeyedLog.values_cons_self]
        rfl
      · rw [left_of_ne hut, KeyedLog.values_cons_ne fun h => hut h.symm]
        rfl
    · -- the packet it moves is for another session
      have hleft : values x rest = values x ((session, Packet) :: rest) :=
        (KeyedLog.values_cons_ne (fun h => hxs h.symm) _ _).symm
      simp only [Function.update_of_ne hxs]
      rw [left_update]
      rw [hcall]
      exact hleft

/-- A post takes its thread to the next session, and changes no account. -/
theorem post_counted {m : SessionManager σ} {past : List (BroadcastAction τ)} {s : Broadcasting σ τ}
    (h : Counted m past s) {t : τ} {session : σ} {Packet : Mem} {rest : List (σ × Mem)} {io : Sending τ}
    (hcall : s.calls t = some ⟨(session, Packet) :: rest, true⟩)
    (hio : (s.side session).step (.post t) = some io) :
    Counted m (past ++ [.post t]) {
      side := Function.update s.side session io
      calls := Function.update s.calls t (some ⟨rest, false⟩) } := by
  have hsides := sides_step h.ordered h.attended hio
  obtain ⟨hcopied, hcalls⟩ := Sending.step_post hio
  refine ⟨fun x => (hsides x).1, fun x => (hsides x).2, fun x u hu => ?_, fun x hx u => ?_⟩
  · by_cases hut : u = t
    · -- the thread was at this session, and has left it
      subst hut
      by_cases hxs : x = session
      · subst hxs
        simp only [Function.update_self] at hu
        rw [hcalls, Function.update_self] at hu
        exact absurd rfl hu
      · simp only [Function.update_of_ne hxs] at hu
        obtain ⟨Packet', rest', hcall'⟩ := h.inside x u hu
        rw [hcall, Option.some.injEq, BroadcastCall.mk.injEq, List.cons.injEq, Prod.mk.injEq] at hcall'
        exact absurd hcall'.1.1.1.symm hxs
    · simp only [Function.update_of_ne hut]
      rw [calls_of_ne hut hcalls] at hu
      exact h.inside x u hu
  · have hlog : (Function.update s.side session io x).copied = (s.side x).copied := by
      by_cases hxs : x = session
      · subst hxs
        rw [Function.update_self, hcopied]
      · rw [Function.update_of_ne hxs]
    have hleft : left (Function.update s.calls t (some ⟨rest, false⟩)) u x = left s.calls u x := by
      apply left_update
      rw [hcall]
      rfl
    have hold := h.sent x hx u
    rw [issued_silent past rfl, ← hold]
    show values u (Function.update s.side session io x).copied ++ _ = _
    rw [hlog, hleft]

/-- A broadcast that returns has nothing left. -/
theorem ret_counted {m : SessionManager σ} {past : List (BroadcastAction τ)} {s : Broadcasting σ τ}
    (h : Counted m past s) {t : τ} {copied : Bool} (hcall : s.calls t = some ⟨[], copied⟩) :
    Counted m (past ++ [.ret t]) { s with calls := Function.update s.calls t none } where
  ordered := h.ordered
  attended := h.attended
  inside := by
    intro x u hu
    obtain ⟨Packet, rest, hcall'⟩ := h.inside x u hu
    have hut : u ≠ t := by
      rintro rfl
      rw [hcall] at hcall'
      exact absurd hcall' (by simp)
    simp only [Function.update_of_ne hut]
    exact ⟨Packet, rest, hcall'⟩
  sent := by
    intro x hx u
    have hleft : left (Function.update s.calls t none) u x = left s.calls u x := by
      apply left_update
      rw [hcall]
      cases copied <;> rfl
    have hold := h.sent x hx u
    rw [issued_silent past rfl, ← hold]
    show _ ++ left (Function.update s.calls t none) u x = _
    rw [hleft]

/-- **One section** keeps the account. -/
theorem step_counted {m : SessionManager σ} (hnodup : m.Sessions.Nodup)
    {past : List (BroadcastAction τ)} {s s' : Broadcasting σ τ} {a : BroadcastAction τ}
    (h : Counted m past s) (hstep : step m s a = some s') : Counted m (past ++ [a]) s' := by
  rcases step_cases hstep with ⟨t, Msg, rfl, hidle, rfl⟩ |
    ⟨t, session, Packet, rest, io, rfl, hcall, hio, rfl⟩ |
    ⟨t, session, Packet, rest, io, rfl, hcall, hio, rfl⟩ | ⟨t, copied, rfl, hcall, rfl⟩
  · exact call_counted hnodup h hidle
  · exact copy_counted h hcall hio
  · exact post_counted h hcall hio
  · exact ret_counted h hcall

/-! ## §4. Whole runs. -/

/-- **A stream that is a merge of packet sequences**: whole packets one behind the other, which are the
issued ones, each as often as it was issued, and those of each thread in its order. -/
def IsMerge (packets : List (τ × List UInt8)) (bytes : List UInt8) : Prop :=
  ∃ log, bytes = WriteBuffer.letters log ∧ log.Perm packets ∧ KeyedLog.Merges log packets

/-- **Broadcasts reach every session whole and in each sender's order.**  For any registered sessions,
each of them once, any threads with any sequences of broadcasts and any interleaving of the
sections of their `SendPacket` calls: when all broadcasts have returned, what was posted to each
session is a merge of the packets the threads have issued, and nothing is unsent. -/
theorem broadcasts_merge (m : SessionManager σ) (hnodup : m.Sessions.Nodup) (Data : σ → Mem)
    (as : List (BroadcastAction τ)) (s : Broadcasting σ τ)
    (hrun : StepMachine.run (step m) (start Data) as = some s) (hdone : ∀ t, s.calls t = none) :
    ∀ x ∈ m.Sessions, IsMerge (issued as) (s.side x).posted ∧ (s.side x).io.unsent = [] := by
  have h : Counted m as s := by
    apply StepMachine.run_history (P := Counted m) (counted_start m Data) ?_ hrun
    intro past s a s' _ hcounted hstep
    exact step_counted hnodup hcounted hstep
  intro x hx
  -- nobody is between two sections
  have hidle : ∀ t, (s.side x).buffer.waiting t = none := by
    intro t
    by_contra hbusy
    obtain ⟨Packet, rest, hcall⟩ := h.inside x t hbusy
    rw [hdone t] at hcall
    exact absurd hcall (by simp)
  obtain ⟨hposted, hunsent⟩ := (h.ordered x).all_flushed (h.attended x) hidle
  -- nothing is left for anybody, so what has been copied is what was issued
  have hmerges : KeyedLog.Merges (s.side x).copied (issued as) := by
    intro t
    have hsent := h.sent x hx t
    unfold left at hsent
    rw [hdone t] at hsent
    exact (List.append_nil _).symm.trans hsent
  exact ⟨⟨(s.side x).copied, hposted, hmerges.perm, hmerges⟩, hunsent⟩

/-- The sessions 1 and 2. -/
def twoSessions : SessionManager Nat := (({} : SessionManager Nat).AddSession 1).AddSession 2

/-- Two broadcasts that overtake each other at both sessions. -/
def crossing : List (BroadcastAction Bool) :=
  [.call false Sending.headerPacket, .call true Sending.headerPacket, .copy true, .copy false,
    .post false, .copy false, .post true, .copy true, .post true, .post false, .ret true, .ret false]

theorem broadcasts_merge_crossing :
    ∃ s : Broadcasting Nat Bool,
      StepMachine.run (step twoSessions) (start (fun _ _ => 0)) crossing = some s
        ∧ IsMerge [(false, packetBytes Sending.headerPacket), (true, packetBytes Sending.headerPacket)]
          (s.side 2).posted := by
  have hend : (StepMachine.run (step twoSessions) (start (fun _ _ => 0) : Broadcasting Nat Bool)
      crossing).map (fun s => ((s.calls false).isNone, (s.calls true).isNone))
      = some (true, true) := by
    decide +kernel
  obtain ⟨s, hs, hidle⟩ := Option.map_eq_some_iff.mp hend
  rw [Prod.mk.injEq, Option.isNone_iff_eq_none, Option.isNone_iff_eq_none] at hidle
  have hdone : ∀ t, s.calls t = none := by
    intro t
    cases t with
    | false => exact hidle.1
    | true => exact hidle.2
  exact ⟨s, hs, (broadcasts_merge twoSessions (by decide) _ crossing s hs hdone 2 (by decide)).1⟩

end Broadcasting

end YServerCore
