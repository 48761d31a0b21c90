/-
  YServerCore.Server.Progress — the threads of the server's `main` come to their ends.

  A section of `SendPacket` holds its session's mutex from its first statement to its last, so it is
  there for the taking, unless the packet does not fit and the call starts over with the mutex held.
  Where all threads together have fewer bytes than a buffer holds, every packet fits, whatever the
  threads do.

  Main results:
    * `fits_step` — what is in a buffer is of the threads between their sections at its session.
    * `section_enabled` — then a thread in a call can take its next section.
    * `threads_finish` — each of the four threads is done after a fixed number of its own steps, and can
      take the next one until then.
-/
import Mathlib.Data.Fintype.Option
import YServerCore.Server.Main

namespace YServerCore

open ByteMemory (Mem word32)

/-! ## §1. Room for all threads. -/

namespace Broadcasting

variable {σ τ : Type*} [DecidableEq σ] [DecidableEq τ] [Fintype τ]

/-- The packets of a call have this size, and it is behind a first section only if it has a packet. -/
def Sized (size : Nat) (c : BroadcastCall σ) : Prop :=
  (∀ p ∈ c.sends, word32 p.2 4 = size) ∧ (c.copied = true → c.sends ≠ [])

/-- The call is between its two sections at a session. -/
def Between (x : σ) (c : Option (BroadcastCall σ)) : Prop :=
  ∃ Packet rest, c = some ⟨(x, Packet) :: rest, true⟩

/-- The threads between their two sections at a session. -/
def between (s : Broadcasting σ τ) (x : σ) : Finset τ :=
  Finset.univ.filter (fun t => ((s.side x).calls t).isSome = true)

/-- **What is in the buffers**: all packets have this size, the bytes in a buffer are of threads between
their two sections at its session, which are those whose calls say so. -/
structure Fits (size : Nat) (s : Broadcasting σ τ) : Prop where
  sized : ∀ t c, s.calls t = some c → Sized size c
  room : ∀ x, (s.side x).io.CurBytes ≤ size * (s.between x).card
  place : ∀ x t, (s.side x).calls t ≠ none ↔ Between x (s.calls t)

omit [DecidableEq σ] [DecidableEq τ] in
theorem fits_start (size : Nat) (Data : σ → Mem) : Fits size (start Data : Broadcasting σ τ) where
  sized t c hc := absurd hc (by simp [start])
  room x := Nat.zero_le _
  place x t := by simp [start, Sending.start, Between]

variable {m : SessionManager σ} {size : Nat} {s s' : Broadcasting σ τ}

omit [DecidableEq σ] [Fintype τ] in
/-- One call that changes, and stays sized. -/
theorem sized_update (h : ∀ t c, s.calls t = some c → Sized size c) (t : τ)
    {c : Option (BroadcastCall σ)} (hc : ∀ d ∈ c, Sized size d) :
    ∀ u d, Function.update s.calls t c u = some d → Sized size d := by
  intro u d hd
  by_cases hut : u = t
  · subst hut
    rw [Function.update_self] at hd
    exact hc d hd
  · rw [Function.update_of_ne hut] at hd
    exact h u d hd

omit [DecidableEq τ] in
/-- The threads at a session are those of its write side. -/
theorem between_of_ne {session x : σ} (hx : x ≠ session) (io : Sending τ)
    (calls : τ → Option (BroadcastCall σ)) :
    between { side := Function.update s.side session io, calls := calls } x = s.between x := by
  unfold between
  simp only [Function.update_of_ne hx]

/-- A section at one session, with its thread in or out there afterwards. -/
theorem place_section (h : Fits size s) {t : τ} {session : σ} {io : Sending τ} {k : Option Nat}
    {c : Option (BroadcastCall σ)} (hio : io.calls = Function.update (s.side session).calls t k)
    (hk : k ≠ none ↔ Between session c) (hout : ∀ x ≠ session, ¬ Between x (s.calls t) ∧ ¬ Between x c)
    (x : σ) (u : τ) : (Function.update s.side session io x).calls u ≠ none
      ↔ Between x (Function.update s.calls t c u) := by
  by_cases hx : x = session
  · subst hx
    rw [Function.update_self, hio]
    by_cases hut : u = t
    · subst hut
      rw [Function.update_self, Function.update_self]
      exact hk
    · rw [Function.update_of_ne hut, Function.update_of_ne hut]
      exact h.place x u
  · rw [Function.update_of_ne hx, h.place x u]
    by_cases hut : u = t
    · subst hut
      rw [Function.update_self]
      exact iff_of_false (hout x hx).1 (hout x hx).2
    · rw [Function.update_of_ne hut]

omit [DecidableEq σ] in
/-- A call that starts or ends is at no session. -/
theorem place_outside (h : Fits size s) {t : τ} {c : Option (BroadcastCall σ)}
    (hbefore : ∀ x, ¬ Between x (s.calls t)) (hafter : ∀ x, ¬ Between x c) (x : σ) (u : τ) :
    (s.side x).calls u ≠ none ↔ Between x (Function.update s.calls t c u) := by
  rw [h.place x u]
  by_cases hut : u = t
  · subst hut
    rw [Function.update_self]
    exact iff_of_false (hbefore x) (hafter x)
  · rw [Function.update_of_ne hut]

omit [DecidableEq σ] [DecidableEq τ] [Fintype τ] in
/-- A call in front of a first section is at no session, nor is a thread in no call. -/
theorem not_between {x : σ} {c : Option (BroadcastCall σ)}
    (h : ∀ d ∈ c, d.copied = true → d.sends = []) : ¬ Between x c := by
  rintro ⟨Packet, rest, rfl⟩
  exact absurd (h _ rfl rfl) (by simp)

omit [DecidableEq σ] in
/-- A call that starts has nothing in a buffer. -/
theorem fits_call (h : Fits size s) {t : τ} {Msg : Mem} (hMsg : word32 Msg 4 = size)
    (hidle : s.calls t = none) :
    Fits size { s with calls := Function.update s.calls t (some { sends := m.AllMessage Msg }) } where
  sized := by
    apply sized_update h.sized
    intro d hd
    rw [← Option.some.inj hd]
    refine ⟨fun p hp => ?_, fun hcopied => by cases hcopied⟩
    obtain ⟨x, -, rfl⟩ := List.mem_map.mp hp
    exact hMsg
  room := h.room
  place := by
    apply place_outside h
    · intro x
      rw [hidle]
      exact not_between (by simp)
    · exact fun x => not_between (by simp)

/-- **A copy** puts its packet's bytes into one buffer, and its thread between its sections there. -/
theorem fits_copy (h : Fits size s) {t : τ} {session : σ} {Packet : Mem} {rest : List (σ × Mem)}
    {io : Sending τ} (hcall : s.calls t = some ⟨(session, Packet) :: rest, false⟩)
    (hio : (s.side session).step (.copy t Packet) = some io) :
    Fits size {
      side := Function.update s.side session io
      calls := Function.update s.calls t (some ⟨(session, Packet) :: rest, true⟩) } := by
  have hsized := h.sized t _ hcall
  have hsize : word32 Packet 4 = size := hsized.1 (session, Packet) List.mem_cons_self
  have hcalls := (Sending.step_copy hio).2
  have hbytes : io.io.CurBytes = (s.side session).io.CurBytes + size ∧ (s.side session).calls t = none := by
    rcases Sending.step_cases hio with ⟨t', Packet', io', ha, hidle, hcopy, rfl⟩ | ⟨t', k, ha, -⟩
    · rw [SendAction.copy.injEq] at ha
      obtain ⟨rfl, rfl⟩ := ha
      rw [← hsize]
      exact ⟨(ST_IOData.copyPacket_spec hcopy).2.2.1, hidle⟩
    · exact absurd ha (by simp)
  refine ⟨?_, fun x => ?_, ?_⟩
  · apply sized_update h.sized
    intro d hd
    rw [← Option.some.inj hd]
    exact ⟨hsized.1, fun _ => by simp⟩
  · by_cases hx : x = session
    · subst hx
      -- the thread was not there before
      have hnew : t ∉ s.between x := by
        unfold between
        rw [Finset.mem_filter, hbytes.2]
        simp
      have hinsert : between { side := Function.update s.side x io
                               calls := Function.update s.calls t (some ⟨(x, Packet) :: rest, true⟩) } x
          = insert t (s.between x) := by
        ext u
        unfold between
        simp only [Function.update_self, hcalls, Finset.mem_filter, Finset.mem_univ, true_and,
          Finset.mem_insert]
        by_cases hut : u = t
        · subst hut
          simp
        · simp [hut]
      rw [hinsert, Finset.card_insert_of_notMem hnew]
      show (Function.update s.side x io x).io.CurBytes ≤ _
      rw [Function.update_self, hbytes.1, Nat.mul_succ]
      exact Nat.add_le_add_right (h.room x) size
    · rw [between_of_ne hx]
      show (Function.update s.side session io x).io.CurBytes ≤ _
      rw [Function.update_of_ne hx]
      exact h.room x
  · refine place_section h hcalls (iff_of_true (by simp) ⟨Packet, rest, rfl⟩) fun x hx => ⟨?_, ?_⟩
    · rintro ⟨Packet', rest', hcall'⟩
      rw [hcall] at hcall'
      cases hcall'
    · rintro ⟨Packet', rest', hcall'⟩
      cases hcall'
      exact hx rfl

/-- **A post** empties its buffer. -/
theorem fits_post (h : Fits size s) {t : τ} {session : σ} {Packet : Mem} {rest : List (σ × Mem)}
    {io : Sending τ} (hcall : s.calls t = some ⟨(session, Packet) :: rest, true⟩)
    (hio : (s.side session).step (.post t) = some io) :
    Fits size {
      side := Function.update s.side session io
      calls := Function.update s.calls t (some ⟨rest, false⟩) } := by
  have hsized := h.sized t _ hcall
  have hcalls := (Sending.step_post hio).2
  have hempty : io.io.CurBytes = 0 := by
    rcases Sending.step_cases hio with ⟨t', Packet', io', ha, -⟩ | ⟨t', k, -, -, rfl⟩
    · exact absurd ha (by simp)
    · rfl
  refine ⟨?_, fun x => ?_, ?_⟩
  · apply sized_update h.sized
    intro d hd
    rw [← Option.some.inj hd]
    refine ⟨fun p hp => hsized.1 p (List.mem_cons_of_mem _ hp), fun hcopied => by cases hcopied⟩
  · by_cases hx : x = session
    · subst hx
      show (Function.update s.side x io x).io.CurBytes ≤ _
      rw [Function.update_self, hempty]
      exact Nat.zero_le _
    · rw [between_of_ne hx]
      show (Function.update s.side session io x).io.CurBytes ≤ _
      rw [Function.update_of_ne hx]
      exact h.room x
  · refine place_section h hcalls (iff_of_false (by simp) (not_between (by simp))) fun x hx =>
      ⟨?_, not_between (by simp)⟩
    rintro ⟨Packet', rest', hcall'⟩
    rw [hcall] at hcall'
    cases hcall'
    exact hx rfl

omit [DecidableEq σ] in
/-- A return is of a call that has nothing left. -/
theorem fits_ret (h : Fits size s) {t : τ} {copied : Bool} (hcall : s.calls t = some ⟨[], copied⟩) :
    Fits size { s with calls := Function.update s.calls t none } where
  sized := sized_update h.sized t (by simp)
  room := h.room
  place := by
    apply place_outside h
    · intro x
      rw [hcall]
      exact not_between (by simp)
    · exact fun x => not_between (by simp)

/-- **One step** keeps what is in the buffers, if its packet has the size. -/
theorem fits_step (h : Fits size s) {a : BroadcastAction τ}
    (ha : ∀ t Msg, a = .call t Msg → word32 Msg 4 = size) (hstep : step m s a = some s') :
    Fits size s' := by
  rcases step_cases hstep with ⟨t, Msg, rfl, hidle, rfl⟩ |
    ⟨t, session, Packet, rest, io, rfl, hcall, hio, rfl⟩ |
    ⟨t, session, Packet, rest, io, rfl, hcall, hio, rfl⟩ | ⟨t, copied, rfl, hcall, rfl⟩
  · exact fits_call h (ha t Msg rfl) hidle
  · exact fits_copy h hcall hio
  · exact fits_post h hcall hio
  · exact fits_ret h hcall

/-! ## §2. The next section. -/

/-- The sections that are left of a call, with its return. -/
def ahead (c : Option (BroadcastCall σ)) : Nat :=
  c.elim 0 (fun c => 2 * c.toCopy.length + (if c.copied then 1 else 0) + 1)

/-- The thread of a step. -/
def thread : BroadcastAction τ → τ
  | .call t _ => t
  | .copy t => t
  | .post t => t
  | .ret t => t

omit [Fintype τ] in
/-- **A section** is one of those its thread has ahead. -/
theorem ahead_step (hsized : ∀ t c, s.calls t = some c → Sized size c) {a : BroadcastAction τ}
    (hstep : step m s a = some s') (ha : ∀ t Msg, a ≠ .call t Msg) :
    ahead (s'.calls (thread a)) + 1 = ahead (s.calls (thread a))
      ∧ ∀ t ≠ thread a, s'.calls t = s.calls t := by
  rcases step_cases hstep with ⟨t, Msg, rfl, hidle, rfl⟩ |
    ⟨t, session, Packet, rest, io, rfl, hcall, hio, rfl⟩ |
    ⟨t, session, Packet, rest, io, rfl, hcall, hio, rfl⟩ | ⟨t, copied, rfl, hcall, rfl⟩
  · exact absurd rfl (ha t Msg)
  · refine ⟨?_, fun u hu => Function.update_of_ne hu _ _⟩
    simp only [thread, Function.update_self, hcall]
    simp [ahead, BroadcastCall.toCopy]
    omega
  · refine ⟨?_, fun u hu => Function.update_of_ne hu _ _⟩
    simp only [thread, Function.update_self, hcall]
    simp [ahead, BroadcastCall.toCopy]
  · refine ⟨?_, fun u hu => Function.update_of_ne hu _ _⟩
    have hnot : copied = false := by
      cases copied with
      | false => rfl
      | true => exact absurd rfl ((hsized t _ hcall).2 rfl)
    simp only [thread, Function.update_self, hcall, hnot]
    simp [ahead, BroadcastCall.toCopy]

/-- **The next section** of a call can be taken, if the threads together have fewer bytes than a buffer
holds. -/
theorem section_enabled (h : Fits size s) (hfew : size * Fintype.card τ ≤ BUF_SIZE) {t : τ}
    (hcall : s.calls t ≠ none) :
    ∃ a s', thread a = t ∧ (∀ u Msg, a ≠ .call u Msg) ∧ step m s a = some s' := by
  obtain ⟨⟨sends, copied⟩, hc⟩ := Option.ne_none_iff_exists'.mp hcall
  have hsized := h.sized t _ hc
  cases copied with
  | true =>
      cases sends with
      | nil => exact absurd rfl (hsized.2 rfl)
      | cons p rest =>
          obtain ⟨session, Packet⟩ := p
          have hin : (s.side session).calls t ≠ none := (h.place session t).mpr (hc ▸ ⟨Packet, rest, rfl⟩)
          obtain ⟨k, hk⟩ := Option.ne_none_iff_exists'.mp hin
          refine ⟨.post t, ?_⟩
          simp [thread, step, hc, Sending.step, hk]
  | false =>
      cases sends with
      | nil =>
          refine ⟨.ret t, ?_⟩
          simp [thread, step, hc]
      | cons p rest =>
          obtain ⟨session, Packet⟩ := p
          have hout : (s.side session).calls t = none := by
            by_contra hin
            obtain ⟨Packet', rest', heq⟩ := (h.place session t).mp hin
            rw [hc] at heq
            cases heq
          -- the thread itself has nothing in the buffer
          have hless : (s.between session).card < Fintype.card τ := by
            apply Finset.card_lt_univ_of_notMem (x := t)
            unfold between
            rw [Finset.mem_filter, hout]
            simp
          have hroom : (s.side session).io.CurBytes + size ≤ BUF_SIZE := by
            have hone := h.room session
            have htwo : size * ((s.between session).card + 1) ≤ size * Fintype.card τ :=
              Nat.mul_le_mul_left size hless
            rw [Nat.mul_succ] at htwo
            omega
          have hcopy : ∃ io, (s.side session).io.copyPacket Packet = some io := by
            unfold ST_IOData.copyPacket
            rw [hsized.1 (session, Packet) List.mem_cons_self, if_neg (by omega)]
            exact ⟨_, rfl⟩
          obtain ⟨io, hio⟩ := hcopy
          refine ⟨.copy t, ?_⟩
          simp [thread, step, hc, Sending.step, hout, hio]

end Broadcasting

/-! ## §3. The four threads. -/

namespace ServerMain

variable {σ : Type*} [DecidableEq σ] {reg : SessionManager σ} {s s' : ServerMain σ}

/-- The thread of a step. -/
def thread : MainAction → MainThread
  | .send n _ => some n
  | .line _ _ _ => none
  | .copy t => t
  | .post t => t
  | .ret t => t

/-- The steps of one of the four threads. -/
def stepsOf (n : Fin 4) (as : List MainAction) : Nat := as.countP (fun a => thread a = some n)

/-- The steps of a turn of `Send`: its call, two sections for each session, and its return. -/
def turnSteps (reg : SessionManager σ) : Nat := 2 * reg.Sessions.length + 2

/-- The steps one of the four threads has ahead. -/
def ahead (reg : SessionManager σ) (s : ServerMain σ) (n : Fin 4) : Nat :=
  (500 - s.i n) * turnSteps reg + Broadcasting.ahead (s.threads.calls (some n))

/-- Every packet of `main` claims the size of its object. -/
theorem chatMessage_size {m : MessageMemory} {Msg : List UInt8} {Packet : Mem}
    (h : chatMessage m Msg = some Packet) : word32 Packet 4 = ST_ChatMessage.sizeof := by
  obtain ⟨f, htype, hbytes, -⟩ := chatMessage_spec h
  rw [← length_packetBytes, ← hbytes, f.length_eq, htype]
  rfl

/-- **The account of the steps**: the steps each thread has made and those it has ahead are always as
many. -/
structure Paced (reg : SessionManager σ) (past : List MainAction) (s : ServerMain σ) : Prop where
  fits : Broadcasting.Fits ST_ChatMessage.sizeof s.threads
  turns : ∀ n, s.i n ≤ 500
  steps : ∀ n, stepsOf n past + ahead reg s n = 500 * turnSteps reg

omit [DecidableEq σ] in
theorem paced_start (reg : SessionManager σ) (Data : σ → Mem) (stdin : List UInt8) :
    Paced reg [] (start Data stdin) where
  fits := Broadcasting.fits_start _ Data
  turns _ := Nat.zero_le _
  steps n := by
    show 0 + ((500 - 0) * turnSteps reg + 0) = _
    omega

/-- A step more. -/
theorem stepsOf_snoc (n : Fin 4) (past : List MainAction) (a : MainAction) :
    stepsOf n (past ++ [a]) = stepsOf n past + if thread a = some n then 1 else 0 := by
  unfold stepsOf
  rw [List.countP_append, List.countP_singleton]
  simp

/-- **A turn of `Send`** begins. -/
theorem paced_send {past : List MainAction} (h : Paced reg past s) {n : Fin 4} {m : MessageMemory}
    (hstep : step reg s (.send n m) = some s') : Paced reg (past ++ [.send n m]) s' := by
  simp only [step, Option.ite_none_right_eq_some] at hstep
  obtain ⟨hless, hbind⟩ := hstep
  obtain ⟨Packet, hPacket, hmap⟩ := Option.bind_eq_some_iff.mp hbind
  obtain ⟨threads, hcall, rfl⟩ := Option.map_eq_some_iff.mp hmap
  have hfits := Broadcasting.fits_step h.fits (fun t Msg ha => by
    rw [BroadcastAction.call.injEq] at ha
    exact ha.2 ▸ chatMessage_size hPacket) hcall
  obtain ⟨hidle, rfl⟩ := call_eq_some hcall
  refine ⟨hfits, fun k => ?_, fun k => ?_⟩
  · show Function.update s.i n (s.i n + 1) k ≤ 500
    by_cases hk : k = n
    · subst hk
      rw [Function.update_self]
      omega
    · rw [Function.update_of_ne hk]
      exact h.turns k
  · have hold := h.steps k
    rw [stepsOf_snoc]
    show _ + ((500 - Function.update s.i n (s.i n + 1) k) * turnSteps reg
      + Broadcasting.ahead (Function.update s.threads.calls (some n) _ (some k))) = _
    by_cases hk : k = n
    · subst hk
      have hturn : (500 - s.i k) * turnSteps reg = (500 - (s.i k + 1)) * turnSteps reg + turnSteps reg := by
        rw [← Nat.succ_mul]
        congr 1
        omega
      have hahead : Broadcasting.ahead (some ({ sends := reg.AllMessage Packet } : BroadcastCall σ)) + 1
          = turnSteps reg := by
        simp [Broadcasting.ahead, BroadcastCall.toCopy, SessionManager.AllMessage, turnSteps]
      unfold ahead at hold
      rw [hidle, hturn] at hold
      rw [Function.update_self, Function.update_self, if_pos (show thread (.send k m) = some k from rfl)]
      change _ + (_ + 0) = _ at hold
      omega
    · have hne : thread (.send n m) ≠ some k := fun heq => hk (Option.some.inj heq).symm
      rw [Function.update_of_ne hk, Function.update_of_ne (fun heq => hk (Option.some.inj heq)),
        if_neg hne]
      exact hold

/-- A turn of the loop of `main` is none of theirs. -/
theorem paced_line {past : List MainAction} (h : Paced reg past s) {m : MessageMemory}
    {Msg : CharArray MAX_CHAT_SIZE} {behind : List UInt8}
    (hstep : step reg s (.line m Msg behind) = some s') :
    Paced reg (past ++ [.line m Msg behind]) s' := by
  simp only [step, Option.ite_none_right_eq_some] at hstep
  obtain ⟨-, hbind⟩ := hstep
  obtain ⟨Packet, hPacket, hmap⟩ := Option.bind_eq_some_iff.mp hbind
  obtain ⟨threads, hcall, rfl⟩ := Option.map_eq_some_iff.mp hmap
  have hfits := Broadcasting.fits_step h.fits (fun t Msg ha => by
    rw [BroadcastAction.call.injEq] at ha
    exact ha.2 ▸ chatMessage_size hPacket) hcall
  obtain ⟨-, rfl⟩ := call_eq_some hcall
  refine ⟨hfits, h.turns, fun k => ?_⟩
  rw [stepsOf_snoc, if_neg (by simp [thread])]
  show _ + ((500 - s.i k) * turnSteps reg + Broadcasting.ahead
    (Function.update s.threads.calls none (some { sends := reg.AllMessage Packet }) (some k))) = _
  rw [Function.update_of_ne (by simp)]
  exact h.steps k

/-- **A section** is one of those its thread has ahead. -/
theorem paced_section {past : List MainAction} (h : Paced reg past s) {a : MainAction}
    {b : BroadcastAction MainThread} {threads : Broadcasting σ MainThread}
    (hthread : Broadcasting.thread b = thread a) (hb : ∀ t Msg, b ≠ .call t Msg)
    (hstep : Broadcasting.step reg s.threads b = some threads) :
    Paced reg (past ++ [a]) { s with threads := threads } := by
  refine ⟨Broadcasting.fits_step h.fits (fun t Msg heq => absurd heq (hb t Msg)) hstep, h.turns,
    fun k => ?_⟩
  obtain ⟨hone, hothers⟩ := Broadcasting.ahead_step h.fits.sized hstep hb
  rw [hthread] at hone hothers
  have hold := h.steps k
  unfold ahead at hold
  rw [stepsOf_snoc]
  show _ + ((500 - s.i k) * turnSteps reg + Broadcasting.ahead (threads.calls (some k))) = _
  by_cases hk : thread a = some k
  · rw [if_pos hk]
    rw [hk] at hone
    omega
  · rw [if_neg hk, hothers (some k) fun heq => hk heq.symm]
    exact hold

/-- **One step** keeps the account of the steps. -/
theorem step_paced {past : List MainAction} (h : Paced reg past s) {a : MainAction}
    (hstep : step reg s a = some s') : Paced reg (past ++ [a]) s' := by
  cases a with
  | send n m => exact paced_send h hstep
  | line m Msg behind => exact paced_line h hstep
  | copy t =>
      obtain ⟨threads, hcopy, rfl⟩ := Option.map_eq_some_iff.mp hstep
      exact paced_section h rfl (by simp) hcopy
  | post t =>
      obtain ⟨threads, hpost, rfl⟩ := Option.map_eq_some_iff.mp hstep
      exact paced_section h rfl (by simp) hpost
  | ret t =>
      obtain ⟨threads, hret, rfl⟩ := Option.map_eq_some_iff.mp hstep
      exact paced_section h rfl (by simp) hret

/-- A section of a broadcast is a step of `main`'s threads. -/
theorem exists_section {b : BroadcastAction MainThread} {threads : Broadcasting σ MainThread}
    (hb : ∀ t Msg, b ≠ .call t Msg) (hstep : Broadcasting.step reg s.threads b = some threads) :
    ∃ a s', thread a = Broadcasting.thread b ∧ step reg s a = some s' := by
  cases b with
  | call t Msg => exact absurd rfl (hb t Msg)
  | copy t => exact ⟨.copy t, _, rfl, Option.map_eq_some_iff.mpr ⟨threads, hstep, rfl⟩⟩
  | post t => exact ⟨.post t, _, rfl, Option.map_eq_some_iff.mpr ⟨threads, hstep, rfl⟩⟩
  | ret t => exact ⟨.ret t, _, rfl, Option.map_eq_some_iff.mpr ⟨threads, hstep, rfl⟩⟩

/-- **The four threads finish.**  For any registry, any input, any memory and any interleaving of the
sections of all threads: each of the four threads has made and has ahead, together, 500 times the
two sections for each session, the call and the return; while it has steps ahead it can take the
next one, whatever the others have done; and it has none when it has returned from its last turn. -/
theorem threads_finish (reg : SessionManager σ) (Data : σ → Mem) (stdin : List UInt8)
    (as : List MainAction) (s : ServerMain σ)
    (hrun : StepMachine.run (step reg) (start Data stdin) as = some s) (n : Fin 4) :
    stepsOf n as + ahead reg s n = 500 * turnSteps reg
      ∧ (ahead reg s n ≠ 0 → ∃ a s', thread a = some n ∧ step reg s a = some s')
      ∧ (ahead reg s n = 0 ↔ s.i n = 500 ∧ s.threads.calls (some n) = none) := by
  have h : Paced reg as s := by
    apply StepMachine.run_history (P := Paced reg) (paced_start reg Data stdin) ?_ hrun
    intro past s a s' _ hpaced hstep
    exact step_paced hpaced hstep
  have hturns := h.turns n
  have hpos : 0 < turnSteps reg := Nat.succ_pos _
  have hzero : ahead reg s n = 0 ↔ s.i n = 500 ∧ s.threads.calls (some n) = none := by
    unfold ahead
    rw [Nat.add_eq_zero_iff, Nat.mul_eq_zero]
    constructor
    · intro hboth
      refine ⟨by omega, ?_⟩
      cases hcall : s.threads.calls (some n) with
      | none => rfl
      | some c =>
          rw [hcall] at hboth
          exact absurd hboth.2 (Nat.succ_ne_zero _)
    · intro hboth
      rw [hboth.2]
      exact ⟨Or.inl (by omega), rfl⟩
  refine ⟨h.steps n, fun hahead => ?_, hzero⟩
  by_cases hcall : s.threads.calls (some n) = none
  · -- between two turns, the next one can begin
    have hless : s.i n < 500 := by
      by_contra hge
      exact hahead (hzero.mpr ⟨by omega, hcall⟩)
    obtain ⟨Packet, hPacket⟩ :=
      exists_chatMessage blank (show (ascii "Msg").length < MAX_CHAT_SIZE by decide)
    refine ⟨.send n blank, ?_⟩
    simp [thread, step, hless, hPacket, Broadcasting.step, hcall]
  · obtain ⟨b, threads, hb, hno, hsection⟩ :=
      Broadcasting.section_enabled (m := reg) h.fits (by decide) hcall
    obtain ⟨a, s', ha, hstep⟩ := exists_section hno hsection
    exact ⟨a, s', ha.trans hb, hstep⟩

/-- Behind its first turn, `t1` has 499 turns of four steps ahead, and can begin the next. -/
theorem threads_finish_firstTurn :
    ∃ s : ServerMain Unit,
      StepMachine.run (step oneSession) (start (fun _ _ => 0) []) firstTurn = some s
        ∧ ahead oneSession s 0 = 499 * 4
        ∧ ∃ a s', thread a = some 0 ∧ step oneSession s a = some s' := by
  obtain ⟨s, hs, -, -⟩ := run_firstTurn
  obtain ⟨hsteps, hnext, -⟩ := threads_finish oneSession (fun _ _ => 0) [] firstTurn s hs 0
  have hahead : ahead oneSession s 0 = 499 * 4 := by
    have hmade : stepsOf 0 firstTurn = 4 := by decide
    have hturn : turnSteps oneSession = 4 := rfl
    omega
  exact ⟨s, hs, hahead, hnext (by omega)⟩

end ServerMain

end YServerCore
