/-
  YServerCore.Network.Workers — the threads that take completions, and the read side of a session.

  Nothing locks the read side.  Whoever may touch it has got it from somebody: `OnAccept` posts the
  first receive, a worker that takes its completion runs `OnRecv`, and the last thing `OnRecv` does
  is to post the next one.  So at any time it is in one hand: of the accepting thread, of the
  receive that is outstanding, or of one worker.

  The completions of sends come at any time; what a worker does with a completion is decided by
  the `Usage` of the `ST_IOData` it belongs to.

  Main results:
    * `points_OnRecv` — the points of an `OnRecv` that returns are what `OnRecv` says.
    * `heldBy_step` — every step leaves the read side of every session in one hand.
    * `changed_by_worker` — a worker changes a read side only while it is in its hand.
    * `reading_sequential` — in every run, each session has one receive outstanding or one `OnRecv`
      in front of its `ReadyToRecieve`, or neither.
-/
import Mathlib.Data.Set.Card
import YServerCore.Lib.StepMachine
import YServerCore.Receive.OnRecv

namespace YServerCore

open ByteMemory (write)
open RequestHandler (packetSize)
open PacketProcess (Handler)

/-! ## §1. Accepts, receives and workers. -/

/-- Where the acceptance of a session is. -/
inductive AcceptStage where
  /-- There is no such session yet. -/
  | unused
  /-- The completion port was not connected, and the session is deleted. -/
  | failed
  /-- Registered, in front of `ReadyToRecieve`. -/
  | registered
  /-- Inside `ReadyToRecieve`, in front of `WSARecv`. -/
  | recv
  | accepted
  deriving DecidableEq, Repr

/-- Where an `OnRecv` is. -/
inductive OnRecvStage where
  /-- `OnRecv(TransferSize)` has been called. -/
  | called (TransferSize : Nat)
  | loop
  /-- Behind the loop. -/
  | left
  /-- In front of `ReadyToRecieve`. -/
  | settled
  /-- Inside `ReadyToRecieve`, in front of `WSARecv`. -/
  | recv
  deriving DecidableEq, Repr

/-- The operation a completion is of. -/
inductive Operation where
  | receive
  | send
  deriving DecidableEq, Repr

/-- What happens. -/
inductive WorkerAction (σ τ : Type*) where
  /-- `Server::OnAccept` up to `AddSession`, and whether the socket joins the completion port. -/
  | accept (session : σ) (Handle : Bool)
  /-- The accepting thread enters `ReadyToRecieve`. -/
  | acceptReady (session : σ)
  /-- Its `WSARecv`, and whether it posts a receive. -/
  | acceptRecv (session : σ) (posted : Bool)
  /-- Bytes arrive in the range of an outstanding receive. -/
  | arrive (session : σ) (bytes : List UInt8)
  /-- `GetQueuedCompletionStatus` gives a completion to a worker that waits. -/
  | completion (worker : τ) (session : σ) (op : Operation) (transferSize : Nat) (result : Bool)
  /-- A worker in `OnRecv` comes to its next point; in the loop, to its next turn. -/
  | point (worker : τ)
  /-- The `WSARecv` of a worker in `ReadyToRecieve`, and whether it posts a receive. -/
  | recv (worker : τ) (posted : Bool)

/-- The read buffers, the `Usage` of the write buffers, the acceptances, the receives outstanding, and
the `OnRecv` of each worker that is in one. -/
structure Workers (σ τ : Type*) where
  io : σ → ST_IOData
  writeUsage : σ → E_IOUsage := fun _ => .Error
  accept : σ → AcceptStage := fun _ => .unused
  outstanding : σ → Nat := fun _ => 0
  worker : τ → Option (σ × OnRecvStage) := fun _ => none

namespace Workers

variable {σ τ : Type*} [DecidableEq σ] [DecidableEq τ]

/-- One receive more, if `WSARecv` has posted it. -/
def post (outstanding : σ → Nat) (session : σ) (posted : Bool) : σ → Nat :=
  if posted then Function.update outstanding session (outstanding session + 1) else outstanding

/-- The completion is of an operation of the session. -/
def Completes (s : Workers σ τ) (session : σ) : Operation → Prop
  | .receive => 0 < s.outstanding session
  | .send => s.accept session ≠ .unused

instance (s : Workers σ τ) (session : σ) : ∀ op, Decidable (s.Completes session op)
  | .receive => inferInstanceAs (Decidable (0 < s.outstanding session))
  | .send => inferInstanceAs (Decidable (s.accept session ≠ .unused))

/-- The completion leaves the queue. -/
def dequeue (s : Workers σ τ) (session : σ) : Operation → Workers σ τ
  | .receive =>
      { s with outstanding := Function.update s.outstanding session (s.outstanding session - 1) }
  | .send => s

/-- `IoData->Usage`. -/
def usage (s : Workers σ τ) (session : σ) : Operation → E_IOUsage
  | .receive => (s.io session).Usage
  | .send => s.writeUsage session

/-- `OnRecv` from one point to the next: what it makes of the read side, and where it is then; `none` for
a size of 0, and for a read past the handler table. -/
def onRecvPoint (io : ST_IOData) : OnRecvStage → Option (ST_IOData × OnRecvStage)
  | .called TransferSize =>
      -- `NetworkProcess` does not pass a size of 0 on
      if TransferSize = 0 then none
      else some ({ io with CurBytes := io.CurBytes + TransferSize }, .loop)
  | .loop =>
      match io.pass packetSize Handler with
      | .exit => some (io, .left)
      | .outOfTable => none
      | .dispatch _ io' => some (io', .loop)
  | .left => some (io.settle, .settled)
  | .settled => some (io.ReadyToRecieve.1, .recv)
  | .recv => none

/-- One step. -/
def step (s : Workers σ τ) : WorkerAction σ τ → Option (Workers σ τ)
  | .accept session Handle =>
      if s.accept session = .unused then
        some { s with
          io := Function.update s.io session (ST_IOData.OnAccept (s.io session).Data)
          writeUsage := Function.update s.writeUsage session .Write
          accept := Function.update s.accept session (if Handle then .registered else .failed) }
      else none
  | .acceptReady session =>
      if s.accept session = .registered then
        some { s with
          io := Function.update s.io session (s.io session).ReadyToRecieve.1
          accept := Function.update s.accept session .recv }
      else none
  | .acceptRecv session posted =>
      if s.accept session = .recv then
        some { s with
          accept := Function.update s.accept session .accepted
          outstanding := post s.outstanding session posted }
      else none
  | .arrive session bytes =>
      -- the range of the receive starts behind the bytes that are kept
      if 0 < s.outstanding session then
        some { s with
          io := Function.update s.io session
            { s.io session with
              Data := write (s.io session).Data (s.io session).CurBytes bytes } }
      else none
  | .completion worker session op transferSize result =>
      if s.worker worker = none ∧ s.Completes session op then
        -- `continue`: the completion is gone, and nobody posts a receive again
        if transferSize = 0 ∨ result = false then some (s.dequeue session op)
        else
          match s.usage session op with
          | .Read =>
              some { s.dequeue session op with
                worker := Function.update s.worker worker (some (session, .called transferSize)) }
          -- `OnSend` does not touch the read side
          | .Write => some (s.dequeue session op)
          | .Error => some (s.dequeue session op)
      else none
  | .point worker =>
      match s.worker worker with
      | none => none
      | some (session, stage) =>
          (onRecvPoint (s.io session) stage).map (fun r =>
            { s with
              io := Function.update s.io session r.1
              worker := Function.update s.worker worker (some (session, r.2)) })
  | .recv worker posted =>
      match s.worker worker with
      | some (session, .recv) =>
          some { s with
            outstanding := post s.outstanding session posted
            worker := Function.update s.worker worker none }
      | _ => none

/-- A worker is in the `OnRecv` of a session, in front of its `ReadyToRecieve`. -/
def InOnRecv (s : Workers σ τ) (session : σ) (worker : τ) : Prop :=
  ∃ stage, s.worker worker = some (session, stage) ∧ stage ≠ .recv

/-- A number of points of one `OnRecv`. -/
def points (n : Nat) (s : ST_IOData × OnRecvStage) : Option (ST_IOData × OnRecvStage) :=
  StepMachine.run (fun s (_ : Unit) => onRecvPoint s.1 s.2) s (List.replicate n ())

theorem points_succ {n : Nat} {io : ST_IOData} {stage : OnRecvStage} {s' : ST_IOData × OnRecvStage}
    (h : onRecvPoint io stage = some s') : points (n + 1) (io, stage) = points n s' := by
  unfold points
  rw [List.replicate_succ, StepMachine.run_cons]
  show (onRecvPoint io stage).bind _ = _
  rw [h]
  rfl

/-- The turns of a loop that ends, and the two points behind it. -/
theorem points_loop {n : Nat} {io : ST_IOData}
    (hexit : (io.loop packetSize Handler n).outcome = .exit) :
    points ((io.loop packetSize Handler n).calls.length + 3) (io, .loop)
      = some ((io.loop packetSize Handler n).io.settle.ReadyToRecieve.1, .recv) := by
  induction n generalizing io with
  | zero => exact absurd hexit (by simp [ST_IOData.loop])
  | succ n ih =>
      cases hpass : io.pass packetSize Handler with
      | outOfTable =>
          rw [ST_IOData.loop, hpass] at hexit
          exact absurd hexit (by simp)
      | exit =>
          rw [ST_IOData.loop_exit packetSize Handler hpass]
          have hleft : onRecvPoint io .loop = some (io, .left) := by
            simp only [onRecvPoint, hpass]
          exact points_succ hleft
      | dispatch c io' =>
          rw [ST_IOData.loop_dispatch packetSize Handler hpass] at hexit ⊢
          have hturn : onRecvPoint io .loop = some (io', .loop) := by
            simp only [onRecvPoint, hpass]
          exact (points_succ hturn).trans (ih hexit)

/-- **An `OnRecv` that returns** is its points, one after the other. -/
theorem points_OnRecv {io io' : ST_IOData} {TransferSize : Nat} {calls : List (Call RequestHandler)}
    (h : io.OnRecv packetSize Handler TransferSize = some (io', calls)) :
    points (calls.length + 4) (io, .called TransferSize) = some (io', .recv) := by
  simp only [ST_IOData.OnRecv, Option.ite_none_left_eq_some, Option.ite_none_right_eq_some,
    Option.some.injEq, Prod.mk.injEq] at h
  obtain ⟨hsize, hexit, rfl, rfl⟩ := h
  have hcalled : onRecvPoint io (.called TransferSize)
      = some ({ io with CurBytes := io.CurBytes + TransferSize }, .loop) := if_neg hsize
  exact (points_succ hcalled).trans (points_loop hexit)

/-! ## §2. In one hand. -/

/-- Who may touch the read side of a session. -/
inductive Holder (τ : Type*) where
  | nobody
  | accepting
  | receive
  | worker (t : τ)
  deriving DecidableEq

/-- The read side of a session is in this hand. -/
structure HeldBy (s : Workers σ τ) (session : σ) (holder : Holder τ) : Prop where
  outstanding : s.outstanding session = if holder = .receive then 1 else 0
  worker : ∀ t stage, s.worker t = some (session, stage) → holder = .worker t
  accepting : s.accept session = .registered ∨ s.accept session = .recv → holder = .accepting
  unused : s.accept session = .unused → holder = .nobody
  usage : s.accept session ≠ .unused →
    (s.io session).Usage = .Read ∧ s.writeUsage session = .Write

omit [DecidableEq σ] in
/-- A step that leaves the receives and the acceptance of a session as they are, and brings no worker to
it, leaves it in the hand it is in. -/
theorem HeldBy.frame {s s' : Workers σ τ} {x : σ} {holder : Holder τ} (h : HeldBy s x holder)
    (hout : s'.outstanding x = s.outstanding x) (hacc : s'.accept x = s.accept x)
    (husage : (s.io x).Usage = .Read → (s'.io x).Usage = .Read)
    (hwrite : s'.writeUsage x = s.writeUsage x)
    (hworker : ∀ t stage, s'.worker t = some (x, stage) → ∃ stage', s.worker t = some (x, stage')) :
    HeldBy s' x holder := by
  constructor
  · rw [hout]
    exact h.outstanding
  · intro t stage ht
    obtain ⟨stage', ht'⟩ := hworker t stage ht
    exact h.worker t stage' ht'
  · rw [hacc]
    exact h.accepting
  · rw [hacc]
    exact h.unused
  · rw [hacc, hwrite]
    intro hused
    exact ⟨husage (h.usage hused).1, (h.usage hused).2⟩

omit [DecidableEq σ] in
/-- A receive is outstanding exactly when it has the session. -/
theorem HeldBy.receive_iff {s : Workers σ τ} {x : σ} {holder : Holder τ} (h : HeldBy s x holder) :
    0 < s.outstanding x ↔ holder = .receive := by
  rw [h.outstanding]
  split <;> simp_all

theorem post_self (outstanding : σ → Nat) (session : σ) (posted : Bool) :
    post outstanding session posted session
      = outstanding session + if posted = true then 1 else 0 := by
  unfold post
  cases posted with
  | true =>
      show Function.update outstanding session _ session = _
      rw [Function.update_self]
      rfl
  | false => rfl

theorem post_of_ne (outstanding : σ → Nat) {x session : σ} (h : x ≠ session) (posted : Bool) :
    post outstanding session posted x = outstanding x := by
  unfold post
  split
  · exact Function.update_of_ne h _ _
  · rfl

/-- Whose hand a `WSARecv` gives the session into. -/
def Holder.posted (posted : Bool) : Holder τ := if posted then .receive else .nobody

/-- The receives outstanding behind a `WSARecv`, of a session that had none. -/
theorem HeldBy.post_outstanding {s : Workers σ τ} {x : σ} {holder : Holder τ} (h : HeldBy s x holder)
    (hreceive : holder ≠ .receive) (posted : Bool) :
    post s.outstanding x posted x
      = if (Holder.posted posted : Holder τ) = .receive then 1 else 0 := by
  rw [post_self, h.outstanding, if_neg hreceive]
  cases posted <;> simp [Holder.posted]

omit [DecidableEq σ] in
/-- A worker that comes to no `OnRecv` of the session is none of those in one of it. -/
theorem worker_of_update {s : Workers σ τ} {worker : τ} {e : Option (σ × OnRecvStage)} {x : σ}
    (he : ∀ stage, e ≠ some (x, stage)) {t : τ} {stage : OnRecvStage}
    (ht : Function.update s.worker worker e t = some (x, stage)) :
    t ≠ worker ∧ s.worker t = some (x, stage) := by
  by_cases htw : t = worker
  · subst htw
    rw [Function.update_self] at ht
    exact absurd ht (he stage)
  · rw [Function.update_of_ne htw] at ht
    exact ⟨htw, ht⟩

/-- `OnRecv` leaves the buffer one for reading. -/
theorem onRecvPoint_usage {io : ST_IOData} {stage : OnRecvStage} {r : ST_IOData × OnRecvStage}
    (h : onRecvPoint io stage = some r) (husage : io.Usage = .Read) : r.1.Usage = .Read := by
  cases stage with
  | called TransferSize =>
      simp only [onRecvPoint, Option.ite_none_left_eq_some, Option.some.injEq] at h
      rw [← h.2]
      exact husage
  | loop =>
      simp only [onRecvPoint] at h
      cases hpass : io.pass packetSize Handler with
      | exit =>
          simp only [hpass, Option.some.injEq] at h
          rw [← h]
          exact husage
      | outOfTable =>
          simp only [hpass] at h
          exact absurd h (by simp)
      | dispatch c io' =>
          simp only [hpass, Option.some.injEq] at h
          obtain ⟨-, rfl, -⟩ := (ST_IOData.pass_eq_dispatch packetSize Handler).mp hpass
          rw [← h]
          exact husage
  | left =>
      simp only [onRecvPoint, Option.some.injEq] at h
      rw [← h]
      show (io.settle).Usage = _
      unfold ST_IOData.settle
      split <;> exact husage
  | settled =>
      simp only [onRecvPoint, Option.some.injEq] at h
      rw [← h]
      rfl
  | recv => exact absurd h (by simp [onRecvPoint])

/-! ## §3. One step. -/

/-- An acceptance takes the new session into its hand, if it is registered. -/
theorem heldBy_accept {s s' : Workers σ τ} {session : σ} {Handle : Bool}
    (h : ∀ x, ∃ holder, HeldBy s x holder) (hstep : step s (.accept session Handle) = some s') (x : σ) :
    ∃ holder, HeldBy s' x holder := by
  obtain ⟨holder, hheld⟩ := h x
  simp only [step, Option.ite_none_right_eq_some, Option.some.injEq] at hstep
  obtain ⟨hunused, rfl⟩ := hstep
  by_cases hx : x = session
  · subst hx
    have hnobody := hheld.unused hunused
    subst hnobody
    -- a session whose socket does not join the completion port is deleted again
    refine ⟨if Handle then .accepting else .nobody, ?_, ?_, ?_, ?_, ?_⟩
    · show s.outstanding x = _
      rw [hheld.outstanding]
      cases Handle <;> simp
    · intro t stage ht
      exact absurd (hheld.worker t stage ht) (by simp)
    · cases Handle <;> simp
    · cases Handle <;> simp
    · intro _
      exact ⟨by simp [ST_IOData.OnAccept], by simp⟩
  · refine ⟨holder, hheld.frame rfl ?_ ?_ ?_ fun t stage ht => ⟨stage, ht⟩⟩
    · exact Function.update_of_ne hx _ _
    · simp only [Function.update_of_ne hx]
      exact id
    · exact Function.update_of_ne hx _ _

/-- In `ReadyToRecieve` the accepting thread still has the session. -/
theorem heldBy_acceptReady {s s' : Workers σ τ} {session : σ}
    (h : ∀ x, ∃ holder, HeldBy s x holder) (hstep : step s (.acceptReady session) = some s') (x : σ) :
    ∃ holder, HeldBy s' x holder := by
  obtain ⟨holder, hheld⟩ := h x
  simp only [step, Option.ite_none_right_eq_some, Option.some.injEq] at hstep
  obtain ⟨hregistered, rfl⟩ := hstep
  by_cases hx : x = session
  · subst hx
    have haccepting := hheld.accepting (Or.inl hregistered)
    subst haccepting
    refine ⟨.accepting, hheld.outstanding, hheld.worker, fun _ => rfl, ?_, ?_⟩
    · simp
    · intro _
      have husage := hheld.usage (by rw [hregistered]; simp)
      exact ⟨by simp [ST_IOData.ReadyToRecieve], husage.2⟩
  · refine ⟨holder, hheld.frame rfl ?_ ?_ rfl fun t stage ht => ⟨stage, ht⟩⟩
    · exact Function.update_of_ne hx _ _
    · simp only [Function.update_of_ne hx]
      exact id

/-- **The last act of `OnAccept`** gives the session into the hand of the receive it posts. -/
theorem heldBy_acceptRecv {s s' : Workers σ τ} {session : σ} {posted : Bool}
    (h : ∀ x, ∃ holder, HeldBy s x holder) (hstep : step s (.acceptRecv session posted) = some s')
    (x : σ) : ∃ holder, HeldBy s' x holder := by
  obtain ⟨holder, hheld⟩ := h x
  simp only [step, Option.ite_none_right_eq_some, Option.some.injEq] at hstep
  obtain ⟨hrecv, rfl⟩ := hstep
  by_cases hx : x = session
  · subst hx
    have haccepting := hheld.accepting (Or.inr hrecv)
    subst haccepting
    refine ⟨.posted posted, ?_, ?_, ?_, ?_, ?_⟩
    · exact hheld.post_outstanding (by simp) posted
    · intro t stage ht
      exact absurd (hheld.worker t stage ht) (by simp)
    · simp
    · simp
    · intro _
      exact hheld.usage (by rw [hrecv]; simp)
  · refine ⟨holder, hheld.frame ?_ ?_ id rfl fun t stage ht => ⟨stage, ht⟩⟩
    · exact post_of_ne _ hx _
    · exact Function.update_of_ne hx _ _

/-- Bytes that arrive change no `Usage`. -/
theorem heldBy_arrive {s s' : Workers σ τ} {session : σ} {bytes : List UInt8}
    (h : ∀ x, ∃ holder, HeldBy s x holder) (hstep : step s (.arrive session bytes) = some s') (x : σ) :
    ∃ holder, HeldBy s' x holder := by
  obtain ⟨holder, hheld⟩ := h x
  simp only [step, Option.ite_none_right_eq_some, Option.some.injEq] at hstep
  obtain ⟨-, rfl⟩ := hstep
  refine ⟨holder, hheld.frame rfl rfl ?_ rfl fun t stage ht => ⟨stage, ht⟩⟩
  by_cases hx : x = session
  · subst hx
    simp only [Function.update_self]
    exact id
  · simp only [Function.update_of_ne hx]
    exact id

/-- The receive of a session leaves the queue, and nobody has the session. -/
theorem heldBy_dequeue {s : Workers σ τ} {session : σ} (h : ∀ x, ∃ holder, HeldBy s x holder)
    (hpos : 0 < s.outstanding session) :
    HeldBy (s.dequeue session .receive) session .nobody
      ∧ ∀ x, ∃ holder, HeldBy (s.dequeue session .receive) x holder := by
  obtain ⟨owner, howner⟩ := h session
  have hreceive : owner = .receive := howner.receive_iff.mp hpos
  subst hreceive
  have hnobody : HeldBy (s.dequeue session .receive) session .nobody := by
    refine ⟨?_, ?_, ?_, fun _ => rfl, howner.usage⟩
    · show Function.update s.outstanding session (s.outstanding session - 1) session = 0
      rw [Function.update_self, howner.outstanding]
      rfl
    · intro t stage ht
      exact absurd (howner.worker t stage ht) (by simp)
    · intro haccept
      exact absurd (howner.accepting haccept) (by simp)
  refine ⟨hnobody, fun x => ?_⟩
  by_cases hx : x = session
  · exact ⟨.nobody, hx ▸ hnobody⟩
  · obtain ⟨holder, hheld⟩ := h x
    exact ⟨holder, hheld.frame (Function.update_of_ne hx _ _) rfl id rfl fun t stage ht => ⟨stage, ht⟩⟩

/-- A worker that comes to the `OnRecv` of a session nobody has takes it into its hand. -/
theorem heldBy_take {s : Workers σ τ} {session : σ} {worker : τ} {stage : OnRecvStage}
    (h : ∀ x, ∃ holder, HeldBy s x holder) (hnobody : HeldBy s session .nobody)
    (hused : s.accept session ≠ .unused) (x : σ) :
    ∃ holder, HeldBy
      { s with worker := Function.update s.worker worker (some (session, stage)) } x holder := by
  by_cases hx : x = session
  · subst hx
    refine ⟨.worker worker, hnobody.outstanding, ?_, ?_, ?_, hnobody.usage⟩
    · intro t stage' ht
      by_cases htw : t = worker
      · rw [htw]
      · simp only [Function.update_of_ne htw] at ht
        exact absurd (hnobody.worker t stage' ht) (by simp)
    · intro haccept
      exact absurd (hnobody.accepting haccept) (by simp)
    · intro hunused
      exact absurd hunused hused
  · obtain ⟨holder, hheld⟩ := h x
    refine ⟨holder, hheld.frame rfl rfl id rfl fun t stage' ht => ⟨stage', ?_⟩⟩
    refine (worker_of_update (fun stage'' he => hx ?_) ht).2
    rw [Option.some.injEq, Prod.mk.injEq] at he
    exact he.1.symm

/-- **A completion** takes a receive away, and gives its session into the hand of the worker, if it has
bytes; the completion of a send gives nothing. -/
theorem heldBy_completion {s s' : Workers σ τ} {worker : τ} {session : σ} {op : Operation}
    {transferSize : Nat} {result : Bool} (h : ∀ x, ∃ holder, HeldBy s x holder)
    (hstep : step s (.completion worker session op transferSize result) = some s') (x : σ) :
    ∃ holder, HeldBy s' x holder := by
  obtain ⟨owner, howner⟩ := h session
  simp only [step, Option.ite_none_right_eq_some] at hstep
  obtain ⟨⟨-, hcompletes⟩, hstep⟩ := hstep
  -- a session with an operation has been accepted, so its two `Usage`s are what they should be
  have hused : s.accept session ≠ .unused := by
    cases op with
    | receive =>
        intro hunused
        have hnobody := howner.unused hunused
        rw [howner.receive_iff.mp hcompletes] at hnobody
        exact absurd hnobody (by simp)
    | send => exact hcompletes
  cases op with
  | send =>
      have husage : s.usage session .send = .Write := (howner.usage hused).2
      rw [husage] at hstep
      split at hstep <;> exact Option.some.inj hstep ▸ h x
  | receive =>
      have husage : s.usage session .receive = .Read := (howner.usage hused).1
      obtain ⟨hnobody, hall⟩ := heldBy_dequeue h hcompletes
      rw [husage] at hstep
      split at hstep
      · exact Option.some.inj hstep ▸ hall x
      · exact Option.some.inj hstep ▸ heldBy_take hall hnobody hused x

/-- **What a point is**: the worker is in an `OnRecv`, and moves on in it. -/
theorem point_eq_some {s s' : Workers σ τ} {worker : τ} (hstep : step s (.point worker) = some s') :
    ∃ session stage r, s.worker worker = some (session, stage)
      ∧ onRecvPoint (s.io session) stage = some r
      ∧ s' = { s with
          io := Function.update s.io session r.1
          worker := Function.update s.worker worker (some (session, r.2)) } := by
  cases hworker : s.worker worker with
  | none =>
      simp only [step, hworker] at hstep
      exact absurd hstep (by simp)
  | some e =>
      obtain ⟨session, stage⟩ := e
      simp only [step, hworker, Option.map_eq_some_iff] at hstep
      obtain ⟨r, hr, rfl⟩ := hstep
      exact ⟨session, stage, r, rfl, hr, rfl⟩

/-- A worker that is in `OnRecv` stays in that of its session. -/
theorem heldBy_point {s s' : Workers σ τ} {worker : τ} (h : ∀ x, ∃ holder, HeldBy s x holder)
    (hstep : step s (.point worker) = some s') (x : σ) : ∃ holder, HeldBy s' x holder := by
  obtain ⟨holder, hheld⟩ := h x
  obtain ⟨session, stage, r, hworker, hr, rfl⟩ := point_eq_some hstep
  -- the session does not change hands, whatever the point does to its buffer
  refine ⟨holder, hheld.frame rfl rfl ?_ rfl fun t stage' ht => ?_⟩
  · by_cases hx : x = session
    · subst hx
      simp only [Function.update_self]
      exact onRecvPoint_usage hr
    · simp only [Function.update_of_ne hx]
      exact id
  · by_cases htw : t = worker
    · subst htw
      simp only [Function.update_self, Option.some.injEq, Prod.mk.injEq] at ht
      rw [← ht.1]
      exact ⟨stage, hworker⟩
    · simp only [Function.update_of_ne htw] at ht
      exact ⟨stage', ht⟩

/-- **The last act of `OnRecv`** gives its session into the hand of the receive it posts. -/
theorem heldBy_recv {s s' : Workers σ τ} {worker : τ} {posted : Bool}
    (h : ∀ x, ∃ holder, HeldBy s x holder) (hstep : step s (.recv worker posted) = some s') (x : σ) :
    ∃ holder, HeldBy s' x holder := by
  obtain ⟨holder, hheld⟩ := h x
  simp only [step] at hstep
  split at hstep
  · next session hworker =>
      rw [← Option.some.inj hstep]
      by_cases hx : x = session
      · subst hx
        have howner := hheld.worker worker _ hworker
        subst howner
        refine ⟨.posted posted, ?_, ?_, ?_, ?_, hheld.usage⟩
        · exact hheld.post_outstanding (by simp) posted
        · -- the worker has left, and no other one was in the session
          intro t stage ht
          obtain ⟨htw, ht'⟩ := worker_of_update (fun _ => by simp) ht
          exact absurd (Holder.worker.inj (hheld.worker t stage ht')).symm htw
        · intro haccept
          exact absurd (hheld.accepting haccept) (by simp)
        · intro hunused
          exact absurd (hheld.unused hunused) (by simp)
      · refine ⟨holder, hheld.frame (post_of_ne _ hx _) rfl id rfl fun t stage ht => ⟨stage, ?_⟩⟩
        exact (worker_of_update (fun _ => by simp) ht).2
  · exact absurd hstep (by simp)

/-- **One step** leaves the read side of every session in one hand. -/
theorem heldBy_step {s s' : Workers σ τ} {a : WorkerAction σ τ}
    (h : ∀ x, ∃ holder, HeldBy s x holder) (hstep : step s a = some s') :
    ∀ x, ∃ holder, HeldBy s' x holder := by
  cases a with
  | accept session Handle => exact heldBy_accept h hstep
  | acceptReady session => exact heldBy_acceptReady h hstep
  | acceptRecv session posted => exact heldBy_acceptRecv h hstep
  | arrive session bytes => exact heldBy_arrive h hstep
  | completion worker session op transferSize result => exact heldBy_completion h hstep
  | point worker => exact heldBy_point h hstep
  | recv worker posted => exact heldBy_recv h hstep

/-- **A worker changes a read side** only while no receive into it is outstanding. -/
theorem changed_by_worker {s s' : Workers σ τ} {worker : τ} (h : ∀ x, ∃ holder, HeldBy s x holder)
    (hstep : step s (.point worker) = some s') {x : σ} (hchanged : s'.io x ≠ s.io x) :
    s.outstanding x = 0 := by
  obtain ⟨holder, hheld⟩ := h x
  obtain ⟨session, stage, r, hworker, -, rfl⟩ := point_eq_some hstep
  have hx : x = session := by
    by_contra hx
    exact hchanged (Function.update_of_ne hx _ _)
  subst hx
  rw [hheld.outstanding, hheld.worker worker stage hworker]
  rfl

/-! ## §4. Whole runs. -/

/-- No sessions yet; their memory holds whatever it holds. -/
def start (io : σ → ST_IOData) : Workers σ τ where
  io := io

omit [DecidableEq σ] in
theorem heldBy_start (io : σ → ST_IOData) (x : σ) :
    ∃ holder, HeldBy (start io : Workers σ τ) x holder := by
  refine ⟨.nobody, rfl, ?_, ?_, fun _ => rfl, ?_⟩
  · intro t stage ht
    exact absurd ht (by simp [start])
  · intro haccept
    exact absurd haccept (by simp [start])
  · intro hused
    exact absurd rfl hused

omit [DecidableEq σ] in
/-- Two workers in `OnRecv`s of one session are one. -/
theorem HeldBy.inOnRecv_unique {s : Workers σ τ} {x : σ} {holder : Holder τ} (h : HeldBy s x holder)
    {t u : τ} (ht : s.InOnRecv x t) (hu : s.InOnRecv x u) : t = u := by
  obtain ⟨stage, ht, -⟩ := ht
  obtain ⟨stage', hu, -⟩ := hu
  have hsame := (h.worker t stage ht).symm.trans (h.worker u stage' hu)
  exact Holder.worker.inj hsame

omit [DecidableEq σ] in
/-- What one hand means for the receives and the workers of a session. -/
theorem HeldBy.atMostOne {s : Workers σ τ} {x : σ} {holder : Holder τ} (h : HeldBy s x holder) :
    (s.outstanding x : ℕ∞) + Set.encard {t | s.InOnRecv x t} ≤ 1 := by
  have hone : Set.encard {t | s.InOnRecv x t} ≤ 1 := by
    rw [Set.encard_le_one_iff]
    intro t u ht hu
    exact h.inOnRecv_unique ht hu
  by_cases hreceive : holder = .receive
  · -- a receive is outstanding, so no worker has the session
    have hnone : {t | s.InOnRecv x t} = ∅ := by
      rw [Set.eq_empty_iff_forall_notMem]
      intro t ht
      obtain ⟨stage, ht, -⟩ := ht
      rw [h.worker t stage ht] at hreceive
      exact absurd hreceive (by simp)
    rw [hnone, Set.encard_empty, add_zero, h.outstanding, if_pos hreceive]
    exact le_refl _
  · rw [h.outstanding, if_neg hreceive, Nat.cast_zero, zero_add]
    exact hone

/-- **Reading one session is sequential.**  For any sessions, any number of workers and every
interleaving of accepts, completions and points of `OnRecv`, with any bytes received, any transfer
sizes and any results of the calls: in every state reached, the receives outstanding of a session
and its `OnRecv`s in front of their `ReadyToRecieve` are one at most; so two such `OnRecv`s are one
worker's, and no worker changes a read side while a receive into it is outstanding. -/
theorem reading_sequential (io : σ → ST_IOData) (as : List (WorkerAction σ τ)) (s : Workers σ τ)
    (hrun : StepMachine.run step (start io) as = some s) (session : σ) :
    (s.outstanding session : ℕ∞) + Set.encard {t | s.InOnRecv session t} ≤ 1
      ∧ (∀ t u, s.InOnRecv session t → s.InOnRecv session u → t = u)
      ∧ ∀ worker s', step s (.point worker) = some s' → s'.io session ≠ s.io session →
        s.outstanding session = 0 := by
  have hheld : ∀ x, ∃ holder, HeldBy s x holder := by
    apply StepMachine.run_invariant (P := fun s => ∀ x, ∃ holder, HeldBy s x holder) ?_
      (heldBy_start io) hrun
    intro s a s' h hstep
    exact heldBy_step h hstep
  obtain ⟨holder, h⟩ := hheld session
  refine ⟨h.atMostOne, fun t u ht hu => h.inOnRecv_unique ht hu, fun worker s' hstep hchanged => ?_⟩
  exact changed_by_worker hheld hstep hchanged

/-- Two sessions and two workers: the worker 1 is in the loop of `OnRecv` while the worker 2 takes the
completion of a send, and the other session is accepted. -/
theorem reading_sequential_two :
    ∃ s : Workers Nat Nat,
      StepMachine.run step (start (fun _ => {}))
          [.accept 7 true, .acceptReady 7, .accept 8 true, .acceptRecv 7 true,
            .arrive 7 ([7, 0, 0, 0, 80, 0, 0, 0] ++ List.replicate 72 0),
            .completion 1 7 .receive 80 true, .point 1, .completion 2 7 .send 92 true, .point 1,
            .acceptReady 8, .acceptRecv 8 true] = some s
        ∧ s.worker 1 = some (7, .loop) ∧ s.outstanding 8 = 1
        ∧ (s.outstanding 7 : ℕ∞) + Set.encard {t | s.InOnRecv 7 t} ≤ 1 := by
  have hend : (StepMachine.run step (start (fun _ => {}) : Workers Nat Nat)
      [.accept 7 true, .acceptReady 7, .accept 8 true, .acceptRecv 7 true,
        .arrive 7 ([7, 0, 0, 0, 80, 0, 0, 0] ++ List.replicate 72 0),
        .completion 1 7 .receive 80 true, .point 1, .completion 2 7 .send 92 true, .point 1,
        .acceptReady 8, .acceptRecv 8 true]).map (fun s => (s.worker 1, s.outstanding 8))
      = some (some (7, .loop), 1) := by
    decide +kernel
  obtain ⟨s, hs, hall⟩ := Option.map_eq_some_iff.mp hend
  rw [Prod.mk.injEq] at hall
  exact ⟨s, hs, hall.1, hall.2, (reading_sequential _ _ s hs 7).1⟩

end Workers

end YServerCore
