/-
  YServerCore.Network.History — many workers, and what the read sides were given and handed on.

  `Network.Workers` lets the `OnRecv`s of all sessions run at once, point by point, on any number of
  workers.  Here the machine also keeps, for each session, the bytes of the receives that went into
  an `OnRecv` and the calls made to handlers.

  What is assumed of the system is what `WSARecv` promises: bytes come once into the range of a
  receive, and a successful completion reports how many they are.

  Main results:
    * `sessionStep_of_step` — what a step is for each session: nothing, or one of five things.
-/
import YServerCore.Network.Workers

namespace YServerCore

open ByteMemory (write)
open RequestHandler (packetSize)
open PacketProcess (Handler)

/-! ## §1. The machine with its history. -/

/-- The workers, with what the read side of each session was given and what it has handed on. -/
structure Dispatching (σ τ : Type*) extends Workers σ τ where
  /-- The bytes in the range of the last receive that no `OnRecv` has been told of. -/
  arrived : σ → List UInt8 := fun _ => []
  /-- The bytes of the receives whose completions went into an `OnRecv`. -/
  chunks : σ → List (List UInt8) := fun _ => []
  /-- The calls made to handlers. -/
  calls : σ → List (Call RequestHandler) := fun _ => []

namespace Dispatching

variable {σ τ : Type*} [DecidableEq σ] [DecidableEq τ]

/-- The calls of one turn of the loop. -/
def callsOf : ST_IOData.Pass RequestHandler → List (Call RequestHandler)
  | .exit => []
  | .outOfTable => []
  | .dispatch c _ => [c]

/-- What an action adds to the history. -/
def record (s : Dispatching σ τ) : WorkerAction σ τ → Dispatching σ τ
  | .arrive session bytes => { s with arrived := Function.update s.arrived session bytes }
  | .completion _ session .receive transferSize result =>
      if transferSize = 0 ∨ result = false then s
      else
        { s with
          arrived := Function.update s.arrived session []
          chunks := Function.update s.chunks session (s.chunks session ++ [s.arrived session]) }
  | .point worker =>
      match s.worker worker with
      | some (session, .loop) =>
          { s with
            calls := Function.update s.calls session
              (s.calls session ++ callsOf ((s.io session).pass packetSize Handler)) }
      | _ => s
  | _ => s

/-- One step of the workers, with its record. -/
def step (s : Dispatching σ τ) (a : WorkerAction σ τ) : Option (Dispatching σ τ) :=
  (Workers.step s.toWorkers a).map (fun w => { record s a with toWorkers := w })

/-- No sessions yet; their memory holds whatever it holds. -/
def start (io : σ → ST_IOData) : Dispatching σ τ where
  io := io

/-- **What `WSARecv` promises**: bytes come once into the range of a receive, and a successful
completion reports how many they are. -/
def Delivers (s : Dispatching σ τ) : WorkerAction σ τ → Prop
  | .arrive session _ => s.arrived session = []
  | .completion _ session .receive transferSize result =>
      result = true → transferSize = (s.arrived session).length
  | _ => True

instance (s : Dispatching σ τ) : (a : WorkerAction σ τ) → Decidable (Delivers s a)
  | .accept _ _ => isTrue trivial
  | .acceptReady _ => isTrue trivial
  | .acceptRecv _ _ => isTrue trivial
  | .arrive session _ => inferInstanceAs (Decidable (s.arrived session = []))
  | .completion _ _ .send _ _ => isTrue trivial
  | .completion _ session .receive transferSize result =>
      inferInstanceAs (Decidable (result = true → transferSize = (s.arrived session).length))
  | .point _ => isTrue trivial
  | .recv _ _ => isTrue trivial

/-! ## §2. What a step is for one session. -/

/-- The read buffer with bytes in the range of the receive. -/
def landed (io : ST_IOData) (bytes : List UInt8) : ST_IOData :=
  { io with Data := write io.Data io.CurBytes bytes }

theorem landed_nil (io : ST_IOData) : landed io [] = io := by
  unfold landed
  rw [ByteMemory.write_nil]

/-- Nothing of a session has changed: its buffer, its history, and the workers in it. -/
structure Same (s s' : Dispatching σ τ) (x : σ) : Prop where
  io : s'.io x = s.io x
  unused : s'.accept x = .unused ↔ s.accept x = .unused
  arrived : s'.arrived x = s.arrived x
  chunks : s'.chunks x = s.chunks x
  calls : s'.calls x = s.calls x
  worker : ∀ t stage, s'.worker t = some (x, stage) ↔ s.worker t = some (x, stage)

/-- **What a step is for one session**, of those that concern its read side. -/
inductive SessionStep (s s' : Dispatching σ τ) (x : σ) : WorkerAction σ τ → Prop where
  | same {a : WorkerAction σ τ}
      (hpoint : ∀ worker stage, a = .point worker → s.worker worker ≠ some (x, stage))
      (h : Same s s' x) : SessionStep s s' x a
  | accept {Handle : Bool} (hunused : s.accept x = .unused) (hused : s'.accept x ≠ .unused)
      (hio : s'.io x = ST_IOData.OnAccept (s.io x).Data) (harr : s'.arrived x = s.arrived x)
      (hchunks : s'.chunks x = s.chunks x) (hcalls : s'.calls x = s.calls x)
      (hnone : ∀ t stage, s'.worker t ≠ some (x, stage)) : SessionStep s s' x (.accept x Handle)
  | arrive {bytes : List UInt8} (hused : s.accept x ≠ .unused) (hused' : s'.accept x ≠ .unused)
      (hempty : s.arrived x = []) (hio : s'.io x = landed (s.io x) bytes)
      (harr : s'.arrived x = bytes) (hchunks : s'.chunks x = s.chunks x)
      (hcalls : s'.calls x = s.calls x) (hnone : ∀ t stage, s.worker t ≠ some (x, stage))
      (hnone' : ∀ t stage, s'.worker t ≠ some (x, stage)) : SessionStep s s' x (.arrive x bytes)
  | completion {worker : τ} {transferSize : Nat} (hused : s.accept x ≠ .unused)
      (hused' : s'.accept x ≠ .unused) (hsize : transferSize = (s.arrived x).length)
      (hio : s'.io x = s.io x) (harr : s'.arrived x = [])
      (hchunks : s'.chunks x = s.chunks x ++ [s.arrived x]) (hcalls : s'.calls x = s.calls x)
      (hnone : ∀ t stage, s.worker t ≠ some (x, stage))
      (hworker : s'.worker worker = some (x, .called transferSize))
      (honly : ∀ t stage, s'.worker t = some (x, stage) → stage = .called transferSize) :
      SessionStep s s' x (.completion worker x .receive transferSize true)
  | point {worker : τ} {stage : OnRecvStage} {e : ST_IOData × OnRecvStage}
      (hused' : s'.accept x ≠ .unused) (hworker : s.worker worker = some (x, stage))
      (hpoint : Workers.onRecvPoint (s.io x) stage = some e) (hio : s'.io x = e.1)
      (harr : s'.arrived x = s.arrived x) (hchunks : s'.chunks x = s.chunks x)
      (hcalls : s'.calls x = s.calls x ++
        if stage = .loop then callsOf ((s.io x).pass packetSize Handler) else [])
      (hworker' : s'.worker worker = some (x, e.2))
      (honly : ∀ t stage', s'.worker t = some (x, stage') → stage' = e.2) :
      SessionStep s s' x (.point worker)
  | recv {worker : τ} {posted : Bool} (hused : s.accept x ≠ .unused)
      (hused' : s'.accept x ≠ .unused) (hio : s'.io x = s.io x) (harr : s'.arrived x = s.arrived x)
      (hchunks : s'.chunks x = s.chunks x) (hcalls : s'.calls x = s.calls x)
      (honly : ∀ t stage, s.worker t = some (x, stage) → stage = .recv)
      (hnone' : ∀ t stage, s'.worker t ≠ some (x, stage)) : SessionStep s s' x (.recv worker posted)

variable {s s' : Dispatching σ τ} {x : σ}

omit [DecidableEq σ] [DecidableEq τ] in
/-- A step that leaves all of a session's members as they are. -/
theorem Same.refl_of_eq (hio : s'.io x = s.io x) (haccept : s'.accept x = s.accept x)
    (harrived : s'.arrived x = s.arrived x) (hchunks : s'.chunks x = s.chunks x)
    (hcalls : s'.calls x = s.calls x)
    (hworker : ∀ t stage, s'.worker t = some (x, stage) ↔ s.worker t = some (x, stage)) :
    Same s s' x :=
  ⟨hio, by rw [haccept], harrived, hchunks, hcalls, hworker⟩

/-- A new session has its buffer, and no worker. -/
theorem sessionStep_accept {session : σ} {Handle : Bool} (hheld : ∀ x, ∃ holder, s.HeldBy x holder)
    (hstep : step s (.accept session Handle) = some s') (x : σ) :
    SessionStep s s' x (.accept session Handle) := by
  obtain ⟨w, hw, rfl⟩ := Option.map_eq_some_iff.mp hstep
  simp only [Workers.step, Option.ite_none_right_eq_some, Option.some.injEq] at hw
  obtain ⟨hunused, rfl⟩ := hw
  by_cases hx : x = session
  · subst hx
    obtain ⟨holder, hholder⟩ := hheld x
    have hnobody := hholder.unused hunused
    refine .accept hunused ?_ (Function.update_self x _ _) rfl rfl rfl fun t stage ht => ?_
    · show Function.update s.accept x _ x ≠ _
      rw [Function.update_self]
      cases Handle <;> simp
    · exact absurd (hholder.worker t stage ht) (by rw [hnobody]; simp)
  · refine .same (by simp) (Same.refl_of_eq ?_ ?_ rfl rfl rfl fun t stage => Iff.rfl)
    · exact Function.update_of_ne hx _ _
    · exact Function.update_of_ne hx _ _

/-- The rest of `OnAccept` leaves the buffer as it is. -/
theorem sessionStep_acceptReady {session : σ} (hheld : ∀ x, ∃ holder, s.HeldBy x holder)
    (hstep : step s (.acceptReady session) = some s') (x : σ) :
    SessionStep s s' x (.acceptReady session) := by
  obtain ⟨w, hw, rfl⟩ := Option.map_eq_some_iff.mp hstep
  simp only [Workers.step, Option.ite_none_right_eq_some, Option.some.injEq] at hw
  obtain ⟨hregistered, rfl⟩ := hw
  by_cases hx : x = session
  · subst hx
    obtain ⟨holder, hholder⟩ := hheld x
    have husage := (hholder.usage (by rw [hregistered]; simp)).1
    refine .same (by simp) ⟨?_, ?_, rfl, rfl, rfl, fun t stage => Iff.rfl⟩
    · show Function.update s.io x _ x = s.io x
      rw [Function.update_self]
      unfold ST_IOData.ReadyToRecieve
      rw [← husage]
    · show Function.update s.accept x _ x = _ ↔ _
      rw [Function.update_self, hregistered]
      simp
  · refine .same (by simp) (Same.refl_of_eq ?_ ?_ rfl rfl rfl fun t stage => Iff.rfl)
    · exact Function.update_of_ne hx _ _
    · exact Function.update_of_ne hx _ _

theorem sessionStep_acceptRecv {session : σ} {posted : Bool}
    (hstep : step s (.acceptRecv session posted) = some s') (x : σ) :
    SessionStep s s' x (.acceptRecv session posted) := by
  obtain ⟨w, hw, rfl⟩ := Option.map_eq_some_iff.mp hstep
  simp only [Workers.step, Option.ite_none_right_eq_some, Option.some.injEq] at hw
  obtain ⟨hrecv, rfl⟩ := hw
  refine .same (by simp) ⟨rfl, ?_, rfl, rfl, rfl, fun t stage => Iff.rfl⟩
  show Function.update s.accept session _ x = _ ↔ _
  by_cases hx : x = session
  · rw [hx, Function.update_self, hrecv]
    simp
  · rw [Function.update_of_ne hx]

omit [DecidableEq σ] in
/-- A session with a receive outstanding has no worker. -/
theorem used_of_receive {holder : Workers.Holder τ} (hholder : s.HeldBy x holder)
    (hpos : 0 < s.outstanding x) :
    s.accept x ≠ .unused ∧ ∀ t stage, s.worker t ≠ some (x, stage) := by
  have hreceive := hholder.receive_iff.mp hpos
  constructor
  · intro hunused
    exact absurd (hholder.unused hunused) (by rw [hreceive]; simp)
  · intro t stage ht
    exact absurd (hholder.worker t stage ht) (by rw [hreceive]; simp)

/-- Bytes arrive where no worker is. -/
theorem sessionStep_arrive {session : σ} {bytes : List UInt8}
    (hheld : ∀ x, ∃ holder, s.HeldBy x holder) (hdeliver : s.arrived session = [])
    (hstep : step s (.arrive session bytes) = some s') (x : σ) :
    SessionStep s s' x (.arrive session bytes) := by
  obtain ⟨w, hw, rfl⟩ := Option.map_eq_some_iff.mp hstep
  simp only [Workers.step, Option.ite_none_right_eq_some, Option.some.injEq] at hw
  obtain ⟨hpos, rfl⟩ := hw
  by_cases hx : x = session
  · subst hx
    obtain ⟨holder, hholder⟩ := hheld x
    obtain ⟨hused, hnone⟩ := used_of_receive hholder hpos
    exact .arrive hused hused hdeliver (Function.update_self x _ _) (Function.update_self x _ _)
      rfl rfl hnone hnone
  · refine .same (by simp) (Same.refl_of_eq ?_ rfl ?_ rfl rfl fun t stage => Iff.rfl)
    · exact Function.update_of_ne hx _ _
    · exact Function.update_of_ne hx _ _

omit [DecidableEq σ] in
/-- A worker that comes to an `OnRecv`, or goes on in it, is in no other session. -/
theorem worker_update_iff {worker : τ} {session : σ} {stage₀ : OnRecvStage}
    (hworker : ∀ stage, s.worker worker ≠ some (x, stage)) (hx : x ≠ session) (t : τ)
    (stage : OnRecvStage) :
    Function.update s.worker worker (some (session, stage₀)) t = some (x, stage)
      ↔ s.worker t = some (x, stage) := by
  by_cases ht : t = worker
  · rw [ht, Function.update_self]
    constructor
    · intro hself
      rw [Option.some.injEq, Prod.mk.injEq] at hself
      exact absurd hself.1 (Ne.symm hx)
    · intro hold
      exact absurd hold (hworker stage)
  · rw [Function.update_of_ne ht]

omit [DecidableEq σ] in
/-- The only worker of a session, behind an update of it. -/
theorem worker_update_only {worker : τ} {stage₀ : OnRecvStage}
    (honly : ∀ t stage, t ≠ worker → s.worker t ≠ some (x, stage)) (t : τ) (stage : OnRecvStage)
    (ht : Function.update s.worker worker (some (x, stage₀)) t = some (x, stage)) :
    stage = stage₀ := by
  by_cases htw : t = worker
  · rw [htw, Function.update_self, Option.some.injEq, Prod.mk.injEq] at ht
    exact ht.2.symm
  · rw [Function.update_of_ne htw] at ht
    exact absurd ht (honly t stage htw)

/-- **A completion** hands what has arrived to an `OnRecv`. -/
theorem sessionStep_completion {worker : τ} {session : σ} {op : Operation} {transferSize : Nat}
    {result : Bool} (hheld : ∀ x, ∃ holder, s.HeldBy x holder)
    (hdeliver : Delivers s (.completion worker session op transferSize result))
    (hstep : step s (.completion worker session op transferSize result) = some s') (x : σ) :
    SessionStep s s' x (.completion worker session op transferSize result) := by
  obtain ⟨w, hw, rfl⟩ := Option.map_eq_some_iff.mp hstep
  simp only [Workers.step, Option.ite_none_right_eq_some] at hw
  obtain ⟨⟨hworker, hcompletes⟩, hw⟩ := hw
  obtain ⟨holder, hholder⟩ := hheld session
  cases op with
  | send =>
      -- the read side is not touched, whatever `OnSend` does
      have husage : s.usage session .send = .Write := (hholder.usage hcompletes).2
      rw [husage] at hw
      have hsame : s.toWorkers = w := by
        split at hw <;> exact Option.some.inj hw
      subst hsame
      exact .same (by simp) (Same.refl_of_eq rfl rfl rfl rfl rfl fun t stage => Iff.rfl)
  | receive =>
      obtain ⟨hused, hnone⟩ := used_of_receive hholder hcompletes
      have husage : s.usage session .receive = .Read := (hholder.usage hused).1
      rw [husage] at hw
      by_cases hdrop : transferSize = 0 ∨ result = false
      · -- `continue`: nobody is told of the bytes
        rw [if_pos hdrop, Option.some.injEq] at hw
        subst hw
        simp only [record, if_pos hdrop]
        exact .same (by simp) (Same.refl_of_eq rfl rfl rfl rfl rfl fun t stage => Iff.rfl)
      · rw [if_neg hdrop, Option.some.injEq] at hw
        subst hw
        simp only [record, if_neg hdrop]
        rw [not_or, Bool.not_eq_false] at hdrop
        obtain ⟨-, rfl⟩ := hdrop
        by_cases hx : x = session
        · subst hx
          exact .completion hused hused (hdeliver rfl) rfl (Function.update_self x _ _)
            (Function.update_self x _ _) rfl hnone (Function.update_self worker _ _)
            (worker_update_only fun t stage _ => hnone t stage)
        · refine .same (by simp) (Same.refl_of_eq rfl rfl ?_ ?_ rfl ?_)
          · exact Function.update_of_ne hx _ _
          · exact Function.update_of_ne hx _ _
          · exact worker_update_iff (by rw [hworker]; simp) hx

/-- **A point of an `OnRecv`** concerns the session the worker is in. -/
theorem sessionStep_point {worker : τ} (hheld : ∀ x, ∃ holder, s.HeldBy x holder)
    (hstep : step s (.point worker) = some s') (x : σ) : SessionStep s s' x (.point worker) := by
  obtain ⟨w, hw, rfl⟩ := Option.map_eq_some_iff.mp hstep
  obtain ⟨session, stage, e, hworker, hpoint, rfl⟩ := Workers.point_eq_some hw
  -- the record of the point, in one form for all stages
  have hrecord : (record s (.point worker)).calls = Function.update s.calls session
      (s.calls session ++
        if stage = .loop then callsOf ((s.io session).pass packetSize Handler) else []) := by
    simp only [record, hworker]
    cases stage with
    | loop => rfl
    | _ => simp
  have hrest : (record s (.point worker)).arrived = s.arrived
      ∧ (record s (.point worker)).chunks = s.chunks := by
    simp only [record, hworker]
    cases stage <;> exact ⟨rfl, rfl⟩
  by_cases hx : x = session
  · subst hx
    obtain ⟨holder, hholder⟩ := hheld x
    have hmine := hholder.worker worker stage hworker
    have honly : ∀ t stage', t ≠ worker → s.worker t ≠ some (x, stage') := by
      intro t stage' ht htx
      rw [hmine] at hholder
      exact ht (Workers.Holder.worker.inj (hholder.worker t stage' htx)).symm
    refine .point ?_ hworker hpoint (Function.update_self x _ _) (congrFun hrest.1 x)
      (congrFun hrest.2 x) ?_ (Function.update_self worker _ _) (worker_update_only honly)
    · intro hunused
      exact absurd (hholder.unused hunused) (by rw [hmine]; simp)
    · show (record s (.point worker)).calls x = _
      rw [hrecord, Function.update_self]
  · have hother : ∀ stage', s.worker worker ≠ some (x, stage') := by
      intro stage' hsame
      rw [hworker, Option.some.injEq, Prod.mk.injEq] at hsame
      exact hx hsame.1.symm
    refine .same ?_ (Same.refl_of_eq ?_ rfl (congrFun hrest.1 x) (congrFun hrest.2 x) ?_ ?_)
    · intro t stage' ht
      rw [WorkerAction.point.injEq] at ht
      exact ht ▸ hother stage'
    · exact Function.update_of_ne hx _ _
    · show (record s (.point worker)).calls x = _
      rw [hrecord, Function.update_of_ne hx]
    · exact worker_update_iff hother hx

/-- The `WSARecv` at the end of an `OnRecv` lets the session go. -/
theorem sessionStep_recv {worker : τ} {posted : Bool} (hheld : ∀ x, ∃ holder, s.HeldBy x holder)
    (hstep : step s (.recv worker posted) = some s') (x : σ) :
    SessionStep s s' x (.recv worker posted) := by
  obtain ⟨w, hw, rfl⟩ := Option.map_eq_some_iff.mp hstep
  simp only [Workers.step] at hw
  split at hw
  case h_2 => exact absurd hw (by simp)
  case h_1 session hworker =>
    rw [Option.some.injEq] at hw
    subst hw
    by_cases hx : x = session
    · subst hx
      obtain ⟨holder, hholder⟩ := hheld x
      have hmine := hholder.worker worker .recv hworker
      have hused : s.accept x ≠ .unused := by
        intro hunused
        exact absurd (hholder.unused hunused) (by rw [hmine]; simp)
      -- the worker is the only one in the session
      have honly : ∀ t stage, s.worker t = some (x, stage) → t = worker := by
        intro t stage ht
        rw [hmine] at hholder
        exact (Workers.Holder.worker.inj (hholder.worker t stage ht)).symm
      refine .recv hused hused rfl rfl rfl rfl ?_ ?_
      · intro t stage ht
        have htw := honly t stage ht
        subst htw
        rw [hworker, Option.some.injEq, Prod.mk.injEq] at ht
        exact ht.2.symm
      · intro t stage ht
        have hupdate : Function.update s.worker worker none t = some (x, stage) := ht
        by_cases htw : t = worker
        · rw [htw, Function.update_self] at hupdate
          exact absurd hupdate (by simp)
        · rw [Function.update_of_ne htw] at hupdate
          exact htw (honly t stage hupdate)
    · refine .same (by simp) (Same.refl_of_eq rfl rfl rfl rfl rfl fun t stage => ?_)
      show Function.update s.worker worker none t = _ ↔ _
      by_cases htw : t = worker
      · rw [htw, Function.update_self, hworker]
        simp [Ne.symm hx]
      · rw [Function.update_of_ne htw]

/-- **What one step is for each session.** -/
theorem sessionStep_of_step {a : WorkerAction σ τ} (hheld : ∀ x, ∃ holder, s.HeldBy x holder)
    (hdeliver : Delivers s a) (hstep : step s a = some s') (x : σ) : SessionStep s s' x a := by
  cases a with
  | accept session Handle => exact sessionStep_accept hheld hstep x
  | acceptReady session => exact sessionStep_acceptReady hheld hstep x
  | acceptRecv session posted => exact sessionStep_acceptRecv hstep x
  | arrive session bytes => exact sessionStep_arrive hheld hdeliver hstep x
  | completion worker session op transferSize result =>
      exact sessionStep_completion hheld hdeliver hstep x
  | point worker => exact sessionStep_point hheld hstep x
  | recv worker posted => exact sessionStep_recv hheld hstep x

end Dispatching

end YServerCore
