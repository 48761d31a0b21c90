/-
  YServerCore.Network.Dispatching — the frames of one session, among many.

  Beside the machine of `Network.History` stands the lone session of `Receive.OnRecv`, which takes
  one receive after the other.

  Main results:
    * `Follows.step` — every step keeps a session beside a lone run over its own receives.
    * `dispatched_as_alone` — in every interleaving, the calls made for a session are those of the
      lone run, also in the middle of an `OnRecv`; what happens in other sessions does not matter.
    * `frames_handled` — a session whose stream is well cut has its frames handled whole and in
      order, whatever the other sessions get.
-/
import YServerCore.Network.History
import YServerCore.Receive.Framing

namespace YServerCore

open ByteMemory (Mem)
open RequestHandler (packetSize)
open PacketProcess (Handler)

namespace Dispatching

variable {σ τ : Type*} [DecidableEq σ] [DecidableEq τ] {s s' : Dispatching σ τ} {x : σ}

/-! ## §1. Beside a lone session. -/

/-- The lone session takes these receives one after the other. -/
def Alone (mem : Mem) (chunks : List (List UInt8)) (r : Receiving RequestHandler) : Prop :=
  StepMachine.run (Receiving.step packetSize Handler) (Receiving.start mem) chunks = some r

/-- Where an `OnRecv` is, in terms of the lone session `r` and the chunk it handles: `done` are the
calls it has made. -/
def Doing (r : Receiving RequestHandler) (chunk : List UInt8) (io : ST_IOData)
    (done : List (Call RequestHandler)) : OnRecvStage → Prop
  | .called TransferSize => TransferSize = chunk.length ∧ io = landed r.io chunk ∧ done = []
  | .loop => chunk ≠ [] ∧ ∀ n,
      (r.io.filled chunk).loop packetSize Handler (done.length + n)
        = { io.loop packetSize Handler n with
            calls := done ++ (io.loop packetSize Handler n).calls }
  | .left => chunk ≠ [] ∧ ∃ n, (r.io.filled chunk).loop packetSize Handler n = ⟨.exit, io, done⟩
  | .settled => chunk ≠ [] ∧ ∃ n last,
      (r.io.filled chunk).loop packetSize Handler n = ⟨.exit, last, done⟩ ∧ io = last.settle
  | .recv => True

/-- **A session and its lone run**: between two `OnRecv`s the session is where the lone run is, with
the bytes of an outstanding receive in its range; in an `OnRecv` it is on the way from one receive of
the lone run to the next. -/
structure Follows (mem : Mem) (s : Dispatching σ τ) (x : σ) : Prop where
  unused : s.accept x = .unused →
    (s.io x).Data = mem ∧ s.arrived x = [] ∧ s.chunks x = [] ∧ s.calls x = []
  idle : s.accept x ≠ .unused → (∀ t, ¬ s.InOnRecv x t) →
    ∃ r, Alone mem (s.chunks x) r ∧ s.calls x = r.calls ∧ s.io x = landed r.io (s.arrived x)
  busy : ∀ t stage, s.worker t = some (x, stage) → stage ≠ .recv → s.arrived x = []
    ∧ ∃ chunks chunk r done, s.chunks x = chunks ++ [chunk] ∧ Alone mem chunks r
      ∧ s.calls x = r.calls ++ done ∧ Doing r chunk (s.io x) done stage

variable {mem : Mem}

/-- The lone session takes one receive more. -/
theorem Alone.snoc {chunks : List (List UInt8)} {r : Receiving RequestHandler}
    (h : Alone mem chunks r) {chunk : List UInt8} {io : ST_IOData}
    {calls : List (Call RequestHandler)}
    (hreceive : r.io.receive packetSize Handler chunk = some (io, calls)) :
    Alone mem (chunks ++ [chunk]) ⟨io, r.received ++ chunk, r.calls ++ calls⟩ :=
  (StepMachine.run_snoc_eq_some _ _).mpr
    ⟨r, h, (Receiving.step_eq_some packetSize Handler).mpr ⟨io, calls, hreceive, rfl⟩⟩

/-- One point of an `OnRecv`, in front of its `ReadyToRecieve`: the calls it adds, and where it is
then in terms of the lone session. -/
theorem doing_point {r : Receiving RequestHandler} {chunk : List UInt8} {io : ST_IOData}
    {done : List (Call RequestHandler)} {stage : OnRecvStage} {e : ST_IOData × OnRecvStage}
    (h : Doing r chunk io done stage) (hpoint : Workers.onRecvPoint io stage = some e)
    (hne : stage ≠ .settled) :
    Doing r chunk e.1 (done ++ if stage = .loop then callsOf (io.pass packetSize Handler) else [])
      e.2 ∧ e.2 ≠ .recv := by
  cases stage with
  | called TransferSize =>
      simp only [Workers.onRecvPoint, Option.ite_none_left_eq_some, Option.some.injEq] at hpoint
      obtain ⟨hsize, rfl⟩ := hpoint
      obtain ⟨hlen, hio, hdone⟩ := h
      have hchunk : chunk ≠ [] := by
        intro hnil
        rw [hnil] at hlen
        exact hsize hlen
      refine ⟨⟨hchunk, fun n => ?_⟩, by simp⟩
      rw [hdone, hio, hlen]
      show (r.io.filled chunk).loop packetSize Handler (0 + n) = _
      rw [Nat.zero_add]
      rfl
  | loop =>
      obtain ⟨hchunk, hloop⟩ := h
      rw [if_pos rfl]
      cases hpass : io.pass packetSize Handler with
      | exit =>
          simp only [Workers.onRecvPoint, hpass, Option.some.injEq] at hpoint
          subst hpoint
          refine ⟨⟨hchunk, done.length + 1, ?_⟩, by simp⟩
          rw [hloop 1, ST_IOData.loop_exit packetSize Handler hpass]
          rfl
      | outOfTable =>
          simp only [Workers.onRecvPoint, hpass] at hpoint
          exact absurd hpoint (by simp)
      | dispatch c io' =>
          simp only [Workers.onRecvPoint, hpass, Option.some.injEq] at hpoint
          subst hpoint
          refine ⟨⟨hchunk, fun n => ?_⟩, by simp⟩
          -- the turn is the first one of those that are left
          have hturn := hloop (n + 1)
          rw [ST_IOData.loop_dispatch packetSize Handler hpass] at hturn
          show (r.io.filled chunk).loop packetSize Handler ((done ++ [c]).length + n)
            = { io'.loop packetSize Handler n with
                calls := (done ++ [c]) ++ (io'.loop packetSize Handler n).calls }
          rw [List.length_append, List.length_singleton, List.append_assoc,
            Nat.add_assoc, Nat.add_comm 1 n, hturn]
          rfl
  | left =>
      simp only [Workers.onRecvPoint, Option.some.injEq] at hpoint
      subst hpoint
      obtain ⟨hchunk, n, hloop⟩ := h
      rw [if_neg (by simp), List.append_nil]
      exact ⟨⟨hchunk, n, io, hloop, rfl⟩, by simp⟩
  | settled => exact absurd rfl hne
  | recv => exact absurd hpoint (by simp [Workers.onRecvPoint])

omit [DecidableEq σ] [DecidableEq τ] in
/-- **One step** keeps a session beside a lone run over its own receives. -/
theorem Follows.step {a : WorkerAction σ τ} (h : Follows mem s x) (hstep : SessionStep s s' x a) :
    Follows mem s' x := by
  cases hstep with
  | same _ hsame =>
      constructor
      · intro hunused
        rw [hsame.io, hsame.arrived, hsame.chunks, hsame.calls]
        exact h.unused (hsame.unused.mp hunused)
      · intro hused hno
        rw [hsame.io, hsame.arrived, hsame.chunks, hsame.calls]
        refine h.idle (fun hunused => hused (hsame.unused.mpr hunused)) fun t ht => hno t ?_
        obtain ⟨stage, ht, hne⟩ := ht
        exact ⟨stage, (hsame.worker t stage).mpr ht, hne⟩
      · intro t stage ht hne
        rw [hsame.io, hsame.arrived, hsame.chunks, hsame.calls]
        exact h.busy t stage ((hsame.worker t stage).mp ht) hne
  | accept hunused hused hio harr hchunks hcalls hnone =>
      -- a new session starts like a lone one
      obtain ⟨hmem, harr₀, hchunks₀, hcalls₀⟩ := h.unused hunused
      refine ⟨fun hno => absurd hno hused, fun _ _ => ?_, fun t stage ht => absurd ht (hnone t stage)⟩
      refine ⟨Receiving.start mem, ?_, hcalls.trans hcalls₀, ?_⟩
      · rw [hchunks, hchunks₀]
        rfl
      · rw [hio, harr, harr₀, landed_nil, hmem]
        rfl
  | arrive hused hused' hempty hio harr hchunks hcalls hnone hnone' =>
      obtain ⟨r, halone, hcalls₀, hio₀⟩ := h.idle hused fun t ht => hnone t _ ht.choose_spec.1
      refine ⟨fun hno => absurd hno hused', fun _ _ => ?_,
        fun t stage ht => absurd ht (hnone' t stage)⟩
      rw [hempty, landed_nil] at hio₀
      rw [hio, harr, hchunks, hcalls, hio₀]
      exact ⟨r, halone, hcalls₀, rfl⟩
  | completion hused hused' hsize hio harr hchunks hcalls hnone hworker honly =>
      obtain ⟨r, halone, hcalls₀, hio₀⟩ := h.idle hused fun t ht => hnone t _ ht.choose_spec.1
      refine ⟨fun hno => absurd hno hused', fun _ hno => ?_, fun t stage ht _ => ?_⟩
      · exact absurd ⟨_, hworker, by simp⟩ (hno _)
      · rw [honly t stage ht]
        refine ⟨harr, s.chunks x, s.arrived x, r, [], hchunks, halone, ?_, hsize, ?_, rfl⟩
        · rw [List.append_nil, hcalls, hcalls₀]
        · rw [hio, hio₀]
  | point hused' hworker hpoint hio harr hchunks hcalls hworker' honly =>
      rename_i worker stage e
      have hnotrecv : stage ≠ .recv := by
        rintro rfl
        exact absurd hpoint (by simp [Workers.onRecvPoint])
      obtain ⟨harr₀, chunks, chunk, r, done, hchunks₀, halone, hcalls₀, hdoing⟩ :=
        h.busy worker stage hworker hnotrecv
      refine ⟨fun hno => absurd hno hused', fun _ hno => ?_, fun t stage' ht hne => ?_⟩
      · -- the point led to `ReadyToRecieve`, or the worker would still be in the `OnRecv`
        have hsettled : stage = .settled := by
          by_contra hne
          obtain ⟨-, hstay⟩ := doing_point hdoing hpoint hne
          exact hno worker ⟨e.2, hworker', hstay⟩
        subst hsettled
        simp only [Workers.onRecvPoint, Option.some.injEq] at hpoint
        subst hpoint
        obtain ⟨hchunk, n, last, hloop, hlast⟩ := hdoing
        have hreceive : r.io.receive packetSize Handler chunk
            = some ((s.io x).ReadyToRecieve.1, done) :=
          (ST_IOData.receive_eq_some packetSize Handler).mpr
            ⟨hchunk, n, by rw [hloop], by rw [hloop, hlast], by rw [hloop]⟩
        refine ⟨⟨(s.io x).ReadyToRecieve.1, r.received ++ chunk, r.calls ++ done⟩, ?_, ?_, ?_⟩
        · rw [hchunks, hchunks₀]
          exact halone.snoc hreceive
        · rw [hcalls, if_neg (by simp), List.append_nil, hcalls₀]
        · rw [hio, harr, harr₀, landed_nil]
      · have hstage := honly t stage' ht
        subst hstage
        have hnotsettled : stage ≠ .settled := by
          rintro rfl
          simp only [Workers.onRecvPoint, Option.some.injEq] at hpoint
          exact hne (hpoint ▸ rfl)
        obtain ⟨hdoing', -⟩ := doing_point hdoing hpoint hnotsettled
        refine ⟨harr.trans harr₀, chunks, chunk, r, done ++ (if stage = .loop then
          callsOf ((s.io x).pass packetSize Handler) else []), hchunks.trans hchunks₀, halone, ?_, ?_⟩
        · rw [hcalls, hcalls₀, List.append_assoc]
        · rw [hio]
          exact hdoing'
  | recv hused hused' hio harr hchunks hcalls honly hnone' =>
      refine ⟨fun hno => absurd hno hused', fun _ _ => ?_,
        fun t stage ht => absurd ht (hnone' t stage)⟩
      rw [hio, harr, hchunks, hcalls]
      refine h.idle hused fun t ht => ?_
      obtain ⟨stage, ht, hne⟩ := ht
      exact hne (honly t stage ht)

/-! ## §2. Whole runs. -/

/-- Every step is one of the workers. -/
theorem workers_step {a : WorkerAction σ τ} (hstep : step s a = some s') :
    Workers.step s.toWorkers a = some s'.toWorkers := by
  obtain ⟨w, hw, rfl⟩ := Option.map_eq_some_iff.mp hstep
  exact hw

omit [DecidableEq σ] [DecidableEq τ] in
theorem follows_start (io : σ → ST_IOData) (x : σ) :
    Follows (io x).Data (start io : Dispatching σ τ) x := by
  constructor
  · exact fun _ => ⟨rfl, rfl, rfl, rfl⟩
  · intro hused
    exact absurd rfl hused
  · intro t stage ht
    exact absurd ht (by simp [start])

/-- **Every run** keeps each session beside a lone run over its own receives. -/
theorem follows_run (io : σ → ST_IOData) (as : List (WorkerAction σ τ)) (s : Dispatching σ τ)
    (hrun : StepMachine.run step (start io) as = some s)
    (hdeliver : StepMachine.Along step Delivers (start io) as) (x : σ) :
    Follows (io x).Data s x := by
  have hsafe : StepMachine.Safe step (fun s => Follows (io x).Data s x) (start io) as := by
    refine StepMachine.safe_of_along (D := Delivers) (I := fun s : Dispatching σ τ =>
      (∀ y, ∃ holder, s.HeldBy y holder) ∧ Follows (io x).Data s x) ?_ (fun _ hI => hI.2)
      ⟨Workers.heldBy_start io, follows_start io x⟩ hrun hdeliver
    intro s a s' hI hD hstep
    exact ⟨Workers.heldBy_step hI.1 (workers_step hstep),
      hI.2.step (sessionStep_of_step hI.1 hD hstep x)⟩
  obtain ⟨s', hs', h⟩ := hsafe.last
  rw [hrun, Option.some.injEq] at hs'
  exact hs' ▸ h

omit [DecidableEq σ] [DecidableEq τ] in
/-- A session that no worker is in. -/
theorem Follows.alone (h : Follows mem s x) (hno : ∀ t, ¬ s.InOnRecv x t) :
    ∃ r, Alone mem (s.chunks x) r ∧ s.calls x = r.calls := by
  by_cases hunused : s.accept x = .unused
  · obtain ⟨-, -, hchunks, hcalls⟩ := h.unused hunused
    rw [hchunks, hcalls]
    exact ⟨_, rfl, rfl⟩
  · obtain ⟨r, halone, hcalls, -⟩ := h.idle hunused hno
    exact ⟨r, halone, hcalls⟩

/-- The calls an `OnRecv` has made are those of the turns it has made. -/
theorem Doing.turns {r : Receiving RequestHandler} {chunk : List UInt8} {io : ST_IOData}
    {done : List (Call RequestHandler)} {stage : OnRecvStage} (h : Doing r chunk io done stage)
    (hne : stage ≠ .recv) : ∃ n, done = ((r.io.filled chunk).loop packetSize Handler n).calls := by
  cases stage with
  | called TransferSize =>
      refine ⟨0, ?_⟩
      rw [h.2.2]
      rfl
  | loop =>
      refine ⟨done.length + 0, ?_⟩
      rw [h.2 0]
      exact (List.append_nil done).symm
  | left =>
      obtain ⟨-, n, hloop⟩ := h
      exact ⟨n, by rw [hloop]⟩
  | settled =>
      obtain ⟨-, n, last, hloop, -⟩ := h
      exact ⟨n, by rw [hloop]⟩
  | recv => exact absurd rfl hne

omit [DecidableEq σ] [DecidableEq τ] in
/-- A session that a worker is in. -/
theorem Follows.inside (h : Follows mem s x) {t : τ} (ht : s.InOnRecv x t) :
    ∃ chunks chunk r done n, s.chunks x = chunks ++ [chunk] ∧ Alone mem chunks r
      ∧ s.calls x = r.calls ++ done
      ∧ done = ((r.io.filled chunk).loop packetSize Handler n).calls := by
  obtain ⟨stage, ht, hne⟩ := ht
  obtain ⟨-, chunks, chunk, r, done, hchunks, halone, hcalls, hdoing⟩ := h.busy t stage ht hne
  obtain ⟨n, hn⟩ := hdoing.turns hne
  exact ⟨chunks, chunk, r, done, n, hchunks, halone, hcalls, hn⟩

/-- **The frames of a session are those of a lone run.**  For any sessions, any number of workers and
every interleaving of accepts, completions and single turns of the loops, with any bytes received and
any results of the calls, as long as bytes come once into a receive and completions report them: a
session that no worker is in has dispatched exactly what a session on its own dispatches that takes
the same receives one after the other; and in the middle of an `OnRecv` it has dispatched what the
lone one does with the receives before, and a beginning of what the last one brings. -/
theorem dispatched_as_alone (io : σ → ST_IOData) (as : List (WorkerAction σ τ))
    (s : Dispatching σ τ) (hrun : StepMachine.run step (start io) as = some s)
    (hdeliver : StepMachine.Along step Delivers (start io) as) (x : σ) :
    ((∀ t, ¬ s.InOnRecv x t) → ∃ r,
        StepMachine.run (Receiving.step packetSize Handler) (Receiving.start (io x).Data)
          (s.chunks x) = some r ∧ s.calls x = r.calls)
      ∧ ∀ t, s.InOnRecv x t → ∃ chunks chunk r done n, s.chunks x = chunks ++ [chunk]
          ∧ StepMachine.run (Receiving.step packetSize Handler) (Receiving.start (io x).Data)
            chunks = some r
          ∧ s.calls x = r.calls ++ done
          ∧ done = ((r.io.filled chunk).loop packetSize Handler n).calls := by
  have h := follows_run io as s hrun hdeliver x
  exact ⟨fun hno => h.alone hno, fun t ht => h.inside ht⟩

/-- Two sessions, three workers: a move and half of another arrive at the one session while two moves are
handled at the other. -/
theorem dispatched_as_alone_two :
    ∃ s : Dispatching Nat Nat,
      StepMachine.run step (start (fun _ => {}))
          [.accept 7 true, .acceptReady 7, .acceptRecv 7 true, .accept 8 true, .acceptReady 8,
            .acceptRecv 8 true, .arrive 7 Receiving.moveFrame.bytes,
            .arrive 8 (Receiving.moveFrame.bytes ++ Receiving.moveFrame.bytes),
            .completion 1 7 .receive 80 true, .completion 2 8 .receive 160 true, .point 1, .point 2,
            .point 2, .point 1, .completion 3 7 .send 92 true, .point 2, .point 1, .point 1, .point 1,
            .recv 1 true, .arrive 7 (Receiving.moveFrame.bytes.take 40)] = some s
        ∧ (s.calls 7).length = 1 ∧ (s.calls 8).length = 2 ∧ s.worker 2 = some (8, .loop)
        ∧ ∀ t, s.InOnRecv 8 t → ∃ chunks chunk r done n, s.chunks 8 = chunks ++ [chunk]
          ∧ StepMachine.run (Receiving.step packetSize Handler) (Receiving.start (fun _ => 0))
            chunks = some r
          ∧ s.calls 8 = r.calls ++ done
          ∧ done = ((r.io.filled chunk).loop packetSize Handler n).calls := by
  have hend : (StepMachine.run step (start (fun _ => {}) : Dispatching Nat Nat)
      [.accept 7 true, .acceptReady 7, .acceptRecv 7 true, .accept 8 true, .acceptReady 8,
        .acceptRecv 8 true, .arrive 7 Receiving.moveFrame.bytes,
        .arrive 8 (Receiving.moveFrame.bytes ++ Receiving.moveFrame.bytes),
        .completion 1 7 .receive 80 true, .completion 2 8 .receive 160 true, .point 1, .point 2,
        .point 2, .point 1, .completion 3 7 .send 92 true, .point 2, .point 1, .point 1, .point 1,
        .recv 1 true, .arrive 7 (Receiving.moveFrame.bytes.take 40)]).map
        (fun s => ((s.calls 7).length, (s.calls 8).length, s.worker 2))
      = some (1, 2, some (8, .loop)) := by
    decide +kernel
  obtain ⟨s, hs, hall⟩ := Option.map_eq_some_iff.mp hend
  rw [Prod.mk.injEq, Prod.mk.injEq] at hall
  exact ⟨s, hs, hall.1, hall.2.1, hall.2.2,
    (dispatched_as_alone _ _ s hs (by decide +kernel) 8).2⟩

/-! ## §3. Frames. -/

/-- The turns made are the first of those that the whole loop makes. -/
theorem loop_calls_prefix {H : Type*} {packetSize : H → Nat} {table : HandlerTable H} {m : Nat}
    {io : ST_IOData} (hexit : (io.loop packetSize table m).outcome = .exit) (n : Nat) :
    (io.loop packetSize table n).calls <+: (io.loop packetSize table m).calls := by
  induction n generalizing m io with
  | zero => exact List.nil_prefix
  | succ n ih =>
      cases m with
      | zero => exact absurd hexit (by simp [ST_IOData.loop])
      | succ m =>
          cases hpass : io.pass packetSize table with
          | exit =>
              rw [ST_IOData.loop_exit packetSize table hpass]
              exact List.nil_prefix
          | outOfTable =>
              rw [ST_IOData.loop, hpass] at hexit
              exact absurd hexit (by simp)
          | dispatch c io' =>
              rw [ST_IOData.loop_dispatch packetSize table hpass] at hexit
              rw [ST_IOData.loop_dispatch packetSize table hpass,
                ST_IOData.loop_dispatch packetSize table hpass]
              show c :: _ <+: c :: _
              rw [List.cons_prefix_cons]
              exact ⟨rfl, ih hexit⟩

/-- The receives of a stream of frames: each fits the room it was offered, and fills the buffer or ends
with a frame. -/
structure WellCut (fs : List ClientFrame) (mem : Mem) (chunks : List (List UInt8)) : Prop where
  stream : chunks.flatten <+: FrameStream.stream ClientFrame.bytes fs
  fits : StepMachine.Along (Receiving.step packetSize Handler) Receiving.Fits (Receiving.start mem)
    chunks
  cut : StepMachine.Along (Receiving.step packetSize Handler) (Receiving.FillsOrEnds fs)
    (Receiving.start mem) chunks

/-- A lone session with such receives is aligned behind them. -/
theorem WellCut.aligned {fs : List ClientFrame} {chunks : List (List UInt8)}
    (h : WellCut fs mem chunks) {r : Receiving RequestHandler} (hr : Alone mem chunks r) :
    r.received = chunks.flatten ∧ ∃ done todo, Receiving.Aligned fs done todo r := by
  have hsafe := Receiving.aligned_of_fillsOrEnds (Receiving.aligned_start fs mem) h.fits h.stream h.cut
  obtain ⟨t, ht, -, haligned⟩ := hsafe.last
  have htr : t = r := Option.some.inj (ht.symm.trans hr)
  subst htr
  obtain ⟨-, -, hreceived⟩ := Receiving.run_accounted (ST_IOData.OnAccept_idle mem) hr
  exact ⟨hreceived, haligned⟩

/-- The receives in front of the last one. -/
theorem WellCut.front {fs : List ClientFrame} {chunks : List (List UInt8)} {chunk : List UInt8}
    (h : WellCut fs mem (chunks ++ [chunk])) : WellCut fs mem chunks := by
  refine ⟨?_, ((StepMachine.along_snoc _ _).mp h.fits).1, ((StepMachine.along_snoc _ _).mp h.cut).1⟩
  have hstream := h.stream
  rw [List.flatten_append] at hstream
  exact (List.prefix_append _ _).trans hstream

omit [DecidableEq σ] [DecidableEq τ] in
/-- A session beside a lone run, with such receives, has handed on a beginning of its complete frames,
and all of them when no worker is in it. -/
theorem Follows.framed {fs : List ClientFrame} (h : Follows mem s x)
    (hcut : WellCut fs mem (s.chunks x)) :
    (s.calls x).map Call.passed
        <+: (FrameStream.complete ClientFrame.bytes fs (s.chunks x).flatten.length).map
          ClientFrame.passed
      ∧ ((∀ t, ¬ s.InOnRecv x t) → (s.calls x).map Call.passed
        = (FrameStream.complete ClientFrame.bytes fs (s.chunks x).flatten.length).map
          ClientFrame.passed) := by
  have hidle : (∀ t, ¬ s.InOnRecv x t) → (s.calls x).map Call.passed
      = (FrameStream.complete ClientFrame.bytes fs (s.chunks x).flatten.length).map
        ClientFrame.passed := by
    intro hno
    obtain ⟨r, halone, hcalls⟩ := h.alone hno
    obtain ⟨hreceived, done, todo, haligned⟩ := hcut.aligned halone
    rw [hcalls, ← hreceived]
    exact haligned.framed
  refine ⟨?_, hidle⟩
  by_cases hno : ∀ t, ¬ s.InOnRecv x t
  · rw [hidle hno]
  · push Not at hno
    obtain ⟨t, ht⟩ := hno
    obtain ⟨chunks, chunk, r, done, n, hchunks, halone, hcalls, hdone⟩ := h.inside ht
    rw [hchunks] at hcut ⊢
    obtain ⟨hreceived, front, todo, haligned⟩ := hcut.front.aligned halone
    have hfits := (StepMachine.along_snoc_of_run halone chunk).mp hcut.fits
    have hstream : r.received ++ chunk <+: FrameStream.stream ClientFrame.bytes fs := by
      have hall := hcut.stream
      rw [List.flatten_append, List.flatten_singleton, ← hreceived] at hall
      exact hall
    obtain ⟨whole, post, part, io', calls, hr⟩ :=
      Receiving.aligned_receive haligned hfits.2.ne_nil hstream
    -- the calls made are the first of those that the whole `OnRecv` makes
    obtain ⟨-, m, hexit, -, hloop⟩ := (ST_IOData.receive_eq_some packetSize Handler).mp hr.handled
    have hprefix : done <+: calls := by
      rw [hdone, hloop]
      exact loop_calls_prefix hexit n
    have hlength : (chunks ++ [chunk]).flatten.length
        = (FrameStream.stream ClientFrame.bytes (front ++ whole)).length + part.length := by
      have hbytes := congrArg List.length hr.bytes
      rw [List.length_append, List.length_append] at hbytes
      rw [List.flatten_append, List.flatten_singleton, List.length_append, ← hreceived,
        haligned.received, List.length_append, FrameStream.stream_append, List.length_append]
      omega
    have hcomplete : FrameStream.complete ClientFrame.bytes fs (chunks ++ [chunk]).flatten.length
        = front ++ whole := by
      have hfs : fs = (front ++ whole) ++ post := by
        rw [haligned.frames, hr.frames, List.append_assoc]
      refine FrameStream.complete_unique ClientFrame.bytes hfs (by omega) fun g rest hg => ?_
      have hshort := hr.part_short g rest hg
      omega
    rw [hcomplete, hcalls, List.map_append, List.map_append, haligned.dispatched,
      List.prefix_append_right_inj, ← hr.dispatched]
    exact hprefix.map _

/-- **Frames are handled whole and in order, whatever happens beside them.**  In every interleaving,
with any bytes in the other sessions and any faults there: for a session whose own receives are cut
from a stream of frames so that each fills the buffer or ends with a frame, the handlers have been
given the first of the frames received, in their order and each once; and when no worker is in an
`OnRecv` of the session, they have been given all that are complete. -/
theorem frames_handled (io : σ → ST_IOData) (as : List (WorkerAction σ τ)) (s : Dispatching σ τ)
    (hrun : StepMachine.run step (start io) as = some s)
    (hdeliver : StepMachine.Along step Delivers (start io) as) (x : σ) (fs : List ClientFrame)
    (hcut : WellCut fs (io x).Data (s.chunks x)) :
    (s.calls x).map Call.passed
        <+: (FrameStream.complete ClientFrame.bytes fs (s.chunks x).flatten.length).map
          ClientFrame.passed
      ∧ ((∀ t, ¬ s.InOnRecv x t) → (s.calls x).map Call.passed
        = (FrameStream.complete ClientFrame.bytes fs (s.chunks x).flatten.length).map
          ClientFrame.passed) :=
  (follows_run io as s hrun hdeliver x).framed hcut

/-- A move is handled for one session while the other gets a header of a type without a handler. -/
theorem frames_handled_beside_garbage :
    ∃ s : Dispatching Nat Nat,
      StepMachine.run step (start (fun _ => {}))
          [.accept 7 true, .acceptReady 7, .acceptRecv 7 true, .accept 8 true, .acceptReady 8,
            .acceptRecv 8 true, .arrive 7 Receiving.moveFrame.bytes,
            .arrive 8 ([9, 0, 0, 0, 44, 0, 0, 0] ++ List.replicate 60 0),
            .completion 1 7 .receive 80 true, .completion 2 8 .receive 68 true, .point 1, .point 2,
            .point 2, .point 1, .point 1, .point 2, .point 1, .point 1, .recv 1 true] = some s
        ∧ (s.calls 8).length = 0
        ∧ (s.calls 7).map Call.passed <+: [Receiving.moveFrame.passed]
        ∧ ((∀ t, ¬ s.InOnRecv 7 t) → (s.calls 7).map Call.passed = [Receiving.moveFrame.passed]) := by
  have hend : (StepMachine.run step (start (fun _ => {}) : Dispatching Nat Nat)
      [.accept 7 true, .acceptReady 7, .acceptRecv 7 true, .accept 8 true, .acceptReady 8,
        .acceptRecv 8 true, .arrive 7 Receiving.moveFrame.bytes,
        .arrive 8 ([9, 0, 0, 0, 44, 0, 0, 0] ++ List.replicate 60 0),
        .completion 1 7 .receive 80 true, .completion 2 8 .receive 68 true, .point 1, .point 2,
        .point 2, .point 1, .point 1, .point 2, .point 1, .point 1, .recv 1 true]).map
        (fun s => ((s.calls 8).length, s.chunks 7))
      = some (0, [Receiving.moveFrame.bytes]) := by
    decide +kernel
  obtain ⟨s, hs, hall⟩ := Option.map_eq_some_iff.mp hend
  rw [Prod.mk.injEq] at hall
  have hcut : WellCut [Receiving.moveFrame, Receiving.moveFrame] (fun _ => 0) (s.chunks 7) := by
    rw [hall.2]
    refine ⟨⟨Receiving.moveFrame.bytes, rfl⟩, by decide +kernel, Or.inr ?_, fun _ _ => trivial⟩
    exact ⟨[Receiving.moveFrame], [Receiving.moveFrame], rfl, rfl⟩
  have hframes := frames_handled _ _ s hs (by decide +kernel) 7 _ hcut
  have hone : FrameStream.complete ClientFrame.bytes [Receiving.moveFrame, Receiving.moveFrame]
      (s.chunks 7).flatten.length = [Receiving.moveFrame] := by
    rw [hall.2]
    rfl
  rw [hone] at hframes
  exact ⟨s, hs, hall.1, hframes⟩

end Dispatching

end YServerCore
