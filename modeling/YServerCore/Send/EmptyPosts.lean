/-
  YServerCore.Send.EmptyPosts — sends of no bytes.

  Between its two sections a caller of `SendPacket` has the mutex given back, and whoever posts
  next posts everything that is in the buffer.  A post that comes directly behind another post
  finds nothing, and calls `WSASend` with a length of 0.  Such a send completes with a transfer size
  of 0, which is what `OnSend` takes for a dead connection.

  Main results:
    * `run_empty_iff` — the buffer is empty exactly at the start and directly behind a post.
    * `no_empty_post_iff` — every post of a run has bytes exactly when no two posts of the run
      follow each other directly.
-/
import Mathlib.Data.List.Chain
import YServerCore.Send.SendPacket

namespace YServerCore

open ByteMemory (Mem read write word32)

/-! ## §1. Posts in an interleaving. -/

namespace SendAction

variable {τ : Type*}

/-- The section is the second one of a call. -/
def isPost : SendAction τ → Bool
  | copy _ _ => false
  | post _ => true

/-- The packet of a copy has at least one byte. -/
def HasBytes : SendAction τ → Prop
  | copy _ Packet => 1 ≤ word32 Packet 4
  | post _ => True

end SendAction

namespace Sending

variable {τ : Type*}

/-- No post follows another post directly: between any two of them some caller has copied. -/
def NoPostsInARow (as : List (SendAction τ)) : Prop :=
  List.IsChain (fun a b => ¬ (a.isPost = true ∧ b.isPost = true)) as

instance (as : List (SendAction τ)) : Decidable (NoPostsInARow as) :=
  inferInstanceAs (Decidable (List.IsChain _ as))

/-- A post hands `WSASend` some bytes, and the completion of the whole send is no dead connection. -/
def PostsBytes (s : Sending τ) : SendAction τ → Prop
  | .copy _ _ => True
  | .post _ => s.io.Send.2.2 ≠ 0 ∧ ST_IOData.OnSend s.io.Send.2.2 = false

theorem postsBytes_post_iff (s : Sending τ) (t : τ) :
    PostsBytes s (.post t) ↔ s.io.CurBytes ≠ 0 := by
  show s.io.CurBytes ≠ 0 ∧ decide (s.io.CurBytes = 0) = false ↔ _
  rw [decide_eq_false_iff_not]
  exact and_self_iff

/-! ## §2. When the buffer is empty. -/

/-- The interleaving is at its start, or directly behind a post. -/
def AtPost (as : List (SendAction τ)) : Prop := ∀ a ∈ as.getLast?, a.isPost = true

theorem atPost_snoc (as : List (SendAction τ)) (a : SendAction τ) :
    AtPost (as ++ [a]) ↔ a.isPost = true := by
  unfold AtPost
  rw [List.getLast?_concat]
  simp

theorem noPostsInARow_snoc (as : List (SendAction τ)) (a : SendAction τ) :
    NoPostsInARow (as ++ [a])
      ↔ NoPostsInARow as ∧ ∀ b ∈ as.getLast?, ¬ (b.isPost = true ∧ a.isPost = true) := by
  unfold NoPostsInARow
  rw [List.isChain_append]
  simp

variable [DecidableEq τ]

/-- **The buffer is empty exactly at the start and directly behind a post.** -/
theorem run_empty_iff {Data : Mem} {as : List (SendAction τ)} {s : Sending τ}
    (hrun : StepMachine.run step (start Data) as = some s) (hbytes : ∀ a ∈ as, a.HasBytes) :
    s.io.CurBytes = 0 ↔ AtPost as := by
  revert hbytes
  refine StepMachine.run_history
    (P := fun as s => (∀ a ∈ as, a.HasBytes) → (s.io.CurBytes = 0 ↔ AtPost as)) ?_ ?_ hrun
  · intro _
    exact ⟨fun _ a ha => absurd ha (by simp), fun _ => rfl⟩
  · intro as s a s' _ _ hstep hbytes
    rw [atPost_snoc]
    rcases step_cases hstep with ⟨t, Packet, io, rfl, -, hcopy, rfl⟩ | ⟨t, k, rfl, -, rfl⟩
    · -- the copy has put at least one byte there
      have hsize : 1 ≤ word32 Packet 4 := hbytes _ (List.mem_append_right _ List.mem_cons_self)
      have hcur := (ST_IOData.copyPacket_spec hcopy).2.2.1
      show io.CurBytes = 0 ↔ false = true
      rw [hcur]
      refine ⟨fun hzero => ?_, fun h => absurd h (by simp)⟩
      omega
    · exact ⟨fun _ => rfl, fun _ => rfl⟩

/-! ## §3. Whole runs. -/

/-- No call is under way at the start, so no run starts with a post. -/
theorem not_post_first {Data : Mem} {a : SendAction τ} {s' : Sending τ}
    (hstep : step (start Data) a = some s') : a.isPost = false := by
  rcases step_cases hstep with ⟨t, Packet, io, rfl, -⟩ | ⟨t, k, -, hcall, -⟩
  · rfl
  · exact absurd hcall (by simp [start])

/-- **A section posts bytes exactly when it is no post that directly follows one.** -/
theorem postsBytes_iff {Data : Mem} {as : List (SendAction τ)} {m m' : Sending τ}
    {a : SendAction τ} (hpast : StepMachine.run step (start Data) as = some m)
    (hstep : step m a = some m') (hbytes : ∀ b ∈ as, b.HasBytes) :
    PostsBytes m a ↔ ∀ b ∈ as.getLast?, ¬ (b.isPost = true ∧ a.isPost = true) := by
  cases a with
  | copy t Packet =>
      exact ⟨fun _ b _ hboth => absurd hboth.2 (by simp [SendAction.isPost]), fun _ => trivial⟩
  | post t =>
      rw [postsBytes_post_iff, ne_eq, run_empty_iff hpast hbytes]
      constructor
      · intro hnot b hb hboth
        -- the post behind `b` would find an empty buffer
        apply hnot
        intro c hc
        rw [Option.mem_def] at hb hc
        rw [hb, Option.some.injEq] at hc
        exact hc ▸ hboth.1
      · intro hrow hat
        cases hlast : as.getLast? with
        | none =>
            -- nothing has been copied at all
            rw [List.getLast?_eq_none_iff] at hlast
            rw [hlast, StepMachine.run_nil, Option.some.injEq] at hpast
            exact absurd (not_post_first (hpast ▸ hstep)) (by simp [SendAction.isPost])
        | some b => exact hrow b hlast ⟨hat b hlast, rfl⟩

/-- **Every post has bytes exactly when no two posts follow each other directly.**  For any threads, any
packets of at least one byte and any interleaving of the two sections of their calls. -/
theorem no_empty_post_iff (Data : Mem) (as : List (SendAction τ)) (s : Sending τ)
    (hrun : StepMachine.run step (start Data) as = some s) (hbytes : ∀ a ∈ as, a.HasBytes) :
    StepMachine.Along step PostsBytes (start Data) as ↔ NoPostsInARow as := by
  revert hbytes
  refine StepMachine.run_history
    (P := fun as _ => (∀ a ∈ as, a.HasBytes) →
      (StepMachine.Along step PostsBytes (start Data) as ↔ NoPostsInARow as)) ?_ ?_ hrun
  · exact fun _ => ⟨fun _ => List.isChain_nil, fun _ => trivial⟩
  · intro as m a m' hpast ih hstep hbytes
    have hold : ∀ a ∈ as, a.HasBytes := fun b hb => hbytes b (List.mem_append_left _ hb)
    rw [StepMachine.along_snoc_of_run hpast, noPostsInARow_snoc, ih hold,
      postsBytes_iff hpast hstep hold]

/-- Two threads, one after the other. -/
theorem no_empty_post_in_turn :
    StepMachine.Along step PostsBytes (start (fun _ => 0))
      [.copy false headerPacket, .post false, .copy true headerPacket, .post true] := by
  have hsome : (StepMachine.run step (start (fun _ => 0))
      [.copy false headerPacket, .post false, .copy true headerPacket, .post true]).isSome := by
    decide +kernel
  obtain ⟨s, hs⟩ := Option.isSome_iff_exists.mp hsome
  refine (no_empty_post_iff (fun _ => 0) _ s hs ?_).mpr (by decide)
  intro a ha
  have hsize : 1 ≤ word32 headerPacket 4 := by decide
  simp only [List.mem_cons, List.not_mem_nil, or_false] at ha
  rcases ha with rfl | rfl | rfl | rfl
  · exact hsize
  · trivial
  · exact hsize
  · trivial

/-- **An empty send**: both threads copy before either of them posts, and the second post calls `WSASend`
with no bytes; `OnSend` would close the session for its completion. -/
theorem empty_post_reached :
    ∃ s : Sending Bool,
      StepMachine.run step (start (fun _ => 0))
          [.copy false headerPacket, .copy true headerPacket, .post false] = some s
        ∧ (step s (.post true)).isSome = true ∧ s.io.Send.2.2 = 0
        ∧ ST_IOData.OnSend s.io.Send.2.2 = true ∧ ¬ PostsBytes s (.post true) := by
  refine ⟨_, rfl, rfl, rfl, rfl, fun h => ?_⟩
  exact h.1 rfl

end Sending

end YServerCore
