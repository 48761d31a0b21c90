/-
  YServerCore.Lib.FrameStream — a stream that is a sequence of frames.

  A frame has its letters (`letters : F → List α`); a stream is the concatenation of its frames.
  `complete letters fs n` are the frames whose last letter is among the first `n` letters of the
  stream: what a receiver may know of the frames once it has got `n` letters.

  Main results:
    * `complete_unique` — the complete frames are the only prefix of the frames that fits into
      the letters received while the next frame does not.
    * `split_stream` — a prefix of the stream is the complete frames and a proper part of the
      next one.
    * `complete_append` — the complete frames after more letters: first the old ones, then those
      of the stream that is left.
    * `onBoundary_iff` — a boundary is where the complete frames use up the letters received.
-/
import Mathlib.Data.List.Basic

namespace FrameStream

variable {F α : Type*} (letters : F → List α)

/-- The letters of a sequence of frames. -/
def stream (fs : List F) : List α := (fs.map letters).flatten

/-- The frames that end within the first `n` letters. -/
def complete : List F → Nat → List F
  | [], _ => []
  | f :: fs, n =>
      if (letters f).length ≤ n then f :: complete fs (n - (letters f).length) else []

/-- A frame ends (or the first one starts) after exactly `n` letters. -/
def OnBoundary (fs : List F) (n : Nat) : Prop :=
  ∃ pre post, fs = pre ++ post ∧ (stream letters pre).length = n

@[simp] theorem stream_nil : stream letters ([] : List F) = [] := rfl

@[simp] theorem stream_cons (f : F) (fs : List F) :
    stream letters (f :: fs) = letters f ++ stream letters fs := rfl

@[simp] theorem stream_append (fs gs : List F) :
    stream letters (fs ++ gs) = stream letters fs ++ stream letters gs := by
  unfold stream
  rw [List.map_append, List.flatten_append]

/-- **The complete frames are determined** by fitting in while the next frame does not. -/
theorem complete_unique {fs pre post : List F} {n : Nat} (hfs : fs = pre ++ post)
    (hfit : (stream letters pre).length ≤ n)
    (hnext : ∀ g rest, post = g :: rest → n < (stream letters pre).length + (letters g).length) :
    complete letters fs n = pre := by
  induction pre generalizing fs n with
  | nil =>
      rw [hfs, List.nil_append]
      cases post with
      | nil => rfl
      | cons g rest =>
          have := hnext g rest rfl
          rw [stream_nil, List.length_nil] at this
          show (if (letters g).length ≤ n then _ else _) = _
          rw [if_neg (by omega)]
  | cons f pre ih =>
      subst hfs
      rw [stream_cons, List.length_append] at hfit
      -- the first frame fits, so it is complete; the others are settled by what is left of `n`
      show (if (letters f).length ≤ n then _ else _) = _
      rw [if_pos (by omega)]
      refine congrArg (f :: ·) (ih rfl (by omega) fun g rest hpost => ?_)
      have := hnext g rest hpost
      rw [stream_cons, List.length_append] at this
      omega

/-- The complete frames stand in front, fit in, and the next frame does not. -/
theorem complete_spec (fs : List F) (n : Nat) :
    ∃ post, fs = complete letters fs n ++ post
      ∧ (stream letters (complete letters fs n)).length ≤ n
      ∧ ∀ g rest, post = g :: rest →
          n < (stream letters (complete letters fs n)).length + (letters g).length := by
  induction fs generalizing n with
  | nil => exact ⟨[], rfl, Nat.zero_le n, fun g rest h => absurd h (by simp)⟩
  | cons f fs ih =>
      unfold complete
      by_cases hf : (letters f).length ≤ n
      · -- the frame fits: the rest of the letters decides about the other frames
        rw [if_pos hf]
        obtain ⟨post, hpost, hfit, hnext⟩ := ih (n - (letters f).length)
        refine ⟨post, by rw [List.cons_append, ← hpost], ?_, fun g rest hg => ?_⟩
        · rw [stream_cons, List.length_append]
          omega
        · have := hnext g rest hg
          rw [stream_cons, List.length_append]
          omega
      · -- the frame does not fit, and it is the next one
        rw [if_neg hf]
        refine ⟨f :: fs, rfl, Nat.zero_le n, fun g rest hg => ?_⟩
        obtain ⟨rfl, -⟩ := List.cons.inj hg
        rw [stream_nil, List.length_nil]
        omega

/-- Once the whole stream is there, every frame is complete. -/
theorem complete_all (fs : List F) : complete letters fs (stream letters fs).length = fs :=
  complete_unique letters (List.append_nil fs).symm (Nat.le_refl _)
    (fun g rest h => absurd h (by simp))

/-- **A prefix of the stream** is its complete frames and a proper part of the next frame. -/
theorem split_stream {fs : List F} {got : List α} (hgot : got <+: stream letters fs) :
    ∃ post part, fs = complete letters fs got.length ++ post
      ∧ got = stream letters (complete letters fs got.length) ++ part
      ∧ (∃ rest, part ++ rest = stream letters post)
      ∧ ∀ g rest, post = g :: rest → part.length < (letters g).length := by
  obtain ⟨post, hpost, hfit, hnext⟩ := complete_spec letters fs got.length
  obtain ⟨more, hmore⟩ := hgot
  have hstream : stream letters fs = stream letters (complete letters fs got.length)
      ++ stream letters post := by
    rw [← stream_append, ← hpost]
  -- the complete frames are a prefix of what was got, and the part is what is left of it
  have hpre : stream letters (complete letters fs got.length) <+: got := by
    have hwhole : stream letters (complete letters fs got.length) <+: stream letters fs :=
      ⟨stream letters post, hstream.symm⟩
    exact List.prefix_of_prefix_length_le hwhole ⟨more, hmore⟩ hfit
  obtain ⟨part, hpart⟩ := hpre
  refine ⟨post, part, hpost, hpart.symm, ⟨more, ?_⟩, fun g rest hg => ?_⟩
  · have hsame : stream letters (complete letters fs got.length) ++ (part ++ more)
        = stream letters (complete letters fs got.length) ++ stream letters post := by
      rw [← List.append_assoc, hpart, hmore, hstream]
    exact List.append_cancel_left hsame
  · have hlt := hnext g rest hg
    have hlen := congrArg List.length hpart
    rw [List.length_append] at hlen
    omega

/-- **More letters**: the complete frames are the old ones and those of the stream behind them. -/
theorem complete_append {fs done todo : List F} (hfs : fs = done ++ todo) (n : Nat) :
    complete letters fs ((stream letters done).length + n) = done ++ complete letters todo n := by
  obtain ⟨post, hpost, hfit, hnext⟩ := complete_spec letters todo n
  have hsplit : fs = (done ++ complete letters todo n) ++ post := by
    rw [hfs, List.append_assoc, ← hpost]
  refine complete_unique letters hsplit ?_ fun g rest hg => ?_
  · rw [stream_append, List.length_append]
    omega
  · have := hnext g rest hg
    rw [stream_append, List.length_append]
    omega

/-- After `n` letters there is a boundary exactly when the complete frames use them all up. -/
theorem onBoundary_iff (fs : List F) (n : Nat) :
    OnBoundary letters fs n ↔ (stream letters (complete letters fs n)).length = n := by
  refine ⟨fun h => ?_, fun h => ?_⟩
  · obtain ⟨pre, post, hfs, rfl⟩ := h
    -- frames without letters behind the boundary are complete too, and use up nothing
    have happ := complete_append letters hfs 0
    rw [Nat.add_zero] at happ
    obtain ⟨-, -, hfit, -⟩ := complete_spec letters post 0
    rw [happ, stream_append, List.length_append]
    omega
  · obtain ⟨post, hpost, -, -⟩ := complete_spec letters fs n
    exact ⟨_, post, hpost, h⟩

end FrameStream
