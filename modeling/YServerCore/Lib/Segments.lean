/-
  YServerCore.Lib.Segments — cutting a list into pieces from the front.

  `head` looks at a list and says whether a piece stands at its front, with a tag and a length.
  `Run head pos xs segs` says that the pieces at the front of `xs`, one behind the other until
  there is no further one, are `segs`; positions are counted from `pos` on.  A piece may have the
  length 0, so not every list has a run.  Nothing here refers to a particular kind of piece.

  Main results:
    * `Run.unique` — a list has at most one run.
    * `Run.contiguous`, `Contiguous.pairwise` — the pieces follow each other without a gap and
      without an overlap.
    * `Run.total_le` — the pieces end inside the list.
-/
import Mathlib.Data.List.Basic

namespace Segments

variable {α β : Type*}

/-- A piece: what it is, where it starts, and how long it is. -/
structure Segment (β : Type*) where
  tag : β
  pos : Nat
  len : Nat
  deriving DecidableEq, Repr

/-! ## §1. Runs. -/

/-- The pieces at the front of a list that stands at a position. -/
inductive Run (head : List α → Option (β × Nat)) : Nat → List α → List (Segment β) → Prop where
  | stop {pos : Nat} {xs : List α} : head xs = none → Run head pos xs []
  | emit {pos len : Nat} {xs : List α} {tag : β} {segs : List (Segment β)} :
      head xs = some (tag, len) → Run head (pos + len) (xs.drop len) segs →
      Run head pos xs (⟨tag, pos, len⟩ :: segs)

variable {head : List α → Option (β × Nat)}

/-- **There is at most one run.** -/
theorem Run.unique {pos : Nat} {xs : List α} {segs segs' : List (Segment β)}
    (h : Run head pos xs segs) (h' : Run head pos xs segs') : segs = segs' := by
  induction h generalizing segs' with
  | stop hnone =>
      cases h' with
      | stop _ => rfl
      | emit hsome _ => exact absurd (hnone.symm.trans hsome) (by simp)
  | emit hsome _ ih =>
      cases h' with
      | stop hnone => exact absurd (hnone.symm.trans hsome) (by simp)
      | emit hsome' hrest' =>
          -- both take the same piece, and go on behind it
          have hsame := hsome.symm.trans hsome'
          rw [Option.some.injEq, Prod.mk.injEq] at hsame
          obtain ⟨rfl, rfl⟩ := hsame
          rw [ih hrest']

/-! ## §2. Pieces in a row. -/

/-- Each piece starts where the one before it ends, the first one at the position. -/
def Contiguous : Nat → List (Segment β) → Prop
  | _, [] => True
  | pos, s :: segs => s.pos = pos ∧ Contiguous (pos + s.len) segs

/-- The length of all pieces together. -/
def total : List (Segment β) → Nat
  | [] => 0
  | s :: segs => s.len + total segs

/-- **The pieces of a run follow each other without a gap.** -/
theorem Run.contiguous {pos : Nat} {xs : List α} {segs : List (Segment β)}
    (h : Run head pos xs segs) : Contiguous pos segs := by
  induction h with
  | stop _ => trivial
  | emit _ _ ih => exact ⟨rfl, ih⟩

/-- Pieces in a row lie between the position and the end of all of them. -/
theorem Contiguous.bounds {pos : Nat} {segs : List (Segment β)} (h : Contiguous pos segs) :
    ∀ s ∈ segs, pos ≤ s.pos ∧ s.pos + s.len ≤ pos + total segs := by
  induction segs generalizing pos with
  | nil =>
      intro s hs
      exact absurd hs (by simp)
  | cons t segs ih =>
      intro s hs
      obtain ⟨hpos, hrest⟩ := h
      rw [total]
      rcases List.mem_cons.mp hs with rfl | hs
      · omega
      · have hin := ih hrest s hs
        omega

/-- **Pieces in a row do not overlap.** -/
theorem Contiguous.pairwise {pos : Nat} {segs : List (Segment β)} (h : Contiguous pos segs) :
    segs.Pairwise (fun s t => s.pos + s.len ≤ t.pos) := by
  induction segs generalizing pos with
  | nil => exact List.Pairwise.nil
  | cons s segs ih =>
      obtain ⟨hpos, hrest⟩ := h
      refine List.Pairwise.cons (fun t ht => ?_) (ih hrest)
      have hin := hrest.bounds t ht
      omega

/-- **The pieces end inside the list**, when every piece at a front does. -/
theorem Run.total_le (hhead : ∀ (xs : List α) (tag : β) (len : Nat),
      head xs = some (tag, len) → len ≤ xs.length)
    {pos : Nat} {xs : List α} {segs : List (Segment β)} (h : Run head pos xs segs) :
    total segs ≤ xs.length := by
  induction h with
  | stop _ => exact Nat.zero_le _
  | @emit pos len xs tag segs hsome _ ih =>
      have hlen := hhead xs tag len hsome
      rw [List.length_drop] at ih
      show len + total segs ≤ xs.length
      omega

end Segments
