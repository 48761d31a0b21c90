/-
  YServerCore.Lib.WriteBuffer — a buffer that any number of writers append to and flush.

  A writer makes two moves for a message: it appends the message to the buffer, and later it
  flushes the buffer, whoever's messages are in it by then.  Between the two it waits.  Nothing
  here refers to a particular buffer.

  Main results:
    * `Ordered.all_flushed` — when no writer waits, everything has been flushed.
    * `run_ordered` — after every run the flushed letters followed by the buffered ones are the
      messages in the order of their appends, and a writer that has flushed finds its message
      among the flushed letters.
-/
import Mathlib.Data.List.Infix
import Mathlib.Logic.Function.Basic
import YServerCore.Lib.StepMachine

namespace WriteBuffer

variable {τ α : Type*}

/-! ## §1. The buffer. -/

/-- What has been flushed and what is buffered; the messages with their writers in the order of the
appends, each waiting writer with the number of its message, and the writers that are done. -/
structure Buffer (τ α : Type*) where
  out : List α := []
  buf : List α := []
  log : List (τ × List α) := []
  waiting : τ → Option Nat := fun _ => none
  done : List (τ × Nat) := []

/-- The moves of a writer. -/
inductive Action (τ α : Type*) where
  | append (t : τ) (message : List α)
  | flush (t : τ)

/-- The appends with their writers, in order. -/
def messages : List (Action τ α) → List (τ × List α)
  | [] => []
  | .append t message :: as => (t, message) :: messages as
  | .flush _ :: as => messages as

theorem messages_append (as bs : List (Action τ α)) :
    messages (as ++ bs) = messages as ++ messages bs := by
  induction as with
  | nil => rfl
  | cons a as ih =>
      cases a with
      | append t message => exact congrArg ((t, message) :: ·) ih
      | flush t => exact ih

variable [DecidableEq τ]

/-- A writer that does not wait appends; a writer that waits flushes. -/
def step (s : Buffer τ α) : Action τ α → Option (Buffer τ α)
  | .append t message =>
      match s.waiting t with
      | some _ => none
      | none =>
          some { s with
            buf := s.buf ++ message
            log := s.log ++ [(t, message)]
            waiting := Function.update s.waiting t (some s.log.length) }
  | .flush t =>
      match s.waiting t with
      | none => none
      | some k =>
          some { s with
            out := s.out ++ s.buf
            buf := []
            waiting := Function.update s.waiting t none
            done := s.done ++ [(t, k)] }

/-- **An append** is of a writer that does not wait, which waits for its number then. -/
theorem step_append {s s' : Buffer τ α} {t : τ} {message : List α}
    (hstep : step s (.append t message) = some s') :
    s.waiting t = none ∧ s' = { s with
      buf := s.buf ++ message
      log := s.log ++ [(t, message)]
      waiting := Function.update s.waiting t (some s.log.length) } := by
  cases hw : s.waiting t with
  | some k =>
      rw [step, hw] at hstep
      exact absurd hstep (by simp)
  | none =>
      rw [step, hw, Option.some.injEq] at hstep
      exact ⟨rfl, hstep.symm⟩

/-- **A flush** is of a writer that waits, which is done then. -/
theorem step_flush {s s' : Buffer τ α} {t : τ} (hstep : step s (.flush t) = some s') :
    ∃ k, s.waiting t = some k ∧ s' = { s with
      out := s.out ++ s.buf
      buf := []
      waiting := Function.update s.waiting t none
      done := s.done ++ [(t, k)] } := by
  cases hw : s.waiting t with
  | none =>
      rw [step, hw] at hstep
      exact absurd hstep (by simp)
  | some k =>
      rw [step, hw, Option.some.injEq] at hstep
      exact ⟨k, rfl, hstep.symm⟩

/-! ## §2. The order is kept. -/

/-- The letters of a log. -/
def letters (log : List (τ × List α)) : List α := (log.map Prod.snd).flatten

omit [DecidableEq τ] in
theorem letters_append (log log' : List (τ × List α)) :
    letters (log ++ log') = letters log ++ letters log' := by
  unfold letters
  rw [List.map_append, List.flatten_append]

/-- The letters are those of the messages in order, a writer's number is that of its own message, and
the messages of the writers that are done have been flushed. -/
structure Ordered (s : Buffer τ α) : Prop where
  order : s.out ++ s.buf = letters s.log
  own : ∀ t k, s.waiting t = some k → (s.log[k]?).map Prod.fst = some t
  flushed : ∀ t k, (t, k) ∈ s.done →
    (s.log[k]?).map Prod.fst = some t ∧ letters (s.log.take (k + 1)) <+: s.out

omit [DecidableEq τ] in
theorem ordered_init : Ordered ({} : Buffer τ α) where
  order := rfl
  own _ _ h := absurd h (by simp)
  flushed _ _ h := absurd h (by simp)

omit [DecidableEq τ] in
/-- An entry of a log that grows stays where it is. -/
theorem own_append {log : List (τ × List α)} {t : τ} {k : Nat}
    (h : (log[k]?).map Prod.fst = some t) (log' : List (τ × List α)) :
    k < log.length ∧ ((log ++ log')[k]?).map Prod.fst = some t := by
  have hlt : k < log.length := by
    by_contra hge
    rw [List.getElem?_eq_none (by omega)] at h
    exact absurd h (by simp)
  refine ⟨hlt, ?_⟩
  rw [List.getElem?_append_left hlt]
  exact h

/-- An append keeps the order. -/
theorem append_ordered {s s' : Buffer τ α} (h : Ordered s) {t : τ} {message : List α}
    (hstep : step s (.append t message) = some s') :
    Ordered s' ∧ s'.log = s.log ++ [(t, message)] := by
  obtain ⟨-, rfl⟩ := step_append hstep
  refine ⟨⟨?_, fun u k hu => ?_, fun u k hu => ?_⟩, rfl⟩
  · show s.out ++ (s.buf ++ message) = letters (s.log ++ [(t, message)])
    rw [letters_append, ← h.order, List.append_assoc]
    show _ = s.out ++ (s.buf ++ (message ++ []))
    rw [List.append_nil]
  · show ((s.log ++ [(t, message)])[k]?).map Prod.fst = some u
    by_cases hut : u = t
    · -- the writer itself has the number behind all earlier ones
      rw [hut] at hu ⊢
      have hk := (Function.update_self t (some s.log.length) s.waiting).symm.trans hu
      rw [Option.some.injEq] at hk
      rw [← hk, List.getElem?_concat_length]
      rfl
    · have hold := h.own u k ((Function.update_of_ne hut _ s.waiting).symm.trans hu)
      exact (own_append hold _).2
  · obtain ⟨hold, hpre⟩ := h.flushed u k hu
    obtain ⟨hlt, hown⟩ := own_append hold [(t, message)]
    refine ⟨hown, ?_⟩
    show letters ((s.log ++ [(t, message)]).take (k + 1)) <+: s.out
    rw [List.take_append_of_le_length (by omega)]
    exact hpre

/-- A flush keeps the order, and its writer's message has been flushed. -/
theorem flush_ordered {s s' : Buffer τ α} (h : Ordered s) {t : τ}
    (hstep : step s (.flush t) = some s') : Ordered s' ∧ s'.log = s.log := by
  obtain ⟨n, hw, rfl⟩ := step_flush hstep
  refine ⟨⟨?_, fun u k hu => ?_, fun u k hu => ?_⟩, rfl⟩
  · show (s.out ++ s.buf) ++ [] = letters s.log
    rw [List.append_nil, h.order]
  · by_cases hut : u = t
    · rw [hut] at hu
      have hk := (Function.update_self t none s.waiting).symm.trans hu
      exact absurd hk (by simp)
    · exact h.own u k ((Function.update_of_ne hut _ s.waiting).symm.trans hu)
  · show (s.log[k]?).map Prod.fst = some u ∧ letters (s.log.take (k + 1)) <+: s.out ++ s.buf
    rcases List.mem_append.mp hu with hold | hnew
    · obtain ⟨hk, hpre⟩ := h.flushed u k hold
      exact ⟨hk, hpre.trans (List.prefix_append _ _)⟩
    · -- everything is flushed now, so every message is, the writer's own one too
      rw [List.mem_singleton, Prod.mk.injEq] at hnew
      obtain ⟨rfl, rfl⟩ := hnew
      refine ⟨h.own u k hw, ?_⟩
      rw [h.order]
      exact ((List.take_prefix (k + 1) s.log).map Prod.snd).flatten

/-- A move of any writer keeps the order. -/
theorem step_ordered {s s' : Buffer τ α} {a : Action τ α} (h : Ordered s)
    (hstep : step s a = some s') : Ordered s' := by
  cases a with
  | append t message => exact (append_ordered h hstep).1
  | flush t => exact (flush_ordered h hstep).1

/-- What is buffered is buffered for a writer that waits. -/
def Attended (s : Buffer τ α) : Prop := s.buf = [] ∨ ∃ t, s.waiting t ≠ none

theorem step_attended {s s' : Buffer τ α} {a : Action τ α} (hstep : step s a = some s') :
    Attended s' := by
  cases a with
  | append t message =>
      obtain ⟨-, rfl⟩ := step_append hstep
      exact Or.inr ⟨t, by simp⟩
  | flush t =>
      obtain ⟨k, -, rfl⟩ := step_flush hstep
      exact Or.inl rfl

omit [DecidableEq τ] in
/-- **When nobody waits**, everything has been flushed. -/
theorem Ordered.all_flushed {s : Buffer τ α} (h : Ordered s) (hattended : Attended s)
    (hidle : ∀ t, s.waiting t = none) : s.out = letters s.log ∧ s.buf = [] := by
  have hempty : s.buf = [] := by
    rcases hattended with hempty | ⟨t, ht⟩
    · exact hempty
    · exact absurd (hidle t) ht
  have horder := h.order
  rw [hempty, List.append_nil] at horder
  exact ⟨horder, hempty⟩

/-- **The order after every run.** -/
theorem run_ordered {as : List (Action τ α)} {s : Buffer τ α}
    (hrun : StepMachine.run step {} as = some s) : Ordered s ∧ s.log = messages as := by
  refine StepMachine.run_history (P := fun as s => Ordered s ∧ s.log = messages as)
    ⟨ordered_init, rfl⟩ ?_ hrun
  intro as s a s' _ ih hstep
  obtain ⟨hord, hlog⟩ := ih
  rw [messages_append]
  cases a with
  | append t message =>
      obtain ⟨hord', hlog'⟩ := append_ordered hord hstep
      refine ⟨hord', ?_⟩
      rw [hlog', hlog]
      rfl
  | flush t =>
      obtain ⟨hord', hlog'⟩ := flush_ordered hord hstep
      refine ⟨hord', ?_⟩
      rw [hlog', hlog]
      exact (List.append_nil _).symm

end WriteBuffer
