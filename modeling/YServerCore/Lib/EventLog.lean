/-
  YServerCore.Lib.EventLog — logs whose entries are justified by the entries before them.

  A log is a list that grows at its end.  `Justified Q log` says that `Q` holds of every entry and
  the part of the log in front of it: what happened was allowed by what had happened before.
  Nothing here refers to a particular system.

  Main result: `justified_snoc` — a log stays justified exactly when the new entry is.
-/
import Mathlib.Data.List.Basic

namespace EventLog

variable {α : Type*}

/-- Every entry is justified by the entries before it. -/
def Justified (Q : List α → α → Prop) (log : List α) : Prop :=
  ∀ past e rest, log = past ++ e :: rest → Q past e

theorem justified_nil (Q : List α → α → Prop) : Justified Q [] := by
  intro past e rest h
  exact absurd h.symm (by simp)

/-- **One more entry.** -/
theorem justified_snoc {Q : List α → α → Prop} {log : List α} {e : α} :
    Justified Q (log ++ [e]) ↔ Justified Q log ∧ Q log e := by
  constructor
  · intro h
    constructor
    · intro past d rest hlog
      apply h past d (rest ++ [e])
      rw [hlog, List.append_assoc, List.cons_append]
    · exact h log e [] rfl
  · intro h past d rest hlog
    obtain ⟨hold, hnew⟩ := h
    -- the entry in question is the new one, or one of the old log
    rcases List.eq_nil_or_concat rest with rfl | ⟨front, last, rfl⟩
    · obtain ⟨rfl, hd⟩ := List.append_inj' hlog rfl
      rw [List.cons.injEq] at hd
      rw [← hd.1]
      exact hnew
    · rw [List.concat_eq_append, ← List.cons_append, ← List.append_assoc] at hlog
      obtain ⟨hfront, -⟩ := List.append_inj' hlog rfl
      exact hold past d front hfront

end EventLog
