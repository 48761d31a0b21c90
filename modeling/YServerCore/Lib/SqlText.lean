/-
  YServerCore.Lib.SqlText — how the text of an SQL statement is cut into tokens.

  The scanner is an automaton that reads one byte at a time, with the default lexical rules of MySQL:
  string literals in single or double quotes, names in backticks, words, symbols, and the three
  kinds of comment.  In a literal a doubled quote stands for a quote, and a backslash escapes the
  byte behind it; a text that ends inside a literal, a name or a comment has an unfinished token.
  Operators of several bytes are several symbols, and the prefix of a literal is a word of its own.
  Nothing here refers to a particular system.

  Main results:
    * `tokens_append` — the scanner goes on behind a text from the state it has reached.
    * `tokens_weight` — the tokens are not longer than the text.
    * `tokens_literal`, `plain_of_tokens` — a text between single quotes stands for itself exactly when it
      is plain.
-/
import Mathlib.Data.List.Basic

namespace SqlText

/-! ## §1. The scanner. -/

inductive Token where
  | word (text : List UInt8)
  /-- A name in backticks. -/
  | name (text : List UInt8)
  /-- A string literal, by the bytes it denotes. -/
  | literal (value : List UInt8)
  | symbol (c : UInt8)
  /-- The opening of a comment whose content is executed. -/
  | executable
  | unfinished
  deriving DecidableEq, Repr

/-- Where the scanner is in the text. -/
inductive State where
  | between
  | word (text : List UInt8)
  | literal (quote : UInt8) (value : List UInt8)
  /-- Behind a backslash in a literal. -/
  | escape (quote : UInt8) (value : List UInt8)
  /-- Behind a quote in a literal, which ends it unless it is doubled. -/
  | quote (quote : UInt8) (value : List UInt8)
  | name (text : List UInt8)
  | nameQuote (text : List UInt8)
  | dash
  | dashes
  | slash
  | opened
  | comment
  | star
  | lineComment
  deriving DecidableEq, Repr

/-- Letters, digits, `_`, `$`, and the bytes of characters outside ASCII. -/
def isWord (c : UInt8) : Bool :=
  (48 ≤ c && c ≤ 57) || (65 ≤ c && c ≤ 90) || (97 ≤ c && c ≤ 122) || c = 95 || c = 36 || 128 ≤ c

/-- The blank, and the tabulator up to the carriage return. -/
def isSpace (c : UInt8) : Bool := c = 32 || (9 ≤ c && c ≤ 13)

/-- A byte outside all tokens. -/
def start (c : UInt8) : State × List Token :=
  if c = 39 ∨ c = 34 then (.literal c [], [])
  else if c = 96 then (.name [], [])
  else if c = 35 then (.lineComment, [])
  else if c = 45 then (.dash, [])
  else if c = 47 then (.slash, [])
  else if isWord c then (.word [c], [])
  else if isSpace c then (.between, [])
  else (.between, [.symbol c])

/-- A byte behind tokens that end in front of it. -/
def startBehind (ts : List Token) (c : UInt8) : State × List Token := ((start c).1, ts ++ (start c).2)

/-- What an escaped byte stands for; `\%` and `\_` stand for themselves. -/
def unescape (c : UInt8) : List UInt8 :=
  if c = 37 ∨ c = 95 then [92, c]
  else if c = 48 then [0]
  else if c = 98 then [8]
  else if c = 110 then [10]
  else if c = 114 then [13]
  else if c = 116 then [9]
  else if c = 90 then [26]
  else [c]

/-- One byte: the state behind it, and the tokens that are complete. -/
def next : State → UInt8 → State × List Token
  | .between, c => start c
  | .word text, c => if isWord c then (.word (text ++ [c]), []) else startBehind [.word text] c
  | .literal quote value, c =>
      if c = quote then (.quote quote value, [])
      else if c = 92 then (.escape quote value, [])
      else (.literal quote (value ++ [c]), [])
  | .escape quote value, c => (.literal quote (value ++ unescape c), [])
  | .quote quote value, c =>
      if c = quote then (.literal quote (value ++ [quote]), []) else startBehind [.literal value] c
  | .name text, c => if c = 96 then (.nameQuote text, []) else (.name (text ++ [c]), [])
  | .nameQuote text, c => if c = 96 then (.name (text ++ [96]), []) else startBehind [.name text] c
  | .dash, c => if c = 45 then (.dashes, []) else startBehind [.symbol 45] c
  | .dashes, c =>
      -- two dashes are a comment in front of a blank or a control character only
      if c = 10 then (.between, [])
      else if c ≤ 32 ∨ c = 127 then (.lineComment, [])
      else if c = 45 then (.dashes, [.symbol 45])
      else startBehind [.symbol 45, .symbol 45] c
  | .slash, c => if c = 42 then (.opened, []) else startBehind [.symbol 47] c
  | .opened, c =>
      if c = 33 then (.between, [.executable]) else if c = 42 then (.star, []) else (.comment, [])
  | .comment, c => if c = 42 then (.star, []) else (.comment, [])
  | .star, c =>
      if c = 47 then (.between, []) else if c = 42 then (.star, []) else (.comment, [])
  | .lineComment, c => if c = 10 then (.between, []) else (.lineComment, [])

/-- The end of the text. -/
def finish : State → List Token
  | .between => []
  | .word text => [.word text]
  | .literal _ _ => [.unfinished]
  | .escape _ _ => [.unfinished]
  | .quote _ value => [.literal value]
  | .name _ => [.unfinished]
  | .nameQuote text => [.name text]
  | .dash => [.symbol 45]
  | .dashes => []
  | .slash => [.symbol 47]
  | .opened => [.unfinished]
  | .comment => [.unfinished]
  | .star => [.unfinished]
  | .lineComment => []

/-- The tokens of a text from a state on. -/
def tokens : State → List UInt8 → List Token
  | s, [] => finish s
  | s, c :: cs => (next s c).2 ++ tokens (next s c).1 cs

/-- **The tokens of a text.** -/
def scan (text : List UInt8) : List Token := tokens .between text

/-- The state behind a text, and the tokens complete by then. -/
def feed : State → List UInt8 → State × List Token
  | s, [] => (s, [])
  | s, c :: cs => ((feed (next s c).1 cs).1, (next s c).2 ++ (feed (next s c).1 cs).2)

/-- **The scanner goes on** from the state it has reached. -/
theorem tokens_append (s : State) (front back : List UInt8) :
    tokens s (front ++ back) = (feed s front).2 ++ tokens (feed s front).1 back := by
  induction front generalizing s with
  | nil => rfl
  | cons c cs ih =>
      show (next s c).2 ++ tokens (next s c).1 (cs ++ back) = _
      rw [ih, ← List.append_assoc]
      rfl

/-! ## §2. The tokens are not longer than the text. -/

/-- The bytes a token takes at least. -/
def Token.weight : Token → Nat
  | .word text => text.length
  | .name text => text.length + 2
  | .literal value => value.length + 2
  | .symbol _ => 1
  | .executable => 3
  | .unfinished => 1

def weights : List Token → Nat
  | [] => 0
  | t :: ts => t.weight + weights ts

theorem weights_append (ts ts' : List Token) : weights (ts ++ ts') = weights ts + weights ts' := by
  induction ts with
  | nil =>
      show weights ts' = 0 + weights ts'
      omega
  | cons t ts ih =>
      show t.weight + weights (ts ++ ts') = t.weight + weights ts + weights ts'
      omega

/-- The bytes the token a state is in has taken at least. -/
def State.pending : State → Nat
  | .between => 0
  | .word text => text.length
  | .literal _ value => value.length + 1
  | .escape _ value => value.length + 2
  | .quote _ value => value.length + 2
  | .name text => text.length + 1
  | .nameQuote text => text.length + 2
  | .dash => 1
  | .dashes => 2
  | .slash => 1
  | .opened => 2
  | .comment => 1
  | .star => 1
  | .lineComment => 0

/-- What a byte brings: the tokens it completes, and the token it leaves open. -/
def gain (r : State × List Token) : Nat := weights r.2 + r.1.pending

theorem gain_start (c : UInt8) : gain (start c) ≤ 1 := by
  unfold start gain
  split_ifs <;> simp [weights, State.pending, Token.weight]

theorem gain_startBehind (ts : List Token) (c : UInt8) :
    gain (startBehind ts c) ≤ weights ts + 1 := by
  have hstart : gain (start c) ≤ 1 := gain_start c
  unfold gain at hstart
  show weights (ts ++ (start c).2) + (start c).1.pending ≤ weights ts + 1
  rw [weights_append]
  omega

theorem length_unescape (c : UInt8) : (unescape c).length ≤ 2 := by
  unfold unescape
  split_ifs <;> simp

theorem gain_ite {P : Prop} [Decidable P] {r r' : State × List Token} {n : Nat} (h : gain r ≤ n)
    (h' : gain r' ≤ n) : gain (if P then r else r') ≤ n := by
  by_cases hP : P
  · rw [if_pos hP]
    exact h
  · rw [if_neg hP]
    exact h'

/-- A byte that completes no token. -/
theorem gain_open {s : State} {n : Nat} (h : s.pending ≤ n) : gain (s, []) ≤ n := by
  show 0 + s.pending ≤ n
  omega

/-- **One byte** brings at most one byte of tokens. -/
theorem gain_next (s : State) (c : UInt8) : gain (next s c) ≤ s.pending + 1 := by
  have hbehind := fun ts => gain_startBehind ts c
  cases s with
  | between =>
      have hstart := gain_start c
      show gain (start c) ≤ 0 + 1
      omega
  | word text => exact gain_ite (gain_open (by simp [State.pending])) (hbehind [.word text])
  | literal quote value =>
      exact gain_ite (gain_open (by simp [State.pending]))
        (gain_ite (gain_open (by simp [State.pending])) (gain_open (by simp [State.pending])))
  | escape quote value =>
      have hescape := length_unescape c
      apply gain_open
      show (value ++ unescape c).length + 1 ≤ value.length + 2 + 1
      rw [List.length_append]
      omega
  | quote quote value =>
      exact gain_ite (gain_open (by simp [State.pending])) (hbehind [.literal value])
  | name text =>
      exact gain_ite (gain_open (by simp [State.pending])) (gain_open (by simp [State.pending]))
  | nameQuote text => exact gain_ite (gain_open (by simp [State.pending])) (hbehind [.name text])
  | dash => exact gain_ite (gain_open (Nat.le_refl 2)) (hbehind [.symbol 45])
  | dashes =>
      exact gain_ite (gain_open (Nat.zero_le 3)) (gain_ite (gain_open (Nat.zero_le 3))
        (gain_ite (Nat.le_refl 3) (hbehind [.symbol 45, .symbol 45])))
  | slash => exact gain_ite (gain_open (Nat.le_refl 2)) (hbehind [.symbol 47])
  | opened =>
      exact gain_ite (Nat.le_refl 3) (gain_ite (gain_open (Nat.le_add_left 1 2))
        (gain_open (Nat.le_add_left 1 2)))
  | comment => exact gain_ite (gain_open (Nat.le_add_left 1 1)) (gain_open (Nat.le_add_left 1 1))
  | star =>
      exact gain_ite (gain_open (Nat.zero_le 2)) (gain_ite (gain_open (Nat.le_add_left 1 1))
        (gain_open (Nat.le_add_left 1 1)))
  | lineComment => exact gain_ite (gain_open (Nat.zero_le 1)) (gain_open (Nat.zero_le 1))

theorem weights_finish (s : State) : weights (finish s) ≤ s.pending := by
  cases s <;> simp [finish, weights, Token.weight, State.pending]

/-- **The tokens are not longer than the text.** -/
theorem tokens_weight (s : State) (text : List UInt8) :
    weights (tokens s text) ≤ s.pending + text.length := by
  induction text generalizing s with
  | nil => exact weights_finish s
  | cons c cs ih =>
      have hnext : weights (next s c).2 + (next s c).1.pending ≤ s.pending + 1 := gain_next s c
      have hrest := ih (next s c).1
      show weights ((next s c).2 ++ tokens (next s c).1 cs) ≤ s.pending + (cs.length + 1)
      rw [weights_append]
      omega

/-! ## §3. Texts between single quotes. -/

/-- No single quote, and every backslash directly in front of `%` or `_`. -/
def Plain : List UInt8 → Prop
  | [] => True
  | [c] => c ≠ 39 ∧ c ≠ 92
  | c :: d :: cs => if c = 92 then (d = 37 ∨ d = 95) ∧ Plain cs else c ≠ 39 ∧ Plain (d :: cs)

instance decidablePlain : ∀ text, Decidable (Plain text)
  | [] => isTrue trivial
  | [c] => inferInstanceAs (Decidable (c ≠ 39 ∧ c ≠ 92))
  | c :: d :: cs =>
      have := decidablePlain cs
      have := decidablePlain (d :: cs)
      inferInstanceAs (Decidable (if c = 92 then (d = 37 ∨ d = 95) ∧ Plain cs else c ≠ 39 ∧ Plain (d :: cs)))

/-- **A plain text stands for itself.** -/
theorem tokens_literal {text : List UInt8} (h : Plain text) (value back : List UInt8) :
    tokens (.literal 39 value) (text ++ back) = tokens (.literal 39 (value ++ text)) back := by
  fun_induction Plain text generalizing value with
  | case1 => rw [List.nil_append, List.append_nil]
  | case2 c =>
      show (next (.literal 39 value) c).2 ++ tokens (next (.literal 39 value) c).1 back = _
      simp only [next]
      rw [if_neg h.1, if_neg h.2]
      rfl
  | case3 d cs ih =>
      show (next (.literal 39 value) 92).2 ++ ((next (.escape 39 value) d).2
        ++ tokens (.literal 39 (value ++ unescape d)) (cs ++ back)) = _
      have hkept : unescape d = [92, d] := if_pos h.1
      rw [hkept, ih h.2, List.append_assoc]
      rfl
  | case4 c d cs hc ih =>
      show (next (.literal 39 value) c).2 ++ tokens (next (.literal 39 value) c).1 (d :: cs ++ back) = _
      simp only [next]
      rw [if_neg h.1, if_neg hc]
      show tokens (.literal 39 (value ++ [c])) (d :: cs ++ back) = _
      rw [ih h.2, List.append_assoc]
      rfl

/-- An escaped byte that is not kept with its backslash loses one, and no other byte can bring it
back. -/
theorem escape_lost {value text : List UInt8} {d : UInt8} {ts : List Token}
    (hd : ¬ (d = 37 ∨ d = 95)) (h : tokens (.escape 39 value) (d :: text) = ts)
    (hfull : value.length + 2 + (text.length + 1) ≤ weights ts) : False := by
  have hnext : tokens (.literal 39 (value ++ unescape d)) text = ts := h
  have hone : (unescape d).length = 1 := by
    unfold unescape
    rw [if_neg hd]
    split_ifs <;> rfl
  have hweight := tokens_weight (.literal 39 (value ++ unescape d)) text
  rw [hnext] at hweight
  simp only [State.pending, List.length_append, hone] at hweight
  omega

/-- A quote inside a literal ends it, or loses a byte where it is doubled. -/
theorem quote_lost {value text bs : List UInt8} {rest : List Token}
    (h : tokens (.quote 39 value) bs = .literal (value ++ 39 :: text) :: rest)
    (hfull : value.length + 2 + bs.length ≤ weights (.literal (value ++ 39 :: text) :: rest)) :
    False := by
  have hlonger : Token.literal value ≠ .literal (value ++ 39 :: text) := by
    intro hvalue
    have hlen := congrArg List.length (Token.literal.inj hvalue)
    rw [List.length_append, List.length_cons] at hlen
    omega
  cases bs with
  | nil => exact hlonger (List.cons.inj h).1
  | cons d bs =>
      have hnext : (next (.quote 39 value) d).2 ++ tokens (next (.quote 39 value) d).1 bs
          = .literal (value ++ 39 :: text) :: rest := h
      simp only [next] at hnext
      by_cases hd : d = 39
      · rw [if_pos hd] at hnext
        have hweight := tokens_weight (.literal 39 (value ++ [39])) bs
        have hsame : tokens (.literal 39 (value ++ [39])) bs = _ := hnext
        rw [hsame] at hweight
        simp only [State.pending, List.length_append, List.length_singleton] at hweight
        rw [List.length_cons] at hfull
        omega
      · rw [if_neg hd] at hnext
        exact hlonger (List.cons.inj hnext).1

/-- **A text that stands for itself is plain**: if a text in single quotes gives a literal that denotes
the text, and behind it tokens that take all the rest, then it is plain. -/
theorem plain_of_tokens {text value back : List UInt8} {rest : List Token}
    (h : tokens (.literal 39 value) (text ++ 39 :: back) = .literal (value ++ text) :: rest)
    (hrest : back.length ≤ weights rest) : Plain text := by
  have hfull : value.length + text.length + 2 + back.length
      ≤ weights (.literal (value ++ text) :: rest) := by
    rw [← List.length_append]
    exact Nat.add_le_add_left hrest _
  fun_induction Plain text generalizing value with
  | case1 => trivial
  | case2 c =>
      rw [List.length_singleton] at hfull
      constructor
      · intro hc
        subst hc
        have hnext : tokens (.quote 39 value) (39 :: back) = .literal (value ++ 39 :: []) :: rest := h
        apply quote_lost hnext
        rw [List.length_cons]
        omega
      · intro hc
        subst hc
        have hnext : tokens (.escape 39 value) (39 :: back) = _ := h
        apply escape_lost (by decide) hnext
        omega
  | case3 d cs ih =>
      rw [List.length_cons, List.length_cons] at hfull
      have hnext : tokens (.escape 39 value) (d :: (cs ++ 39 :: back))
          = .literal (value ++ 92 :: d :: cs) :: rest := h
      have hd : d = 37 ∨ d = 95 := by
        by_contra hd
        apply escape_lost hd hnext
        rw [List.length_append, List.length_cons]
        omega
      have hkept : tokens (.literal 39 (value ++ unescape d)) (cs ++ 39 :: back)
          = .literal (value ++ 92 :: d :: cs) :: rest := hnext
      have hunescape : unescape d = [92, d] := if_pos hd
      have hsame : value ++ 92 :: d :: cs = value ++ [92, d] ++ cs := by
        rw [List.append_assoc]
        rfl
      rw [hunescape, hsame] at hkept
      rw [hsame] at hfull
      refine ⟨hd, ih hkept ?_⟩
      rw [List.length_append]
      show value.length + 2 + cs.length + 2 + back.length ≤ _
      omega
  | case4 c d cs hc ih =>
      rw [List.length_cons, List.length_cons] at hfull
      have hquote : c ≠ 39 := by
        intro hc
        subst hc
        have hnext : tokens (.quote 39 value) (d :: cs ++ 39 :: back)
            = .literal (value ++ 39 :: d :: cs) :: rest := h
        apply quote_lost hnext
        rw [List.length_append, List.length_cons, List.length_cons]
        omega
      have hnext : (next (.literal 39 value) c).2 ++ tokens (next (.literal 39 value) c).1
          (d :: cs ++ 39 :: back) = .literal (value ++ c :: d :: cs) :: rest := h
      have hsame : value ++ c :: d :: cs = value ++ [c] ++ d :: cs := by
        rw [List.append_assoc]
        rfl
      simp only [next] at hnext
      rw [if_neg hquote, if_neg hc, hsame] at hnext
      rw [hsame] at hfull
      refine ⟨hquote, ih hnext ?_⟩
      rw [List.length_append, List.length_singleton, List.length_cons]
      omega

end SqlText
