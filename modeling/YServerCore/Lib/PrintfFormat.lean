/-
  YServerCore.Lib.PrintfFormat — the conversions of a format string.

  The scanner reads a format of `printf` one byte at a time, with the rules of standard C: a percent
  sign, flags, a width, a precision, a length and a conversion.  Each conversion takes an argument
  of its kind, and so does a width or a precision that is a star; two percent signs take none.  A
  conversion that is not one of the standard's, or that the text ends in, matches no argument.
  Nothing here refers to a particular program.

  Main results:
    * `conversions_append` — in front of a format, a text without percent signs adds nothing.
    * `conversions_of_no_percent` — such a text is a format without conversions.
-/
import Mathlib.Data.List.Basic

namespace PrintfFormat

/-! ## §1. The scanner. -/

/-- What a conversion takes. -/
inductive ArgKind where
  | int
  | double
  /-- A pointer to a text. -/
  | text
  | pointer
  /-- A pointer to an integer, which is written to. -/
  | count
  /-- Nothing that could be passed. -/
  | malformed
  deriving DecidableEq, Repr

/-- Where the scanner is in a conversion: behind the last part it has read. -/
inductive Stage where
  | percent
  | flags
  | width
  | widthStar
  | point
  | precision
  | precisionStar
  | length
  deriving DecidableEq, Repr

/-- Where the scanner is. -/
inductive State where
  | literal
  | conversion (stage : Stage)
  deriving DecidableEq, Repr

def isDigit (c : UInt8) : Bool := 48 ≤ c && c ≤ 57

/-- `-`, `+`, the blank, `#` and `0`. -/
def isFlag (c : UInt8) : Bool := c = 45 || c = 43 || c = 32 || c = 35 || c = 48

/-- `h`, `l`, `j`, `z`, `t` and `L`. -/
def isLength (c : UInt8) : Bool := c = 104 || c = 108 || c = 106 || c = 122 || c = 116 || c = 76

/-- What the conversion of this letter takes. -/
def argKind (c : UInt8) : ArgKind :=
  -- d i u o x X c
  if c = 100 ∨ c = 105 ∨ c = 117 ∨ c = 111 ∨ c = 120 ∨ c = 88 ∨ c = 99 then .int
  -- e E f F g G a A
  else if c = 101 ∨ c = 69 ∨ c = 102 ∨ c = 70 ∨ c = 103 ∨ c = 71 ∨ c = 97 ∨ c = 65 then .double
  -- s, p and n
  else if c = 115 then .text
  else if c = 112 then .pointer
  else if c = 110 then .count
  else .malformed

namespace Stage

def beforeWidth : Stage → Bool
  | percent | flags => true
  | _ => false

def beforePoint : Stage → Bool
  | percent | flags | width | widthStar => true
  | _ => false

end Stage

/-- A byte inside a conversion. -/
def inside (stage : Stage) (c : UInt8) : State × List ArgKind :=
  if c = 37 then (.literal, if stage = .percent then [] else [.malformed])
  else if isFlag c ∧ stage.beforeWidth then (.conversion .flags, [])
  else if isDigit c ∧ (stage.beforeWidth ∨ stage = .width) then (.conversion .width, [])
  else if c = 42 ∧ stage.beforeWidth then (.conversion .widthStar, [.int])
  else if c = 46 ∧ stage.beforePoint then (.conversion .point, [])
  else if isDigit c ∧ (stage = .point ∨ stage = .precision) then (.conversion .precision, [])
  else if c = 42 ∧ stage = .point then (.conversion .precisionStar, [.int])
  else if isLength c then (.conversion .length, [])
  else (.literal, [argKind c])

/-- One byte: the state behind it, and what it asks for. -/
def next : State → UInt8 → State × List ArgKind
  | .literal, c => (if c = 37 then .conversion .percent else .literal, [])
  | .conversion stage, c => inside stage c

/-- The arguments a text asks for from a state on. -/
def scan : State → List UInt8 → List ArgKind
  | .literal, [] => []
  | .conversion _, [] => [.malformed]
  | s, c :: cs => (next s c).2 ++ scan (next s c).1 cs

/-- **The conversions of a format**, by what they take. -/
def conversions (format : List UInt8) : List ArgKind := scan .literal format

/-! ## §2. Texts without conversions. -/

/-- In front of a format, a text without percent signs adds nothing. -/
theorem conversions_append {front : List UInt8} (h : 37 ∉ front) (back : List UInt8) :
    conversions (front ++ back) = conversions back := by
  induction front with
  | nil => rfl
  | cons c cs ih =>
      have hc : c ≠ 37 := fun heq => h (heq ▸ List.mem_cons_self)
      have hcs : 37 ∉ cs := fun hmem => h (List.mem_cons_of_mem c hmem)
      show scan (if c = 37 then .conversion .percent else .literal) (cs ++ back) = conversions back
      rw [if_neg hc]
      exact ih hcs

/-- **A text without percent signs has no conversions.** -/
theorem conversions_of_no_percent {format : List UInt8} (h : 37 ∉ format) :
    conversions format = [] := by
  have happend := conversions_append h []
  rw [List.append_nil] at happend
  exact happend

/-- Two percent signs print one and take nothing, and a text may ask for an argument to write to. -/
example : conversions [37, 37, 97, 37, 45, 53, 46, 42, 108, 100, 37, 110] = [.int, .int, .count] := by
  decide

end PrintfFormat
