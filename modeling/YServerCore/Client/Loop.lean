/-
  YServerCore.Client.Loop — one turn of the client's receive thread, with whatever `recv` returns.

  `Client::RecieveWork` is a copy of the server's receive loop with a `recv` in front of it.  `recv`
  returns an `int`, the number of bytes or 0 or `SOCKET_ERROR`, and the turn adds it to `CurBytes`, a
  `size_t`, before it looks at it: an addition modulo the size of a word of the platform the client
  is built for.

  The definitions here are the client's source, statement by statement; the lemmas compare them
  with the server's.

  Main results:
    * `turn_eq_pass`, `whileLoop_eq_loop`, `behindLoop_eq_settle` — the statements that were copied.
    * `toSize_bytes` — bytes that fit the array are counted as they are.
    * `recieveTurn_bytes` — with such bytes the turn is the one of `RecieveWork`.
-/
import Mathlib.Algebra.Group.Nat.Defs
import YServerCore.Client.RecieveWork

namespace YServerCore

open ByteMemory (Mem read write word32)
open ST_IOData (Pass LoopEnd)

/-! ## §1. What `recv` returns. -/

/-- The platforms the client is built for. -/
inductive Platform where
  | Win32
  | x64
  deriving DecidableEq, Repr

/-- The number of values of a `size_t`. -/
def Platform.sizes : Platform → Nat
  | Win32 => 2 ^ 32
  | x64 => 2 ^ 64

/-- A call of `recv`: it has put bytes into its range, the peer has closed, or it has failed. -/
inductive RecvResult where
  | bytes (chunk : List UInt8)
  | closed
  | error

namespace RecvResult

/-- The value returned. -/
def value : RecvResult → Int
  | bytes chunk => chunk.length
  | closed => 0
  | error => -1

/-- The bytes put into the range. -/
def data : RecvResult → List UInt8
  | bytes chunk => chunk
  | closed => []
  | error => []

end RecvResult

/-- A `size_t` with an `int` added to it. -/
def Platform.toSize (p : Platform) (n : Nat) (result : Int) : Nat :=
  ((n + result) % (p.sizes : Int)).toNat

/-- Inside the array nothing wraps around. -/
theorem Platform.toSize_bytes (p : Platform) {n k : Nat} (h : n + k ≤ BUF_SIZE) :
    p.toSize n (k : Int) = n + k := by
  have hbuf : BUF_SIZE = 4096 := rfl
  have hlt : n + k < p.sizes := by
    cases p with
    | Win32 => show n + k < 2 ^ 32; omega
    | x64 => show n + k < 2 ^ 64; omega
  unfold toSize
  rw [Int.emod_eq_of_lt (by omega) (by omega)]
  omega

/-- An error takes one from a count that has one. -/
theorem Platform.toSize_error (p : Platform) {n : Nat} (hpos : n ≠ 0) (h : n ≤ BUF_SIZE) :
    p.toSize n (-1) = n - 1 := by
  have hbuf : BUF_SIZE = 4096 := rfl
  have hpred : (n : Int) + -1 = ((n - 1 : Nat) : Int) := by omega
  have hnat := p.toSize_bytes (n := 0) (k := n - 1) (by omega)
  unfold toSize at hnat ⊢
  rw [hpred]
  rw [Int.natCast_zero, Int.zero_add, Nat.zero_add] at hnat
  exact hnat

/-- An error takes one from a count of 0, and the largest count is left. -/
theorem Platform.toSize_error_zero (p : Platform) : p.toSize 0 (-1) = p.sizes - 1 := by
  cases p <;> rfl

/-! ## §2. The statements of the turn. -/

namespace Client

variable {H : Type*} (packetSize : H → Nat) (table : HandlerTable H)

/-- The statements in front of the loop. -/
def recv (p : Platform) (io : ST_IOData) (r : RecvResult) : ST_IOData :=
  { io with
    Usage := .Read
    Data := write io.Data io.CurBytes r.data
    CurBytes := p.toSize io.CurBytes r.value }

/-- One turn of the while loop. -/
def turn (io : ST_IOData) : Pass H :=
  if io.DataPointer < io.CurBytes then
    if io.CurBytes - io.DataPointer < ST_IOHeader.sizeof then .exit
    else
      let IOType := word32 io.Data io.DataPointer
      let Size := word32 io.Data (io.DataPointer + 4)
      if io.CurBytes - io.DataPointer < Size then .exit
      else
        match table[IOType]? with
        | none => .outOfTable
        | some none => .exit
        | some (some func) =>
            -- `Client::HandleData`: the packet is copied, the pointer moves by the claimed size
            .dispatch ⟨func, io.DataPointer, Size, read io.Data io.DataPointer (packetSize func)⟩
              { io with DataPointer := io.DataPointer + Size }
  else .exit

/-- At most `n` turns of the while loop. -/
def whileLoop : Nat → ST_IOData → LoopEnd H
  | 0, io => ⟨.running, io, []⟩
  | n + 1, io =>
      match turn packetSize table io with
      | .exit => ⟨.exit, io, []⟩
      | .outOfTable => ⟨.outOfTable, io, []⟩
      | .dispatch c io' =>
          let e := whileLoop n io'
          { e with calls := c :: e.calls }

/-- The statements behind the loop. -/
def behindLoop (io : ST_IOData) : ST_IOData :=
  if io.CurBytes = BUF_SIZE then
    { io with
      Data := write io.Data 0 (read io.Data io.DataPointer (BUF_SIZE - io.DataPointer))
      CurBytes := BUF_SIZE - io.DataPointer
      DataPointer := 0 }
  else { io with CurBytes := 0, DataPointer := 0 }

/-- One turn of the receive thread: the state it leaves and the calls it makes; `none` when its loop
does not end or reads past the table. -/
def recieveTurn (p : Platform) (io : ST_IOData) (r : RecvResult) :
    Option (ST_IOData × List (Call H)) :=
  let io := recv p io r
  let e := whileLoop packetSize table (io.CurBytes + 1) io
  if e.outcome = .exit then some (behindLoop e.io, e.calls) else none

/-! ## §3. What was copied. -/

theorem turn_eq_pass (io : ST_IOData) : turn packetSize table io = io.pass packetSize table := rfl

theorem whileLoop_eq_loop (n : Nat) (io : ST_IOData) :
    whileLoop packetSize table n io = ST_IOData.loop packetSize table n io := by
  induction n generalizing io with
  | zero => rfl
  | succ n ih =>
      rw [whileLoop, ST_IOData.loop, turn_eq_pass]
      cases hpass : io.pass packetSize table with
      | exit => rfl
      | outOfTable => rfl
      | dispatch c io' =>
          simp only
          rw [ih io']

theorem behindLoop_eq_settle (io : ST_IOData) : behindLoop io = io.settle := rfl

/-- With bytes that fit, the loop starts where the server's does. -/
theorem recv_bytes (p : Platform) {io : ST_IOData} {chunk : List UInt8}
    (h : io.CurBytes + chunk.length ≤ BUF_SIZE) :
    recv p io (.bytes chunk) = ST_IOData.filled { io with Usage := .Read } chunk := by
  unfold recv
  rw [show (RecvResult.bytes chunk).value = (chunk.length : Int) from rfl, p.toSize_bytes h]
  rfl

/-- **With bytes that fit, the turn is the one of `RecieveWork`**, on either platform. -/
theorem recieveTurn_bytes (p : Platform) {io : ST_IOData} {chunk : List UInt8}
    (h : io.CurBytes + chunk.length ≤ BUF_SIZE) :
    recieveTurn ClientHandler.packetSize Handler p io (.bytes chunk) = RecieveWork io chunk := by
  unfold recieveTurn RecieveWork
  simp only [recv_bytes p h, whileLoop_eq_loop, behindLoop_eq_settle]

end Client

end YServerCore
