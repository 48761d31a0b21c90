/-
  YServerCore.Lock.Instructions — the four lock operations, instruction by instruction.

  Here an operation is not one step.  A thread loads the word for the owner test, spins over
  compare-and-exchanges, adds to and subtracts from the word, and changes `LockCount`, which is a
  plain member, by a load and a store of their own; any number of other threads may run between two
  of these instructions.

  An acquisition counts from the instruction that takes the lock (the successful
  compare-and-exchange, the `fetch_add`, for a re-entering writer the owner test) to the one that
  gives it back (the `fetch_sub`, the store of `LockCount`).  A thread that has returned from an
  acquisition and has not yet called the matching unlock is between these two.

  The proof relates a state of this machine to a lock in which every instruction that is still due
  has been made (`Settles`): that lock obeys the balance of `LockRun.Accounts`, with one
  difference.  Two plain readers may load the same `LockCount`, and one of their increments is
  lost.

  Main results:
    * `Settles.quiet_of_owner` — under an owner nobody else has any part in the lock.
    * `Settles.take_write`, `.take_nested`, `.take_plain`, `.raised_write`, `.raised_read`,
      `.give_write`, `.cleared`, `.give_read` — what each instruction does to the settled lock.
-/
import Mathlib.Data.Finset.Card
import Mathlib.Logic.Function.Basic
import YServerCore.Lock.Threads

namespace YServerCore

open RWLock (Mode Action Holds held top pop acquisitions)

/-! ## §1. The machine. -/

namespace Lock

/-- Where a thread is in the code of the four operations. -/
inductive Place where
  /-- In none of them. -/
  | out
  /-- Before the owner test of `TryWriteLock` or `TryReadLock`. -/
  | test (m : Mode)
  /-- At the head of the spin loop's body. -/
  | spin (m : Mode)
  /-- `TryReadLock`: before the compare-and-exchange, with what it expects. -/
  | exchange (Expected : UInt32)
  /-- `TryReadLock` by the owner: before `LockFlag.fetch_add(1)`. -/
  | add
  /-- Before `LockCount++`. -/
  | raise (m : Mode)
  /-- In `LockCount++`, with the value loaded. -/
  | raising (m : Mode) (LockCount : UInt16)
  /-- `TryWriteUnLock`: before `--LockCount`. -/
  | lower
  /-- `TryWriteUnLock`: in `--LockCount`, with the value loaded. -/
  | lowering (LockCount : UInt16)
  /-- `TryWriteUnLock`: before `LockFlag.store(Empty)`. -/
  | clear
  /-- `TryReadUnLock`: before `LockFlag.fetch_sub(1)`. -/
  | sub
  deriving DecidableEq, Repr

/-- The first instruction of an unlock; the load in front of `TryWriteUnLock`'s assertion decides
nothing. -/
def Place.ofUnLock : Mode → Place
  | .write => .lower
  | .read => .sub

end Lock

open Lock (Place)

/-- A thread enters an operation, or makes the next instruction of the one it is in. -/
inductive Instruction (τ : Type*) where
  | tryLock (t : τ) (m : Mode)
  | tryUnLock (t : τ) (m : Mode)
  | next (t : τ)
  deriving DecidableEq, Repr

/-- The lock, the acquisitions that count, and where every thread is. -/
structure LockCode (τ : Type*) extends LockRun τ where
  place : τ → Place := fun _ => .out

namespace LockCode

variable {τ : Type*} [DecidableEq τ]

/-- The thread goes on to `p`. -/
def goto (s : LockCode τ) (t : τ) (p : Place) : LockCode τ :=
  { s with place := Function.update s.place t p }

/-- The next instruction of a thread: the acquisition or release it makes, if it makes one, and
the state behind it. -/
def exec (LThreadId : τ → UInt16) (s : LockCode τ) (t : τ) :
    Option (List (Action τ) × LockCode τ) :=
  match s.place t with
  | .out => none
  | .test .write =>
      if s.lock.owner = (LThreadId t).toUInt32 then
        some ([.acquire t .write],
          { s with holds := (t, .write) :: s.holds }.goto t (.raise .write))
      else some ([], s.goto t (.spin .write))
  | .test .read =>
      if s.lock.owner = (LThreadId t).toUInt32 then some ([], s.goto t .add)
      else some ([], s.goto t (.spin .read))
  | .spin .write =>
      -- `compare_exchange_strong(Expected, Desired)` with `Expected` at `Empty`
      if s.lock.LockFlag = LockFlag.Empty then
        some ([.acquire t .write],
          { s with
            lock := { s.lock with
              LockFlag := ((LThreadId t).toUInt32 <<< 16) &&& LockFlag.WriteLockThreadMask }
            holds := (t, .write) :: s.holds }.goto t (.raise .write))
      else some ([], s.goto t (.spin .write))
  | .spin .read =>
      some ([], s.goto t (.exchange (s.lock.LockFlag &&& LockFlag.ReadLockCountMask)))
  | .exchange Expected =>
      if s.lock.LockFlag = Expected then
        some ([.acquire t .read],
          { s with
            lock := { s.lock with LockFlag := Expected + 1 }
            holds := (t, .read) :: s.holds }.goto t (.raise .read))
      else some ([], s.goto t (.spin .read))
  | .add =>
      some ([.acquire t .read],
        { s with
          lock := { s.lock with LockFlag := s.lock.LockFlag + 1 }
          holds := (t, .read) :: s.holds }.goto t .out)
  | .raise m => some ([], s.goto t (.raising m s.lock.LockCount))
  | .raising _ LockCount =>
      some ([], { s with lock := { s.lock with LockCount := LockCount + 1 } }.goto t .out)
  | .lower => some ([], s.goto t (.lowering s.lock.LockCount))
  | .lowering LockCount =>
      let LastLockCount := LockCount - 1
      some ([.release t .write],
        { s with
          lock := { s.lock with LockCount := LastLockCount }
          holds := pop s.holds t }.goto t (if LastLockCount = 0 then .clear else .out))
  | .clear =>
      some ([], { s with lock := { s.lock with LockFlag := LockFlag.Empty } }.goto t .out)
  | .sub =>
      some ([.release t .read],
        { s with
          lock := { s.lock with LockFlag := s.lock.LockFlag - 1 }
          holds := pop s.holds t }.goto t .out)

/-- One instruction.  An unlock is called for a thread's most recent acquisition. -/
def instr (LThreadId : τ → UInt16) (s : LockCode τ) :
    Instruction τ → Option (List (Action τ) × LockCode τ)
  | .tryLock t m => if s.place t = .out then some ([], s.goto t (.test m)) else none
  | .tryUnLock t m =>
      if s.place t = .out ∧ top s.holds t = some m then some ([], s.goto t (.ofUnLock m))
      else none
  | .next t => exec LThreadId s t

def step (LThreadId : τ → UInt16) (s : LockCode τ) (a : Instruction τ) : Option (LockCode τ) :=
  (instr LThreadId s a).map Prod.snd

/-- The acquisition or release an instruction makes. -/
def event (LThreadId : τ → UInt16) (s : LockCode τ) (a : Instruction τ) : List (Action τ) :=
  ((instr LThreadId s a).map Prod.fst).getD []

theorem step_eq_some {LThreadId : τ → UInt16} {s s' : LockCode τ} {a : Instruction τ} :
    step LThreadId s a = some s' ↔ instr LThreadId s a = some (event LThreadId s a, s') := by
  unfold step event
  cases instr LThreadId s a with
  | none => simp
  | some r =>
      simp only [Option.map_some, Option.some.injEq, Option.getD_some]
      exact ⟨fun h => h ▸ rfl, fun h => congrArg Prod.snd h⟩

/-! ## §2. The lock behind the instructions that are due. -/

end LockCode

/-- Places at which a thread has no part in the lock. -/
def Lock.Place.quiet : Place → Bool
  | .out => true
  | .test _ => true
  | .spin _ => true
  | .exchange _ => true
  | _ => false

/-- Places at which a thread is to raise `LockCount` for an acquisition of mode `m`. -/
def Lock.Place.raises (m : Mode) : Place → Bool
  | .raise k => k = m
  | .raising k _ => k = m
  | _ => false

theorem Lock.Place.raises_of_quiet {p : Place} (h : p.quiet = true) (m : Mode) :
    p.raises m = false := by
  cases p <;> first | rfl | exact absurd h Bool.false_ne_true

/-- `ownerHalf` reads the word alone. -/
theorem Lock.ownerHalf_congr {k l : Lock} (h : k.LockFlag = l.LockFlag) :
    k.ownerHalf = l.ownerHalf := by
  unfold Lock.ownerHalf
  rw [h]

namespace LockCode

variable {τ : Type*} [DecidableEq τ]

/-- What is true of a thread at each place, `l` being the lock with all due instructions made. -/
def Fits (id : UInt16) (n : Nat) (pending : Finset τ) (l : Lock) (s : LockCode τ) (t : τ) :
    Place → Prop
  | .out => True
  | .test _ => True
  | .spin _ => True
  | .exchange Expected => Expected.toNat < 65536
  | .add => s.lock.ownerHalf = id.toNat
  | .raise .write => s.lock.ownerHalf = id.toNat ∧ top s.holds t = some .write
      ∧ l.LockCount = s.lock.LockCount + 1
  | .raise .read => s.lock.ownerHalf = 0 ∧ top s.holds t = some .read
  | .raising .write c => s.lock.ownerHalf = id.toNat ∧ top s.holds t = some .write
      ∧ l.LockCount = s.lock.LockCount + 1 ∧ c = s.lock.LockCount
  | .raising .read c => s.lock.ownerHalf = 0 ∧ top s.holds t = some .read
      ∧ c.toNat + pending.card ≤ n
  | .lower => s.lock.ownerHalf = id.toNat ∧ top s.holds t = some .write
  | .lowering c => s.lock.ownerHalf = id.toNat ∧ top s.holds t = some .write
      ∧ c = s.lock.LockCount
  | .clear => s.lock.ownerHalf = id.toNat ∧ l.LockFlag = LockFlag.Empty
  | .sub => top s.holds t = some .read

/-- **The simulation relation**: `l` is the lock of `s` once every instruction that is due has been
made, and `l` balances the holds of `s`.  `pending` are the threads with an increment of
`LockCount` due for a plain read. -/
structure Settles (ids : ThreadIds τ) (n leaks : Nat) (pending : Finset τ) (l : Lock)
    (s : LockCode τ) : Prop where
  accounts : LockRun.Accounts ids.LThreadId n leaks ⟨l, s.holds⟩
  fits : ∀ t, Fits (ids.LThreadId t) n pending l s t (s.place t)
  flag : (∀ t, s.place t ≠ .clear) → l.LockFlag = s.lock.LockFlag
  count : (∀ t, (s.place t).raises .write = false) → l.LockCount = s.lock.LockCount
  mem_pending : ∀ t, t ∈ pending ↔ (s.place t).raises .read = true
  room : leaks + held .write s.holds + pending.card ≤ n

theorem settles_init (ids : ThreadIds τ) : Settles ids 0 0 ∅ {} {} where
  accounts := LockRun.accounts_init ids.LThreadId
  fits _ := trivial
  flag _ := rfl
  count _ := rfl
  mem_pending t := by simp [Lock.Place.raises]
  room := by simp

variable {ids : ThreadIds τ} {n leaks : Nat} {pending : Finset τ} {l : Lock} {s : LockCode τ}

/-- A quiet place asks nothing of the lock. -/
theorem fits_of_quiet {id : UInt16} {m : Nat} {pending' : Finset τ} {k : Lock} {s' : LockCode τ}
    {t : τ} {p : Place} (hq : p.quiet = true) (h : Fits id n pending l s t p) :
    Fits id m pending' k s' t p := by
  cases p <;> first | exact h | exact absurd hq Bool.false_ne_true

/-- With a word that stays without an owner, other threads' steps keep what is true of a place. -/
theorem fits_of_unowned {id : UInt16} (hid : id.toNat ≠ 0) {m : Nat} {pending' : Finset τ}
    {k : Lock} {s' : LockCode τ} {t : τ} {p : Place} (ho : s.lock.ownerHalf = 0)
    (ho' : s'.lock.ownerHalf = 0) (htop : top s'.holds t = top s.holds t)
    (hroom : n + pending'.card ≤ m + pending.card) (h : Fits id n pending l s t p) :
    Fits id m pending' k s' t p := by
  cases p with
  | out => trivial
  | test _ => trivial
  | spin _ => trivial
  | exchange _ => exact h
  | sub => exact htop.trans h
  | add => exact absurd (Eq.symm h) (by rw [ho]; exact hid)
  | lower => exact absurd (Eq.symm h.1) (by rw [ho]; exact hid)
  | lowering _ => exact absurd (Eq.symm h.1) (by rw [ho]; exact hid)
  | clear => exact absurd (Eq.symm h.1) (by rw [ho]; exact hid)
  | raise k =>
      cases k with
      | write => exact absurd (Eq.symm h.1) (by rw [ho]; exact hid)
      | read => exact ⟨ho', htop.trans h.2⟩
  | raising k c =>
      cases k with
      | write => exact absurd (Eq.symm h.1) (by rw [ho]; exact hid)
      | read =>
          obtain ⟨-, htop', hc⟩ := h
          exact ⟨ho', htop.trans htop', by omega⟩

/-- Nobody is about to empty the word while the lock is held. -/
theorem Settles.flag_of_hold (h : Settles ids n leaks pending l s) {e : τ × Mode}
    (he : e ∈ s.holds) : l.LockFlag = s.lock.LockFlag := by
  apply h.flag
  intro u hu
  have hfit := h.fits u
  rw [hu] at hfit
  obtain ⟨hz, hr⟩ := (Lock.flag_eq_empty_iff l).mp hfit.2
  have hnil := h.accounts.holds_eq_nil hz hr
  rw [show s.holds = [] from hnil] at he
  exact absurd he (by simp)

/-- Without an owner nobody is about to empty the word, and no writer is to be counted. -/
theorem Settles.of_unowned (h : Settles ids n leaks pending l s) (ho : s.lock.ownerHalf = 0) :
    l.LockFlag = s.lock.LockFlag ∧ l.LockCount = s.lock.LockCount := by
  have hne : ∀ t, s.lock.ownerHalf ≠ (ids.LThreadId t).toNat := by
    intro t ht
    exact LockRun.toNat_ne_zero ids t (ht.symm.trans ho)
  constructor
  · apply h.flag
    intro t ht
    have hfit := h.fits t
    rw [ht] at hfit
    exact hne t hfit.1
  · apply h.count
    intro t
    have hfit := h.fits t
    cases hp : s.place t with
    | raise k =>
        rw [hp] at hfit
        cases k with
        | write => exact absurd hfit.1 (hne t)
        | read => rfl
    | raising k c =>
        rw [hp] at hfit
        cases k with
        | write => exact absurd hfit.1 (hne t)
        | read => rfl
    | _ => rfl

/-- Under an owner, the holds are the owner's. -/
theorem Settles.all_of_owner (h : Settles ids n leaks pending l s) {t : τ}
    (ho : s.lock.ownerHalf = (ids.LThreadId t).toNat) : ∀ e ∈ s.holds, e.1 = t := by
  intro e he
  have hflag := Lock.ownerHalf_congr (h.flag_of_hold he)
  exact h.accounts.all_of_owner (hflag.trans ho) e he

/-- **Under an owner, everybody else is quiet.** -/
theorem Settles.quiet_of_owner (h : Settles ids n leaks pending l s) {t u : τ}
    (ho : s.lock.ownerHalf = (ids.LThreadId t).toNat) (hne : u ≠ t) :
    (s.place u).quiet = true := by
  have hother : s.lock.ownerHalf ≠ (ids.LThreadId u).toNat := by
    intro hu
    exact hne (ids.distinct (UInt16.toNat_inj.mp (hu.symm.trans ho)))
  have hzero : s.lock.ownerHalf ≠ 0 := by
    rw [ho]
    exact LockRun.toNat_ne_zero ids t
  have hfit := h.fits u
  cases hp : s.place u with
  | out => rfl
  | test _ => rfl
  | spin _ => rfl
  | exchange _ => rfl
  | sub =>
      rw [hp] at hfit
      exact absurd (h.all_of_owner ho _ (RWLock.mem_of_top hfit)) hne
  | add =>
      rw [hp] at hfit
      exact absurd hfit hother
  | raise k =>
      rw [hp] at hfit
      cases k with
      | write => exact absurd hfit.1 hother
      | read => exact absurd hfit.1 hzero
  | raising k c =>
      rw [hp] at hfit
      cases k with
      | write => exact absurd hfit.1 hother
      | read => exact absurd hfit.1 hzero
  | lower =>
      rw [hp] at hfit
      exact absurd hfit.1 hother
  | lowering _ =>
      rw [hp] at hfit
      exact absurd hfit.1 hother
  | clear =>
      rw [hp] at hfit
      exact absurd hfit.1 hother

/-- Under an owner who is not about to empty the word, the settled word is the word. -/
theorem Settles.flag_of_owner (h : Settles ids n leaks pending l s) {t : τ}
    (ho : s.lock.ownerHalf = (ids.LThreadId t).toNat) (hp : s.place t ≠ .clear) :
    l.LockFlag = s.lock.LockFlag := by
  apply h.flag
  intro u hu
  by_cases hut : u = t
  · exact hp (hut ▸ hu)
  · have hq := h.quiet_of_owner ho hut
    rw [hu] at hq
    exact absurd hq (by decide)

/-- Under an owner who has no writer to count, the settled counter is the counter. -/
theorem Settles.count_of_owner (h : Settles ids n leaks pending l s) {t : τ}
    (ho : s.lock.ownerHalf = (ids.LThreadId t).toNat)
    (hp : (s.place t).raises .write = false) : l.LockCount = s.lock.LockCount := by
  apply h.count
  intro u
  by_cases hut : u = t
  · exact hut ▸ hp
  · exact Lock.Place.raises_of_quiet (h.quiet_of_owner ho hut) .write

/-! ## §3. What each instruction does to the settled lock. -/

omit [DecidableEq τ] in
/-- On a word without owner the counter counts leaks alone, so any counter balances. -/
theorem accounts_recount {w : UInt32} {c c' : UInt16} {h : Holds τ} {leaks' : Nat}
    (hacc : LockRun.Accounts ids.LThreadId n leaks ⟨⟨w, c⟩, h⟩)
    (ho : (Lock.mk w c).ownerHalf = 0) (hc : c'.toNat = leaks') (hle : leaks' ≤ n) :
    LockRun.Accounts ids.LThreadId n leaks' ⟨⟨w, c'⟩, h⟩ := by
  have hw : held .write h = 0 := hacc.unowned ho
  refine ⟨hacc.readers, ?_, ?_, hacc.few_reads, hacc.unowned, hacc.owned, ?_⟩
  · show c'.toNat = leaks' + held .write h
    omega
  · show leaks' + held .write h ≤ n
    omega
  · intro hne
    exact absurd ho hne

/-- A move between places that ask for the same due instructions. -/
theorem Settles.goto (h : Settles ids n leaks pending l s) {t : τ} {p : Place}
    (hfit : Fits (ids.LThreadId t) n pending l s t p) (hclear : s.place t ≠ .clear)
    (hraises : ∀ m, p.raises m = (s.place t).raises m) :
    Settles ids n leaks pending l (s.goto t p) := by
  have hat : ∀ u, (s.goto t p).place u = if u = t then p else s.place u := fun u =>
    Function.update_apply s.place t p u
  refine ⟨h.accounts, ?_, ?_, ?_, ?_, h.room⟩
  · intro u
    rw [hat]
    by_cases hu : u = t
    · subst hu
      rw [if_pos rfl]
      exact hfit
    · rw [if_neg hu]
      exact h.fits u
  · intro hall
    apply h.flag
    intro u hu
    by_cases hut : u = t
    · exact hclear (hut ▸ hu)
    · exact hall u (by rw [hat, if_neg hut]; exact hu)
  · intro hall
    apply h.count
    intro u
    have hu := hall u
    rw [hat] at hu
    by_cases hut : u = t
    · subst hut
      rw [if_pos rfl] at hu
      exact (hraises .write).symm.trans hu
    · rw [if_neg hut] at hu
      exact hu
  · intro u
    rw [h.mem_pending, hat]
    by_cases hut : u = t
    · subst hut
      rw [if_pos rfl, hraises]
    · rw [if_neg hut]

/-- The relation behind an instruction of `t`, put together from what it does to `t`'s own place and
what it leaves of the others'. -/
theorem Settles.after (h : Settles ids n leaks pending l s) {t : τ} {p : Place} {n' leaks' : Nat}
    {pending' : Finset τ} {l' : Lock} {r : LockCode τ}
    (hplace : r.place = Function.update s.place t p)
    (hacc : LockRun.Accounts ids.LThreadId n' leaks' ⟨l', r.holds⟩)
    (hfit : Fits (ids.LThreadId t) n' pending' l' r t p)
    (hothers : ∀ u, u ≠ t → Fits (ids.LThreadId u) n' pending' l' r u (s.place u))
    (hflag : p ≠ .clear → l'.LockFlag = r.lock.LockFlag)
    (hcount : p.raises .write = false → l'.LockCount = r.lock.LockCount)
    (hmem : ∀ u, u ∈ pending' ↔ if u = t then p.raises .read = true else u ∈ pending)
    (hroom : leaks' + held .write r.holds + pending'.card ≤ n') :
    Settles ids n' leaks' pending' l' r := by
  have hat : ∀ u, r.place u = if u = t then p else s.place u := fun u => by
    rw [hplace, Function.update_apply]
  have hself : r.place t = p := (hat t).trans (if_pos rfl)
  refine ⟨hacc, ?_, ?_, ?_, ?_, hroom⟩
  · intro u
    by_cases hu : u = t
    · rw [hu, hself]
      exact hfit
    · rw [hat, if_neg hu]
      exact hothers u hu
  · intro hall
    exact hflag (hself ▸ hall t)
  · intro hall
    exact hcount (hself ▸ hall t)
  · intro u
    rw [hmem, hat]
    by_cases hu : u = t
    · rw [if_pos hu, if_pos hu]
    · rw [if_neg hu, if_neg hu, h.mem_pending]

/-- A thread that is not to raise `LockCount` for a plain read is not pending, before or after. -/
theorem Settles.mem_pending_same (h : Settles ids n leaks pending l s) {t : τ} {p : Place}
    (hbefore : (s.place t).raises .read = false) (hafter : p.raises .read = false) (u : τ) :
    u ∈ pending ↔ if u = t then p.raises .read = true else u ∈ pending := by
  by_cases hu : u = t
  · rw [if_pos hu, h.mem_pending, hu, hbefore, hafter]
  · rw [if_neg hu]

/-- **A write is taken**, by the owner test or by the compare-and-exchange. -/
theorem Settles.take_write (h : Settles ids n leaks pending l s) {t : τ} {l' : Lock}
    {r : LockCode τ} (hcount : l.LockCount = s.lock.LockCount)
    (hquiet : ∀ u, (s.place u).quiet = true)
    (hop : l.TryWriteLock (ids.LThreadId t) = some l') (hn : n + 1 < 65536)
    (hlock : r.lock = ⟨l'.LockFlag, s.lock.LockCount⟩)
    (hholds : r.holds = (t, .write) :: s.holds)
    (hplace : r.place = Function.update s.place t (.raise .write)) :
    Settles ids (n + 1) leaks pending l' r ∧ RWLock.Admits s.holds t .write := by
  obtain ⟨howner, -, hraised, -⟩ := Lock.TryWriteLock_owner hop
  obtain ⟨hacc, hadm⟩ := h.accounts.acquire_write hn hop
  have hroom := h.room
  refine ⟨h.after hplace ?_ ?_ ?_ ?_ ?_ ?_ ?_, hadm⟩
  · rw [hholds]
    exact hacc
  · refine ⟨?_, ?_, ?_⟩
    · rw [hlock]
      exact howner
    · rw [hholds, RWLock.top_cons, if_pos rfl]
    · rw [hraised, hcount, hlock]
  · intro u _
    exact fits_of_quiet (hquiet u) (h.fits u)
  · intro _
    rw [hlock]
  · intro hnot
    exact absurd hnot (by decide)
  · exact h.mem_pending_same (Lock.Place.raises_of_quiet (hquiet t) .read) (by decide)
  · rw [hholds, RWLock.held_cons, if_pos rfl]
    omega

/-- **A nested read is taken**: the owner adds to the word. -/
theorem Settles.take_nested (h : Settles ids n leaks pending l s) {t : τ} {r : LockCode τ}
    (hp : s.place t = .add) (hn : n + 1 < 65536)
    (hlock : r.lock = { s.lock with LockFlag := s.lock.LockFlag + 1 })
    (hholds : r.holds = (t, .read) :: s.holds)
    (hplace : r.place = Function.update s.place t .out) :
    Settles ids (n + 1) leaks pending { l with LockFlag := l.LockFlag + 1 } r
      ∧ RWLock.Admits s.holds t .read
      ∧ Lock.ownerHalf { l with LockFlag := l.LockFlag + 1 } = l.ownerHalf := by
  have ho : s.lock.ownerHalf = (ids.LThreadId t).toNat := by
    have hfit := h.fits t
    rw [hp] at hfit
    exact hfit
  have hflag := h.flag_of_owner ho (by rw [hp]; simp)
  have hcount := h.count_of_owner ho (by rw [hp]; rfl)
  have hlo : l.ownerHalf = (ids.LThreadId t).toNat := (Lock.ownerHalf_congr hflag).trans ho
  have hop : l.TryReadLock (ids.LThreadId t) = some { l with LockFlag := l.LockFlag + 1 } := by
    unfold Lock.TryReadLock
    rw [if_pos ((Lock.owner_eq_iff _ _).mpr hlo)]
  have hcnt := h.accounts.count
  have hrd := h.accounts.readers
  have hfw := h.accounts.few_writes
  have hfr := h.accounts.few_reads
  have hroom := h.room
  simp only at hcnt hrd hfw hfr
  obtain ⟨hr, hown, -⟩ := Lock.TryReadLock_spec hop (by omega) (by omega)
  refine ⟨h.after hplace ?_ trivial ?_ ?_ ?_ ?_ ?_, ?_, hown⟩
  · rw [hholds]
    exact h.accounts.acquire_read_nested hlo hr hown rfl
  · intro u hu
    exact fits_of_quiet (h.quiet_of_owner ho hu) (h.fits u)
  · intro _
    rw [hlock]
    show l.LockFlag + 1 = s.lock.LockFlag + 1
    rw [hflag]
  · intro _
    rw [hlock]
    exact hcount
  · exact h.mem_pending_same (by rw [hp]; rfl) rfl
  · rw [hholds, RWLock.held_cons, if_neg (by decide)]
    omega
  · intro e he _
    exact h.all_of_owner ho e he

/-- **A plain read is taken**: the compare-and-exchange finds the word without an owner, and
`LockCount` is due to go up. -/
theorem Settles.take_plain (h : Settles ids n leaks pending l s) {t : τ} {r : LockCode τ}
    (hp : s.place t = .exchange s.lock.LockFlag) (hn : n + 1 < 65536)
    (hlock : r.lock = { s.lock with LockFlag := s.lock.LockFlag + 1 })
    (hholds : r.holds = (t, .read) :: s.holds)
    (hplace : r.place = Function.update s.place t (.raise .read)) :
    Settles ids (n + 1) leaks (insert t pending) { l with LockFlag := l.LockFlag + 1 } r
      ∧ RWLock.Admits s.holds t .read
      ∧ Lock.ownerHalf { l with LockFlag := l.LockFlag + 1 } = l.ownerHalf := by
  have hsmall : s.lock.LockFlag.toNat < 65536 := by
    have hfit := h.fits t
    rw [hp] at hfit
    exact hfit
  have ho : s.lock.ownerHalf = 0 := by
    unfold Lock.ownerHalf
    omega
  obtain ⟨hflag, hcount⟩ := h.of_unowned ho
  have hlo : l.ownerHalf = 0 := (Lock.ownerHalf_congr hflag).trans ho
  have hexp := (Lock.flag_eq_readers_iff l).mpr hlo
  have hop : l.TryReadLock (ids.LThreadId t) = some ⟨l.LockFlag + 1, l.LockCount + 1⟩ := by
    unfold Lock.TryReadLock
    rw [if_neg]
    · rw [← hexp, if_pos rfl]
    · rw [Lock.owner_eq_iff, hlo]
      exact fun hz => LockRun.toNat_ne_zero ids t hz.symm
  have hcnt := h.accounts.count
  have hrd := h.accounts.readers
  have hfr := h.accounts.few_reads
  have hw := h.accounts.unowned hlo
  have hroom := h.room
  simp only at hcnt hrd hfr hw
  obtain ⟨hr, hown, -⟩ := Lock.TryReadLock_spec hop (by omega) (by omega)
  have hnot : t ∉ pending := by
    rw [h.mem_pending, hp]
    exact Bool.false_ne_true
  have hso : r.lock.ownerHalf = 0 := by
    rw [Lock.ownerHalf_congr (l := ⟨l.LockFlag + 1, l.LockCount + 1⟩) (by rw [hlock, hflag])]
    exact hown.trans hlo
  refine ⟨h.after hplace ?_ ?_ ?_ ?_ ?_ ?_ ?_, ?_, hown⟩
  · rw [hholds]
    have hplain := h.accounts.acquire_read_plain hlo hr hown (t := t)
      (Lock.toNat_count_succ (by omega))
    exact accounts_recount hplain (hown.trans hlo) (by omega) (by omega)
  · exact ⟨hso, by rw [hholds, RWLock.top_cons, if_pos rfl]⟩
  · intro u hu
    refine fits_of_unowned (LockRun.toNat_ne_zero ids u) ho hso ?_ ?_ (h.fits u)
    · rw [hholds, RWLock.top_cons, if_neg (Ne.symm hu)]
    · rw [Finset.card_insert_of_notMem hnot]
      omega
  · intro _
    rw [hlock]
    show l.LockFlag + 1 = s.lock.LockFlag + 1
    rw [hflag]
  · intro _
    rw [hlock]
    exact hcount
  · intro u
    by_cases hu : u = t
    · rw [if_pos hu, hu]
      exact ⟨fun _ => rfl, fun _ => Finset.mem_insert_self t pending⟩
    · rw [if_neg hu, Finset.mem_insert]
      exact ⟨fun h => h.resolve_left hu, Or.inr⟩
  · rw [hholds, RWLock.held_cons, if_neg (by decide), Finset.card_insert_of_notMem hnot]
    omega
  · intro e he hk
    have hmem : (e.1, Mode.write) ∈ s.holds := by
      rw [← hk]
      exact he
    exact absurd hmem (h.accounts.no_write hlo e.1)

/-- **A writer is counted**: the store of `LockCount++` behind a write. -/
theorem Settles.raised_write (h : Settles ids n leaks pending l s) {t : τ} {c : UInt16}
    {r : LockCode τ} (hp : s.place t = .raising .write c)
    (hlock : r.lock = { s.lock with LockCount := c + 1 }) (hholds : r.holds = s.holds)
    (hplace : r.place = Function.update s.place t .out) :
    Settles ids n leaks pending l r := by
  have hfit := h.fits t
  rw [hp] at hfit
  obtain ⟨ho, -, hdue, rfl⟩ := hfit
  have hflag := h.flag_of_owner ho (by rw [hp]; simp)
  refine h.after hplace ?_ trivial ?_ ?_ ?_ ?_ ?_
  · rw [hholds]
    exact h.accounts
  · intro u hu
    exact fits_of_quiet (h.quiet_of_owner ho hu) (h.fits u)
  · intro _
    rw [hlock]
    exact hflag
  · intro _
    rw [hlock]
    exact hdue
  · exact h.mem_pending_same (by rw [hp]; rfl) rfl
  · rw [hholds]
    exact h.room

/-- **A plain reader is counted**: the store of `LockCount++` behind a plain read puts the counter
one above the value this thread has loaded, whatever others have stored since. -/
theorem Settles.raised_read (h : Settles ids n leaks pending l s) {t : τ} {c : UInt16}
    {r : LockCode τ} (hn : n < 65536) (hp : s.place t = .raising .read c)
    (hlock : r.lock = { s.lock with LockCount := c + 1 }) (hholds : r.holds = s.holds)
    (hplace : r.place = Function.update s.place t .out) :
    Settles ids n (c.toNat + 1) (pending.erase t) { l with LockCount := c + 1 } r := by
  have hfit := h.fits t
  rw [hp] at hfit
  obtain ⟨ho, -, hc⟩ := hfit
  obtain ⟨hflag, -⟩ := h.of_unowned ho
  have hmem : t ∈ pending := by
    rw [h.mem_pending, hp]
    rfl
  have hcard := Finset.card_erase_add_one hmem
  have hso : r.lock.ownerHalf = 0 :=
    (Lock.ownerHalf_congr (by rw [hlock])).trans ho
  have hlo : l.ownerHalf = 0 := (Lock.ownerHalf_congr hflag).trans ho
  have hw : held .write s.holds = 0 := h.accounts.unowned hlo
  refine h.after hplace ?_ trivial ?_ ?_ ?_ ?_ ?_
  · rw [hholds]
    exact accounts_recount h.accounts hlo (Lock.toNat_count_succ (by omega)) (by omega)
  · intro u hu
    refine fits_of_unowned (LockRun.toNat_ne_zero ids u) ho hso (by rw [hholds]) ?_ (h.fits u)
    omega
  · intro _
    rw [hlock]
    exact hflag
  · intro _
    rw [hlock]
  · intro u
    rw [Finset.mem_erase]
    by_cases hu : u = t
    · rw [if_pos hu]
      exact ⟨fun h => absurd hu h.1, fun h => absurd h Bool.false_ne_true⟩
    · rw [if_neg hu]
      exact ⟨fun h => h.2, fun h => ⟨hu, h⟩⟩
  · rw [hholds]
    omega

/-- **A write is given back**: the store of `--LockCount`, behind which the word is emptied when
the counter has reached 0. -/
theorem Settles.give_write (h : Settles ids n leaks pending l s) {t : τ} {c : UInt16}
    {r : LockCode τ} (hp : s.place t = .lowering c)
    (hlock : r.lock = { s.lock with LockCount := c - 1 }) (hholds : r.holds = pop s.holds t)
    (hplace : r.place = Function.update s.place t (if c - 1 = 0 then .clear else .out)) :
    Settles ids n leaks pending l.TryWriteUnLock r ∧ top s.holds t = some .write := by
  have hfit := h.fits t
  rw [hp] at hfit
  obtain ⟨ho, htop, rfl⟩ := hfit
  have hflag := h.flag_of_owner ho (by rw [hp]; simp)
  have hcount := h.count_of_owner ho (by rw [hp]; rfl)
  have hheld := RWLock.held_of_top htop .write
  have hroom := h.room
  simp only [if_true] at hheld
  -- the settled lock makes the whole unlock at once
  have hunlock : l.TryWriteUnLock = ⟨if s.lock.LockCount - 1 = 0 then LockFlag.Empty
      else s.lock.LockFlag, s.lock.LockCount - 1⟩ := by
    unfold Lock.TryWriteUnLock
    rw [hcount, hflag]
    by_cases hz : s.lock.LockCount - 1 = 0
    · simp only [if_pos hz]
    · simp only [if_neg hz]
  refine ⟨h.after hplace ?_ ?_ ?_ ?_ ?_ ?_ ?_, htop⟩
  · rw [hholds]
    exact h.accounts.release_write htop
  · by_cases hz : s.lock.LockCount - 1 = 0
    · rw [if_pos hz]
      refine ⟨?_, ?_⟩
      · rw [hlock]
        exact ho
      · rw [hunlock, if_pos hz]
    · rw [if_neg hz]
      trivial
  · intro u hu
    exact fits_of_quiet (h.quiet_of_owner ho hu) (h.fits u)
  · intro hne
    rw [hunlock, hlock]
    by_cases hz : s.lock.LockCount - 1 = 0
    · rw [if_pos hz] at hne
      exact absurd rfl hne
    · rw [if_neg hz]
  · intro _
    rw [hunlock, hlock]
  · apply h.mem_pending_same
    · rw [hp]
      rfl
    · by_cases hz : s.lock.LockCount - 1 = 0
      · rw [if_pos hz]
        rfl
      · rw [if_neg hz]
        rfl
  · rw [hholds]
    omega

/-- **The word is emptied**, as the settled lock has it already. -/
theorem Settles.cleared (h : Settles ids n leaks pending l s) {t : τ} {r : LockCode τ}
    (hp : s.place t = .clear) (hlock : r.lock = { s.lock with LockFlag := LockFlag.Empty })
    (hholds : r.holds = s.holds) (hplace : r.place = Function.update s.place t .out) :
    Settles ids n leaks pending l r := by
  have hfit := h.fits t
  rw [hp] at hfit
  obtain ⟨ho, hempty⟩ := hfit
  have hcount := h.count_of_owner ho (by rw [hp]; rfl)
  refine h.after hplace ?_ trivial ?_ ?_ ?_ ?_ ?_
  · rw [hholds]
    exact h.accounts
  · intro u hu
    exact fits_of_quiet (h.quiet_of_owner ho hu) (h.fits u)
  · intro _
    rw [hlock]
    exact hempty
  · intro _
    rw [hlock]
    exact hcount
  · exact h.mem_pending_same (by rw [hp]; rfl) rfl
  · rw [hholds]
    exact h.room

/-- **A read is given back**: the word goes down by one. -/
theorem Settles.give_read (h : Settles ids n leaks pending l s) {t : τ} {r : LockCode τ}
    (hp : s.place t = .sub)
    (hlock : r.lock = { s.lock with LockFlag := s.lock.LockFlag - 1 })
    (hholds : r.holds = pop s.holds t) (hplace : r.place = Function.update s.place t .out) :
    Settles ids n leaks pending l.TryReadUnLock r ∧ top s.holds t = some .read
      ∧ l.TryReadUnLock.ownerHalf = l.ownerHalf := by
  have htop : top s.holds t = some .read := by
    have hfit := h.fits t
    rw [hp] at hfit
    exact hfit
  have hmem := RWLock.mem_of_top htop
  have hflag := h.flag_of_hold hmem
  have hheld := RWLock.held_of_top htop .write
  have hroom := h.room
  simp only [reduceCtorEq, if_false] at hheld
  have hpos : 0 < l.readerHalf := by
    rw [show l.readerHalf = held .read s.holds from h.accounts.readers]
    exact RWLock.held_pos_iff.mpr ⟨t, hmem⟩
  obtain ⟨-, hown, -⟩ := Lock.TryReadUnLock_spec hpos
  have hso : r.lock.ownerHalf = s.lock.ownerHalf := by
    rw [Lock.ownerHalf_congr (l := l.TryReadUnLock) (by rw [hlock, ← hflag]; rfl), hown]
    exact Lock.ownerHalf_congr hflag
  -- under an owner it is this thread, and the others are quiet
  have howner : s.lock.ownerHalf = 0 ∨ s.lock.ownerHalf = (ids.LThreadId t).toNat := by
    by_cases ho : s.lock.ownerHalf = 0
    · exact Or.inl ho
    · have hlo : l.ownerHalf ≠ 0 := by
        rw [Lock.ownerHalf_congr hflag]
        exact ho
      have hid : (ids.LThreadId t).toNat = l.ownerHalf := h.accounts.owned hlo _ hmem
      exact Or.inr ((Lock.ownerHalf_congr hflag).symm.trans hid.symm)
  refine ⟨h.after hplace ?_ trivial ?_ ?_ ?_ ?_ ?_, htop, hown⟩
  · rw [hholds]
    exact h.accounts.release_read htop
  · intro u hu
    rcases howner with ho | ho
    · exact fits_of_unowned (LockRun.toNat_ne_zero ids u) ho (hso.trans ho)
        (by rw [hholds, RWLock.top_pop_of_ne hu]) (Nat.le_refl _) (h.fits u)
    · exact fits_of_quiet (h.quiet_of_owner ho hu) (h.fits u)
  · intro _
    rw [hlock]
    show l.LockFlag - 1 = s.lock.LockFlag - 1
    rw [hflag]
  · intro _
    rw [hlock]
    rcases howner with ho | ho
    · exact (h.of_unowned ho).2
    · exact h.count_of_owner ho (by rw [hp]; rfl)
  · exact h.mem_pending_same (by rw [hp]; rfl) rfl
  · rw [hholds]
    omega

end LockCode

end YServerCore
