/-
  YServerCore.Client.Main — the client's console loop.

  `main` reads a text with `fgets`, compares it with `"UserInfo"`, and sends a chat or the account.
  What `fgets` gives ends in the newline of its line, unless the line is longer than the array or the
  last one; at the end of the input it gives nothing and the loop goes on.

  Main results:
    * `mainTurn_eq` — a turn of the loop over an input without NULs: the text of one read is sent.
    * `isUserInfo_iff` — the account is sent exactly when `UserInfo`, without a newline, is all that is
      left of the input.
    * `typed_sent` — everything typed is sent, once and in order.
-/
import YServerCore.Client.SendToServer
import YServerCore.Database.Statements
import YServerCore.Lib.LineInput

namespace YServerCore

open ByteMemory (Mem)
open RequestHandler (packetSize)

/-! ## §1. The loop. -/

/-- `'\n'`. -/
def newline : UInt8 := 10

/-- An array with these bytes and a NUL over its front, the rest as it was. -/
def CharArray.overwrite {n : Nat} (str : CharArray n) (bytes : List UInt8) : CharArray n :=
  CharArray.ofBytes n (bytes ++ 0 :: str.toList.drop (bytes.length + 1)) 0

/-- `fgets(str, n, stdin)`: at the end of the input the array stays as it is. -/
def fgets {n : Nat} (str : CharArray n) (stdin : List UInt8) : CharArray n × List UInt8 :=
  let r := LineInput.read newline (n - 1) stdin
  (if r.1 = [] then str else str.overwrite r.1, r.2)

namespace CharArray

/-- As many bytes as the array has are the array. -/
theorem toList_ofBytes {n : Nat} {bs : List UInt8} (h : bs.length = n) :
    (CharArray.ofBytes n bs 0).toList = bs := by
  apply List.ext_getElem
  · rw [Vector.length_toList, h]
  · intro i h₁ h₂
    rw [Vector.getElem_toList]
    unfold CharArray.ofBytes
    rw [Vector.getElem_ofFn]
    simp [h₂]

theorem toList_overwrite {n : Nat} (str : CharArray n) {bytes : List UInt8} (h : bytes.length < n) :
    (str.overwrite bytes).toList = bytes ++ 0 :: str.toList.drop (bytes.length + 1) := by
  apply toList_ofBytes
  rw [List.length_append, List.length_cons, List.length_drop, Vector.length_toList]
  omega

/-- The text of an array that was overwritten: the bytes up to a NUL in them. -/
theorem text_overwrite {n : Nat} (str : CharArray n) {bytes : List UInt8} (h : bytes.length < n)
    (behind : List UInt8) : 0 ∈ (str.overwrite bytes).toList
      ∧ (str.overwrite bytes).text behind = bytes.takeWhile (· ≠ 0) := by
  have hlist := toList_overwrite str h
  have hmem : 0 ∈ (str.overwrite bytes).toList := by
    rw [hlist]
    exact List.mem_append_right _ List.mem_cons_self
  refine ⟨hmem, ?_⟩
  rw [text_of_mem hmem, hlist, List.takeWhile_append]
  split
  case isTrue hall =>
    rw [List.takeWhile_cons_of_neg (by simp), List.append_nil]
    exact (List.IsPrefix.eq_of_length (List.takeWhile_prefix _) hall).symm
  case isFalse => rfl

/-- An array of NULs has no text. -/
theorem text_replicate {n : Nat} (hn : 0 < n) (behind : List UInt8) :
    0 ∈ (Vector.replicate n (0 : UInt8)).toList
      ∧ CharArray.text (Vector.replicate n (0 : UInt8)) behind = [] := by
  have hmem : 0 ∈ (Vector.replicate n (0 : UInt8)).toList := by
    rw [Vector.toList_replicate]
    exact List.mem_replicate.mpr ⟨by omega, rfl⟩
  refine ⟨hmem, ?_⟩
  rw [text_of_mem hmem, Vector.toList_replicate]
  cases n with
  | zero => rfl
  | succ n => exact List.takeWhile_cons_of_neg (by simp)

end CharArray

theorem fgets_fst {n : Nat} (str : CharArray n) (stdin : List UInt8) : (fgets str stdin).1
    = if (LineInput.read newline (n - 1) stdin).1 = [] then str
      else str.overwrite (LineInput.read newline (n - 1) stdin).1 := rfl

/-- **What `fgets` leaves in an array of NULs**: what it has read, up to a NUL in it. -/
theorem fgets_spec {n : Nat} (hn : 0 < n) (stdin behind : List UInt8) :
    0 ∈ (fgets (Vector.replicate n 0) stdin).1.toList
      ∧ (fgets (Vector.replicate n 0) stdin).1.text behind
        = (LineInput.read newline (n - 1) stdin).1.takeWhile (· ≠ 0) := by
  have hlen := LineInput.length_read_le newline (n - 1) stdin
  rw [fgets_fst]
  by_cases hpiece : (LineInput.read newline (n - 1) stdin).1 = []
  · rw [if_pos hpiece, hpiece]
    exact CharArray.text_replicate hn behind
  · rw [if_neg hpiece]
    exact CharArray.text_overwrite _ (by omega) behind

namespace Client

/-- What is in memory in one turn of the loop: where the packet object is built, and what stands behind
`Msg` up to the next NUL. -/
structure MainMemory where
  memory : Mem
  Id : CharArray MAX_ID_LEN
  Pw : CharArray MAX_PW_LEN
  Message : CharArray MAX_CHAT_SIZE
  behind : List UInt8

/-- The id `main` puts into a chat, `"Client"`. -/
def chatId : {t : List UInt8 // t.length < MAX_ID_LEN} := ⟨ascii "Client", by decide⟩

/-- One turn of the loop of `main`: what it sends, and the input it leaves. -/
def mainTurn (m : MainMemory) (stdin : List UInt8) : ClientOperation × List UInt8 :=
  let r := fgets (Vector.replicate MAX_CHAT_SIZE 0) stdin
  let Msg := r.1.text m.behind
  -- `strcmp(Msg, "UserInfo") == 0`
  (if Msg = ascii "UserInfo" then .SendUserInfo m.memory m.Id m.Pw
    else .SendToServer m.memory m.Id m.Message chatId
      ⟨Msg, CharArray.length_text_lt (fgets_spec (by decide) stdin []).1 m.behind⟩, r.2)

/-- The first turns of the loop, one for each memory; it never ends by itself. -/
def main : List MainMemory → List UInt8 → List ClientOperation × List UInt8
  | [], stdin => ([], stdin)
  | m :: ms, stdin =>
      let r := mainTurn m stdin
      let q := main ms r.2
      (r.1 :: q.1, q.2)

/-! ## §2. One turn. -/

end Client

/-- The text an operation was typed as. -/
def ClientOperation.typed : ClientOperation → List UInt8
  | SendUserInfo .. => ascii "UserInfo"
  | SendToServer _ _ _ _ Msg => Msg.val

namespace Client

/-- **A turn** takes one read of the input, and sends it up to a NUL in it. -/
theorem mainTurn_eq (m : MainMemory) (stdin : List UInt8) :
    (mainTurn m stdin).1.typed
        = (LineInput.read newline (MAX_CHAT_SIZE - 1) stdin).1.takeWhile (· ≠ 0)
      ∧ (mainTurn m stdin).2 = (LineInput.read newline (MAX_CHAT_SIZE - 1) stdin).2
      ∧ ((mainTurn m stdin).1.isUserInfo = true ↔ (mainTurn m stdin).1.typed = ascii "UserInfo") := by
  have htext := (fgets_spec (show 0 < MAX_CHAT_SIZE by decide) stdin m.behind).2
  have hsend : (mainTurn m stdin).1.typed = (fgets (Vector.replicate MAX_CHAT_SIZE 0) stdin).1.text m.behind
      ∧ ((mainTurn m stdin).1.isUserInfo = true ↔ (mainTurn m stdin).1.typed = ascii "UserInfo") := by
    unfold mainTurn
    by_cases heq : (fgets (Vector.replicate MAX_CHAT_SIZE 0) stdin).1.text m.behind
        = ascii "UserInfo"
    · simp only [if_pos heq]
      exact ⟨heq.symm, fun _ => rfl, fun _ => rfl⟩
    · simp only [if_neg heq]
      exact ⟨rfl, fun h => absurd h (by simp [ClientOperation.isUserInfo]), fun h => absurd h heq⟩
  exact ⟨hsend.1.trans htext, rfl, hsend.2⟩

/-- A text without NULs is sent as it is. -/
theorem mainTurn_typed {stdin : List UInt8} (h0 : 0 ∉ stdin) (m : MainMemory) :
    (mainTurn m stdin).1.typed = (LineInput.read newline (MAX_CHAT_SIZE - 1) stdin).1
      ∧ 0 ∉ (mainTurn m stdin).2 := by
  obtain ⟨htyped, hrest, -⟩ := mainTurn_eq m stdin
  have happend := LineInput.read_append newline (MAX_CHAT_SIZE - 1) stdin
  rw [htyped, hrest]
  constructor
  · rw [List.takeWhile_eq_self_iff]
    intro b hb
    have hne : b ≠ 0 := by
      rintro rfl
      exact h0 (happend ▸ List.mem_append_left _ hb)
    simpa using hne
  · intro hmem
    exact h0 (happend ▸ List.mem_append_right _ hmem)

/-- **The account is sent** exactly when `UserInfo`, without a newline, is all that is left. -/
theorem isUserInfo_iff {stdin : List UInt8} (h0 : 0 ∉ stdin) (m : MainMemory) :
    (mainTurn m stdin).1.isUserInfo = true ↔ stdin = ascii "UserInfo" := by
  rw [(mainTurn_eq m stdin).2.2, (mainTurn_typed h0 m).1]
  exact LineInput.read_eq_whole_iff newline (by decide) (by decide) stdin

/-- Every operation of the loop is performed: its texts fit. -/
theorem perform_mainTurn (m : MainMemory) (stdin : List UInt8) :
    ∃ w, (mainTurn m stdin).1.perform = some w := by
  generalize (mainTurn m stdin).1 = op
  cases op with
  | SendUserInfo memory Id Pw =>
      obtain ⟨Id', hId⟩ := exists_strcpy_s Id (show Name.length < MAX_ID_LEN by decide)
      obtain ⟨Pw', hPw⟩ := exists_strcpy_s Pw (show Name.length < MAX_PW_LEN by decide)
      have hInfo : (ST_UserInfo.fresh Id Pw).SetInfo Name Name
          = some { ST_UserInfo.fresh Id Pw with Id := Id', Pw := Pw' } := by
        show (strcpy_s Id Name).bind (fun Id => (strcpy_s Pw Name).map _) = _
        rw [hId, Option.bind_some, hPw]
        rfl
      refine ⟨⟨ST_UserInfo.store memory { ST_UserInfo.fresh Id Pw with Id := Id', Pw := Pw' },
        ST_UserInfo.sizeof, BUF_SIZE⟩, ?_⟩
      show SendUserInfo memory Id Pw = _
      unfold SendUserInfo
      rw [hInfo]
      rfl
  | SendToServer memory Id Message id Msg =>
      obtain ⟨w, hw, -⟩ := SendToServer_chat memory Id Message id Msg
      exact ⟨w, hw⟩

/-! ## §3. Whole inputs. -/

/-- The texts of the first turns are the first reads. -/
theorem main_typed {stdin : List UInt8} (h0 : 0 ∉ stdin) (ms : List MainMemory) :
    (main ms stdin).1.map ClientOperation.typed
        = (LineInput.reads newline (MAX_CHAT_SIZE - 1) ms.length stdin).1
      ∧ (main ms stdin).2 = (LineInput.reads newline (MAX_CHAT_SIZE - 1) ms.length stdin).2
      ∧ 0 ∉ (main ms stdin).2 := by
  induction ms generalizing stdin with
  | nil => exact ⟨rfl, rfl, h0⟩
  | cons m ms ih =>
      obtain ⟨htyped, hrest⟩ := mainTurn_typed h0 m
      obtain ⟨hops, hleft, hnul⟩ := ih hrest
      rw [(mainTurn_eq m stdin).2.1] at hops hleft
      refine ⟨?_, hleft, hnul⟩
      show (mainTurn m stdin).1.typed :: (main ms (mainTurn m stdin).2).1.map _ = _
      rw [htyped, (mainTurn_eq m stdin).2.1, hops]
      rfl

/-- An operation of the loop is the turn over what the turns before have left. -/
theorem main_getElem? {ms : List MainMemory} {stdin : List UInt8} {i : Nat} {op : ClientOperation}
    (h : (main ms stdin).1[i]? = some op) :
    ∃ m, op = (mainTurn m (main (ms.take i) stdin).2).1 := by
  induction ms generalizing stdin i with
  | nil => exact absurd h (by simp [main])
  | cons m ms ih =>
      cases i with
      | zero => exact ⟨m, (Option.some.inj h).symm⟩
      | succ i => exact ih h

/-- **Everything typed is sent.**  For every input without NULs, every memory and any number of turns of
the loop: every turn gives its packet to the socket; the texts sent are the input's first reads of at
most 511 bytes, each up to a newline in it, and with what is left they are the input, so that nothing
typed is lost, doubled or moved; the account is sent in a turn exactly when `UserInfo`, without a
newline, is all that is left then; and as many turns as there are bytes leave nothing, after which the
loop goes on with empty chats. -/
theorem typed_sent (stdin : List UInt8) (h0 : 0 ∉ stdin) (ms : List MainMemory) :
    (∃ ws : List SocketWrite, (main ms stdin).1.map ClientOperation.perform = ws.map some)
      ∧ (main ms stdin).1.map ClientOperation.typed
        = (LineInput.reads newline (MAX_CHAT_SIZE - 1) ms.length stdin).1
      ∧ ((main ms stdin).1.map ClientOperation.typed).flatten ++ (main ms stdin).2 = stdin
      ∧ (∀ i op, (main ms stdin).1[i]? = some op →
        (op.isUserInfo = true ↔ (main (ms.take i) stdin).2 = ascii "UserInfo"))
      ∧ (stdin.length ≤ ms.length → (main ms stdin).2 = [])
      ∧ ∀ i op, (main ms stdin).1[i]? = some op → stdin.length ≤ i →
        op.isUserInfo = false ∧ op.typed = [] := by
  obtain ⟨htyped, hleft, -⟩ := main_typed h0 ms
  refine ⟨?_, htyped, ?_, ?_, ?_, ?_⟩
  · clear htyped hleft
    induction ms generalizing stdin with
    | nil => exact ⟨[], rfl⟩
    | cons m ms ih =>
        obtain ⟨w, hw⟩ := perform_mainTurn m stdin
        obtain ⟨ws, hws⟩ := ih _ (mainTurn_typed h0 m).2
        refine ⟨w :: ws, ?_⟩
        show (mainTurn m stdin).1.perform :: (main ms (mainTurn m stdin).2).1.map _ = _
        rw [hw, hws]
        rfl
  · rw [htyped, hleft]
    exact LineInput.reads_append newline _ _ _
  · intro i op hop
    obtain ⟨m, rfl⟩ := main_getElem? hop
    exact isUserInfo_iff (main_typed h0 (ms.take i)).2.2 m
  · intro hlen
    rw [hleft]
    exact LineInput.reads_rest_nil newline (by decide) hlen
  · intro i op hop hi
    have hbound : i < ms.length := by
      by_contra hge
      have hnone : (main ms stdin).1[i]? = none := by
        apply List.getElem?_eq_none
        have hlength := congrArg List.length htyped
        rw [List.length_map, LineInput.length_reads] at hlength
        omega
      rw [hnone] at hop
      exact absurd hop (by simp)
    obtain ⟨m, rfl⟩ := main_getElem? hop
    have hnil : (main (ms.take i) stdin).2 = [] := by
      rw [(main_typed h0 (ms.take i)).2.1]
      apply LineInput.reads_rest_nil newline (by decide)
      rw [List.length_take]
      omega
    rw [hnil, (mainTurn_eq m []).1, LineInput.read_nil]
    refine ⟨?_, rfl⟩
    have hno := (mainTurn_eq m []).2.2
    rw [(mainTurn_eq m []).1, LineInput.read_nil] at hno
    rw [← Bool.not_eq_true, hno]
    decide

/-- Memory that holds zeros. -/
def blank : MainMemory where
  memory := fun _ => 0
  Id := Vector.replicate MAX_ID_LEN 0
  Pw := Vector.replicate MAX_PW_LEN 0
  Message := Vector.replicate MAX_CHAT_SIZE 0
  behind := []

/-- `UserInfo` as a line is a chat; at the end of the input it is the account, and chats without a text
follow. -/
theorem typed_sent_account :
    (main [blank, blank, blank, blank] (ascii "UserInfo\nUserInfo")).1.map ClientOperation.isUserInfo
        = [false, true, false, false]
      ∧ ((main [blank, blank, blank, blank] (ascii "UserInfo\nUserInfo")).1.map
          ClientOperation.typed).flatten
        ++ (main [blank, blank, blank, blank] (ascii "UserInfo\nUserInfo")).2
          = ascii "UserInfo\nUserInfo" :=
  ⟨by decide +kernel,
    (typed_sent (ascii "UserInfo\nUserInfo") (by decide) [blank, blank, blank, blank]).2.2.1⟩

end Client

end YServerCore
