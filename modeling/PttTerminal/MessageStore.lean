import PttTerminal.Library.Tables

/-!
# The message store

Text messages are the rows of the table `msgs`. A row belongs to a thread, which stands for the
conversation with one address. SQLite gives each row its key; the number of the thread is chosen in
two steps, by a look-up of the address before a message is built and by `addNew` after it.
-/
namespace PttTerminal

open Tables

inductive MsgType where
  | me
  | he
  deriving Repr, DecidableEq

inductive ReadStatus where
  | read
  | unread
  deriving Repr, DecidableEq

/-- `unset` is the 0 of a message that was received. -/
inductive SendStatus where
  | unset
  | sendOk
  | inSend
  | unSend
  deriving Repr, DecidableEq

structure Message where
  threadId : ℤ
  address : String
  date : String
  body : String
  type : MsgType
  readstatus : ReadStatus
  sendstatus : SendStatus := .unset
  deriving Repr, DecidableEq

/-- The table `msgs`, whose columns but `_id` are the fields of a message. -/
abbrev Msgs := Table Message

/-- The value of an `int`. -/
def javaInt (n : ℤ) : ℤ := Int.bmod n (2 ^ 32)

/-- `Integer.MAX_VALUE`. -/
abbrev intMax : ℤ := 2 ^ 31 - 1

namespace MessageCl

variable (db : Msgs)

def getThreadIds : List ℤ := (db.rows.map fun r => r.cols.threadId).filter (· ≠ 0)

def getThreadidFromAddress (caddress : String) : ℤ :=
  ((db.first fun m => m.address = caddress).map fun r => r.cols.threadId).getD 0

def getIdFromMsg (msg : Message) : ℤ :=
  ((db.first fun m => m.address = msg.address ∧ m.date = msg.date ∧ m.body = msg.body ∧
    m.type = msg.type).map fun r => javaInt r.id).getD 0

def getMsgAtrrayfromAddress (caddress : String) : List Message :=
  (db.rows.map Row.cols).filter fun m => m.address = caddress

/-- SQLite chooses the row that stands for a thread. -/
def GetSessionList (lst : List Message) : Prop :=
  (∀ m ∈ lst, ∃ r ∈ db.rows, r.cols = m) ∧ (lst.map Message.threadId).Nodup ∧
    ∀ r ∈ db.rows, ∃ m ∈ lst, m.threadId = r.cols.threadId

instance (lst : List Message) : Decidable (GetSessionList db lst) :=
  inferInstanceAs (Decidable ((∀ m ∈ lst, ∃ r ∈ db.rows, r.cols = m) ∧ _ ∧
    ∀ r ∈ db.rows, ∃ m ∈ lst, m.threadId = r.cols.threadId))

def getMaxThreadId : ℤ := (db.rows.map fun r => r.cols.threadId).max?.getD 0

/-- The thread that `addNew` files a message in. -/
def newThreadId (ms : Message) : ℤ :=
  if (getThreadIds db).isEmpty then 1
  else if ms.threadId = 0 then javaInt (getMaxThreadId db + 1)
  else ms.threadId

def addNew (ms : Message) : Msgs := db.insert { ms with threadId := newThreadId db ms }

def updateMsgReadStatus (threadId : ℤ) (readStatus : ReadStatus) : Msgs :=
  db.update (fun r => r.cols.threadId = threadId) fun m => { m with readstatus := readStatus }

/-- With -1 any unread message counts. -/
def checkIfAnyUnreadSession (threadId : ℤ) : Bool :=
  db.rows.any fun r => r.cols.readstatus = .unread && (threadId = -1 || r.cols.threadId = threadId)

def updateMsgSendStatus (msg : Message) : Msgs :=
  db.update (fun r => (r.id : ℤ) = getIdFromMsg db msg) fun m =>
    { m with sendstatus := msg.sendstatus }

def deleteMsg (id : ℤ) : Msgs := db.delete fun r => (r.id : ℤ) = id

def deleteSession (threadId : ℤ) : Msgs := db.delete fun r => r.cols.threadId = threadId

end MessageCl

open MessageCl

/-! ### What the look-ups answer -/

section
variable {db : Msgs} {a : String} {r : Row Message}

/-- Two rows are in the same thread exactly when they have the same address, and threads are
numbered from 1 on. -/
structure ThreadLaw (db : Msgs) : Prop where
  positive : db.All fun m => 0 < m.threadId
  paired : db.Paired Message.threadId Message.address

theorem threadLaw_empty : ThreadLaw {} := ⟨by simp [Table.All], Table.paired_empty⟩

/-- No message of the address is stored. -/
def NoRow (db : Msgs) (a : String) : Prop := db.All fun m => m.address ≠ a

instance : Decidable (NoRow db a) :=
  inferInstanceAs (Decidable (∀ r ∈ db.rows, r.cols.address ≠ a))

theorem threadid_of_noRow (h : NoRow db a) : getThreadidFromAddress db a = 0 := by
  have hnone : db.first (fun m => m.address = a) = none := by
    rw [Table.first_eq_none]
    intro r hr
    simpa using h r hr
  simp [getThreadidFromAddress, hnone]

/-- A stored address is in the thread of its rows. -/
theorem threadid_of_row (h : ThreadLaw db) (hr : r ∈ db.rows) (ha : r.cols.address = a) :
    getThreadidFromAddress db a = r.cols.threadId := by
  cases hf : db.first fun m => m.address = a with
  | none =>
    have := Table.first_eq_none.mp hf r hr
    simp [ha] at this
  | some r₀ =>
    obtain ⟨h₀, ha₀⟩ := Table.first_eq_some hf
    have ha₀ : r₀.cols.address = a := by simpa using ha₀
    simp only [getThreadidFromAddress, hf, Option.map_some, Option.getD_some]
    exact (h.paired r₀ h₀ r hr).mpr (ha₀.trans ha.symm)

/-- With an unknown address the look-up answers 0. -/
theorem threadid_eq_zero (h : ThreadLaw db) : getThreadidFromAddress db a = 0 ↔ NoRow db a := by
  constructor
  · intro h0 r hr ha
    have hpos : 0 < r.cols.threadId := h.positive r hr
    rw [threadid_of_row h hr ha] at h0
    omega
  · exact threadid_of_noRow

theorem le_getMaxThreadId (hr : r ∈ db.rows) : r.cols.threadId ≤ getMaxThreadId db := by
  have hmem : r.cols.threadId ∈ db.rows.map fun r => r.cols.threadId :=
    List.mem_map.mpr ⟨r, hr, rfl⟩
  cases hm : (db.rows.map fun r => r.cols.threadId).max? with
  | none =>
    rw [List.max?_eq_none_iff] at hm
    simp [hm] at hmem
  | some m =>
    simp only [getMaxThreadId, hm, Option.getD_some]
    exact (List.max?_eq_some_iff.mp hm).2 _ hmem

theorem getMaxThreadId_nonneg (h : ThreadLaw db) : 0 ≤ getMaxThreadId db := by
  cases hm : (db.rows.map fun r => r.cols.threadId).max? with
  | none => simp [getMaxThreadId, hm]
  | some m =>
    obtain ⟨r, hr, rfl⟩ := List.mem_map.mp (List.max?_eq_some_iff.mp hm).1
    have hpos : 0 < r.cols.threadId := h.positive r hr
    simp only [getMaxThreadId, hm, Option.getD_some]
    omega

theorem javaInt_eq_self {n : ℤ} (h0 : 0 ≤ n) (h : n ≤ intMax) : javaInt n = n := by
  unfold intMax at h
  unfold javaInt
  apply Int.bmod_eq_of_le <;> omega

theorem javaInt_le_intMax (n : ℤ) : javaInt n ≤ intMax := by
  have hlt : javaInt n < (2 ^ 32 + 1) / 2 := Int.bmod_lt (by decide)
  unfold intMax
  omega

/-- An `int` that did not become negative did not wrap round. -/
theorem javaInt_eq_of_nonneg {n : ℤ} (h0 : 0 ≤ n) (h : n < 2 ^ 32) (hjava : 0 ≤ javaInt n) :
    javaInt n = n := by
  have hle := javaInt_le_intMax n
  have hmod : javaInt n % (2 ^ 32 : ℕ) = n % (2 ^ 32 : ℕ) := Int.bmod_emod
  unfold intMax at hle
  rwa [Int.emod_eq_of_lt hjava (by omega), Int.emod_eq_of_lt h0 (by omega)] at hmod

theorem threadIds_isEmpty (h : ThreadLaw db) : (getThreadIds db).isEmpty ↔ db.rows = [] := by
  rw [List.isEmpty_iff, getThreadIds, List.filter_eq_nil_iff]
  constructor
  · intro hall
    rw [List.eq_nil_iff_forall_not_mem]
    intro r hr
    have hpos : 0 < r.cols.threadId := h.positive r hr
    have := hall r.cols.threadId (List.mem_map.mpr ⟨r, hr, rfl⟩)
    simp only [ne_eq, decide_not, Bool.not_eq_true', decide_eq_false_iff_not, not_not] at this
    omega
  · intro hnil
    simp [hnil]

end

/-! ### What the operations keep -/

section
variable {db : Msgs} {ms : Message}

/-- There is a number left for a new thread, if the message needs one. -/
def HasRoom (db : Msgs) (a : String) : Prop := NoRow db a → getMaxThreadId db < intMax

instance (a : String) : Decidable (HasRoom db a) :=
  inferInstanceAs (Decidable (NoRow db a → getMaxThreadId db < intMax))

/-- A message in the thread of its address goes there. -/
theorem addNew_known (h : ThreadLaw db) {r : Row Message} (hr : r ∈ db.rows)
    (ht : ms.threadId = r.cols.threadId) (ha : ms.address = r.cols.address) :
    newThreadId db ms = ms.threadId ∧ ThreadLaw (addNew db ms) := by
  have hpos : 0 < r.cols.threadId := h.positive r hr
  have hne : (getThreadIds db).isEmpty = false := by
    rw [Bool.eq_false_iff, ne_eq, threadIds_isEmpty h]
    exact List.ne_nil_of_mem hr
  have hid : newThreadId db ms = ms.threadId := by
    rw [newThreadId, hne, if_neg (by simp), if_neg (by omega)]
  refine ⟨hid, h.positive.insert ?_, h.paired.insert ?_⟩
  · rw [hid, ht]
    exact hpos
  · intro r' hr'
    rw [hid, ht, ha]
    exact h.paired r' hr' r hr

/-- A message of a new address starts a thread of its own, as long as there are numbers left. -/
theorem addNew_unknown (h : ThreadLaw db) (ht : ms.threadId = 0) (ha : NoRow db ms.address)
    (hroom : getMaxThreadId db < intMax) :
    (∀ r ∈ db.rows, r.cols.threadId < newThreadId db ms) ∧ ThreadLaw (addNew db ms) := by
  have hmax := getMaxThreadId_nonneg h
  have hnew : 0 < newThreadId db ms ∧ ∀ r ∈ db.rows, r.cols.threadId < newThreadId db ms := by
    unfold newThreadId
    split
    next hempty =>
      rw [threadIds_isEmpty h] at hempty
      simp [hempty]
    next =>
      rw [javaInt_eq_self (by omega) (by omega)]
      refine ⟨by omega, fun r hr => ?_⟩
      have := le_getMaxThreadId hr
      omega
  refine ⟨hnew.2, h.positive.insert hnew.1, h.paired.insert ?_⟩
  intro r hr
  have hlt := hnew.2 r hr
  have hne : r.cols.address ≠ ms.address := ha r hr
  simp only [hne, iff_false]
  omega

/-- A message that is built with the thread of its address, as long as there is room. -/
theorem addNew_lookup (h : ThreadLaw db) (ht : ms.threadId = getThreadidFromAddress db ms.address)
    (hroom : HasRoom db ms.address) : ThreadLaw (addNew db ms) := by
  by_cases ha : NoRow db ms.address
  · exact (addNew_unknown h (ht.trans (threadid_of_noRow ha)) ha (hroom ha)).2
  · obtain ⟨r, hr, ha⟩ : ∃ r ∈ db.rows, r.cols.address = ms.address := by
      simpa [NoRow, Table.All] using ha
    exact (addNew_known h hr (ht.trans (threadid_of_row h hr ha)) ha.symm).2

theorem ThreadLaw.delete (h : ThreadLaw db) (p : Row Message → Bool) : ThreadLaw (db.delete p) :=
  ⟨h.positive.delete p, h.paired.delete p⟩

theorem ThreadLaw.updateRead (h : ThreadLaw db) (threadId : ℤ) (readStatus : ReadStatus) :
    ThreadLaw (updateMsgReadStatus db threadId readStatus) :=
  ⟨h.positive.update _ fun _ => id, h.paired.update _ (fun _ => rfl) fun _ => rfl⟩

theorem ThreadLaw.updateSend (h : ThreadLaw db) (msg : Message) :
    ThreadLaw (updateMsgSendStatus db msg) :=
  ⟨h.positive.update _ fun _ => id, h.paired.update _ (fun _ => rfl) fun _ => rfl⟩

end

end PttTerminal
