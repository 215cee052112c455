import PttTerminal.MessageScreens
import PttTerminal.TextMessages

/-!
# The counts of the sessions

Beside each session the list shows how many messages it has. The statement that counts them has the
address pasted between double quotes. SQLite reads such a token up to the first quote that is not
doubled, and takes it for a column when it names one.
-/
namespace PttTerminal

open Tables Runs MessageCl

/-! ### Statements with a pasted text -/

/-- The token after an opening quote, and what stands behind it. -/
def readToken : List Char → Option (List Char × List Char)
  | [] => none
  | '"' :: '"' :: cs => (readToken cs).map fun t => ('"' :: t.1, t.2)
  | '"' :: cs => some ([], cs)
  | c :: cs => (readToken cs).map fun t => (c :: t.1, t.2)

inductive MsgColumn where
  | id
  | threadId
  | address
  | date
  | body
  | type
  | readstatus
  | sendstatus
  deriving Repr, DecidableEq

inductive SqlValue where
  | int (n : ℤ)
  | text (s : String)
  deriving Repr, DecidableEq

namespace MsgColumn

def all : List MsgColumn := [id, threadId, address, date, body, type, readstatus, sendstatus]

def name : MsgColumn → String
  | id => "_id"
  | threadId => "thread_id"
  | address => "address"
  | date => "date"
  | body => "body"
  | type => "type"
  | readstatus => "readstatus"
  | sendstatus => "sendstatus"

def value (r : Row Message) : MsgColumn → SqlValue
  | id => .int r.id
  | threadId => .int r.cols.threadId
  | address => .text r.cols.address
  | date => .text r.cols.date
  | body => .text r.cols.body
  | type => .int (match r.cols.type with | .me => 1 | .he => 2)
  | readstatus => .int (match r.cols.readstatus with | .read => 1 | .unread => 2)
  | sendstatus => .int
      (match r.cols.sendstatus with | .unset => 0 | .sendOk => 1 | .inSend => 2 | .unSend => 3)

end MsgColumn

/-- What a token in double quotes stands for. -/
inductive Operand where
  | column (c : MsgColumn)
  | text (s : String)
  deriving Repr, DecidableEq

def Operand.value (r : Row Message) : Operand → SqlValue
  | .column c => c.value r
  | .text s => .text s

/-- The names that SQLite has for the columns, in whatever case; a row's number has three more. -/
def columnNamed (token : String) : Option MsgColumn :=
  let name := token.toList.map Char.toLower
  if name ∈ ["rowid", "oid", "_rowid_"].map String.toList then some .id
  else MsgColumn.all.find? fun c => c.name.toList = name

/-- What SQLite does besides: which texts it takes for columns, whether a text counts as a number,
and what it answers to a statement that goes on behind the token, where `none` is an error. No
column has the name of a number. -/
structure Sqlite where
  columnOf : String → Option MsgColumn
  columnOf_toString : ∀ n : ℤ, columnOf (toString n) = none
  textEqInt : String → ℤ → Bool
  further : Msgs → List Char → List Char → Option ℤ

namespace Sqlite

variable (s : Sqlite)

def operand (token : String) : Operand :=
  match s.columnOf token with
  | some c => .column c
  | none => .text token

def eq : SqlValue → SqlValue → Bool
  | .int m, .int n => m = n
  | .text a, .text b => a = b
  | .text a, .int n => s.textEqInt a n
  | .int n, .text a => s.textEqInt a n

/-- `select count(*) from msgs where ... column="pasted"`, over the rows that meet the rest of the
condition; the count is read as an `int`. -/
def countWhere (db : Msgs) (p : Message → Bool) (column : MsgColumn) (pasted : String) : Option ℤ :=
  match readToken (pasted.toList ++ ['"']) with
  | none => none
  | some (token, []) => some (javaInt (db.rows.countP fun r =>
      p r.cols && s.eq (column.value r) ((s.operand (String.ofList token)).value r)))
  | some (token, rest) => s.further db token rest

def getMsgsNumInChat (db : Msgs) (address : String) : Option ℤ :=
  s.countWhere db (fun _ => true) .address address

/-- `checkIfAnyUnreadSession` of a thread, or of all when the number is -1. -/
def anyUnread (db : Msgs) (threadId : ℤ) : Option Bool :=
  if threadId = -1 then
    some (javaInt (db.rows.countP fun r => r.cols.readstatus = .unread) ≠ 0)
  else
    (s.countWhere db (fun m => m.readstatus = .unread) .threadId (toString threadId)).map (· ≠ 0)

/-- What `SessionAdapter.getView` asks for a session. -/
def getView (db : Msgs) (message : Message) : Option (ℤ × Bool) := do
  let msgNums ← s.getMsgsNumInChat db message.address
  let unread ← s.anyUnread db message.threadId
  return (msgNums, unread)

/-- The whole list is drawn. -/
def drawSessions (db : Msgs) (lst : List Message) : Option (List (ℤ × Bool)) :=
    lst.mapM (s.getView db)

end Sqlite

/-! ### Which texts are read as they are -/

/-- No quote, and not the name of a column. -/
def Sqlite.PlainAddress (s : Sqlite) (a : String) : Prop := '"' ∉ a.toList ∧ s.columnOf a = none

instance (s : Sqlite) (a : String) : Decidable (s.PlainAddress a) :=
  inferInstanceAs (Decidable (_ ∧ _))

section
variable {a cs token rest : List Char} {db : Msgs} {m : Message}

theorem readToken_of_notMem (h : '"' ∉ a) : readToken (a ++ ['"']) = some (a, []) := by
  induction a with
  | nil => rfl
  | cons c a ih =>
    obtain ⟨hc, ha⟩ := not_or.mp (mt List.mem_cons.mpr h)
    rw [List.cons_append, readToken]
    · rw [ih ha]
      rfl
    · exact fun _ hquote => absurd hquote.symm hc
    · exact fun hquote => absurd hquote.symm hc

theorem readToken_length (h : readToken cs = some (token, rest)) :
    token.length + rest.length < cs.length := by
  fun_induction readToken cs generalizing token rest with
  | case1 => cases h
  | case2 cs ih =>
    obtain ⟨t, ht, heq⟩ := Option.map_eq_some_iff.mp h
    cases heq
    have hlen := ih ht
    simp only [List.length_cons]
    omega
  | case3 cs => cases h; simp
  | case4 c cs _ _ ih =>
    obtain ⟨t, ht, heq⟩ := Option.map_eq_some_iff.mp h
    cases heq
    have hlen := ih ht
    simp only [List.length_cons]
    omega

/-- With a quote in it the text is never the token that is read. -/
theorem readToken_eq_self : readToken (a ++ ['"']) = some (a, []) ↔ '"' ∉ a := by
  refine ⟨fun h hmem => ?_, readToken_of_notMem⟩
  induction a with
  | nil => simp at hmem
  | cons c a ih =>
    by_cases hc : c = '"'
    · subst hc
      cases a with
      | nil => cases h
      | cons d a =>
        by_cases hd : d = '"'
        · subst hd
          obtain ⟨⟨t, r⟩, ht, heq⟩ := Option.map_eq_some_iff.mp h
          have hlen := readToken_length ht
          cases heq
          simp at hlen
        · simp [readToken, hd] at h
    · rw [List.cons_append, readToken] at h
      · obtain ⟨⟨t, r⟩, ht, heq⟩ := Option.map_eq_some_iff.mp h
        cases heq
        exact ih ht ((List.mem_cons.mp hmem).resolve_left (Ne.symm hc))
      · exact fun _ hquote => absurd hquote hc
      · exact fun hquote => absurd hquote hc

theorem Sqlite.operand_eq_text (s : Sqlite) {token : String} :
    s.operand token = .text token ↔ s.columnOf token = none := by
  unfold operand
  cases s.columnOf token with
  | none => simp
  | some c => simp

/-- The statement compares with the text itself exactly when the text is plain. -/
theorem Sqlite.reads_text_iff (s : Sqlite) (a : String) :
    (readToken (a.toList ++ ['"']) = some (a.toList, []) ∧ s.operand a = .text a) ↔
      s.PlainAddress a := by
  rw [readToken_eq_self, operand_eq_text]
  rfl

theorem Sqlite.countWhere_plain (s : Sqlite) {text : String} (h : s.PlainAddress text) (db : Msgs)
    (p : Message → Bool) (column : MsgColumn) :
    s.countWhere db p column text =
      some (javaInt (db.rows.countP fun r => p r.cols && s.eq (column.value r) (.text text))) := by
  obtain ⟨htoken, hoperand⟩ := (s.reads_text_iff text).mpr h
  rw [countWhere, htoken]
  dsimp only
  rw [String.ofList_toList, hoperand]
  rfl

theorem toString_chars (n : ℤ) : ∀ c ∈ (toString n).toList, c.isDigit = true ∨ c = '-' := by
  have hnat : ∀ k : ℕ, ∀ c ∈ (Nat.repr k).toList, c.isDigit = true := by
    intro k c hc
    rw [Nat.toList_repr] at hc
    exact Nat.isDigit_of_mem_toDigits (by decide) (by decide) hc
  intro c hc
  cases n with
  | ofNat k => exact .inl (hnat k c hc)
  | negSucc k =>
    have hc : c ∈ ("-" ++ Nat.repr (k + 1)).toList := hc
    rw [String.toList_append, List.mem_append] at hc
    obtain hc | hc := hc
    · exact .inr (by simpa using hc)
    · exact .inl (hnat _ c hc)

theorem Sqlite.plainAddress_toString (s : Sqlite) (n : ℤ) : s.PlainAddress (toString n) :=
  ⟨fun hmem => absurd (toString_chars n '"' hmem) (by decide), s.columnOf_toString n⟩

/-- A name has a letter, and a number has none. -/
theorem columnNamed_toString (n : ℤ) : columnNamed (toString n) = none := by
  have hlower : ∀ c : Char, c.isDigit = true ∨ c = '-' → c.toLower = c := by
    rintro c (hdigit | rfl)
    · unfold Char.toLower
      simp only [Char.isDigit, Bool.and_eq_true, decide_eq_true_eq] at hdigit
      grind
    · rfl
  have hsame : (toString n).toList.map Char.toLower = (toString n).toList :=
    (List.map_congr_left fun c hc => hlower c (toString_chars n c hc)).trans (List.map_id _)
  have hletter : ∀ name : List Char, (∃ x ∈ name, ¬(x.isDigit = true ∨ x = '-')) →
      name ≠ (toString n).toList := by
    rintro name ⟨x, hx, hno⟩ rfl
    exact hno (toString_chars n x hx)
  unfold columnNamed
  rw [hsame]
  dsimp only
  rw [if_neg ?_, List.find?_eq_none]
  · intro c _
    rw [decide_eq_true_eq]
    refine hletter _ ?_
    cases c <;> simp [MsgColumn.name]
  · intro hmem
    obtain ⟨name, hname, heq⟩ := List.mem_map.mp hmem
    refine hletter _ ?_ heq
    rcases (by simpa using hname : name = "rowid" ∨ name = "oid" ∨ name = "_rowid_") with
      rfl | rfl | rfl
    all_goals simp

end

/-- The sessions can be drawn, and beside each stands the number of the rows with its address. -/
def ShowsSessions (s : Sqlite) (db : Msgs) : Prop :=
  ∀ lst, GetSessionList db lst → ∃ shown, s.drawSessions db lst = some shown ∧
    shown.map Prod.fst = lst.map fun m => ((db.rows.countP fun r => r.cols.address = m.address : ℕ) : ℤ)

/-- The rows can be counted by an `int`. -/
def FewRows (db : Msgs) : Prop := (db.rows.length : ℤ) ≤ intMax

theorem mapM_eq_some {α β : Type*} {f : α → Option β} {g : α → β} {l : List α}
    (h : ∀ a ∈ l, f a = some (g a)) : l.mapM f = some (l.map g) := by
  induction l with
  | nil => rfl
  | cons a l ih =>
    rw [List.mapM_cons, h a List.mem_cons_self, ih fun b hb => h b (List.mem_cons_of_mem _ hb)]
    rfl

theorem Sqlite.getMsgsNumInChat_plain (s : Sqlite) {db : Msgs} (hfew : FewRows db) {a : String}
    (h : s.PlainAddress a) : s.getMsgsNumInChat db a =
      some ((db.rows.countP fun r => r.cols.address = a : ℕ) : ℤ) := by
  have hle : db.rows.countP (fun r => r.cols.address = a) ≤ db.rows.length := List.countP_le_length
  have hint : javaInt (db.rows.countP fun r => r.cols.address = a) =
      ((db.rows.countP fun r => r.cols.address = a : ℕ) : ℤ) := by
    unfold FewRows at hfew
    exact javaInt_eq_self (by omega) (by omega)
  rw [getMsgsNumInChat, s.countWhere_plain h, ← hint]
  rfl

theorem Sqlite.exists_anyUnread (s : Sqlite) (db : Msgs) (threadId : ℤ) :
    ∃ unread, s.anyUnread db threadId = some unread := by
  rw [anyUnread, s.countWhere_plain (s.plainAddress_toString threadId)]
  split_ifs
  · exact ⟨_, rfl⟩
  · exact ⟨_, rfl⟩

/-- With plain addresses in the store the list is drawn as it should be. -/
theorem showsSessions_of_plain (s : Sqlite) {db : Msgs} (hfew : FewRows db)
    (h : db.All fun m => s.PlainAddress m.address) : ShowsSessions s db := by
  intro lst hlst
  have hview : ∀ m ∈ lst, ∃ unread, s.getView db m =
      some (((db.rows.countP fun r => r.cols.address = m.address : ℕ) : ℤ), unread) := by
    intro m hm
    obtain ⟨r, hr, rfl⟩ := hlst.1 m hm
    obtain ⟨unread, hunread⟩ := s.exists_anyUnread db r.cols.threadId
    refine ⟨unread, ?_⟩
    rw [Sqlite.getView, s.getMsgsNumInChat_plain hfew (h r hr), hunread]
    rfl
  choose! unread hunread using hview
  refine ⟨_, mapM_eq_some hunread, ?_⟩
  rw [List.map_map]
  rfl

/-! ### The screens, and messages from the network -/

/-- What comes from the network, or another event of the screens. -/
inductive SessionsEvent where
  | message (sender body : Bytes) (date : String)
  | screen (e : ScreenEvent)
  deriving Repr, DecidableEq

/-- `newStringUTF` makes the Java strings. A blank number is that of a message of another kind. -/
def SessionsEvent.screenEvent (newStringUTF : Bytes → String) : SessionsEvent → Option ScreenEvent
  | .message sender body date =>
    match doReceiveSms sender body with
    | .ok ⟨some number, text⟩ =>
      let address := newStringUTF number
      if javaTrim address = "" then none
      else some (.receive address (newStringUTF (text.getD [])) date)
    | _ => none
  | .screen e => some e

/-- A number that does not fit its buffer ends the program. -/
def SessionsEvent.ends : SessionsEvent → Bool
  | .message sender body _ => !(doReceiveSms sender body).isOk
  | .screen _ => false

/-- Received messages come from the network only. -/
def SessionsEvent.possible : SessionsEvent → Bool
  | .screen (.receive ..) => false
  | _ => true

namespace Screens

variable (newStringUTF : Bytes → String) (d : Screens)

/-- Of a program that has ended only the store is left. -/
def nextMessage (e : SessionsEvent) : Screens :=
  if e.ends then { db := d.db } else (e.screenEvent newStringUTF).elim d d.next

def EnabledMessage (e : SessionsEvent) : Prop :=
  e.possible = true ∧ ∀ e' ∈ e.screenEvent newStringUTF, d.Enabled e'

instance (e : SessionsEvent) : Decidable (d.EnabledMessage newStringUTF e) :=
  inferInstanceAs (Decidable (_ ∧ ∀ e' ∈ e.screenEvent newStringUTF, d.Enabled e'))

/-- The message that is stored is to or from a plain address, and its row can be counted. -/
def storesPlain (s : Sqlite) (e : SessionsEvent) : Prop :=
  ∀ ms ∈ (e.screenEvent newStringUTF).bind d.stores,
    s.PlainAddress ms.address ∧ (d.db.rows.length : ℤ) < intMax

instance (s : Sqlite) (e : SessionsEvent) : Decidable (d.storesPlain newStringUTF s e) :=
  inferInstanceAs (Decidable (∀ ms ∈ (e.screenEvent newStringUTF).bind d.stores,
    s.PlainAddress ms.address ∧ (d.db.rows.length : ℤ) < intMax))

end Screens

/-- The screens from the first start of the application on. -/
def sessionScreens (newStringUTF : Bytes → String) : System Screens SessionsEvent where
  init d := d = {}
  enabled := Screens.EnabledMessage newStringUTF
  next := Screens.nextMessage newStringUTF

instance (newStringUTF : Bytes → String) (d : Screens) (e : SessionsEvent) :
    Decidable ((sessionScreens newStringUTF).enabled d e) :=
  inferInstanceAs (Decidable (d.EnabledMessage newStringUTF e))

section
variable {newStringUTF : Bytes → String} {d : Screens} {s : Sqlite}

/-- The addresses are plain, and the rows can be counted. -/
structure Countable (s : Sqlite) (db : Msgs) : Prop where
  plain : db.All fun m => s.PlainAddress m.address
  few : FewRows db

theorem FewRows.delete {db : Msgs} (h : FewRows db) (p : Row Message → Bool) :
    FewRows (db.delete p) := by
  have hle : (db.delete p).rows.length ≤ db.rows.length := List.length_filter_le _ _
  unfold FewRows at h ⊢
  omega

theorem FewRows.update {db : Msgs} (h : FewRows db) (p : Row Message → Bool)
    (f : Message → Message) : FewRows (db.update p f) := by
  unfold FewRows Table.update at *
  simpa using h

theorem countable_next (h : Countable s d.db) {e : ScreenEvent}
    (hok : ∀ ms ∈ d.stores e, s.PlainAddress ms.address ∧ (d.db.rows.length : ℤ) < intMax) :
    Countable s (d.next e).db := by
  cases hstores : d.stores e with
  | some ms =>
    obtain ⟨hplain, hfew⟩ := hok ms hstores
    rw [next_stores hstores]
    refine ⟨h.plain.insert hplain, ?_⟩
    unfold FewRows addNew Table.insert
    rw [List.length_append, List.length_singleton]
    omega
  | none =>
    exact next_keeps (Q := Countable s) (fun db p h => ⟨h.plain.delete p, h.few.delete p⟩)
      (fun db t h => ⟨h.plain.update _ fun _ => id, h.few.update _ _⟩)
      (fun _ db msg h => ⟨h.plain.update _ fun _ => id, h.few.update _ _⟩) hstores h

/-- As long as all that is stored is to or from plain addresses, the sessions can be drawn with
their counts, whatever comes from the network and whatever SQLite does with other statements. -/
theorem runs_sessionsShown (s : Sqlite)
    (h : (sessionScreens newStringUTF).Reached (Screens.storesPlain newStringUTF · s) d) :
    ShowsSessions s d.db := by
  have hcountable : Countable s d.db := by
    apply h.invariant
    · rintro _ rfl
      exact ⟨by simp [Table.All], by unfold FewRows; decide⟩
    · intro d e hc _ hok
      show Countable s (d.nextMessage newStringUTF e).db
      unfold Screens.nextMessage
      split
      · exact hc
      · cases he : e.screenEvent newStringUTF with
        | none => exact hc
        | some e' =>
          refine countable_next hc fun ms hms => hok ms ?_
          rw [he]
          exact hms
  exact showsSessions_of_plain s hcountable.few hcountable.plain

end

/-! ### Quotes from the network -/

theorem mapM_eq_none {α β : Type*} {f : α → Option β} {a : α} {l : List α} (ha : a ∈ l)
    (h : f a = none) : l.mapM f = none := by
  induction l with
  | nil => cases ha
  | cons b l ih =>
    rw [List.mapM_cons]
    obtain rfl | ha := List.mem_cons.mp ha
    · rw [h]
      rfl
    · rw [ih ha]
      cases f b <;> rfl

/-- An address of which the closing quote becomes a part leaves no list that shows it. -/
theorem Sqlite.drawSessions_eq_none (s : Sqlite) (db : Msgs) {lst : List Message} {m : Message}
    (hm : m ∈ lst) (h : readToken (m.address.toList ++ ['"']) = none) :
    s.drawSessions db lst = none := by
  apply mapM_eq_none hm
  rw [getView, getMsgsNumInChat, countWhere, h]
  rfl

/-- A text that goes on behind the token is an error, and a text counts as the number that it is
written like. -/
def strictSqlite : Sqlite where
  columnOf := columnNamed
  columnOf_toString := columnNamed_toString
  textEqInt a n := a = toString n
  further _ _ _ := none

/-- Every byte is a character. -/
def latin1 (bs : Bytes) : String := String.ofList (bs.map fun b => Char.ofNat b.toNat)

def deskRun : List SessionsEvent :=
  [.message (ascii "\"Desk\" <sip:101@host>") (ascii "hi") "05-01 10:00",
    .message (ascii "<sip:102@host>") (ascii "hello") "05-01 10:01", .screen .openNewMsg,
    .screen (.newMsgSend "101" "yes" "05-01 10:02" true)]

theorem shown_along_run : ShowsSessions strictSqlite ((sessionScreens latin1).run {} deskRun).db :=
  runs_sessionsShown strictSqlite (System.reached_run rfl
    (by decide +kernel : (sessionScreens latin1).Allowed (Screens.storesPlain latin1 · strictSqlite) {}
      deskRun))

/-- A display name with a colon, a quoted quote and an at sign. -/
def quotedDeskRun : List SessionsEvent :=
  [.message (ascii "\"Desk: 2\\\"@home\" <sip:1001@host>") (ascii "hi") "05-01 10:00"]

/-- The row that the run leaves. -/
def quotedMessage : Message := ⟨1, "2\\\"", "05-01 10:00", "hi", .he, .unread, .unset⟩

/-- The number ends in a quote, and the list cannot be drawn. -/
theorem quoted_desk_not_shown :
    (sessionScreens latin1).Allowed (fun _ _ => True) {} quotedDeskRun ∧
    (((sessionScreens latin1).run {} quotedDeskRun).db.rows.map fun r => r.cols.address) =
      ["2\\\""] ∧
    ¬ShowsSessions strictSqlite ((sessionScreens latin1).run {} quotedDeskRun).db := by
  refine ⟨by decide +kernel, by decide +kernel, fun h => ?_⟩
  obtain ⟨shown, hshown, -⟩ := h [quotedMessage] (by decide +kernel)
  have hmem : quotedMessage ∈ [quotedMessage] := List.mem_cons_self
  have hnone := strictSqlite.drawSessions_eq_none (m := quotedMessage)
    ((sessionScreens latin1).run {} quotedDeskRun).db hmem (by decide +kernel)
  exact absurd (hnone.symm.trans hshown) (by simp)

end PttTerminal
