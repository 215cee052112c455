import PttTerminal.Library.Runs
import PttTerminal.MessageStore

/-!
# The message screens

Around the message store there are a receiver of broadcasts and three screens: the list of the
conversations, the conversations that are open, and the screen for a new message. All run in one
thread, but a broadcast is handled some time after it was sent. A screen looks at what it has read
from the store, which may have changed since.
-/
namespace PttTerminal

open Tables Runs MessageCl

/-- `ChatActivity`. The field `msg` is what was sent last or the row that was drawn last. -/
structure Chat where
  caddress : String
  list : List Message
  msg : Option Message := none
  shown : Bool := true
  deriving Repr, DecidableEq

/-- `MessageActivity`. -/
structure Sessions where
  lstSession : List Message
  havaUnRead : Bool
  deriving Repr, DecidableEq

/-- `NewMsgActivity`. -/
structure NewMsg where
  message : Option Message := none
  deriving Repr, DecidableEq

/-- The store, the flag of `MessageReceiver`, the screens that are open, and the broadcasts
`FRESHVIEW` and `SENDSTATUS` that are not handled yet. -/
structure Screens where
  db : Msgs := {}
  isSend : Bool := false
  chats : List Chat := []
  sessions : Option Sessions := none
  newMsg : Option NewMsg := none
  freshView : List Message := []
  sendStatus : List ℤ := []
  deriving Repr, DecidableEq

/-- `String.trim`. -/
def javaTrim (s : String) : String :=
  String.ofList (((s.toList.dropWhile (· ≤ ' ')).reverse.dropWhile (· ≤ ' ')).reverse)

/-! ### The screens -/

namespace Chat

/-- `freshListView`. -/
def freshListView (db : Msgs) (c : Chat) : Chat :=
    { c with list := getMsgAtrrayfromAddress db c.caddress }

def onCreate (db : Msgs) (caddress : String) : Chat :=
    freshListView db { caddress := caddress, list := [] }

/-- `MyAdapter.getView`: the field `msg` is overwritten. -/
def getView (position : ℕ) (c : Chat) : Chat :=
  match c.list[position]? with
  | some m => { c with msg := some m }
  | none => c

/-- The message that the send button makes. -/
def newMessage (db : Msgs) (body date : String) (c : Chat) : Message where
  threadId := getThreadidFromAddress db c.caddress
  address := c.caddress
  date := date
  body := body
  type := .me
  readstatus := .read
  sendstatus := .inSend

/-- `MyChatFreshReceicer.onReceive`, in one chat after the other. -/
def onFresh (newMsg : Message) : List Chat → Msgs → List Chat × Msgs
  | [], db => ([], db)
  | c :: cs, db =>
    let db := updateMsgReadStatus db newMsg.threadId .read
    let c := c.freshListView db
    let (cs, db) := onFresh newMsg cs db
    (c :: cs, db)

def answered (sendstatus : ℤ) (msg : Message) : Message :=
  { msg with sendstatus := if sendstatus = 200 then .sendOk else .unSend }

/-- `MyChatStatusReceicer.onReceive`, in one chat after the other. -/
def onStatus (sendstatus : ℤ) : List Chat → Msgs → List Chat × Msgs
  | [], db => ([], db)
  | c :: cs, db =>
    let msg := c.msg.map (answered sendstatus)
    let db := (msg.map (updateMsgSendStatus db)).getD db
    let c := { c with msg := msg }.freshListView db
    let (cs, db) := onStatus sendstatus cs db
    (c :: cs, db)

end Chat

/-- The list is read again, and `lst` is what SQLite answers. -/
def Sessions.freshListView (lst : List Message) (s : Sessions) : Sessions :=
    { s with lstSession := lst }

namespace Screens

/-- The message that `MessageReceiver` builds. -/
def received (db : Msgs) (address body date : String) : Message where
  threadId := getThreadidFromAddress db address
  address := address
  date := date
  body := body
  type := .he
  readstatus := .unread

/-- `MessageReceiver.onReceive` for a new message: the thread is looked up before the row is
inserted, and the broadcast carries the message as it was built. -/
def onNewMessage (address body date : String) (d : Screens) : Screens :=
  let msg := received d.db address body date
  { d with db := addNew d.db msg, freshView := d.freshView ++ [msg] }

/-- `MessageReceiver.onReceive` for the result of a send. -/
def onMessageResult (status : ℤ) (d : Screens) : Screens :=
  if d.isSend then { d with sendStatus := d.sendStatus ++ [status], isSend := false } else d

/-- The oldest broadcast `FRESHVIEW` reaches the list of the conversations and the chats. -/
def onFresh (lst : List Message) (d : Screens) : Screens :=
  match d.freshView with
  | [] => d
  | newMsg :: rest =>
    let (chats, db) := Chat.onFresh newMsg d.chats d.db
    { d with db := db, chats := chats, freshView := rest, sessions := d.sessions.map fun s =>
        { s with havaUnRead := true }.freshListView lst }

/-- The oldest broadcast `SENDSTATUS` reaches the chats and the new message. -/
def onStatus (d : Screens) : Screens :=
  match d.sendStatus with
  | [] => d
  | sendstatus :: rest =>
    let (chats, db) := Chat.onStatus sendstatus d.chats d.db
    let message := d.newMsg.bind fun n => n.message.map (Chat.answered sendstatus)
    { d with db := (message.map (updateMsgSendStatus db)).getD db, chats := chats, newMsg := none,
             sendStatus := rest }

/-- A result of `onItemClick`: the chat is started, and the thread of the item is marked read. -/
def markRead (message : Message) (s : Sessions) (db : Msgs) : Sessions × Msgs :=
  if s.havaUnRead && checkIfAnyUnreadSession db message.threadId then
    let db := updateMsgReadStatus db message.threadId .read
    ({ s with havaUnRead := checkIfAnyUnreadSession db (-1) }, db)
  else (s, db)

def onItemClick (position : ℕ) (d : Screens) : Screens :=
  match d.sessions with
  | none => d
  | some s =>
    match s.lstSession[position]? with
    | none => d
    | some message =>
      let (s, db) := markRead message s d.db
      { d with db := db, sessions := some s, chats :=
          d.chats.map (fun c => { c with shown := false }) ++
            [Chat.onCreate db message.address] }

/-- `MessageActivity.deleteSession`. -/
def contextDelete (position : ℕ) (d : Screens) : Screens :=
  match d.sessions with
  | none => d
  | some s =>
    match s.lstSession[position]? with
    | none => d
    | some message =>
      let db := deleteSession d.db message.threadId
      { d with
        db := db
        sessions := some
          { lstSession := s.lstSession.eraseIdx position
            havaUnRead := s.havaUnRead && checkIfAnyUnreadSession db (-1) } }

/-- The send button of a chat: the message is stored before it is sent. -/
def chatSend (k : ℕ) (body date : String) (d : Screens) : Screens :=
  match d.chats[k]? with
  | none => d
  | some c =>
    let msg := c.newMessage d.db body date
    { d with db := addNew d.db msg, chats := d.chats.set k { c with msg := some msg } }

/-- Menu item 0 of a chat, with the row that is selected. -/
def resend (k listId : ℕ) (d : Screens) : Screens :=
  match (d.chats[k]?).bind fun c => c.list[listId]? with
  | some msg => if msg.type = .me then { d with db := addNew d.db msg } else d
  | none => d

/-- Menu item 1 of a chat. -/
def chatDelete (k listId : ℕ) (d : Screens) : Screens :=
  match d.chats[k]? with
  | none => d
  | some c =>
    match c.list[listId]? with
    | none => d
    | some msg =>
      let db := deleteMsg d.db (getIdFromMsg d.db msg)
      { d with db := db, chats := d.chats.set k (c.freshListView db) }

/-- Menu item 2 of a chat, which closes it. -/
def chatDeleteSession (k listId : ℕ) (d : Screens) : Screens :=
  match (d.chats[k]?).bind fun c => c.list[listId]? with
  | some msg =>
    { d with
      db := deleteSession d.db (getThreadidFromAddress d.db msg.address)
      chats := d.chats.eraseIdx k }
  | none => d

/-- The message that `NewMsgActivity` builds. -/
def newMessage (db : Msgs) (num text date : String) : Message where
  threadId := getThreadidFromAddress db num
  address := num
  date := date
  body := javaTrim text
  type := .me
  readstatus := .read
  sendstatus := .inSend

/-- The send button of the screen for a new message: the message is stored after it was sent,
if `RequestSendMessage` answers 0. -/
def newMsgSend (num text date : String) (conn : Bool) (d : Screens) : Screens :=
  match d.newMsg with
  | none => d
  | some _ =>
    if num.isEmpty then d
    else
      let message := newMessage d.db num text date
      { d with db := if conn then addNew d.db message else d.db,
               newMsg := some { message := some message } }

end Screens

/-! ### The runs -/

/-- `conn` says whether `RequestSendMessage` answers 0. -/
inductive ScreenEvent where
  | receive (address body date : String)
  | result (status : ℤ)
  | fresh (lst : List Message)
  | status
  | openSessions (lst : List Message)
  | restartSessions (lst : List Message)
  | closeSessions
  | itemClick (position : ℕ)
  | contextDelete (position : ℕ)
  | showChat (k : ℕ) (shown : Bool)
  | getView (k position : ℕ)
  | chatSend (k : ℕ) (body date : String) (conn : Bool)
  | resend (k listId : ℕ) (conn : Bool)
  | chatDelete (k listId : ℕ)
  | chatDeleteSession (k listId : ℕ)
  | closeChat (k : ℕ)
  | openNewMsg
  | newMsgSend (num text date : String) (conn : Bool)
  | closeNewMsg
  deriving Repr, DecidableEq

def Screens.next (d : Screens) : ScreenEvent → Screens
  | .receive address body date => d.onNewMessage address body date
  | .result status => d.onMessageResult status
  | .fresh lst => d.onFresh lst
  | .status => d.onStatus
  | .openSessions lst => { d with sessions := some ⟨lst, checkIfAnyUnreadSession d.db (-1)⟩ }
  | .restartSessions lst => { d with sessions := d.sessions.map (Sessions.freshListView lst) }
  | .closeSessions => { d with sessions := none }
  | .itemClick position => d.onItemClick position
  | .contextDelete position => d.contextDelete position
  | .showChat k shown => { d with chats := d.chats.modify k fun c => { c with shown := shown } }
  | .getView k position => { d with chats := d.chats.modify k (Chat.getView position) }
  | .chatSend k body date _ => d.chatSend k body date
  | .resend k listId _ => d.resend k listId
  | .chatDelete k listId => d.chatDelete k listId
  | .chatDeleteSession k listId => d.chatDeleteSession k listId
  | .closeChat k => { d with chats := d.chats.eraseIdx k }
  | .openNewMsg => { d with newMsg := some {} }
  | .newMsgSend num text date conn => d.newMsgSend num text date conn
  | .closeNewMsg => { d with newMsg := none }

/-- The listed message of a chat. -/
def Screens.listed (d : Screens) (k listId : ℕ) : Option Message :=
  (d.chats[k]?).bind fun c => c.list[listId]?

/-- A row that was listed is still stored. -/
def StillStored (db : Msgs) (m : Message) : Prop :=
  ∃ r ∈ db.rows, r.cols.threadId = m.threadId ∧ r.cols.address = m.address ∧
    r.cols.date = m.date ∧ r.cols.body = m.body ∧ r.cols.type = m.type

instance (db : Msgs) (m : Message) : Decidable (StillStored db m) :=
  inferInstanceAs (Decidable (∃ r ∈ db.rows, _))

/-- The list of the conversations is an answer of SQLite, only a row that is still stored is sent
again, and a result meets no screen without a message, which would be a null pointer. -/
def Screens.Enabled (d : Screens) : ScreenEvent → Prop
  | .fresh lst => GetSessionList d.db lst
  | .openSessions lst => GetSessionList d.db lst
  | .restartSessions lst => GetSessionList d.db lst
  | .resend k listId _ => ∀ m ∈ d.listed k listId, StillStored d.db m
  | .status => (∀ c ∈ d.chats, c.msg.isSome) ∧ ∀ n ∈ d.newMsg, n.message.isSome
  | _ => True

instance (d : Screens) : (e : ScreenEvent) → Decidable (d.Enabled e)
  | .fresh lst => inferInstanceAs (Decidable (GetSessionList d.db lst))
  | .openSessions lst => inferInstanceAs (Decidable (GetSessionList d.db lst))
  | .restartSessions lst => inferInstanceAs (Decidable (GetSessionList d.db lst))
  | .resend k listId _ => inferInstanceAs (Decidable (∀ m ∈ d.listed k listId, StillStored d.db m))
  | .status => inferInstanceAs
      (Decidable ((∀ c ∈ d.chats, c.msg.isSome) ∧ ∀ n ∈ d.newMsg, n.message.isSome))
  | .receive .. | .result .. | .closeSessions | .itemClick .. | .contextDelete .. | .showChat ..
  | .getView .. | .chatSend .. | .chatDelete .. | .chatDeleteSession .. | .closeChat ..
  | .openNewMsg | .newMsgSend .. | .closeNewMsg => isTrue trivial

/-- The screens from the first start of the application on. -/
def messageScreens : System Screens ScreenEvent where
  init d := d = {}
  enabled := Screens.Enabled
  next := Screens.next

instance (d : Screens) (e : ScreenEvent) : Decidable (messageScreens.enabled d e) :=
  inferInstanceAs (Decidable (d.Enabled e))

/-! ### What an event does to the store -/

section
variable {s : Screens} {e : ScreenEvent} {ms : Message}

/-- The message that is given to `addNew`. -/
def Screens.stores (s : Screens) : ScreenEvent → Option Message
  | .receive address body date => some (Screens.received s.db address body date)
  | .chatSend k body date _ => (s.chats[k]?).map (Chat.newMessage s.db body date)
  | .resend k listId _ => (s.listed k listId).filter fun m => m.type = .me
  | .newMsgSend num text date conn =>
    if s.newMsg.isSome && !num.isEmpty && conn then some (Screens.newMessage s.db num text date)
    else none
  | _ => none

theorem next_stores (h : s.stores e = some ms) : (s.next e).db = addNew s.db ms := by
  cases e with
  | receive address body date =>
    cases h
    rfl
  | chatSend k body date conn =>
    obtain ⟨c, hc, rfl⟩ := Option.map_eq_some_iff.mp h
    simp [Screens.next, Screens.chatSend, hc]
  | resend k listId conn =>
    obtain ⟨hl, ht⟩ := Option.filter_eq_some_iff.mp h
    have hl : ((s.chats[k]?).bind fun c => c.list[listId]?) = some ms := hl
    simp only [decide_eq_true_eq] at ht
    simp [Screens.next, Screens.resend, hl, ht]
  | newMsgSend num text date conn =>
    unfold Screens.stores at h
    dsimp only at h
    split_ifs at h with hcond
    cases h
    simp only [Bool.and_eq_true, Bool.not_eq_true', Option.isSome_iff_exists] at hcond
    obtain ⟨⟨⟨n, hn⟩, hnum⟩, hconn⟩ := hcond
    simp [Screens.next, Screens.newMsgSend, hn, hnum, hconn]
  | _ => cases h

/-- A message that is stored was built for its address, or is listed and still stored. -/
theorem stores_cases (h : s.stores e = some ms) (hen : s.Enabled e) :
    ms.threadId = getThreadidFromAddress s.db ms.address ∨ StillStored s.db ms := by
  cases e with
  | receive address body date =>
    cases h
    exact .inl rfl
  | chatSend k body date conn =>
    obtain ⟨c, -, rfl⟩ := Option.map_eq_some_iff.mp h
    exact .inl rfl
  | resend k listId conn => exact .inr (hen ms (Option.filter_eq_some_iff.mp h).1)
  | newMsgSend num text date conn =>
    unfold Screens.stores at h
    dsimp only at h
    split_ifs at h
    cases h
    exact .inl rfl
  | _ => cases h

/-- What the marks of a message in the chats keep. -/
theorem onFresh_keeps {Q : Msgs → Prop} (newMsg : Message)
    (hQ : ∀ db, Q db → Q (updateMsgReadStatus db newMsg.threadId .read)) (cs : List Chat)
    {db : Msgs} (h : Q db) : Q (Chat.onFresh newMsg cs db).2 := by
  induction cs generalizing db with
  | nil => exact h
  | cons c cs ih => exact ih (hQ db h)

theorem onStatus_keeps {Q : Msgs → Prop}
    (hQ : ∀ db msg, Q db → Q (updateMsgSendStatus db msg)) (sendstatus : ℤ) (cs : List Chat)
    {db : Msgs} (h : Q db) : Q (Chat.onStatus sendstatus cs db).2 := by
  induction cs generalizing db with
  | nil => exact h
  | cons c cs ih =>
    cases hm : c.msg with
    | none =>
      simp only [Chat.onStatus, hm, Option.map_none, Option.getD_none]
      exact ih h
    | some m =>
      simp only [Chat.onStatus, hm, Option.map_some, Option.getD_some]
      exact ih (hQ db _ h)

/-- The other events delete rows and mark them. Only a result that is passed on marks one as
sent. -/
theorem next_keeps {Q : Msgs → Prop} (hdelete : ∀ db p, Q db → Q (Table.delete db p))
    (hread : ∀ db t, Q db → Q (updateMsgReadStatus db t .read))
    (hsend : s.sendStatus ≠ [] → ∀ db msg, Q db → Q (updateMsgSendStatus db msg))
    (h : s.stores e = none) (hs : Q s.db) : Q (s.next e).db := by
  cases e with
  | receive address body date => cases h
  | result status =>
    simp only [Screens.next, Screens.onMessageResult]
    split <;> exact hs
  | fresh lst =>
    simp only [Screens.next, Screens.onFresh]
    split
    · exact hs
    · exact onFresh_keeps _ (fun db h => hread db _ h) s.chats hs
  | status =>
    simp only [Screens.next, Screens.onStatus]
    split
    next => exact hs
    next sendstatus rest hstatus =>
      have hsend := hsend (by simp [hstatus])
      have hdb : Q (Chat.onStatus sendstatus s.chats s.db).2 :=
        onStatus_keeps hsend sendstatus s.chats hs
      cases hm : s.newMsg.bind fun n => n.message.map (Chat.answered sendstatus) with
      | none => simpa [hm] using hdb
      | some m =>
        simp only [Option.map_some, Option.getD_some]
        exact hsend _ m hdb
  | itemClick position =>
    simp only [Screens.next, Screens.onItemClick]
    split
    · exact hs
    · split
      · exact hs
      · simp only [Screens.markRead]
        split
        · exact hread _ _ hs
        · exact hs
  | contextDelete position =>
    simp only [Screens.next, Screens.contextDelete]
    split
    · exact hs
    · split
      · exact hs
      · exact hdelete _ _ hs
  | chatSend k body date conn =>
    have hk : s.chats[k]? = none := by simpa [Screens.stores] using h
    simpa [Screens.next, Screens.chatSend, hk] using hs
  | resend k listId conn =>
    have hl : ∀ m, s.listed k listId = some m → m.type ≠ .me := by
      simpa [Screens.stores, Option.filter_eq_none_iff] using h
    simp only [Screens.next, Screens.resend]
    split
    next msg hmsg => rwa [if_neg (hl msg hmsg)]
    next => exact hs
  | chatDelete k listId =>
    simp only [Screens.next, Screens.chatDelete]
    split
    · exact hs
    · split
      · exact hs
      · exact hdelete _ _ hs
  | chatDeleteSession k listId =>
    simp only [Screens.next, Screens.chatDeleteSession]
    split
    · exact hdelete _ _ hs
    · exact hs
  | newMsgSend num text date conn =>
    simp only [Screens.next, Screens.newMsgSend]
    split
    next => exact hs
    next n hn =>
      split
      · exact hs
      · split
        · simp_all [Screens.stores]
        · exact hs
  | _ => exact hs

end

end PttTerminal
