import PttTerminal.MessageScreens

/-!
# The results of sends

The native code answers each message that it took with one result, in the order of the sends. The
result is broadcast, and `MessageReceiver` passes it on only while its flag `isSend` is set, which
nothing does. So no row ever learns what became of its message.
-/
namespace PttTerminal

open Tables Runs MessageCl

/-- What a result means for the row of the message. -/
def outcome (status : ℤ) : SendStatus := if status = 200 then .sendOk else .unSend

/-- The screens, the send status that each row was stored with, the rows of the messages that were
taken and not answered, the oldest first, and the answers. -/
structure Post where
  screens : Screens := {}
  initial : ℕ → SendStatus := fun _ => .unset
  pending : List ℕ := []
  answered : List (ℕ × ℤ) := []

/-- Whether the native code takes the message of a send. -/
def ScreenEvent.conn : ScreenEvent → Bool
  | .chatSend _ _ _ conn => conn
  | .resend _ _ conn => conn
  | .newMsgSend _ _ _ conn => conn
  | _ => false

def ScreenEvent.isResult : ScreenEvent → Bool
  | .result _ => true
  | _ => false

namespace Post

def nextInitial (p : Post) (e : ScreenEvent) : ℕ → SendStatus :=
  match p.screens.stores e with
  | some ms => Function.update p.initial (p.screens.db.seq + 1) ms.sendstatus
  | none => p.initial

def nextPending (p : Post) : ScreenEvent → List ℕ
  | .result _ => p.pending.tail
  | e =>
    if (p.screens.stores e).isSome && e.conn then p.pending ++ [p.screens.db.seq + 1]
    else p.pending

def nextAnswered (p : Post) : ScreenEvent → List (ℕ × ℤ)
  | .result status => (p.pending.head?.map fun id => (id, status)).toList ++ p.answered
  | _ => p.answered

def next (p : Post) (e : ScreenEvent) : Post where
  screens := p.screens.next e
  initial := p.nextInitial e
  pending := p.nextPending e
  answered := p.nextAnswered e

/-- Only a message that was taken is answered. -/
def Enabled (p : Post) (e : ScreenEvent) : Prop :=
  p.screens.Enabled e ∧ (e.isResult → p.pending ≠ [])

/-- The send status that the row `id` ought to have. -/
def expected (p : Post) (id : ℕ) : SendStatus :=
  ((p.answered.lookup id).map outcome).getD (p.initial id)

/-- When every result that was passed on is handled, the rows of the messages that were answered say
so, and all other rows are as they were stored. -/
def Settled (p : Post) : Prop :=
  p.screens.sendStatus = [] →
    ∀ r ∈ p.screens.db.rows, r.cols.sendstatus = p.expected r.id

/-- A result comes only when its message is no longer stored. -/
def KeepsResults (p : Post) (e : ScreenEvent) : Prop :=
  e.isResult → ∀ id ∈ p.pending.head?, ∀ r ∈ p.screens.db.rows, r.id ≠ id

instance (p : Post) (e : ScreenEvent) : Decidable (p.Enabled e) :=
  inferInstanceAs (Decidable (p.screens.Enabled e ∧ (e.isResult → p.pending ≠ [])))

instance (p : Post) (e : ScreenEvent) : Decidable (p.KeepsResults e) :=
  inferInstanceAs (Decidable
    (e.isResult → ∀ id ∈ p.pending.head?, ∀ r ∈ p.screens.db.rows, r.id ≠ id))

end Post

def post : System Post ScreenEvent where
  init p := p = {}
  enabled := Post.Enabled
  next := Post.next

instance (p : Post) (e : ScreenEvent) : Decidable (post.enabled p e) :=
  inferInstanceAs (Decidable (p.Enabled e))

/-! ### No result is passed on -/

/-- A row that nobody has told of a result. -/
def Waiting (m : Message) : Prop := m.sendstatus ≠ .sendOk ∧ m.sendstatus ≠ .unSend

def Screens.Lists (s : Screens) (R : Message → Prop) : Prop := ∀ c ∈ s.chats, ∀ m ∈ c.list, R m

section
variable {s : Screens} {e : ScreenEvent} {R : Message → Prop} {p : Post}

/-- The flag stays as it is, so that there is no result to handle. -/
theorem next_isSend (hflag : s.isSend = false) (hstatus : s.sendStatus = []) :
    (s.next e).isSend = false ∧ (s.next e).sendStatus = [] := by
  cases e with
  | result status => simp [Screens.next, Screens.onMessageResult, hflag, hstatus]
  | status => simp [Screens.next, Screens.onStatus, hflag, hstatus]
  | receive address body date => exact ⟨hflag, hstatus⟩
  | fresh lst =>
    simp only [Screens.next, Screens.onFresh]
    split <;> exact ⟨hflag, hstatus⟩
  | itemClick position =>
    simp only [Screens.next, Screens.onItemClick]
    split
    · exact ⟨hflag, hstatus⟩
    · split <;> exact ⟨hflag, hstatus⟩
  | contextDelete position =>
    simp only [Screens.next, Screens.contextDelete]
    split
    · exact ⟨hflag, hstatus⟩
    · split <;> exact ⟨hflag, hstatus⟩
  | chatSend k body date conn =>
    simp only [Screens.next, Screens.chatSend]
    split <;> exact ⟨hflag, hstatus⟩
  | resend k listId conn =>
    simp only [Screens.next, Screens.resend]
    split
    · split <;> exact ⟨hflag, hstatus⟩
    · exact ⟨hflag, hstatus⟩
  | chatDelete k listId =>
    simp only [Screens.next, Screens.chatDelete]
    split
    · exact ⟨hflag, hstatus⟩
    · split <;> exact ⟨hflag, hstatus⟩
  | chatDeleteSession k listId =>
    simp only [Screens.next, Screens.chatDeleteSession]
    split <;> exact ⟨hflag, hstatus⟩
  | newMsgSend num text date conn =>
    simp only [Screens.next, Screens.newMsgSend]
    split
    · exact ⟨hflag, hstatus⟩
    · split <;> exact ⟨hflag, hstatus⟩
  | _ => exact ⟨hflag, hstatus⟩

theorem freshListView_list {db : Msgs} (hdb : db.All R) (c : Chat) :
    ∀ m ∈ (c.freshListView db).list, R m := by
  intro m hm
  simp only [Chat.freshListView, getMsgAtrrayfromAddress, List.mem_filter, List.mem_map] at hm
  obtain ⟨⟨r, hr, rfl⟩, -⟩ := hm
  exact hdb r hr

theorem onFresh_lists {db : Msgs} (newMsg : Message)
    (hR : ∀ m st, R m → R { m with readstatus := st }) (hdb : db.All R) (cs : List Chat) :
    ∀ c ∈ (Chat.onFresh newMsg cs db).1, ∀ m ∈ c.list, R m := by
  induction cs generalizing db with
  | nil => simp [Chat.onFresh]
  | cons c cs ih =>
    have hdb' : (updateMsgReadStatus db newMsg.threadId .read).All R :=
      hdb.update _ fun m => hR m .read
    intro c' hc'
    rcases List.mem_cons.mp hc' with rfl | hc'
    · exact freshListView_list hdb' c
    · exact ih hdb' c' hc'

/-- The chats list rows of the store. -/
theorem next_lists (hR : ∀ m st, R m → R { m with readstatus := st }) (hdb : s.db.All R)
    (hstatus : s.sendStatus = []) (hl : s.Lists R) : (s.next e).Lists R := by
  have hset : ∀ k c, (∀ m ∈ c.list, R m) → ∀ c' ∈ s.chats.set k c, ∀ m ∈ c'.list, R m := by
    intro k c hc c' hc'
    rcases List.mem_or_eq_of_mem_set hc' with hc' | rfl
    · exact hl c' hc'
    · exact hc
  have hmodify : ∀ k (f : Chat → Chat), (∀ c, (f c).list = c.list) →
      ∀ c' ∈ s.chats.modify k f, ∀ m ∈ c'.list, R m := by
    intro k f hf c' hc' m hm
    obtain ⟨i, hi, rfl⟩ := List.getElem_of_mem hc'
    rw [List.length_modify] at hi
    rw [List.getElem_modify] at hm
    split at hm
    · rw [hf] at hm
      exact hl _ (List.getElem_mem _) m hm
    · exact hl _ (List.getElem_mem _) m hm
  cases e with
  | result status =>
    simp only [Screens.next, Screens.onMessageResult]
    split <;> exact hl
  | status => simpa [Screens.next, Screens.onStatus, hstatus] using hl
  | fresh lst =>
    simp only [Screens.next, Screens.onFresh]
    split
    · exact hl
    · exact onFresh_lists _ hR hdb s.chats
  | itemClick position =>
    simp only [Screens.next, Screens.onItemClick]
    split
    · exact hl
    · split
      · exact hl
      next message _ =>
        intro c hc
        rcases List.mem_append.mp hc with hc | hc
        · obtain ⟨c₀, h₀, rfl⟩ := List.mem_map.mp hc
          exact hl c₀ h₀
        · obtain rfl := List.mem_singleton.mp hc
          apply freshListView_list
          simp only [Screens.markRead]
          split
          · exact hdb.update _ fun m => hR m .read
          · exact hdb
  | contextDelete position =>
    simp only [Screens.next, Screens.contextDelete]
    split
    · exact hl
    · split <;> exact hl
  | showChat k shown => exact hmodify k _ fun _ => rfl
  | getView k position =>
    apply hmodify
    intro c
    unfold Chat.getView
    split <;> rfl
  | chatSend k body date conn =>
    simp only [Screens.next, Screens.chatSend]
    split
    · exact hl
    next c hc => exact hset k _ (hl c (List.mem_of_getElem? hc))
  | resend k listId conn =>
    simp only [Screens.next, Screens.resend]
    split
    · split <;> exact hl
    · exact hl
  | chatDelete k listId =>
    simp only [Screens.next, Screens.chatDelete]
    split
    · exact hl
    · split
      · exact hl
      · exact hset k _ (freshListView_list (hdb.delete _) _)
  | chatDeleteSession k listId =>
    simp only [Screens.next, Screens.chatDeleteSession]
    split
    · exact fun c hc => hl c (List.mem_of_mem_eraseIdx hc)
    · exact hl
  | closeChat k => exact fun c hc => hl c (List.mem_of_mem_eraseIdx hc)
  | newMsgSend num text date conn =>
    simp only [Screens.next, Screens.newMsgSend]
    split
    · exact hl
    · split <;> exact hl
  | _ => exact hl

/-! ### Every row waits -/

/-- No result was passed on, every row waits as it was stored, and those that were answered are
gone. -/
structure Post.Silent (p : Post) : Prop where
  isSend : p.screens.isSend = false
  sendStatus : p.screens.sendStatus = []
  keyed : p.screens.db.Keyed
  waiting : p.screens.db.All Waiting
  lists : p.screens.Lists Waiting
  initial : ∀ r ∈ p.screens.db.rows, r.cols.sendstatus = p.initial r.id
  unanswered : ∀ r ∈ p.screens.db.rows, ∀ a ∈ p.answered, a.1 ≠ r.id
  pendingBound : ∀ id ∈ p.pending, id ≤ p.screens.db.seq
  answeredBound : ∀ a ∈ p.answered, a.1 ≤ p.screens.db.seq

theorem silent_start : ({} : Post).Silent where
  isSend := rfl
  sendStatus := rfl
  keyed := Table.keyed_empty
  waiting := by simp [Table.All]
  lists := by simp [Screens.Lists]
  initial := by simp
  unanswered := by simp
  pendingBound := by simp
  answeredBound := by simp

theorem lookup_eq_none {l : List (ℕ × ℤ)} {id : ℕ} (h : ∀ a ∈ l, a.1 ≠ id) :
    l.lookup id = none := by
  rw [List.lookup_eq_none_iff]
  intro a ha
  have hne : id ≠ a.1 := fun heq => h a ha heq.symm
  simp [hne]

theorem Post.Silent.settled (h : p.Silent) : p.Settled := by
  intro _ r hr
  rw [h.initial r hr, Post.expected, lookup_eq_none (h.unanswered r hr)]
  rfl

/-- The store after an event that stores no message: rows of before, marked as read or not. -/
structure Kept (db db' : Msgs) : Prop where
  keyed : db'.Keyed
  seq : db'.seq = db.seq
  rows : ∀ r ∈ db'.rows, ∃ r₀ ∈ db.rows, r₀.id = r.id ∧ r₀.cols.sendstatus = r.cols.sendstatus

theorem next_kept (hkeyed : s.db.Keyed) (hstatus : s.sendStatus = []) (h : s.stores e = none) :
    Kept s.db (s.next e).db := by
  apply next_keeps (Q := Kept s.db) _ _ _ h
  · exact ⟨hkeyed, rfl, fun r hr => ⟨r, hr, rfl, rfl⟩⟩
  · intro db q hq
    exact ⟨hq.keyed.delete q, hq.seq, fun r hr => hq.rows r (Table.mem_delete.mp hr).1⟩
  · intro db t hq
    refine ⟨hq.keyed.update _ _, hq.seq, fun r hr => ?_⟩
    obtain ⟨r₁, h₁, rfl⟩ := Table.mem_update.mp hr
    obtain ⟨r₀, h₀, hid, hsend⟩ := hq.rows r₁ h₁
    refine ⟨r₀, h₀, ?_⟩
    split <;> exact ⟨hid, hsend⟩
  · intro hne
    exact absurd hstatus hne

theorem stores_waiting (hl : s.Lists Waiting) {ms : Message} (h : s.stores e = some ms) :
    Waiting ms := by
  cases e with
  | receive address body date =>
    cases h
    simp [Waiting, Screens.received]
  | chatSend k body date conn =>
    obtain ⟨c, -, rfl⟩ := Option.map_eq_some_iff.mp h
    simp [Waiting, Chat.newMessage]
  | resend k listId conn =>
    obtain ⟨c, hc, hm⟩ := Option.bind_eq_some_iff.mp (Option.filter_eq_some_iff.mp h).1
    exact hl c (List.mem_of_getElem? hc) ms (List.mem_of_getElem? hm)
  | newMsgSend num text date conn =>
    unfold Screens.stores at h
    dsimp only at h
    split_ifs at h
    cases h
    simp [Waiting, Screens.newMessage]
  | _ => cases h

/-- An event that stores a message is no result. -/
theorem nextAnswered_of_stores {ms : Message} (h : p.screens.stores e = some ms) :
    p.nextAnswered e = p.answered := by
  cases e with
  | result status => cases h
  | _ => rfl

/-- The new row waits, and the others are as before. -/
theorem Post.Silent.next_stored (h : p.Silent) {ms : Message}
    (hf : p.screens.stores e = some ms) : (p.next e).Silent := by
  obtain ⟨hflag, hstatus⟩ := next_isSend (e := e) h.isSend h.sendStatus
  have hdb : (p.next e).screens.db = addNew p.screens.db ms := next_stores hf
  have hans : (p.next e).answered = p.answered := nextAnswered_of_stores hf
  have hinit : (p.next e).initial =
      Function.update p.initial (p.screens.db.seq + 1) ms.sendstatus := by
    simp [Post.next, Post.nextInitial, hf]
  have hseq : (p.next e).screens.db.seq = p.screens.db.seq + 1 := by
    rw [hdb]
    rfl
  have hrows : ∀ r ∈ (p.next e).screens.db.rows, r ∈ p.screens.db.rows ∨
      r = ⟨p.screens.db.seq + 1, { ms with threadId := newThreadId p.screens.db ms }⟩ := by
    intro r hr
    rw [hdb] at hr
    exact Table.mem_insert.mp hr
  refine ⟨hflag, hstatus, ?_, ?_, ?_, ?_, ?_, ?_, ?_⟩
  · rw [hdb]
    exact h.keyed.insert _
  · rw [hdb]
    have hw : Waiting ms := stores_waiting h.lists hf
    exact h.waiting.insert hw
  · exact next_lists (fun _ _ hm => hm) h.waiting h.sendStatus h.lists
  · intro r hr
    rw [hinit]
    rcases hrows r hr with hr | rfl
    · have := h.keyed.bound r hr
      rw [Function.update_of_ne (by omega)]
      exact h.initial r hr
    · simp
  · intro r hr a ha
    rw [hans] at ha
    rcases hrows r hr with hr | rfl
    · exact h.unanswered r hr a ha
    · have := h.answeredBound a ha
      simp only
      omega
  · intro id hid
    rw [hseq]
    have hid : id ∈ p.pending ∨ id = p.screens.db.seq + 1 := by
      cases e with
      | result status => cases hf
      | _ =>
        simp only [Post.next, Post.nextPending] at hid
        split at hid
        · simpa using hid
        · exact .inl hid
    rcases hid with hid | rfl
    · have := h.pendingBound id hid
      omega
    · exact le_rfl
  · intro a ha
    rw [hans] at ha
    have := h.answeredBound a ha
    omega

/-- A result that comes in time to no row, or another event that stores nothing. -/
theorem Post.Silent.next_kept (h : p.Silent) (hf : p.screens.stores e = none)
    (hok : p.KeepsResults e) : (p.next e).Silent := by
  obtain ⟨hflag, hstatus⟩ := next_isSend (e := e) h.isSend h.sendStatus
  have hk : Kept p.screens.db (p.next e).screens.db := PttTerminal.next_kept h.keyed h.sendStatus hf
  have hinit : (p.next e).initial = p.initial := by simp [Post.next, Post.nextInitial, hf]
  have hpending : ∀ id ∈ (p.next e).pending, id ∈ p.pending := by
    intro id hid
    cases e with
    | result status => exact List.mem_of_mem_tail hid
    | _ => simpa [Post.next, Post.nextPending, hf] using hid
  have hans : ∀ a ∈ (p.next e).answered, a ∈ p.answered ∨
      (e.isResult ∧ a.1 ∈ p.pending.head?) := by
    intro a ha
    cases e with
    | result status =>
      rcases List.mem_append.mp ha with ha | ha
      · obtain ⟨id, hid, rfl⟩ := Option.map_eq_some_iff.mp (Option.mem_toList.mp ha)
        exact .inr ⟨rfl, hid⟩
      · exact .inl ha
    | _ => exact .inl ha
  refine ⟨hflag, hstatus, hk.keyed, ?_, ?_, ?_, ?_, ?_, ?_⟩
  · intro r hr
    obtain ⟨r₀, h₀, -, hsend⟩ := hk.rows r hr
    have := h.waiting r₀ h₀
    unfold Waiting at this ⊢
    rwa [← hsend]
  · exact next_lists (fun _ _ hm => hm) h.waiting h.sendStatus h.lists
  · intro r hr
    obtain ⟨r₀, h₀, hid, hsend⟩ := hk.rows r hr
    rw [hinit, ← hsend, ← hid]
    exact h.initial r₀ h₀
  · intro r hr a ha
    obtain ⟨r₀, h₀, hid, -⟩ := hk.rows r hr
    rw [← hid]
    rcases hans a ha with ha | ⟨hresult, hhead⟩
    · exact h.unanswered r₀ h₀ a ha
    · exact (hok hresult a.1 hhead r₀ h₀).symm
  · intro id hid
    rw [hk.seq]
    exact h.pendingBound id (hpending id hid)
  · intro a ha
    rw [hk.seq]
    rcases hans a ha with ha | ⟨-, hhead⟩
    · exact h.answeredBound a ha
    · exact h.pendingBound a.1 (List.mem_of_mem_head? hhead)

theorem Post.Silent.next (h : p.Silent) (hok : p.KeepsResults e) : (p.next e).Silent := by
  cases hf : p.screens.stores e with
  | some ms => exact h.next_stored hf
  | none => exact h.next_kept hf hok

/-- A result for a stored message leaves its row as it was. -/
theorem Post.Silent.next_breaks (h : p.Silent) (hok : ¬p.KeepsResults e) :
    ¬(p.next e).Settled := by
  unfold Post.KeepsResults at hok
  push Not at hok
  obtain ⟨hresult, id, hid, r, hr, rfl⟩ := hok
  obtain ⟨status, rfl⟩ : ∃ status, e = .result status := by
    cases e with
    | result status => exact ⟨status, rfl⟩
    | _ => cases hresult
  intro hsettled
  have hsame : p.screens.next (.result status) = p.screens := by
    simp [Screens.next, Screens.onMessageResult, h.isSend]
  have hstatus := hsettled (by simpa [Post.next, hsame] using h.sendStatus) r
    (by simpa [Post.next, hsame] using hr)
  obtain ⟨hok, hun⟩ := h.waiting r hr
  have hlookup : (p.next (.result status)).answered.lookup r.id = some status := by
    rw [Option.mem_def] at hid
    simp [Post.next, Post.nextAnswered, hid]
  rw [Post.expected, hlookup] at hstatus
  simp only [Option.map_some, Option.getD_some, outcome] at hstatus
  split at hstatus
  · exact hok hstatus
  · exact hun hstatus

end

/-- Over a whole run, every result reaches its row and no other exactly when no result comes for a
message that is still stored. -/
theorem runs_settled (es : List ScreenEvent) (hes : post.Allowed (fun _ _ => True) {} es) :
    (∀ es', es' <+: es → (post.run {} es').Settled) ↔ post.Allowed Post.KeepsResults {} es :=
  (System.allowed_iff (P := Post.Silent) (fun _ h => h.settled)
    (fun _ _ h _ hok => h.next hok) (fun _ _ h _ hok => h.next_breaks hok) silent_start hes).symm

/-- A message that is deleted before its result comes. -/
theorem settled_deleted : (post.run {} [.openNewMsg, .newMsgSend "102" "hello" "05-01 10:00" true,
    .openSessions [⟨1, "102", "05-01 10:00", "hello", .me, .read, .inSend⟩], .contextDelete 0,
    .result 200]).Settled :=
  (runs_settled _ (by decide)).mpr (by decide) _ List.prefix_rfl

/-- A message whose result is never told to its row. -/
theorem result_lost : post.Allowed (fun _ _ => True) {}
      [.openNewMsg, .newMsgSend "102" "hello" "05-01 10:00" true, .result 200] ∧
    ¬(post.run {} [.openNewMsg, .newMsgSend "102" "hello" "05-01 10:00" true,
      .result 200]).Settled := by
  constructor
  · decide
  · intro h
    have hrow := h rfl ⟨1, ⟨1, "102", "05-01 10:00", "hello", .me, .read, .inSend⟩⟩ (by decide)
    revert hrow
    decide

end PttTerminal
