import PttTerminal.MessageThreads

/-!
# Unread messages

A message is unread until its conversation is looked at. Opening a conversation from the list marks
its thread, and a chat that is open marks the thread of every message that arrives, be it its own or
not. The thread is the one that was looked up before the message was stored.
-/
namespace PttTerminal

open Tables Runs MessageCl

/-- The chat of the address is on the screen. -/
def Screens.Shown (s : Screens) (a : String) : Prop := ∃ c ∈ s.chats, c.shown ∧ c.caddress = a

instance (s : Screens) (a : String) : Decidable (s.Shown a) :=
  inferInstanceAs (Decidable (∃ c ∈ s.chats, c.shown ∧ c.caddress = a))

/-- The screens, and the rows that were received while the chat of their address was shown. -/
structure Reading where
  screens : Screens := {}
  watched : List ℕ := []
  deriving Repr, DecidableEq

/-- Messages arrive, and conversations are listed, opened, shown and closed. -/
def ScreenEvent.isReading : ScreenEvent → Bool
  | .receive .. | .fresh .. | .openSessions .. | .restartSessions .. | .closeSessions
  | .itemClick .. | .showChat .. | .getView .. | .closeChat .. => true
  | _ => false

namespace Reading

def nextWatched (x : Reading) : ScreenEvent → List ℕ
  | .receive address _ _ =>
    if x.screens.Shown address then (x.screens.db.seq + 1) :: x.watched else x.watched
  | _ => x.watched

def next (x : Reading) (e : ScreenEvent) : Reading where
  screens := x.screens.next e
  watched := x.nextWatched e

/-- A row that is read from now on is one of the chat that is shown or opened. -/
def OnlyShown (x : Reading) (e : ScreenEvent) : Prop :=
  ∀ r ∈ x.screens.db.rows, r.cols.readstatus = .unread →
    ∀ r' ∈ (x.next e).screens.db.rows, r'.id = r.id → r'.cols.readstatus = .read →
      x.screens.Shown r.cols.address ∨ (x.next e).screens.Shown r.cols.address

/-- A message that was received while the chat of its address was shown, and that is not read. -/
def Missed (x : Reading) (r : Row Message) : Prop :=
  r ∈ x.screens.db.rows ∧ r.id ∈ x.watched ∧ r.cols.readstatus = .unread

/-- Once the broadcasts are handled, no message is missed. -/
def NothingMissed (x : Reading) : Prop := x.screens.freshView = [] → ∀ r, ¬x.Missed r

/-- A message is announced to open chats only when the chat of its address is shown or its thread
has no unread row; the last chat is not closed while a message of a chat that was shown is unread;
and a new address finds a number for its thread. -/
def KeepsMarks (x : Reading) : ScreenEvent → Prop
  | .receive address _ _ => HasRoom x.screens.db address
  | .fresh _ => x.screens.chats = [] ∨ ∀ m ∈ x.screens.freshView.head?,
      x.screens.Shown m.address ∨ checkIfAnyUnreadSession x.screens.db m.threadId = false
  | .closeChat k => x.screens.chats.eraseIdx k ≠ [] ∨
      ∀ r ∈ x.screens.db.rows, r.id ∈ x.watched → r.cols.readstatus ≠ .unread
  | _ => True

instance (x : Reading) : (e : ScreenEvent) → Decidable (x.KeepsMarks e)
  | .receive address _ _ => inferInstanceAs (Decidable (HasRoom x.screens.db address))
  | .fresh _ => inferInstanceAs (Decidable (x.screens.chats = [] ∨ ∀ m ∈ x.screens.freshView.head?,
      x.screens.Shown m.address ∨ checkIfAnyUnreadSession x.screens.db m.threadId = false))
  | .closeChat k => inferInstanceAs (Decidable (x.screens.chats.eraseIdx k ≠ [] ∨
      ∀ r ∈ x.screens.db.rows, r.id ∈ x.watched → r.cols.readstatus ≠ .unread))
  | .result .. | .status | .openSessions .. | .restartSessions .. | .closeSessions | .itemClick ..
  | .contextDelete .. | .showChat .. | .getView .. | .chatSend .. | .resend .. | .chatDelete ..
  | .chatDeleteSession .. | .openNewMsg | .newMsgSend .. | .closeNewMsg => isTrue trivial

end Reading

/-- The screens are started on a store in which thread and address go together. -/
def reading : System Reading ScreenEvent where
  init x := Numbered x.screens.db ∧ x.screens.db.Keyed ∧ x.screens.chats = [] ∧
    x.screens.sessions = none ∧ x.screens.freshView = [] ∧ x.watched = []
  enabled x e := x.screens.Enabled e ∧ e.isReading
  next := Reading.next

instance (x : Reading) (e : ScreenEvent) : Decidable (reading.enabled x e) :=
  inferInstanceAs (Decidable (x.screens.Enabled e ∧ e.isReading))

/-! ### What is known of a thread -/

section
variable {db : Msgs} {t : ℤ} {a : String}

/-- A row says that the thread is that of the address. -/
def Known (db : Msgs) (t : ℤ) (a : String) : Prop :=
  ∃ r ∈ db.rows, r.cols.threadId = t ∧ r.cols.address = a

theorem Known.insert (h : Known db t a) (v : Message) : Known (db.insert v) t a := by
  obtain ⟨r, hr, ht, ha⟩ := h
  exact ⟨r, Table.mem_insert.mpr (.inl hr), ht, ha⟩

theorem Known.updateRead (h : Known db t a) (t' : ℤ) (st : ReadStatus) :
    Known (updateMsgReadStatus db t' st) t a := by
  obtain ⟨r, hr, ht, ha⟩ := h
  refine ⟨_, Table.mem_update.mpr ⟨r, hr, rfl⟩, ?_⟩
  split <;> exact ⟨ht, ha⟩

/-- The rows of a known thread have its address. -/
theorem Known.address (hn : Numbered db) (h : Known db t a) {r : Row Message} (hr : r ∈ db.rows)
    (ht : r.cols.threadId = t) : r.cols.address = a := by
  obtain ⟨r₀, h₀, ht₀, rfl⟩ := h
  exact (hn.paired r hr r₀ h₀).mp (ht.trans ht₀.symm)

/-- Marking a thread twice is marking it once. -/
theorem updateRead_idem (db : Msgs) (t : ℤ) : updateMsgReadStatus (updateMsgReadStatus db t .read) t
    .read = updateMsgReadStatus db t .read := by
  unfold updateMsgReadStatus Table.update
  simp only [List.map_map, Table.mk.injEq, and_true]
  apply List.map_congr_left
  intro r _
  simp only [Function.comp_apply]
  split <;> simp_all

theorem onFresh_db (newMsg : Message) (cs : List Chat) (db : Msgs) :
    (Chat.onFresh newMsg cs db).2 =
      if cs = [] then db else updateMsgReadStatus db newMsg.threadId .read := by
  induction cs generalizing db with
  | nil => rfl
  | cons c cs ih =>
    rw [Chat.onFresh]
    dsimp only
    rw [ih, if_neg (List.cons_ne_nil c cs)]
    split
    · rfl
    · exact updateRead_idem db _

/-- The chats that are open stay open, and on the screen or not. -/
theorem onFresh_chats (newMsg : Message) (cs : List Chat) (db : Msgs) :
    (Chat.onFresh newMsg cs db).1.map (fun c => (c.caddress, c.shown)) =
      cs.map fun c => (c.caddress, c.shown) := by
  induction cs generalizing db with
  | nil => rfl
  | cons c cs ih =>
    rw [Chat.onFresh]
    dsimp only
    rw [List.map_cons, ih, List.map_cons]
    rfl

/-- The rows after a thread was marked. -/
theorem mem_updateRead {r : Row Message} (hr : r ∈ (updateMsgReadStatus db t .read).rows) :
    ∃ r₀ ∈ db.rows, r₀.id = r.id ∧ r₀.cols.threadId = r.cols.threadId ∧
      r₀.cols.address = r.cols.address ∧
      r.cols.readstatus = if r₀.cols.threadId = t then .read else r₀.cols.readstatus := by
  obtain ⟨r₀, h₀, rfl⟩ := Table.mem_update.mp hr
  refine ⟨r₀, h₀, ?_⟩
  by_cases ht : r₀.cols.threadId = t <;> simp [ht]

end

/-! ### The steps -/

namespace Reading

/-- What is announced, open or listed is known, and a missed message is about to be announced. -/
structure InOrder (x : Reading) : Prop where
  numbered : Numbered x.screens.db
  keyed : x.screens.db.Keyed
  announced : ∀ m ∈ x.screens.freshView, m.threadId ≠ 0 → Known x.screens.db m.threadId m.address
  opened : ∀ c ∈ x.screens.chats, ∃ t, Known x.screens.db t c.caddress
  listed : ∀ l ∈ x.screens.sessions, ∀ m ∈ l.lstSession, Known x.screens.db m.threadId m.address
  pending : ∀ r, x.Missed r → ∃ m ∈ x.screens.freshView, m.threadId = r.cols.threadId
  watching : ∀ r, x.Missed r → x.screens.chats ≠ []
  bound : ∀ id ∈ x.watched, id ≤ x.screens.db.seq

variable {x : Reading} {e : ScreenEvent}

theorem InOrder.nothingMissed (h : x.InOrder) : x.NothingMissed := by
  intro hnil r hr
  obtain ⟨m, hm, -⟩ := h.pending r hr
  simp [hnil] at hm

/-- A store that stays as it is marks nothing. -/
theorem onlyShown_of_db (h : x.InOrder) (hdb : (x.next e).screens.db = x.screens.db) :
    x.OnlyShown e := by
  intro r hr hun r' hr' hid hread
  rw [hdb] at hr'
  rw [h.keyed.unique r' hr' r hr hid, hun] at hread
  cases hread

/-- What a marked thread changes is in that thread. -/
theorem onlyShown_of_updateRead (h : x.InOrder) {t : ℤ}
    (hdb : (x.next e).screens.db = updateMsgReadStatus x.screens.db t .read)
    (hshown : ∀ r ∈ x.screens.db.rows, r.cols.readstatus = .unread → r.cols.threadId = t →
      x.screens.Shown r.cols.address ∨ (x.next e).screens.Shown r.cols.address) :
    x.OnlyShown e := by
  intro r hr hun r' hr' hid hread
  rw [hdb] at hr'
  obtain ⟨r₀, h₀, hid₀, -, -, hst⟩ := mem_updateRead hr'
  obtain rfl := h.keyed.unique r₀ h₀ r hr (hid₀.trans hid)
  apply hshown r₀ hr hun
  by_contra ht
  rw [if_neg ht, hun, hread] at hst
  cases hst

/-- What is missed after a thread was marked was missed before, and is in another thread. -/
theorem missed_of_updateRead {x' : Reading} {t : ℤ} {r : Row Message}
    (hdb : x'.screens.db = updateMsgReadStatus x.screens.db t .read) (hw : x'.watched = x.watched)
    (h : x'.Missed r) :
    ∃ r₀, x.Missed r₀ ∧ r₀.cols.threadId = r.cols.threadId ∧ r₀.cols.threadId ≠ t := by
  obtain ⟨hr, hid, hun⟩ := h
  rw [hdb] at hr
  obtain ⟨r₀, h₀, hid₀, ht, -, hst⟩ := mem_updateRead hr
  rw [hun] at hst
  by_cases heq : r₀.cols.threadId = t
  · rw [if_pos heq] at hst
    cases hst
  · rw [if_neg heq] at hst
    exact ⟨r₀, ⟨h₀, by rwa [hid₀, ← hw], hst.symm⟩, ht, heq⟩

/-- The address of a chat that is open is known. -/
theorem InOrder.known_of_shown (h : x.InOrder) {a : String} (ha : x.screens.Shown a) :
    Known x.screens.db (getThreadidFromAddress x.screens.db a) a := by
  obtain ⟨c, hc, -, rfl⟩ := ha
  obtain ⟨t, r, hr, -, hra⟩ := h.opened c hc
  exact ⟨r, hr, (threadid_of_row h.numbered.toThreadLaw hr hra).symm, hra⟩

/-- A thread that is looked up is that of the address. -/
theorem known_of_lookup {db : Msgs} {a : String} (h : ThreadLaw db)
    (h0 : getThreadidFromAddress db a ≠ 0) : Known db (getThreadidFromAddress db a) a := by
  rw [ne_eq, threadid_eq_zero h] at h0
  obtain ⟨r, hr, ha⟩ : ∃ r ∈ db.rows, r.cols.address = a := by
    simpa [NoRow, Table.All] using h0
  exact ⟨r, hr, (threadid_of_row h hr ha).symm, ha⟩

theorem InOrder.receive (h : x.InOrder) {a b d : String} (hroom : HasRoom x.screens.db a) :
    x.OnlyShown (.receive a b d) ∧ (x.next (.receive a b d)).InOrder := by
  let msg := Screens.received x.screens.db a b d
  let new : Row Message :=
    ⟨x.screens.db.seq + 1, { msg with threadId := newThreadId x.screens.db msg }⟩
  have hdb : (x.next (.receive a b d)).screens.db = addNew x.screens.db msg := rfl
  have hrows : ∀ r ∈ (addNew x.screens.db msg).rows, r ∈ x.screens.db.rows ∨ r = new :=
    fun r hr => Table.mem_insert.mp hr
  have hfresh : (x.next (.receive a b d)).screens.freshView = x.screens.freshView ++ [msg] := rfl
  have hknown : ∀ {t : ℤ} {a' : String}, Known x.screens.db t a' →
      Known (addNew x.screens.db msg) t a' := fun hk => hk.insert _
  -- a message of a chat that is shown is filed in the thread that it was built with
  have hmissed : ∀ r, (x.next (.receive a b d)).Missed r →
      x.Missed r ∨ (x.screens.Shown a ∧ r = new) := by
    rintro r ⟨hr, hid, hun⟩
    have hid' : r.id ∈ x.watched ∨ (x.screens.Shown a ∧ r.id = x.screens.db.seq + 1) := by
      simp only [Reading.next, Reading.nextWatched] at hid
      split at hid
      next hshown => exact (List.mem_cons.mp hid).symm.imp id fun heq => ⟨hshown, heq⟩
      next => exact .inl hid
    rw [hdb] at hr
    rcases hrows r hr with hr | rfl
    · refine .inl ⟨hr, hid'.resolve_right ?_, hun⟩
      rintro ⟨-, heq⟩
      have := h.keyed.bound r hr
      omega
    · refine hid'.elim (fun hw => ?_) fun hs => .inr ⟨hs.1, rfl⟩
      have : x.screens.db.seq + 1 ≤ x.screens.db.seq := h.bound _ hw
      omega
  refine ⟨?_, ⟨?_, ?_, ?_, ?_, ?_, ?_, ?_, ?_⟩⟩
  · intro r hr hun r' hr' hid hread
    rcases hrows r' hr' with hr' | rfl
    · rw [h.keyed.unique r' hr' r hr hid, hun] at hread
      cases hread
    · have hbound := h.keyed.bound r hr
      have hid : x.screens.db.seq + 1 = r.id := hid
      omega
  · exact h.numbered.addLookup rfl hroom
  · exact h.keyed.insert _
  · intro m hm h0
    rw [hfresh, List.mem_append, List.mem_singleton] at hm
    rcases hm with hm | rfl
    · exact hknown (h.announced m hm h0)
    · exact hknown (known_of_lookup h.numbered.toThreadLaw h0)
  · intro c hc
    obtain ⟨t, ht⟩ := h.opened c hc
    exact ⟨t, hknown ht⟩
  · exact fun l hl m hm => hknown (h.listed l hl m hm)
  · intro r hr
    rw [hfresh]
    rcases hmissed r hr with hr | ⟨hshown, rfl⟩
    · obtain ⟨m, hm, ht⟩ := h.pending r hr
      exact ⟨m, List.mem_append_left _ hm, ht⟩
    · obtain ⟨r₀, h₀, ht₀, ha₀⟩ := h.known_of_shown hshown
      have ht : msg.threadId = r₀.cols.threadId := ht₀.symm
      have hid := (addNew_known h.numbered.toThreadLaw h₀ ht ha₀.symm).1
      exact ⟨msg, by simp, hid.symm⟩
  · intro r hr
    rcases hmissed r hr with hr | ⟨⟨c, hc, -⟩, -⟩
    · exact h.watching r hr
    · exact List.ne_nil_of_mem hc
  · intro id hid
    have hid : id ∈ x.watched ∨ id = x.screens.db.seq + 1 := by
      simp only [Reading.next, Reading.nextWatched] at hid
      split at hid
      · exact (List.mem_cons.mp hid).symm
      · exact .inl hid
    show id ≤ x.screens.db.seq + 1
    rcases hid with hid | rfl
    · exact (h.bound id hid).trans (Nat.le_succ _)
    · exact le_rfl

/-- An event that only changes which screens are open. -/
theorem InOrder.sameStore (h : x.InOrder) (hdb : (x.next e).screens.db = x.screens.db)
    (hfresh : (x.next e).screens.freshView = x.screens.freshView)
    (hw : (x.next e).watched = x.watched)
    (hopened : ∀ c ∈ (x.next e).screens.chats, ∃ t, Known x.screens.db t c.caddress)
    (hlisted : ∀ l ∈ (x.next e).screens.sessions, ∀ m ∈ l.lstSession,
      Known x.screens.db m.threadId m.address)
    (hopen : ∀ r, x.Missed r → (x.next e).screens.chats ≠ []) :
    x.OnlyShown e ∧ (x.next e).InOrder := by
  have hmissed : ∀ r, (x.next e).Missed r → x.Missed r := by
    rintro r ⟨hr, hid, hun⟩
    rw [hdb] at hr
    rw [hw] at hid
    exact ⟨hr, hid, hun⟩
  refine ⟨onlyShown_of_db h hdb, ⟨?_, ?_, ?_, ?_, ?_, ?_, ?_, ?_⟩⟩
  · rw [hdb]
    exact h.numbered
  · rw [hdb]
    exact h.keyed
  · rw [hdb, hfresh]
    exact h.announced
  · rwa [hdb]
  · rwa [hdb]
  · intro r hr
    rw [hfresh]
    exact h.pending r (hmissed r hr)
  · exact fun r hr => hopen r (hmissed r hr)
  · rw [hdb, hw]
    exact h.bound

/-- The rows that SQLite lists are known. -/
theorem known_of_session {db : Msgs} {lst : List Message} (h : GetSessionList db lst) :
    ∀ m ∈ lst, Known db m.threadId m.address := by
  intro m hm
  obtain ⟨r, hr, rfl⟩ := h.1 m hm
  exact ⟨r, hr, rfl, rfl⟩

/-- A thread that is marked read, when its broadcast or its item is handled. -/
theorem InOrder.marked (h : x.InOrder) {t : ℤ}
    (hdb : (x.next e).screens.db = updateMsgReadStatus x.screens.db t .read)
    (hfresh : ∀ m ∈ x.screens.freshView, m.threadId ≠ t → m ∈ (x.next e).screens.freshView)
    (hfresh' : (x.next e).screens.freshView ⊆ x.screens.freshView)
    (hw : (x.next e).watched = x.watched)
    (hopened : ∀ c ∈ (x.next e).screens.chats, ∃ t, Known x.screens.db t c.caddress)
    (hlisted : ∀ l ∈ (x.next e).screens.sessions, ∀ m ∈ l.lstSession,
      Known x.screens.db m.threadId m.address)
    (hopen : ∀ r, x.Missed r → (x.next e).screens.chats ≠ []) : (x.next e).InOrder := by
  refine ⟨?_, ?_, ?_, ?_, ?_, ?_, ?_, ?_⟩
  · rw [hdb]
    exact h.numbered.updateRead t .read
  · rw [hdb]
    exact h.keyed.update _ _
  · intro m hm h0
    rw [hdb]
    exact (h.announced m (hfresh' hm) h0).updateRead t .read
  · intro c hc
    obtain ⟨t', ht'⟩ := hopened c hc
    rw [hdb]
    exact ⟨t', ht'.updateRead t .read⟩
  · intro l hl m hm
    rw [hdb]
    exact (hlisted l hl m hm).updateRead t .read
  · intro r hr
    obtain ⟨r₀, h₀, ht₀, hne⟩ := missed_of_updateRead hdb hw hr
    obtain ⟨m, hm, htm⟩ := h.pending r₀ h₀
    exact ⟨m, hfresh m hm (by rwa [htm]), htm.trans ht₀⟩
  · intro r hr
    obtain ⟨r₀, h₀, -⟩ := missed_of_updateRead hdb hw hr
    exact hopen r₀ h₀
  · rw [hdb, hw]
    exact h.bound

theorem InOrder.fresh (h : x.InOrder) {lst : List Message}
    (hen : x.screens.Enabled (.fresh lst)) (hok : x.KeepsMarks (.fresh lst)) :
    x.OnlyShown (.fresh lst) ∧ (x.next (.fresh lst)).InOrder := by
  have hlst := known_of_session (show GetSessionList x.screens.db lst from hen)
  cases hf : x.screens.freshView with
  | nil =>
    have hsame : x.screens.next (.fresh lst) = x.screens := by
      simp [Screens.next, Screens.onFresh, hf]
    apply h.sameStore
    all_goals simp only [Reading.next, hsame]
    · rfl
    · exact h.opened
    · exact h.listed
    · exact h.watching
  | cons m rest =>
    have hnext : x.screens.next (.fresh lst) =
        { x.screens with
          db := (Chat.onFresh m x.screens.chats x.screens.db).2
          chats := (Chat.onFresh m x.screens.chats x.screens.db).1
          freshView := rest
          sessions := x.screens.sessions.map fun s =>
            { s with havaUnRead := true }.freshListView lst } := by
      simp only [Screens.next, Screens.onFresh, hf]
    have hchats := onFresh_chats m x.screens.chats x.screens.db
    have hopened : ∀ c ∈ (x.next (.fresh lst)).screens.chats,
        ∃ t, Known x.screens.db t c.caddress := by
      intro c hc
      simp only [Reading.next, hnext] at hc
      have hc' := List.mem_map_of_mem (f := fun c : Chat => (c.caddress, c.shown)) hc
      rw [hchats] at hc'
      obtain ⟨c₀, h₀, heq⟩ := List.mem_map.mp hc'
      simp only [Prod.mk.injEq] at heq
      rw [← heq.1]
      exact h.opened c₀ h₀
    have hlisted : ∀ l ∈ (x.next (.fresh lst)).screens.sessions, ∀ m ∈ l.lstSession,
        Known x.screens.db m.threadId m.address := by
      intro l hl
      simp only [Reading.next, hnext, Option.mem_map] at hl
      obtain ⟨l₀, -, rfl⟩ := hl
      exact hlst
    have hdb : (x.next (.fresh lst)).screens.db = if x.screens.chats = [] then x.screens.db
        else updateMsgReadStatus x.screens.db m.threadId .read := by
      simp only [Reading.next, hnext, onFresh_db]
    have hfresh : (x.next (.fresh lst)).screens.freshView = rest := by
      simp only [Reading.next, hnext]
    by_cases hnil : x.screens.chats = []
    · -- nobody marks the message, and nobody waits for it
      rw [if_pos hnil] at hdb
      have hnone : ∀ r, ¬x.Missed r := fun r hr => h.watching r hr hnil
      refine ⟨onlyShown_of_db h hdb, ⟨?_, ?_, ?_, ?_, ?_, ?_, ?_, ?_⟩⟩
      · rw [hdb]
        exact h.numbered
      · rw [hdb]
        exact h.keyed
      · intro m' hm'
        rw [hdb]
        rw [hfresh] at hm'
        exact h.announced m' (by rw [hf]; exact List.mem_cons_of_mem _ hm')
      · rwa [hdb]
      · rwa [hdb]
      · rintro r ⟨hr, hid, hun⟩
        rw [hdb] at hr
        exact absurd ⟨hr, hid, hun⟩ (hnone r)
      · rintro r ⟨hr, hid, hun⟩
        rw [hdb] at hr
        exact absurd ⟨hr, hid, hun⟩ (hnone r)
      · rw [hdb]
        exact h.bound
    · rw [if_neg hnil] at hdb
      constructor
      · apply onlyShown_of_updateRead h hdb
        intro r hr hun ht
        have hpos : 0 < r.cols.threadId := h.numbered.positive r hr
        have hknown := h.announced m (by simp [hf]) (by omega)
        rw [hknown.address h.numbered hr ht]
        rcases (hok.resolve_left hnil) m (by simp [hf]) with hshown | hread
        · exact .inl hshown
        · simp only [checkIfAnyUnreadSession, List.any_eq_false] at hread
          simpa [hun, ht] using hread r hr
      · apply h.marked hdb
        · intro m' hm' hne
          rw [hf] at hm'
          rw [hfresh]
          exact (List.mem_cons.mp hm').resolve_left fun heq => hne (by rw [heq])
        · rw [hfresh, hf]
          exact List.subset_cons_self m rest
        · rfl
        · exact hopened
        · exact hlisted
        · intro r hr hempty
          apply hnil
          have hlen := congrArg List.length hchats
          simp only [Reading.next, hnext] at hempty
          simpa [hempty, eq_comm] using hlen

theorem InOrder.itemClick (h : x.InOrder) {position : ℕ} :
    x.OnlyShown (.itemClick position) ∧ (x.next (.itemClick position)).InOrder := by
  cases hs : x.screens.sessions with
  | none =>
    have hsame : x.screens.next (.itemClick position) = x.screens := by
      simp [Screens.next, Screens.onItemClick, hs]
    apply h.sameStore
    all_goals simp only [Reading.next, hsame]
    · rfl
    · exact h.opened
    · exact h.listed
    · exact h.watching
  | some l =>
    cases hm : l.lstSession[position]? with
    | none =>
      have hsame : x.screens.next (.itemClick position) = x.screens := by
        simp [Screens.next, Screens.onItemClick, hs, hm]
      apply h.sameStore
      all_goals simp only [Reading.next, hsame]
      · rfl
      · exact h.opened
      · exact h.listed
      · exact h.watching
    | some message =>
      have hlisted := h.listed l (by simp [hs])
      have hmessage := hlisted message (List.mem_of_getElem? hm)
      have hnext : x.screens.next (.itemClick position) =
          { x.screens with
            db := (Screens.markRead message l x.screens.db).2
            sessions := some (Screens.markRead message l x.screens.db).1
            chats := x.screens.chats.map (fun c => { c with shown := false }) ++
              [Chat.onCreate (Screens.markRead message l x.screens.db).2 message.address] } := by
        simp only [Screens.next, Screens.onItemClick, hs, hm]
      have hopened : ∀ c ∈ (x.next (.itemClick position)).screens.chats,
          ∃ t, Known x.screens.db t c.caddress := by
        intro c hc
        simp only [Reading.next, hnext, List.mem_append, List.mem_map, List.mem_singleton] at hc
        rcases hc with ⟨c₀, h₀, rfl⟩ | rfl
        · exact h.opened c₀ h₀
        · exact ⟨_, hmessage⟩
      have hlst : (Screens.markRead message l x.screens.db).1.lstSession = l.lstSession := by
        unfold Screens.markRead
        split <;> rfl
      have hlisted' : ∀ l' ∈ (x.next (.itemClick position)).screens.sessions,
          ∀ m ∈ l'.lstSession, Known x.screens.db m.threadId m.address := by
        intro l' hl'
        simp only [Reading.next, hnext, Option.mem_def, Option.some.injEq] at hl'
        rw [← hl', hlst]
        exact hlisted
      have hopen : ∀ r, x.Missed r → (x.next (.itemClick position)).screens.chats ≠ [] := by
        intro _ _
        simp [Reading.next, hnext]
      have hfresh : (x.next (.itemClick position)).screens.freshView = x.screens.freshView := by
        simp only [Reading.next, hnext]
      by_cases hmark : l.havaUnRead && checkIfAnyUnreadSession x.screens.db message.threadId
      · have hdb : (x.next (.itemClick position)).screens.db =
            updateMsgReadStatus x.screens.db message.threadId .read := by
          simp only [Reading.next, hnext, Screens.markRead, hmark, if_true]
        constructor
        · apply onlyShown_of_updateRead h hdb
          intro r hr _ ht
          rw [hmessage.address h.numbered hr ht]
          refine .inr ⟨Chat.onCreate (x.next (.itemClick position)).screens.db message.address, ?_,
            rfl, rfl⟩
          simp [Reading.next, hnext]
        · exact h.marked hdb (fun m hm _ => by rwa [hfresh]) (by rw [hfresh]; exact fun _ => id) rfl
            hopened hlisted' hopen
      · have hdb : (x.next (.itemClick position)).screens.db = x.screens.db := by
          simp only [Reading.next, hnext, Screens.markRead, hmark, if_false, Bool.false_eq_true]
        exact h.sameStore hdb hfresh rfl hopened hlisted' hopen

/-- Changing one chat changes no address. -/
theorem InOrder.opened_modify (h : x.InOrder) {k : ℕ} {f : Chat → Chat}
    (hf : ∀ c, (f c).caddress = c.caddress) :
    ∀ c ∈ x.screens.chats.modify k f, ∃ t, Known x.screens.db t c.caddress := by
  intro c hc
  obtain ⟨i, hi, rfl⟩ := List.getElem_of_mem hc
  rw [List.length_modify] at hi
  rw [List.getElem_modify]
  split
  · rw [hf]
    exact h.opened _ (List.getElem_mem hi)
  · exact h.opened _ (List.getElem_mem hi)

theorem InOrder.modified (h : x.InOrder) {k : ℕ} {f : Chat → Chat}
    (hf : ∀ c, (f c).caddress = c.caddress)
    (hnext : x.next e =
      { x with screens := { x.screens with chats := x.screens.chats.modify k f } }) :
    x.OnlyShown e ∧ (x.next e).InOrder := by
  apply h.sameStore
  all_goals rw [hnext]
  · exact h.opened_modify hf
  · exact h.listed
  · intro r hr hempty
    have hlen := congrArg List.length hempty
    simp only [List.length_modify, List.length_nil, List.length_eq_zero_iff] at hlen
    exact h.watching r hr hlen

/-- A step that meets the condition marks only what is shown or opened. -/
theorem InOrder.next (h : x.InOrder) (hen : x.screens.Enabled e) (hre : e.isReading)
    (hok : x.KeepsMarks e) : x.OnlyShown e ∧ (x.next e).InOrder := by
  cases e with
  | receive address body date => exact h.receive hok
  | fresh lst => exact h.fresh hen hok
  | itemClick position => exact h.itemClick
  | openSessions lst =>
    have hlst := known_of_session (show GetSessionList x.screens.db lst from hen)
    refine h.sameStore rfl rfl rfl h.opened ?_ h.watching
    rintro l ⟨⟩
    exact hlst
  | restartSessions lst =>
    have hlst := known_of_session (show GetSessionList x.screens.db lst from hen)
    refine h.sameStore rfl rfl rfl h.opened ?_ h.watching
    intro l hl
    obtain ⟨l₀, -, rfl⟩ := Option.map_eq_some_iff.mp hl
    exact hlst
  | closeSessions =>
    refine h.sameStore rfl rfl rfl h.opened ?_ h.watching
    rintro l ⟨⟩
  | showChat k shown =>
    exact h.modified (f := fun c => { c with shown := shown }) (fun _ => rfl) rfl
  | getView k position =>
    apply h.modified (k := k) (f := Chat.getView position) _ rfl
    intro c
    unfold Chat.getView
    split <;> rfl
  | closeChat k =>
    refine h.sameStore rfl rfl rfl (fun c hc => h.opened c (List.mem_of_mem_eraseIdx hc)) h.listed
      ?_
    intro r hr
    rcases hok with hne | hread
    · exact hne
    · exact absurd hr.2.2 (hread r hr.1 hr.2.1)
  | _ => cases hre

theorem inOrder_start (h : reading.init x) : x.InOrder := by
  obtain ⟨hnumbered, hkeyed, hchats, hsessions, hfresh, hwatched⟩ := h
  refine ⟨hnumbered, hkeyed, ?_, ?_, ?_, ?_, ?_, ?_⟩
  · simp [hfresh]
  · simp [hchats]
  · simp [hsessions]
  · rintro r ⟨-, hid, -⟩
    simp [hwatched] at hid
  · rintro r ⟨-, hid, -⟩
    simp [hwatched] at hid
  · simp [hwatched]

end Reading

/-- In every run whose steps meet the condition, a row is marked read only when the chat of its
address is shown or opened, and a message that is received while the chat of its address is shown
is read once its broadcast is handled. -/
theorem runs_readMarks {x : Reading} (h : reading.Reached Reading.KeepsMarks x) :
    (∀ e, reading.enabled x e → x.KeepsMarks e → x.OnlyShown e) ∧ x.NothingMissed := by
  have hx : x.InOrder := h.invariant (fun _ => Reading.inOrder_start)
    fun _ _ hs hen hok => (hs.next hen.1 hen.2 hok).2
  exact ⟨fun e hen hok => (hx.next hen.1 hen.2 hok).1, hx.nothingMissed⟩

theorem reading_start : reading.init {} :=
  ⟨numbered_empty, Table.keyed_empty, rfl, rfl, rfl, rfl⟩

/-- A conversation is opened, and its next message is read at once. -/
theorem shown_chat_read : (reading.run {}
    [.receive "101" "hello" "05-01 10:00",
      .openSessions [⟨1, "101", "05-01 10:00", "hello", .he, .unread, .unset⟩], .itemClick 0,
      .fresh [⟨1, "101", "05-01 10:00", "hello", .he, .read, .unset⟩],
      .receive "101" "again" "05-01 10:01",
      .fresh [⟨1, "101", "05-01 10:01", "again", .he, .unread, .unset⟩]]).NothingMissed :=
  (runs_readMarks (System.reached_run reading_start (by decide))).2

/-- The second message of 102 arrives while the chat of 101 is shown, and is marked read there. -/
theorem other_chat_marks : reading.Allowed (fun _ _ => True) {}
      [.receive "101" "hello" "05-01 10:00", .receive "102" "hello" "05-01 10:00",
        .openSessions [⟨1, "101", "05-01 10:00", "hello", .he, .unread, .unset⟩,
          ⟨2, "102", "05-01 10:00", "hello", .he, .unread, .unset⟩], .itemClick 0,
        .fresh [⟨1, "101", "05-01 10:00", "hello", .he, .read, .unset⟩,
          ⟨2, "102", "05-01 10:00", "hello", .he, .unread, .unset⟩],
        .fresh [⟨1, "101", "05-01 10:00", "hello", .he, .read, .unset⟩,
          ⟨2, "102", "05-01 10:00", "hello", .he, .unread, .unset⟩],
        .receive "102" "again" "05-01 10:01",
        .fresh [⟨1, "101", "05-01 10:00", "hello", .he, .read, .unset⟩,
          ⟨2, "102", "05-01 10:01", "again", .he, .unread, .unset⟩]] ∧
    ¬(reading.run {}
      [.receive "101" "hello" "05-01 10:00", .receive "102" "hello" "05-01 10:00",
        .openSessions [⟨1, "101", "05-01 10:00", "hello", .he, .unread, .unset⟩,
          ⟨2, "102", "05-01 10:00", "hello", .he, .unread, .unset⟩], .itemClick 0,
        .fresh [⟨1, "101", "05-01 10:00", "hello", .he, .read, .unset⟩,
          ⟨2, "102", "05-01 10:00", "hello", .he, .unread, .unset⟩],
        .fresh [⟨1, "101", "05-01 10:00", "hello", .he, .read, .unset⟩,
          ⟨2, "102", "05-01 10:00", "hello", .he, .unread, .unset⟩],
        .receive "102" "again" "05-01 10:01"]).OnlyShown
      (.fresh [⟨1, "101", "05-01 10:00", "hello", .he, .read, .unset⟩,
        ⟨2, "102", "05-01 10:01", "again", .he, .unread, .unset⟩]) := by
  constructor
  · decide
  · intro h
    have hshown := h ⟨3, ⟨2, "102", "05-01 10:01", "again", .he, .unread, .unset⟩⟩ (by decide) rfl
      ⟨3, ⟨2, "102", "05-01 10:01", "again", .he, .read, .unset⟩⟩ (by decide) rfl rfl
    revert hshown
    decide

end PttTerminal
