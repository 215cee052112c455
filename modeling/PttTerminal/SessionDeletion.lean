import PttTerminal.MessageScreens

/-!
# Deleting a session

A session is chosen by a long press, which stores its position in the list, and is deleted after a
menu and a dialog. The list is read again when a message comes, and the position is looked up in the
new list. The session that was pressed is deleted when it still stands at its position.
-/
namespace PttTerminal

open Tables Runs MessageCl

/-- The items of the context menu. -/
inductive SessionMenu where
  | call
  | addContact
  | deleteSession
  deriving Repr, DecidableEq

/-- What is in front: the list, the context menu, or the dialog that asks. -/
inductive SessionFront where
  | list
  | menu
  | dialog
  deriving Repr, DecidableEq

/-- A confirmed deletion: the store before and after it, and the thread that was pressed for it. -/
structure Deletion where
  before : Msgs
  after : Msgs
  pressed : ℤ
  deriving Repr, DecidableEq

/-- The screens, `selectedPosition`, what is in front, the thread of the row that was pressed, and
the deletion that the last event was. -/
structure SessionDesk where
  screens : Screens
  selectedPosition : ℕ := 0
  front : SessionFront := .list
  pressed : Option ℤ := none
  deletion : Option Deletion := none
  deriving Repr, DecidableEq

/-- The rows that stand for the sessions come with the events that read the list again. -/
inductive SessionEvent where
  | longPress (position : ℕ)
  | closeMenu
  | choose (item : SessionMenu)
  | confirm
  | cancel
  | receive (address body date : String)
  | fresh (rs : List (Row Message))
  | restart (rs : List (Row Message))
  deriving Repr, DecidableEq

/-- `getSessionList`: some row of each thread, the last key first. -/
def SessionRows (db : Msgs) (rs : List (Row Message)) : Prop :=
  (∀ r ∈ rs, r ∈ db.rows) ∧ rs.Pairwise (fun r r' => r'.id < r.id) ∧
    GetSessionList db (rs.map Row.cols)

instance (db : Msgs) (rs : List (Row Message)) : Decidable (SessionRows db rs) :=
  inferInstanceAs (Decidable ((∀ r ∈ rs, r ∈ db.rows) ∧ rs.Pairwise (fun r r' => r'.id < r.id) ∧
    GetSessionList db (rs.map Row.cols)))

namespace SessionDesk

def lstSession (d : SessionDesk) : List Message := (d.screens.sessions.map (·.lstSession)).getD []

/-- The message at a position of the list. -/
def item (position : ℕ) (d : SessionDesk) : Option Message := d.lstSession[position]?

/-! ### `MessageActivity` -/

def onItemLongClick (position : ℕ) (d : SessionDesk) : SessionDesk :=
  { d with
    selectedPosition := position
    front := .menu
    pressed := (d.item position).map Message.threadId }

/-- Without a session nothing is asked. The other items use the message and leave the store. -/
def onContextItemSelected (item : SessionMenu) (d : SessionDesk) : SessionDesk :=
  match item with
  | .deleteSession => { d with front := if d.lstSession.length > 0 then .dialog else .list }
  | .call | .addContact => { d with front := .list }

/-- The positive button of the dialog. -/
def onConfirm (d : SessionDesk) : SessionDesk :=
  let screens := d.screens.contextDelete d.selectedPosition
  { d with
    screens := screens
    front := .list
    deletion := d.pressed.map fun t => ⟨d.screens.db, screens.db, t⟩ }

def step (d : SessionDesk) : SessionEvent → SessionDesk
  | .longPress position => d.onItemLongClick position
  | .closeMenu => { d with front := .list }
  | .choose item => d.onContextItemSelected item
  | .confirm => d.onConfirm
  | .cancel => { d with front := .list }
  | .receive address body date => { d with screens := d.screens.onNewMessage address body date }
  | .fresh rs => { d with screens := d.screens.onFresh (rs.map Row.cols) }
  | .restart rs => { d with screens := d.screens.next (.restartSessions (rs.map Row.cols)) }

/-- Only a confirmation is a deletion. -/
def next (d : SessionDesk) (e : SessionEvent) : SessionDesk := { d with deletion := none }.step e

def Enabled (d : SessionDesk) : SessionEvent → Prop
  | .longPress position => d.front = .list ∧ position < d.lstSession.length
  | .closeMenu | .choose _ => d.front = .menu
  | .confirm | .cancel => d.front = .dialog
  | .receive .. => True
  | .fresh rs | .restart rs => SessionRows d.screens.db rs

instance (d : SessionDesk) : (e : SessionEvent) → Decidable (d.Enabled e)
  | .longPress position =>
    inferInstanceAs (Decidable (d.front = .list ∧ position < d.lstSession.length))
  | .closeMenu | .choose _ => inferInstanceAs (Decidable (d.front = .menu))
  | .confirm | .cancel => inferInstanceAs (Decidable (d.front = .dialog))
  | .receive .. => isTrue trivial
  | .fresh rs | .restart rs => inferInstanceAs (Decidable (SessionRows d.screens.db rs))

/-- The list of any store is shown, and nothing was pressed. -/
structure Shown (d : SessionDesk) : Prop where
  sessions : ∀ s ∈ d.screens.sessions, GetSessionList d.screens.db s.lstSession
  front : d.front = .list
  deletion : d.deletion = none

end SessionDesk

def sessionDesk : System SessionDesk SessionEvent where
  init := SessionDesk.Shown
  enabled := SessionDesk.Enabled
  next := SessionDesk.next

instance (d : SessionDesk) (e : SessionEvent) : Decidable (sessionDesk.enabled d e) :=
  inferInstanceAs (Decidable (d.Enabled e))

namespace SessionDesk

/-- A deletion removes the rows of the thread that was pressed, and no other. -/
def DeletesPressed (d : SessionDesk) : Prop :=
  ∀ x ∈ d.deletion, ∀ r, r ∈ x.after.rows ↔ r ∈ x.before.rows ∧ r.cols.threadId ≠ x.pressed

/-- At the confirmation the thread that was pressed stands at the position. -/
def hitsPressed (d : SessionDesk) : SessionEvent → Prop
  | .confirm => (d.item d.selectedPosition).map Message.threadId = d.pressed
  | _ => True

instance (d : SessionDesk) : (e : SessionEvent) → Decidable (d.hitsPressed e)
  | .confirm => inferInstanceAs
      (Decidable ((d.item d.selectedPosition).map Message.threadId = d.pressed))
  | .longPress _ | .closeMenu | .choose _ | .cancel | .receive .. | .fresh _ | .restart _ =>
    isTrue trivial

end SessionDesk

/-! ### Threads that are stored -/

/-- There is a row of the thread. -/
def HasThread (t : ℤ) (db : Msgs) : Prop := ∃ r ∈ db.rows, r.cols.threadId = t

section
variable {db : Msgs} {t : ℤ}

theorem HasThread.addNew (h : HasThread t db) (ms : Message) : HasThread t (addNew db ms) := by
  obtain ⟨r, hr, ht⟩ := h
  exact ⟨r, Table.mem_insert.mpr (.inl hr), ht⟩

theorem HasThread.updateRead (h : HasThread t db) (threadId : ℤ) (status : ReadStatus) :
    HasThread t (updateMsgReadStatus db threadId status) := by
  obtain ⟨r, hr, ht⟩ := h
  refine ⟨_, Table.mem_update.mpr ⟨r, hr, rfl⟩, ?_⟩
  split <;> exact ht

theorem HasThread.deleteSession (h : HasThread t db) {threadId : ℤ} (hne : t ≠ threadId) :
    HasThread t (deleteSession db threadId) := by
  obtain ⟨r, hr, ht⟩ := h
  exact ⟨r, Table.mem_delete.mpr ⟨hr, by simp [ht, hne]⟩, ht⟩

theorem HasThread.onFresh (h : HasThread t db) (newMsg : Message) (cs : List Chat) :
    HasThread t (Chat.onFresh newMsg cs db).2 :=
  onFresh_keeps newMsg (fun _ h => h.updateRead _ _) cs h

/-- The sessions of a list are of different threads, and each is stored. -/
structure ListsThreads (db : Msgs) (lst : List Message) : Prop where
  nodup : (lst.map Message.threadId).Nodup
  stored : ∀ m ∈ lst, HasThread m.threadId db

theorem listsThreads_of_sessionList {lst : List Message} (h : GetSessionList db lst) :
    ListsThreads db lst := by
  obtain ⟨hrows, hnodup, -⟩ := h
  refine ⟨hnodup, fun m hm => ?_⟩
  obtain ⟨r, hr, rfl⟩ := hrows m hm
  exact ⟨r, hr, rfl⟩

theorem ListsThreads.mono {db' : Msgs} {lst : List Message} (h : ListsThreads db lst)
    (hdb : ∀ t, HasThread t db → HasThread t db') : ListsThreads db' lst :=
  ⟨h.nodup, fun m hm => hdb _ (h.stored m hm)⟩

/-- The session that is deleted leaves the list. -/
theorem ListsThreads.deleteSession {lst : List Message} (h : ListsThreads db lst) {position : ℕ}
    {message : Message} (hm : lst[position]? = some message) :
    ListsThreads (MessageCl.deleteSession db message.threadId) (lst.eraseIdx position) := by
  have hsublist := List.eraseIdx_sublist lst position
  refine ⟨h.nodup.sublist (hsublist.map _), fun m hmem => ?_⟩
  apply (h.stored m (hsublist.subset hmem)).deleteSession
  obtain ⟨j, hj, hget⟩ := List.mem_eraseIdx_iff_getElem?.mp hmem
  intro hsame
  have hthreads : (lst.map Message.threadId)[j]? = (lst.map Message.threadId)[position]? := by
    rw [List.getElem?_map, List.getElem?_map, hget, hm, Option.map_some, Option.map_some, hsame]
  have hlt : j < (lst.map Message.threadId).length := by
    rw [List.length_map]
    exact (List.getElem?_eq_some_iff.mp hget).1
  exact hj ((List.getElem?_inj hlt h.nodup).mp hthreads)

end

/-! ### What is pressed is stored -/

namespace SessionDesk

variable {d : SessionDesk}

/-- The list shows stored threads, and while a choice is open the pressed thread is stored. -/
structure Stored (d : SessionDesk) : Prop where
  sessions : ∀ s ∈ d.screens.sessions, ListsThreads d.screens.db s.lstSession
  pending : d.front ≠ .list → ∃ t, d.pressed = some t ∧ HasThread t d.screens.db

theorem Shown.stored (h : d.Shown) : d.Stored :=
  ⟨fun s hs => listsThreads_of_sessionList (h.sessions s hs), fun hf => absurd h.front hf⟩

theorem item_eq_some {position : ℕ} {m : Message} (h : d.item position = some m) :
    ∃ s, d.screens.sessions = some s ∧ s.lstSession[position]? = some m := by
  unfold item lstSession at h
  cases hs : d.screens.sessions with
  | none => simp [hs] at h
  | some s =>
    rw [hs] at h
    exact ⟨s, rfl, h⟩

theorem Stored.item (h : d.Stored) {position : ℕ} {m : Message} (hm : d.item position = some m) :
    HasThread m.threadId d.screens.db := by
  obtain ⟨s, hs, hget⟩ := item_eq_some hm
  exact (h.sessions s hs).stored m (List.mem_of_getElem? hget)

/-- Another store with all the threads, and another list of them. -/
theorem Stored.screens (h : d.Stored) {screens : Screens}
    (hdb : ∀ t, HasThread t d.screens.db → HasThread t screens.db)
    (hlst : ∀ s ∈ screens.sessions, ListsThreads screens.db s.lstSession) :
    Stored { d with screens := screens } := by
  refine ⟨hlst, fun hf => ?_⟩
  obtain ⟨t, hp, ht⟩ := h.pending hf
  exact ⟨t, hp, hdb t ht⟩

theorem Stored.onFresh (h : d.Stored) {rs : List (Row Message)} (hrs : SessionRows d.screens.db rs) :
    Stored { d with screens := d.screens.onFresh (rs.map Row.cols) } := by
  have hlists := listsThreads_of_sessionList hrs.2.2
  unfold Screens.onFresh
  split
  · exact h
  next newMsg rest _ =>
    have hdb : ∀ t, HasThread t d.screens.db →
        HasThread t (Chat.onFresh newMsg d.screens.chats d.screens.db).2 := fun t ht =>
      ht.onFresh newMsg d.screens.chats
    refine h.screens hdb fun s hs => ?_
    obtain ⟨s₀, -, rfl⟩ := Option.map_eq_some_iff.mp hs
    exact hlists.mono hdb

theorem Stored.onRestart (h : d.Stored) {rs : List (Row Message)} (hrs : SessionRows d.screens.db rs) :
    Stored { d with screens := d.screens.next (.restartSessions (rs.map Row.cols)) } := by
  refine h.screens (fun t ht => ht) fun s hs => ?_
  obtain ⟨s₀, -, rfl⟩ := Option.map_eq_some_iff.mp hs
  exact listsThreads_of_sessionList hrs.2.2

theorem contextDelete_of_item {position : ℕ} {m : Message} (hm : d.item position = some m) :
    ∃ s, d.screens.sessions = some s ∧ s.lstSession[position]? = some m ∧
      (d.screens.contextDelete position).db = deleteSession d.screens.db m.threadId ∧
      ∃ unread, (d.screens.contextDelete position).sessions =
        some ⟨s.lstSession.eraseIdx position, unread⟩ := by
  obtain ⟨s, hs, hget⟩ := item_eq_some hm
  refine ⟨s, hs, hget, ?_⟩
  unfold Screens.contextDelete
  rw [hs]
  dsimp only
  rw [hget]
  exact ⟨rfl, _, rfl⟩

/-- Without an entry at the position the method ends with an exception. -/
theorem contextDelete_of_none {position : ℕ} (hm : d.item position = none) :
    d.screens.contextDelete position = d.screens := by
  unfold Screens.contextDelete
  split
  · rfl
  next s hs =>
    have hget : s.lstSession[position]? = none := by
      unfold SessionDesk.item lstSession at hm
      rw [hs] at hm
      exact hm
    rw [hget]

theorem Stored.onConfirm (h : d.Stored) : d.onConfirm.Stored := by
  refine ⟨?_, fun hf => absurd rfl hf⟩
  cases hm : d.item d.selectedPosition with
  | none =>
    have hsame : d.onConfirm.screens = d.screens := contextDelete_of_none hm
    rw [hsame]
    exact h.sessions
  | some m =>
    obtain ⟨s, hs, hget, hdb, unread, hsessions⟩ := contextDelete_of_item hm
    intro s' hs'
    have hs'' : s' = ⟨s.lstSession.eraseIdx d.selectedPosition, unread⟩ :=
      (Option.some.inj (hsessions.symm.trans hs')).symm
    rw [hs'']
    show ListsThreads (d.screens.contextDelete d.selectedPosition).db _
    rw [hdb]
    exact (h.sessions s hs).deleteSession hget

theorem Stored.next (h : d.Stored) {e : SessionEvent} (he : d.Enabled e) : (d.next e).Stored := by
  have h₀ : Stored { d with deletion := none } := ⟨h.sessions, h.pending⟩
  cases e with
  | longPress position =>
    obtain ⟨m, hm⟩ : ∃ m, d.item position = some m := ⟨_, List.getElem?_eq_getElem he.2⟩
    refine ⟨h.sessions, fun _ => ⟨m.threadId, ?_, h.item hm⟩⟩
    show (d.item position).map Message.threadId = _
    rw [hm]
    rfl
  | closeMenu => exact ⟨h.sessions, fun hf => absurd rfl hf⟩
  | choose item =>
    have hpending := h.pending (by rw [show d.front = .menu from he]; simp)
    cases item with
    | deleteSession => exact ⟨h.sessions, fun _ => hpending⟩
    | call => exact ⟨h.sessions, fun hf => absurd rfl hf⟩
    | addContact => exact ⟨h.sessions, fun hf => absurd rfl hf⟩
  | confirm => exact h₀.onConfirm
  | cancel => exact ⟨h.sessions, fun hf => absurd rfl hf⟩
  | receive address body date =>
    refine h₀.screens (fun t ht => ht.addNew _) fun s hs => ?_
    exact (h.sessions s hs).mono fun t ht => ht.addNew _
  | fresh rs => exact h₀.onFresh he
  | restart rs => exact h₀.onRestart he

/-- With a choice open, the rows that were pressed are the ones that are removed exactly when their
thread stands at the position. -/
theorem deletesPressed_confirm (h : d.Stored) (he : d.front = .dialog) :
    (d.next .confirm).DeletesPressed ↔ d.hitsPressed .confirm := by
  obtain ⟨t, hpressed, r, hr, ht⟩ := h.pending (by rw [he]; simp)
  have hdeletion : (d.next .confirm).deletion = some ⟨d.screens.db,
      (d.screens.contextDelete d.selectedPosition).db, t⟩ := by
    show d.pressed.map _ = _
    rw [hpressed]
    rfl
  have hlaw : (d.next .confirm).DeletesPressed ↔ ∀ r,
      r ∈ (d.screens.contextDelete d.selectedPosition).db.rows ↔
        r ∈ d.screens.db.rows ∧ r.cols.threadId ≠ t := by
    unfold DeletesPressed
    rw [hdeletion]
    simp
  rw [hlaw]
  show _ ↔ (d.item d.selectedPosition).map Message.threadId = d.pressed
  rw [hpressed]
  cases hm : d.item d.selectedPosition with
  | none =>
    rw [contextDelete_of_none hm]
    refine iff_of_false (fun hrows => ?_) (by simp)
    exact ((hrows r).mp hr).2 ht
  | some m =>
    obtain ⟨-, -, -, hdb, -⟩ := contextDelete_of_item hm
    rw [hdb, Option.map_some, Option.some_inj]
    constructor
    · intro hrows
      by_contra hne
      have hkept : r ∈ (deleteSession d.screens.db m.threadId).rows :=
        Table.mem_delete.mpr ⟨hr, by simpa [ht] using Ne.symm hne⟩
      exact ((hrows r).mp hkept).2 ht
    · rintro rfl r
      rw [deleteSession, Table.mem_delete]
      simp

theorem deletesPressed_next_iff (h : d.Stored) {e : SessionEvent} (he : d.Enabled e) :
    (d.next e).DeletesPressed ↔ d.hitsPressed e := by
  have hnone : (d.next e).deletion = none → (d.next e).DeletesPressed := by
    intro hdeletion x hx
    rw [hdeletion] at hx
    cases hx
  cases e with
  | confirm => exact deletesPressed_confirm h he
  | choose item => cases item <;> exact iff_of_true (hnone rfl) trivial
  | _ => exact iff_of_true (hnone rfl) trivial

end SessionDesk

/-- From any store on, every deletion of a run removes exactly the rows of the session that was
pressed for it, exactly when at each confirmation this session stands at its position. -/
theorem runs_sessionDeleted {d : SessionDesk} (hd : sessionDesk.init d) {es : List SessionEvent}
    (hes : sessionDesk.Allowed (fun _ _ => True) d es) :
    sessionDesk.Allowed SessionDesk.hitsPressed d es ↔
      ∀ es', es' <+: es → (sessionDesk.run d es').DeletesPressed := by
  have hstart : d.Stored ∧ d.DeletesPressed := by
    refine ⟨hd.stored, fun x hx => ?_⟩
    rw [hd.deletion] at hx
    cases hx
  apply System.allowed_iff (P := fun d => d.Stored ∧ d.DeletesPressed)
    (Q := SessionDesk.DeletesPressed) (fun _ h => h.2) _ _ hstart hes
  · intro d e h he hok
    exact ⟨h.1.next he, (SessionDesk.deletesPressed_next_iff h.1 he).mpr hok⟩
  · intro d e h he hok
    exact mt (SessionDesk.deletesPressed_next_iff h.1 he).mp hok

/-! ### Messages that move the list -/

/-- Two conversations, the later one first. -/
def twoSessions : SessionDesk where
  screens := {
    db := ⟨[⟨1, ⟨1, "101", "05-01 10:00", "hello", .he, .read, .unset⟩⟩,
      ⟨2, ⟨2, "102", "05-01 10:01", "hi", .he, .read, .unset⟩⟩], 2⟩
    sessions := some ⟨[⟨2, "102", "05-01 10:01", "hi", .he, .read, .unset⟩,
      ⟨1, "101", "05-01 10:00", "hello", .he, .read, .unset⟩], false⟩ }

theorem shown_twoSessions : twoSessions.Shown := by
  refine ⟨?_, rfl, rfl⟩
  intro s hs
  cases hs
  decide

/-- The first session is pressed and gets another message. -/
def sameSessionRun : List SessionEvent :=
  [.longPress 0, .receive "102" "again" "05-01 10:02",
    .fresh [⟨3, ⟨2, "102", "05-01 10:02", "again", .he, .unread, .unset⟩⟩,
      ⟨1, ⟨1, "101", "05-01 10:00", "hello", .he, .read, .unset⟩⟩],
    .choose .deleteSession, .confirm]

theorem deleted_along_run : (sessionDesk.run twoSessions sameSessionRun).DeletesPressed := by
  have hrun : sessionDesk.Allowed (fun _ _ => True) twoSessions sameSessionRun := by decide +kernel
  exact (runs_sessionDeleted shown_twoSessions hrun).mp (by decide +kernel) sameSessionRun
    List.prefix_rfl

/-- The first session is pressed, and the other gets a message while the dialog asks. -/
def otherSessionRun : List SessionEvent :=
  [.longPress 0, .choose .deleteSession, .receive "101" "again" "05-01 10:02",
    .fresh [⟨3, ⟨1, "101", "05-01 10:02", "again", .he, .unread, .unset⟩⟩,
      ⟨2, ⟨2, "102", "05-01 10:01", "hi", .he, .read, .unset⟩⟩],
    .confirm]

/-- Both messages of the other session are deleted, and the pressed one stays. -/
theorem other_session_deleted : sessionDesk.Allowed (fun _ _ => True) twoSessions otherSessionRun ∧
    (sessionDesk.run twoSessions otherSessionRun).screens.db.rows =
      [⟨2, ⟨2, "102", "05-01 10:01", "hi", .he, .read, .unset⟩⟩] ∧
    ¬(sessionDesk.run twoSessions otherSessionRun).DeletesPressed := by
  refine ⟨by decide +kernel, by decide +kernel, fun h => ?_⟩
  obtain ⟨x, hx, hpressed, hrow⟩ : ∃ x ∈ (sessionDesk.run twoSessions otherSessionRun).deletion,
      x.pressed = 2 ∧ ∃ r ∈ x.after.rows, r.cols.threadId = 2 := by
    decide +kernel
  obtain ⟨r, hr, ht⟩ := hrow
  exact ((h x hx r).mp hr).2 (ht.trans hpressed.symm)

/-- After a message of a new number the session at the top is its own. -/
theorem new_number_first {db : Msgs} (hkeyed : db.Keyed) {ms : Message}
    (hnew : ∀ r ∈ db.rows, r.cols.threadId ≠ newThreadId db ms) {rs : List (Row Message)}
    (hrs : SessionRows (addNew db ms) rs) :
    (rs.head?.map fun r => r.cols.threadId) = some (newThreadId db ms) := by
  obtain ⟨hrows, hsorted, -, -, hall⟩ := hrs
  set new : Row Message := ⟨db.seq + 1, { ms with threadId := newThreadId db ms }⟩ with hnewRow
  have hold : ∀ r ∈ (addNew db ms).rows, r.cols.threadId = newThreadId db ms → r = new := by
    intro r hr ht
    obtain hr | rfl := Table.mem_insert.mp hr
    · exact absurd ht (hnew r hr)
    · rfl
  obtain ⟨m, hm, ht⟩ := hall new (Table.mem_insert.mpr (.inr rfl))
  obtain ⟨r, hr, rfl⟩ := List.mem_map.mp hm
  rw [hold r (hrows r hr) ht] at hr
  cases rs with
  | nil => cases hr
  | cons first rest =>
    obtain hsame | hrest := List.mem_cons.mp hr
    · rw [List.head?_cons, Option.map_some, ← hsame]
    · have hlt : new.id < first.id := (List.pairwise_cons.mp hsorted).1 new hrest
      obtain hfirst | hfirst := Table.mem_insert.mp (hrows first List.mem_cons_self)
      · have hbound := hkeyed.bound first hfirst
        simp only [hnewRow] at hlt
        omega
      · rw [hfirst] at hlt
        exact absurd hlt (lt_irrefl _)

/-- So the session at the top is missed when a new number writes before the confirmation. -/
theorem new_number_misses {d : SessionDesk} (hkeyed : d.screens.db.Keyed)
    (hopen : d.screens.sessions.isSome = true) (hfirst : d.selectedPosition = 0) {t : ℤ}
    (hpressed : d.pressed = some t) (ht : HasThread t d.screens.db) {address body date : String}
    (hnew : ∀ r ∈ d.screens.db.rows,
      r.cols.threadId ≠ newThreadId d.screens.db (Screens.received d.screens.db address body date))
    {rs : List (Row Message)}
    (hrs : SessionRows (d.next (.receive address body date)).screens.db rs) :
    ¬((d.next (.receive address body date)).next (.restart rs)).hitsPressed .confirm := by
  have htop := new_number_first hkeyed hnew hrs
  obtain ⟨s, hs⟩ := Option.isSome_iff_exists.mp hopen
  obtain ⟨r, hr, hthread⟩ := ht
  have hlist : ((d.next (.receive address body date)).next (.restart rs)).lstSession =
      rs.map Row.cols := by
    simp [SessionDesk.next, SessionDesk.step, SessionDesk.lstSession, Screens.next, hs,
      Screens.onNewMessage, Sessions.freshListView]
  intro hhits
  have hitem : (rs.map Row.cols)[0]?.map Message.threadId = some t := by
    rw [← hlist, ← hpressed, ← hfirst]
    exact hhits
  rw [List.getElem?_map, Option.map_map, ← List.head?_eq_getElem?] at hitem
  have hsame : newThreadId d.screens.db (Screens.received d.screens.db address body date) = t :=
    Option.some.inj (htop.symm.trans hitem)
  exact hnew r hr (hthread.trans hsame.symm)

end PttTerminal
