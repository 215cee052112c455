import PttTerminal.MessageScreens

/-!
# Deleting a message

In a chat a message is chosen by its position in the list, which holds no keys. To delete it, the
row is looked up again by its address, time, text and type. The row that was chosen is deleted when
it is the first one in the store that is like it.
-/
namespace PttTerminal

open Tables Runs MessageCl

/-- The items of the menu of a chat; `conn` says whether a message can be sent. -/
inductive ChatMenu where
  | resend (conn : Bool)
  | delete
  | deleteSession
  deriving Repr, DecidableEq

/-- A choice in the menu: the store before and after it, whether the method was ended by an
exception, and the key of the row that is shown at the position that is selected. -/
structure MenuChoice where
  item : ChatMenu
  before : Msgs
  after : Msgs
  failed : Bool
  selected : Option ℕ
  deriving Repr, DecidableEq

/-- The screens with one chat, the field `listId`, the keys of the rows that its list was made of,
the message of the dialog that asks, and the choice that the last event was. -/
structure ChatDesk where
  screens : Screens
  listId : ℤ := -1
  keys : List ℕ := []
  asked : Option Message := none
  failed : Bool := false
  choice : Option MenuChoice := none
  deriving Repr, DecidableEq

inductive ChatEvent where
  | send (body date : String) (conn : Bool)
  | receive (address body date : String)
  | result (status : ℤ)
  | fresh (lst : List Message)
  | status
  | getView (position : ℕ)
  | itemSelected (position : ℕ)
  | choose (item : ChatMenu)
  | confirm
  | cancel
  | close
  | create (caddress : String)
  deriving Repr, DecidableEq

/-- The keys of the rows that `getMsgAtrrayfromAddress` reads. -/
def keysOf (db : Msgs) (caddress : String) : List ℕ :=
  (db.rows.filter fun r => r.cols.address = caddress).map Row.id

namespace ChatDesk

/-! ### `ChatActivity` -/

def list (d : ChatDesk) : List Message := (d.screens.chats.head?.map Chat.list).getD []

/-- What a Java list has at an index. -/
def javaGet {α : Type*} (l : List α) (i : ℤ) : Option α := if 0 ≤ i then l[i.toNat]? else none

def onCreate (caddress : String) (d : ChatDesk) : ChatDesk :=
  { d with
    screens := { d.screens with chats := [Chat.onCreate d.screens.db caddress] }
    listId := -1
    keys := keysOf d.screens.db caddress }

def finish (d : ChatDesk) : ChatDesk :=
  { d with screens := { d.screens with chats := [] }, listId := -1, keys := [] }

/-- The list was read again. -/
def refreshed (screens : Screens) (d : ChatDesk) : ChatDesk :=
  { d with
    screens := screens
    keys := (screens.chats.head?.map fun c => keysOf screens.db c.caddress).getD [] }

/-- The item's action on the message that is selected. -/
def chosen (msg : Message) (d : ChatDesk) : ChatMenu → ChatDesk
  | .resend conn => { d with screens := d.screens.next (.resend 0 d.listId.toNat conn) }
  | .delete => d.refreshed (d.screens.next (.chatDelete 0 d.listId.toNat))
  | .deleteSession => { d with asked := some msg }

/-- `list.get(listId)` comes before everything else. -/
def onOptionsItemSelected (item : ChatMenu) (d : ChatDesk) : ChatDesk :=
  match javaGet d.list d.listId with
  | none =>
    { d with
      failed := true
      choice := some ⟨item, d.screens.db, d.screens.db, true, javaGet d.keys d.listId⟩ }
  | some msg =>
    let d' := d.chosen msg item
    { d' with
      choice := some ⟨item, d.screens.db, d'.screens.db, false, javaGet d.keys d.listId⟩ }

/-- The positive button of the dialog. -/
def onConfirm (d : ChatDesk) : ChatDesk :=
  match d.asked with
  | none => d
  | some msg =>
    let db := deleteSession d.screens.db (getThreadidFromAddress d.screens.db msg.address)
    { d with screens := { d.screens with db := db }, asked := none }.finish

def step (d : ChatDesk) : ChatEvent → ChatDesk
  | .send body date conn => { d with screens := d.screens.next (.chatSend 0 body date conn) }
  | .receive address body date => { d with screens := d.screens.next (.receive address body date) }
  | .result status => { d with screens := d.screens.next (.result status) }
  | .fresh lst =>
    if d.screens.freshView = [] then d else d.refreshed (d.screens.next (.fresh lst))
  | .status =>
    if d.screens.sendStatus = [] then d
    else if d.screens.Enabled .status then d.refreshed (d.screens.next .status)
    else { d with failed := true }
  | .getView position => { d with screens := d.screens.next (.getView 0 position) }
  | .itemSelected position => { d with listId := position }
  | .choose item => d.onOptionsItemSelected item
  | .confirm => d.onConfirm
  | .cancel => { d with asked := none }
  | .close => d.finish
  | .create caddress => d.onCreate caddress

def next (d : ChatDesk) (e : ChatEvent) : ChatDesk := { d with choice := none }.step e

/-- The dialog lets nothing through, and an exception ends the application, also one in a receiver of
`SENDSTATUS` that has no message. -/
def Enabled (d : ChatDesk) (e : ChatEvent) : Prop :=
  d.failed = false ∧ match e with
    | .send .. | .choose _ | .close => d.screens.chats ≠ [] ∧ d.asked = none
    | .itemSelected position => position < d.list.length ∧ d.asked = none
    | .confirm | .cancel => d.asked.isSome
    | .create _ => d.screens.chats = []
    | .fresh lst => d.screens.Enabled (.fresh lst)
    | .receive .. | .result _ | .status | .getView _ => True

instance (d : ChatDesk) : (e : ChatEvent) → Decidable (d.Enabled e)
  | .send .. | .choose _ | .close =>
    inferInstanceAs (Decidable (d.failed = false ∧ d.screens.chats ≠ [] ∧ d.asked = none))
  | .itemSelected position =>
    inferInstanceAs (Decidable (d.failed = false ∧ position < d.list.length ∧ d.asked = none))
  | .confirm | .cancel => inferInstanceAs (Decidable (d.failed = false ∧ d.asked.isSome))
  | .create _ => inferInstanceAs (Decidable (d.failed = false ∧ d.screens.chats = []))
  | .fresh lst => inferInstanceAs (Decidable (d.failed = false ∧ d.screens.Enabled (.fresh lst)))
  | .receive .. | .result _ | .status | .getView _ =>
    inferInstanceAs (Decidable (d.failed = false ∧ True))

/-- A chat is opened over any store. -/
structure Opened (d : ChatDesk) : Prop where
  ordered : d.screens.db.Ordered
  chats : ∃ caddress, d.screens.chats = [Chat.onCreate d.screens.db caddress] ∧
    d.keys = keysOf d.screens.db caddress
  choice : d.choice = none

end ChatDesk

def chatDesk : System ChatDesk ChatEvent where
  init := ChatDesk.Opened
  enabled := ChatDesk.Enabled
  next := ChatDesk.next

instance (d : ChatDesk) (e : ChatEvent) : Decidable (chatDesk.enabled d e) :=
  inferInstanceAs (Decidable (d.Enabled e))

/-! ### The law and its condition -/

/-- A choice without a message at the position changes nothing and ends well, and a deletion removes
the row that is shown there, and no other. -/
def MenuChoice.Right (x : MenuChoice) : Prop :=
  match x.selected with
  | none => x.failed = false ∧ x.after = x.before
  | some id => x.item = .delete → (∃ r ∈ x.before.rows, r.id = id) ∧
      ∀ r, r ∈ x.after.rows ↔ r ∈ x.before.rows ∧ r.id ≠ id

/-- The look-up of a message does not tell it from one like it. -/
def Alike (m m' : Message) : Prop :=
  m.address = m'.address ∧ m.date = m'.date ∧ m.body = m'.body ∧ m.type = m'.type

instance (m m' : Message) : Decidable (Alike m m') :=
  inferInstanceAs (Decidable (_ ∧ _ ∧ _ ∧ _))

/-- No row like it has a smaller key, and the key is an `int`. -/
def FirstAlike (db : Msgs) (m : Message) (id : ℕ) : Prop :=
  (id : ℤ) ≤ intMax ∧ ∀ r ∈ db.rows, r.id < id → ¬Alike r.cols m

instance (db : Msgs) (m : Message) (id : ℕ) : Decidable (FirstAlike db m id) :=
  inferInstanceAs (Decidable (_ ∧ ∀ r ∈ db.rows, _))

namespace ChatDesk

def ChoosesRight (d : ChatDesk) : Prop := ∀ x ∈ d.choice, x.Right

/-- With the message and the key at the position, the item acts on that row. -/
def ActsOnFirst (db : Msgs) (item : ChatMenu) : Option Message → Option ℕ → Prop
  | some m, some id => item = .delete → FirstAlike db m id
  | _, _ => False

instance (db : Msgs) (item : ChatMenu) : (m : Option Message) → (id : Option ℕ) →
    Decidable (ActsOnFirst db item m id)
  | some m, some id => inferInstanceAs (Decidable (item = .delete → FirstAlike db m id))
  | some _, none => isFalse False.elim
  | none, _ => isFalse False.elim

/-- A choice is made with a message of the list selected, and a deletion with the first one of those
like it. -/
def choosesFirst (d : ChatDesk) : ChatEvent → Prop
  | .choose item =>
    ActsOnFirst d.screens.db item (javaGet d.list d.listId) (javaGet d.keys d.listId)
  | _ => True

instance (d : ChatDesk) : (e : ChatEvent) → Decidable (d.choosesFirst e)
  | .choose item => inferInstanceAs (Decidable
      (ActsOnFirst d.screens.db item (javaGet d.list d.listId) (javaGet d.keys d.listId)))
  | .send .. | .receive .. | .result _ | .fresh _ | .status | .getView _ | .itemSelected _
  | .confirm | .cancel | .close | .create _ => isTrue trivial

end ChatDesk

/-! ### Rows that stay -/

section
variable {db db' db'' : Msgs} {keys : List ℕ} {lst : List Message} {m : Message} {a : String}

/-- Each row of `db` is still there, up to its marks. -/
def RowsStay (db db' : Msgs) : Prop :=
  ∀ r ∈ db.rows, ∃ r' ∈ db'.rows, r'.id = r.id ∧ Alike r'.cols r.cols

theorem alike_refl (m : Message) : Alike m m := ⟨rfl, rfl, rfl, rfl⟩

theorem Alike.trans {m₁ m₂ m₃ : Message} (h : Alike m₁ m₂) (h' : Alike m₂ m₃) : Alike m₁ m₃ :=
  ⟨h.1.trans h'.1, h.2.1.trans h'.2.1, h.2.2.1.trans h'.2.2.1, h.2.2.2.trans h'.2.2.2⟩

theorem rowsStay_refl (db : Msgs) : RowsStay db db := fun r hr => ⟨r, hr, rfl, alike_refl _⟩

theorem RowsStay.trans (h : RowsStay db db') (h' : RowsStay db' db'') : RowsStay db db'' := by
  intro r hr
  obtain ⟨r', hr', hid, ha⟩ := h r hr
  obtain ⟨r'', hr'', hid', ha'⟩ := h' r' hr'
  exact ⟨r'', hr'', hid'.trans hid, ha'.trans ha⟩

theorem rowsStay_addNew (db : Msgs) (ms : Message) : RowsStay db (addNew db ms) :=
  fun r hr => ⟨r, Table.mem_insert.mpr (.inl hr), rfl, alike_refl _⟩

theorem rowsStay_update (db : Msgs) (p : Row Message → Bool) {f : Message → Message}
    (hf : ∀ m, Alike (f m) m) : RowsStay db (db.update p f) := by
  intro r hr
  refine ⟨_, Table.mem_update.mpr ⟨r, hr, rfl⟩, ?_⟩
  split
  · exact ⟨rfl, hf _⟩
  · exact ⟨rfl, alike_refl _⟩

theorem rowsStay_send (db : Msgs) (msg : Message) : RowsStay db (updateMsgSendStatus db msg) :=
  rowsStay_update db _ alike_refl

/-- The list shows the rows with these keys. -/
def Shows (db : Msgs) (keys : List ℕ) (lst : List Message) : Prop :=
  List.Forall₂ (fun id m => ∃ r ∈ db.rows, r.id = id ∧ Alike r.cols m) keys lst

theorem Shows.stay (h : Shows db keys lst) (hdb : RowsStay db db') : Shows db' keys lst := by
  refine List.Forall₂.imp ?_ h
  rintro id m ⟨r, hr, hid, ha⟩
  obtain ⟨r', hr', hid', ha'⟩ := hdb r hr
  exact ⟨r', hr', hid'.trans hid, ha'.trans ha⟩

theorem shows_read (db : Msgs) (a : String) :
    Shows db (keysOf db a) (getMsgAtrrayfromAddress db a) := by
  unfold Shows keysOf getMsgAtrrayfromAddress
  rw [List.filter_map, List.forall₂_map_left_iff, List.forall₂_map_right_iff]
  refine List.forall₂_same.mpr fun r hr => ?_
  exact ⟨r, (List.mem_filter.mp hr).1, rfl, alike_refl _⟩

/-- An update of the marks changes no key. -/
theorem keysOf_update (db : Msgs) (p : Row Message → Bool) {f : Message → Message}
    (hf : ∀ m, (f m).address = m.address) (a : String) :
    keysOf (db.update p f) a = keysOf db a := by
  unfold keysOf Table.update
  rw [List.filter_map, List.map_map]
  have hfilter : ((fun r : Row Message => decide (r.cols.address = a)) ∘ fun r =>
      if p r then { r with cols := f r.cols } else r) = fun r => decide (r.cols.address = a) := by
    funext r
    dsimp only [Function.comp_apply]
    split <;> simp [hf]
  rw [hfilter]
  refine List.map_congr_left fun r _ => ?_
  dsimp only [Function.comp_apply]
  split <;> rfl

theorem keysOf_send (db : Msgs) (msg : Message) (a : String) :
    keysOf (updateMsgSendStatus db msg) a = keysOf db a :=
  keysOf_update db _ (f := fun m => { m with sendstatus := msg.sendstatus }) (fun _ => rfl) a

end

/-! ### Which row is deleted -/

section
variable {db : Msgs} {m : Message} {r : Row Message}

/-- The row that is looked up is the first one like the message. -/
theorem getIdFromMsg_eq (h : db.Ordered) (hr : r ∈ db.rows) (ha : Alike r.cols m) :
    getIdFromMsg db m = r.id ↔ FirstAlike db m r.id := by
  cases hfirst : db.first fun m' => m'.address = m.address ∧ m'.date = m.date ∧ m'.body = m.body ∧
      m'.type = m.type with
  | none =>
    have hnone := Table.first_eq_none.mp hfirst r hr
    exact absurd ha (by simpa [Alike] using hnone)
  | some r₀ =>
    have hid : getIdFromMsg db m = javaInt r₀.id := by
      rw [getIdFromMsg, hfirst, Option.map_some, Option.getD_some]
    obtain ⟨hr₀, ha₀⟩ := Table.first_eq_some hfirst
    have ha₀ : Alike r₀.cols m := by simpa [Alike] using ha₀
    have hleast : ∀ r' ∈ db.rows, Alike r'.cols m → r₀.id ≤ r'.id := fun r' hr' ha' =>
      h.first_le hfirst hr' (by simpa [Alike] using ha')
    have hle := hleast r hr ha
    rw [hid]
    constructor
    · intro hjava
      have hmax := javaInt_le_intMax r₀.id
      have hself : r₀.id = r.id := by
        by_cases hsmall : (r₀.id : ℤ) ≤ intMax
        · rw [javaInt_eq_self (by omega) hsmall] at hjava
          omega
        · omega
      refine ⟨hjava.symm.trans_le hmax, fun r' hr' hlt ha' => ?_⟩
      have hleast' := hleast r' hr' ha'
      omega
    · rintro ⟨hmax, hsmaller⟩
      have hself : r₀.id = r.id := by
        by_contra hne
        exact hsmaller r₀ hr₀ (by omega) ha₀
      rw [hself, javaInt_eq_self (by omega) hmax]

theorem deleteMsg_iff (h : db.Ordered) {id : ℕ}
    (hrow : ∃ r ∈ db.rows, r.id = id ∧ Alike r.cols m) :
    ((∃ r ∈ db.rows, r.id = id) ∧
      ∀ r, r ∈ (deleteMsg db (getIdFromMsg db m)).rows ↔ r ∈ db.rows ∧ r.id ≠ id) ↔
      FirstAlike db m id := by
  obtain ⟨r, hr, rfl, ha⟩ := hrow
  rw [← getIdFromMsg_eq h hr ha]
  constructor
  · rintro ⟨-, hrows⟩
    by_contra hne
    have hkept : r ∈ (deleteMsg db (getIdFromMsg db m)).rows :=
      Table.mem_delete.mpr ⟨hr, by simpa using Ne.symm hne⟩
    exact ((hrows r).mp hkept).2 rfl
  · intro hid
    refine ⟨⟨r, hr, rfl⟩, fun r' => ?_⟩
    rw [deleteMsg, Table.mem_delete, hid]
    simp

end

/-! ### What the list shows is stored -/

theorem next_ordered {d : Screens} {e : ScreenEvent} (h : d.db.Ordered) :
    (d.next e).db.Ordered := by
  cases hstores : d.stores e with
  | some ms =>
    rw [next_stores hstores]
    exact h.insert _
  | none =>
    exact next_keeps (fun db p h => h.delete p) (fun db t h => h.update _ _)
      (fun _ db msg h => h.update _ _) hstores h

namespace ChatDesk

variable {d : ChatDesk}

/-- There is one chat at most, and its list shows stored rows. -/
structure Showing (d : ChatDesk) : Prop where
  ordered : d.screens.db.Ordered
  single : d.screens.chats.length ≤ 1
  shows : Shows d.screens.db d.keys d.list

theorem Opened.showing (h : d.Opened) : d.Showing := by
  obtain ⟨caddress, hchats, hkeys⟩ := h.chats
  refine ⟨h.ordered, by rw [hchats]; rfl, ?_⟩
  rw [hkeys, list, hchats]
  exact shows_read _ _

/-- The store gains rows, and the list stays as it is. -/
theorem Showing.screens (h : d.Showing) {screens : Screens} (hordered : screens.db.Ordered)
    (hstay : RowsStay d.screens.db screens.db)
    (hchats : screens.chats.map Chat.list = d.screens.chats.map Chat.list) :
    Showing { d with screens := screens } := by
  have hlist : list { d with screens := screens } = d.list := by
    unfold list
    rw [← List.head?_map, ← List.head?_map, hchats]
  refine ⟨hordered, ?_, ?_⟩
  · have hlen := congrArg List.length hchats
    rw [List.length_map, List.length_map] at hlen
    exact hlen.trans_le h.single
  · rw [hlist]
    exact h.shows.stay hstay

/-- The list is read again from a store that had the same keys. -/
theorem showing_refreshed {screens : Screens} (hordered : screens.db.Ordered) {c : Chat}
    (hchats : screens.chats = [c]) {db : Msgs}
    (hlist : c.list = getMsgAtrrayfromAddress db c.caddress)
    (hkeys : keysOf screens.db c.caddress = keysOf db c.caddress)
    (hstay : RowsStay db screens.db) (d : ChatDesk) : (d.refreshed screens).Showing := by
  refine ⟨hordered, by show screens.chats.length ≤ 1; rw [hchats]; rfl, ?_⟩
  have hshown : (d.refreshed screens).list = c.list := by
    show (screens.chats.head?.map Chat.list).getD [] = _
    rw [hchats]
    rfl
  have hread : (d.refreshed screens).keys = keysOf screens.db c.caddress := by
    show (screens.chats.head?.map _).getD [] = _
    rw [hchats]
    rfl
  rw [hshown, hread, hlist, hkeys]
  exact (shows_read db c.caddress).stay hstay

theorem Showing.finish (h : d.Showing) : d.finish.Showing :=
  ⟨h.ordered, Nat.zero_le 1, List.Forall₂.nil⟩

theorem showing_closed {screens : Screens} (hordered : screens.db.Ordered)
    (hchats : screens.chats = []) (d : ChatDesk) : (d.refreshed screens).Showing := by
  refine ⟨hordered, by show screens.chats.length ≤ 1; rw [hchats]; exact Nat.zero_le 1, ?_⟩
  unfold refreshed list
  rw [hchats]
  exact List.Forall₂.nil

theorem chats_cases (h : d.Showing) : d.screens.chats = [] ∨ ∃ c, d.screens.chats = [c] := by
  obtain hnil | hone := Nat.le_one_iff_eq_zero_or_eq_one.mp h.single
  · exact .inl (List.length_eq_zero_iff.mp hnil)
  · exact .inr (List.length_eq_one_iff.mp hone)

theorem Showing.onFresh (h : d.Showing) (lst : List Message) (hpending : d.screens.freshView ≠ []) :
    (d.refreshed (d.screens.next (.fresh lst))).Showing := by
  have hordered : (d.screens.next (.fresh lst)).db.Ordered := next_ordered h.ordered
  obtain ⟨newMsg, rest, hnew⟩ := List.exists_cons_of_ne_nil hpending
  obtain hnone | ⟨c, hc⟩ := chats_cases h
  · refine showing_closed hordered ?_ d
    simp [Screens.next, Screens.onFresh, hnew, hnone, Chat.onFresh]
  · have hchats : (d.screens.next (.fresh lst)).chats =
        [c.freshListView (d.screens.next (.fresh lst)).db] := by
      simp [Screens.next, Screens.onFresh, hnew, hc, Chat.onFresh]
    exact showing_refreshed hordered hchats rfl rfl (rowsStay_refl _) d

/-- The message that was written last is marked in the store after the chat has read it. -/
theorem Showing.onStatus (h : d.Showing) (hpending : d.screens.sendStatus ≠ []) :
    (d.refreshed (d.screens.next .status)).Showing := by
  have hordered : (d.screens.next .status).db.Ordered := next_ordered h.ordered
  obtain ⟨sendstatus, rest, hstatus⟩ := List.exists_cons_of_ne_nil hpending
  obtain hnone | ⟨c, hc⟩ := chats_cases h
  · refine showing_closed hordered ?_ d
    simp [Screens.next, Screens.onStatus, hstatus, hnone, Chat.onStatus]
  · set msg := c.msg.map (Chat.answered sendstatus)
    set db := (msg.map (updateMsgSendStatus d.screens.db)).getD d.screens.db
    have hchats : (d.screens.next .status).chats =
        [({ c with msg := msg } : Chat).freshListView db] := by
      simp [Screens.next, Screens.onStatus, hstatus, hc, Chat.onStatus, msg, db]
    have hdb : (d.screens.next .status).db = db ∨
        ∃ m, (d.screens.next .status).db = updateMsgSendStatus db m := by
      simp only [Screens.next, Screens.onStatus, hstatus, hc, Chat.onStatus]
      cases d.screens.newMsg.bind fun n => n.message.map (Chat.answered sendstatus) with
      | none => exact .inl rfl
      | some m => exact .inr ⟨m, rfl⟩
    obtain hdb | ⟨m, hdb⟩ := hdb
    · exact showing_refreshed hordered hchats rfl (by rw [hdb]) (hdb ▸ rowsStay_refl _) d
    · refine showing_refreshed hordered hchats rfl ?_ (hdb ▸ rowsStay_send _ _) d
      rw [hdb]
      exact keysOf_send db m _

theorem Showing.resend (h : d.Showing) (listId : ℕ) (conn : Bool) :
    Showing { d with screens := d.screens.next (.resend 0 listId conn) } := by
  refine h.screens (next_ordered h.ordered) ?_ ?_ <;>
    simp only [Screens.next, Screens.resend] <;> split
  · split
    · exact rowsStay_addNew _ _
    · exact rowsStay_refl _
  · exact rowsStay_refl _
  · split <;> rfl
  · rfl

theorem Showing.send (h : d.Showing) (body date : String) (conn : Bool) :
    Showing { d with screens := d.screens.next (.chatSend 0 body date conn) } := by
  refine h.screens (next_ordered h.ordered) ?_ ?_ <;>
    simp only [Screens.next, Screens.chatSend] <;> split
  · exact rowsStay_refl _
  · exact rowsStay_addNew _ _
  · rfl
  next c hc =>
    obtain ⟨hlt, rfl⟩ := List.getElem?_eq_some_iff.mp hc
    rw [List.map_set]
    apply List.ext_getElem?
    intro i
    by_cases hi : i = 0
    · simp [hi, hlt]
    · simp [Ne.symm hi]

/-- The row is gone and the list is read again. -/
theorem Showing.delete (h : d.Showing) {listId : ℕ} {msg : Message}
    (hmsg : d.list[listId]? = some msg) :
    (d.refreshed (d.screens.next (.chatDelete 0 listId))).Showing ∧
      (d.screens.next (.chatDelete 0 listId)).db =
        deleteMsg d.screens.db (getIdFromMsg d.screens.db msg) := by
  have hordered : (d.screens.next (.chatDelete 0 listId)).db.Ordered := next_ordered h.ordered
  obtain hnone | ⟨c, hc⟩ := chats_cases h
  · simp [list, hnone] at hmsg
  · have hget : c.list[listId]? = some msg := by simpa [list, hc] using hmsg
    have hdb : (d.screens.next (.chatDelete 0 listId)).db =
        deleteMsg d.screens.db (getIdFromMsg d.screens.db msg) := by
      simp [Screens.next, Screens.chatDelete, hc, hget]
    have hchats : (d.screens.next (.chatDelete 0 listId)).chats =
        [c.freshListView (d.screens.next (.chatDelete 0 listId)).db] := by
      simp [Screens.next, Screens.chatDelete, hc, hget]
    exact ⟨showing_refreshed hordered hchats rfl rfl (rowsStay_refl _) d, hdb⟩

theorem Showing.chosen (h : d.Showing) {msg : Message}
    (hmsg : javaGet d.list d.listId = some msg) (item : ChatMenu) :
    (d.chosen msg item).Showing := by
  cases item with
  | resend conn => exact h.resend _ conn
  | delete =>
    unfold javaGet at hmsg
    split_ifs at hmsg
    exact (h.delete hmsg).1
  | deleteSession => exact ⟨h.ordered, h.single, h.shows⟩

theorem Showing.onConfirm (h : d.Showing) : d.onConfirm.Showing := by
  unfold ChatDesk.onConfirm
  split
  · exact h
  · exact ⟨h.ordered.delete _, Nat.zero_le 1, List.Forall₂.nil⟩

theorem Showing.next (h : d.Showing) (e : ChatEvent) : (d.next e).Showing := by
  have h₀ : Showing { d with choice := none } := ⟨h.ordered, h.single, h.shows⟩
  unfold ChatDesk.next
  generalize ({ d with choice := none } : ChatDesk) = d₀ at h₀
  cases e with
  | send body date conn => exact h₀.send body date conn
  | receive address body date =>
    exact h₀.screens (next_ordered h₀.ordered) (rowsStay_addNew _ _) rfl
  | result status =>
    refine h₀.screens (next_ordered h₀.ordered) ?_ ?_ <;>
      simp only [Screens.next, Screens.onMessageResult] <;> split
    · exact rowsStay_refl _
    · exact rowsStay_refl _
    · rfl
    · rfl
  | fresh lst =>
    simp only [step]
    split
    · exact h₀
    next hpending => exact h₀.onFresh lst hpending
  | status =>
    simp only [step]
    split
    · exact h₀
    next hpending =>
      split
      · exact h₀.onStatus hpending
      · exact ⟨h₀.ordered, h₀.single, h₀.shows⟩
  | getView position =>
    refine h₀.screens (next_ordered h₀.ordered) (rowsStay_refl _) ?_
    obtain hnone | ⟨c, hc⟩ := chats_cases h₀
    · simp [Screens.next, hnone]
    · simp only [Screens.next, hc, List.modify_zero_cons, List.map_cons]
      unfold Chat.getView
      split <;> rfl
  | itemSelected position => exact ⟨h₀.ordered, h₀.single, h₀.shows⟩
  | choose item =>
    simp only [step, onOptionsItemSelected]
    split
    · exact ⟨h₀.ordered, h₀.single, h₀.shows⟩
    next msg hmsg =>
      have hchosen := h₀.chosen hmsg item
      exact ⟨hchosen.ordered, hchosen.single, hchosen.shows⟩
  | confirm => exact h₀.onConfirm
  | cancel => exact ⟨h₀.ordered, h₀.single, h₀.shows⟩
  | close => exact h₀.finish
  | create caddress => exact ⟨h₀.ordered, le_rfl, shows_read _ _⟩

/-- The list has a message at the position just when there is a key, and the row with this key is
like it. -/
theorem Showing.selected (h : d.Showing) :
    javaGet d.list d.listId = none ∧ javaGet d.keys d.listId = none ∨
    ∃ m id, javaGet d.list d.listId = some m ∧ javaGet d.keys d.listId = some id ∧
      ∃ r ∈ d.screens.db.rows, r.id = id ∧ Alike r.cols m := by
  obtain ⟨hlen, hrows⟩ := List.forall₂_iff_get.mp h.shows
  unfold javaGet
  split_ifs with hpos
  · by_cases hlt : d.listId.toNat < d.list.length
    · refine .inr ⟨_, _, List.getElem?_eq_getElem hlt, List.getElem?_eq_getElem (hlen ▸ hlt), ?_⟩
      exact hrows _ (hlen ▸ hlt) hlt
    · exact .inl ⟨List.getElem?_eq_none (by omega), List.getElem?_eq_none (by omega)⟩
  · exact .inl ⟨rfl, rfl⟩

theorem choosesRight_choose (h : d.Showing) (item : ChatMenu) :
    (d.onOptionsItemSelected item).ChoosesRight ↔ d.choosesFirst (.choose item) := by
  obtain ⟨hlist, hkeys⟩ | ⟨m, id, hlist, hkeys, hrow⟩ := h.selected
  · unfold choosesFirst ChoosesRight onOptionsItemSelected
    rw [hlist, hkeys]
    simp [MenuChoice.Right, ActsOnFirst]
  · unfold choosesFirst ChoosesRight onOptionsItemSelected
    rw [hlist, hkeys]
    simp only [Option.mem_def, Option.some_inj, forall_eq', MenuChoice.Right, ActsOnFirst]
    refine forall_congr' fun hitem => ?_
    subst hitem
    have hget : d.list[d.listId.toNat]? = some m := by
      unfold javaGet at hlist
      split_ifs at hlist
      exact hlist
    rw [← deleteMsg_iff h.ordered hrow, ← (h.delete hget).2]
    rfl

theorem choosesRight_next (h : d.Showing) (e : ChatEvent) :
    (d.next e).ChoosesRight ↔ d.choosesFirst e := by
  have h₀ : Showing { d with choice := none } := ⟨h.ordered, h.single, h.shows⟩
  have hnone : (d.next e).choice = none → (d.next e).ChoosesRight := by
    intro hchoice x hx
    rw [hchoice] at hx
    cases hx
  cases e with
  | choose item => exact choosesRight_choose h₀ item
  | fresh lst =>
    refine iff_of_true (hnone ?_) trivial
    simp only [next, step]
    split <;> rfl
  | status =>
    refine iff_of_true (hnone ?_) trivial
    simp only [next, step]
    split
    · rfl
    · split <;> rfl
  | confirm =>
    refine iff_of_true (hnone ?_) trivial
    simp only [next, step, onConfirm]
    split <;> rfl
  | _ => exact iff_of_true (hnone rfl) trivial

end ChatDesk

/-- From any store on, every choice of a run is right exactly when each is made with a message
selected, and each deletion with the first one of the rows like it. -/
theorem runs_messageDeleted {d : ChatDesk} (hd : chatDesk.init d) {es : List ChatEvent}
    (hes : chatDesk.Allowed (fun _ _ => True) d es) :
    chatDesk.Allowed ChatDesk.choosesFirst d es ↔
      ∀ es', es' <+: es → (chatDesk.run d es').ChoosesRight := by
  have hstart : d.Showing ∧ d.ChoosesRight := by
    refine ⟨hd.showing, fun x hx => ?_⟩
    rw [hd.choice] at hx
    cases hx
  apply System.allowed_iff (P := fun d => d.Showing ∧ d.ChoosesRight)
    (Q := ChatDesk.ChoosesRight) (fun _ h => h.2) _ _ hstart hes
  · intro d e h _ hok
    exact ⟨h.1.next e, (ChatDesk.choosesRight_next h.1 e).mpr hok⟩
  · intro d e h _ hok
    exact mt (ChatDesk.choosesRight_next h.1 e).mp hok

/-! ### Messages that are sent again -/

/-- A chat with a message that could not be sent. -/
def unsentChat : ChatDesk where
  screens := {
    db := ⟨[⟨1, ⟨1, "101", "05-01 10:00", "hi", .me, .read, .unSend⟩⟩], 1⟩
    chats := [⟨"101", [⟨1, "101", "05-01 10:00", "hi", .me, .read, .unSend⟩], none, true⟩] }
  keys := [1]

theorem opened_unsentChat : unsentChat.Opened :=
  ⟨⟨List.pairwise_singleton _ _, by decide⟩, ⟨"101", by decide, by decide⟩, rfl⟩

/-- Another message comes and is shown, and one of the two is deleted. -/
def deletedRun : List ChatEvent :=
  [.receive "101" "hello" "05-01 10:01",
    .fresh [⟨1, "101", "05-01 10:01", "hello", .he, .unread, .unset⟩], .itemSelected 1,
    .choose .delete]

theorem message_deleted_along_run : (chatDesk.run unsentChat deletedRun).ChoosesRight := by
  have hrun : chatDesk.Allowed (fun _ _ => True) unsentChat deletedRun := by decide +kernel
  exact (runs_messageDeleted opened_unsentChat hrun).mp (by decide +kernel) deletedRun
    List.prefix_rfl

/-- The message is sent again, and after a refresh its second row is chosen. -/
def resentRun : List ChatEvent :=
  [.itemSelected 0, .choose (.resend true), .receive "101" "hello" "05-01 10:01",
    .fresh [⟨1, "101", "05-01 10:01", "hello", .he, .unread, .unset⟩], .itemSelected 1,
    .choose .delete]

/-- The first row is deleted, and the second one stays. -/
theorem resent_row_stays : chatDesk.Allowed (fun _ _ => True) unsentChat resentRun ∧
    ((chatDesk.run unsentChat resentRun).screens.db.rows.map Row.id) = [2, 3] ∧
    ¬(chatDesk.run unsentChat resentRun).ChoosesRight := by
  refine ⟨by decide +kernel, by decide +kernel, fun h => ?_⟩
  obtain ⟨x, hx, hitem, hselected, r, hr, hid⟩ : ∃ x ∈ (chatDesk.run unsentChat resentRun).choice,
      x.item = .delete ∧ x.selected = some 2 ∧ ∃ r ∈ x.after.rows, r.id = 2 := by
    decide +kernel
  have hright := h x hx
  unfold MenuChoice.Right at hright
  rw [hselected] at hright
  exact (((hright hitem).2 r).mp hr).2 hid

namespace ChatDesk

/-- A choice before a message was selected ends the application. -/
theorem unselected_choice_fails {d : ChatDesk} (h : d.listId = -1) (item : ChatMenu) :
    (d.next (.choose item)).failed = true := by
  have hnone : javaGet d.list d.listId = none := by rw [h]; rfl
  simp only [next, step, onOptionsItemSelected]
  split
  · rfl
  next msg hmsg => exact absurd (hnone.symm.trans hmsg) (by simp)

end ChatDesk

end PttTerminal
