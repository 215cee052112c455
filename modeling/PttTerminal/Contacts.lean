import PttTerminal.Library.Pages
import PttTerminal.Library.Runs
import PttTerminal.MessageStore

/-!
# The contacts

The table of the contacts has no constraint of its own. What is stored is checked by the screens
that add and edit a contact, against the numbers that they read when they were opened.
-/
namespace PttTerminal

open Tables Pages Runs

structure ContactUser where
  imageId : ℤ := 0
  name : String
  cellphone : String
  deriving Repr, DecidableEq

abbrev Contacts := Table ContactUser

/-- The `_id` that `getInt` reads from a row. -/
def contactId (r : Row ContactUser) : ℤ := javaInt r.id

namespace ContactUserCl

variable (db : Contacts)

/-- The total without a condition. -/
def getTotalUserNum : ℤ := javaInt db.rows.length

def addNew (ub : ContactUser) : Contacts := db.insert ub

def getUserNums : List String := db.rows.map fun r => r.cols.cellphone

def getUserListInit : List (Row ContactUser) := page db.rows 0 20

/-- SQLite takes a negative offset for zero. -/
def getUserListAdd (index : ℤ) : List (Row ContactUser) := page db.rows index.toNat 20

/-- The table, and the number of rows that were updated. -/
def updateUser (id : ℤ) (ub : ContactUser) : Contacts × ℕ :=
  (db.update (fun r => (r.id : ℤ) = id) fun _ => ub, db.rows.countP fun r => (r.id : ℤ) = id)

/-- The table, and whether one row was deleted. -/
def delete (id : ℤ) : Contacts × Bool :=
  (db.delete fun r => (r.id : ℤ) = id, db.rows.countP (fun r => (r.id : ℤ) = id) = 1)

end ContactUserCl

open ContactUserCl

/-- How an insertion ends: with a new row, with `SQLiteFullException` or with -1. -/
inductive Insertion where
  | done
  | full
  | failed
  deriving Repr, DecidableEq

/-! ### The screens -/

/-- `AddContactActivity`. A screen that is finished takes clicks until it is gone. -/
structure AddContact where
  al : List String
  etName : String := ""
  etPhone : String
  finishing : Bool := false
  deriving Repr, DecidableEq

namespace AddContact

def onCreate (db : Contacts) (address : String) : AddContact where
  al := getUserNums db
  etPhone := address

/-- The button to save. -/
def onSave (db : Contacts) (insertion : Insertion) (a : AddContact) : Contacts × AddContact :=
  if a.etName = "" ∨ a.etPhone = "" then (db, a)
  else if a.etPhone ∈ a.al then (db, a)
  else if 200 ≤ getTotalUserNum db then (db, a)
  else
    match insertion with
    | .done =>
      (addNew db { name := a.etName, cellphone := a.etPhone }, { a with finishing := true })
    | .full => (db, a)
    | .failed => (db, { a with finishing := true })

/-- The click gets past every check, and the row is inserted. -/
def Stores (db : Contacts) (insertion : Insertion) (a : AddContact) : Prop :=
  insertion = .done ∧ a.etName ≠ "" ∧ a.etPhone ≠ "" ∧ a.etPhone ∉ a.al ∧ getTotalUserNum db < 200

instance (db : Contacts) (insertion : Insertion) (a : AddContact) :
    Decidable (a.Stores db insertion) := inferInstanceAs (Decidable (_ ∧ _))

end AddContact

/-- `EditContactActivity`. -/
structure EditContact where
  allNums : List String
  id : ℤ
  imageId : ℤ
  oName : String
  oNum : String
  etName : String
  etPhone : String
  finishing : Bool := false
  deriving Repr, DecidableEq

namespace EditContact

/-- The screen is given a row of the list as it was read there. -/
def onCreate (db : Contacts) (map : Row ContactUser) : EditContact where
  allNums := getUserNums db
  id := contactId map
  imageId := map.cols.imageId
  oName := map.cols.name
  oNum := map.cols.cellphone
  etName := map.cols.name
  etPhone := map.cols.cellphone

/-- The number was another contact's when the screen was opened. -/
def Taken (c : EditContact) : Prop := c.etPhone ∈ c.allNums ∧ c.etPhone ≠ c.oNum

instance (c : EditContact) : Decidable c.Taken := inferInstanceAs (Decidable (_ ∧ _))

/-- The button to save, with `SaveChangeContact`. -/
def onSave (db : Contacts) (c : EditContact) : Contacts × EditContact :=
  if c.Taken then (db, c)
  else
    let access := updateUser db c.id ⟨c.imageId, c.etName, c.etPhone⟩
    (access.1, { c with finishing := c.finishing || access.2 = 1 })

def onDelete (db : Contacts) (c : EditContact) : Contacts × EditContact :=
  ((delete db c.id).1, { c with finishing := c.finishing || (delete db c.id).2 })

end EditContact

inductive ContactScreen where
  | add (a : AddContact)
  | edit (c : EditContact)
  deriving Repr, DecidableEq

namespace ContactScreen

def finishing : ContactScreen → Bool
  | add a => a.finishing
  | edit c => c.finishing

def setName (text : String) : ContactScreen → ContactScreen
  | add a => add { a with etName := text }
  | edit c => edit { c with etName := text }

def setPhone (text : String) : ContactScreen → ContactScreen
  | add a => add { a with etPhone := text }
  | edit c => edit { c with etPhone := text }

def onSave (db : Contacts) (insertion : Insertion) : ContactScreen → Contacts × ContactScreen
  | add a => ((a.onSave db insertion).1, add (a.onSave db insertion).2)
  | edit c => ((c.onSave db).1, edit (c.onSave db).2)

/-- Only the screen to edit has a button to delete. -/
def onDelete (db : Contacts) : ContactScreen → Contacts × ContactScreen
  | add a => (db, add a)
  | edit c => ((c.onDelete db).1, edit (c.onDelete db).2)

end ContactScreen

/-- The table, the rows that lists of contacts were filled with at some time, and the screens that
are open, the one in front first. -/
structure ContactDesk where
  db : Contacts := {}
  listed : List (Row ContactUser) := []
  screens : List ContactScreen := []
  deriving Repr, DecidableEq

inductive ContactEvent where
  | list (offset : ℕ)
  | openAdd (address : String)
  | openEdit (map : Row ContactUser)
  | setName (text : String)
  | setPhone (text : String)
  | save (insertion : Insertion)
  | delete
  | deleteListed (map : Row ContactUser)
  | leave
  deriving Repr, DecidableEq

namespace ContactDesk

/-- A screen that is finished does not come back behind a new one. -/
def opened (screen : ContactScreen) (d : ContactDesk) : ContactDesk :=
  { d with screens := screen :: d.screens.dropWhile ContactScreen.finishing }

/-- What the screen in front makes of the table and of itself. -/
def inFront (d : ContactDesk) (f : Contacts → ContactScreen → Contacts × ContactScreen) :
    ContactDesk :=
  match d.screens with
  | [] => d
  | screen :: screens =>
    { d with db := (f d.db screen).1, screens := (f d.db screen).2 :: screens }

def step (d : ContactDesk) : ContactEvent → ContactDesk
  | .list offset => { d with listed := d.listed ++ page d.db.rows offset 20 }
  | .openAdd address => d.opened (.add (AddContact.onCreate d.db address))
  | .openEdit map => d.opened (.edit (EditContact.onCreate d.db map))
  | .setName text => d.inFront fun db screen => (db, screen.setName text)
  | .setPhone text => d.inFront fun db screen => (db, screen.setPhone text)
  | .save insertion => d.inFront fun db screen => screen.onSave db insertion
  | .delete => d.inFront fun db screen => screen.onDelete db
  | .deleteListed map => { d with db := (ContactUserCl.delete d.db (contactId map)).1 }
  | .leave => { d with screens := d.screens.tail }

def possible (d : ContactDesk) : ContactEvent → Bool
  | .openEdit map | .deleteListed map => decide (map ∈ d.listed)
  | .setName _ | .setPhone _ | .save _ | .delete | .leave => !d.screens.isEmpty
  | .list _ | .openAdd _ => true

/-- A number that the screen to add stores was not stored since this screen was opened. A contact
that the screen to edit updates has a name, and a number that no other row has. -/
def SavesFresh (db : Contacts) (insertion : Insertion) : ContactScreen → Prop
  | .add a => a.Stores db insertion → a.etPhone ∉ getUserNums db
  | .edit c => ¬c.Taken → (∃ r ∈ db.rows, (r.id : ℤ) = c.id) →
      c.etName ≠ "" ∧ c.etPhone ≠ "" ∧
      ∀ r ∈ db.rows, (r.id : ℤ) ≠ c.id → r.cols.cellphone ≠ c.etPhone

instance (db : Contacts) (insertion : Insertion) :
    (screen : ContactScreen) → Decidable (SavesFresh db insertion screen)
  | .add a => inferInstanceAs (Decidable (a.Stores db insertion → a.etPhone ∉ getUserNums db))
  | .edit c => inferInstanceAs (Decidable (¬c.Taken → (∃ r ∈ db.rows, (r.id : ℤ) = c.id) →
      c.etName ≠ "" ∧ c.etPhone ≠ "" ∧
      ∀ r ∈ db.rows, (r.id : ℤ) ≠ c.id → r.cols.cellphone ≠ c.etPhone))

def Fresh (d : ContactDesk) : ContactEvent → Prop
  | .save insertion => ∀ screen ∈ d.screens.head?, SavesFresh d.db insertion screen
  | _ => True

instance (d : ContactDesk) : (e : ContactEvent) → Decidable (d.Fresh e)
  | .save insertion =>
    inferInstanceAs (Decidable (∀ screen ∈ d.screens.head?, SavesFresh d.db insertion screen))
  | .list _ | .openAdd _ | .openEdit _ | .setName _ | .setPhone _ | .delete | .deleteListed _
  | .leave => isTrue trivial

end ContactDesk

/-- The screens from the first start of the application on. -/
def contactDesk : System ContactDesk ContactEvent where
  init d := d = {}
  enabled d e := d.possible e = true
  next := ContactDesk.step

instance (d : ContactDesk) (e : ContactEvent) : Decidable (contactDesk.enabled d e) :=
  inferInstanceAs (Decidable (d.possible e = true))

/-- No number stands twice, each contact has a name and a number, and there are at most 200. -/
structure ContactsInOrder (db : Contacts) : Prop where
  distinct : db.Distinct ContactUser.cellphone
  filled : db.All fun ub => ub.name ≠ "" ∧ ub.cellphone ≠ ""
  few : db.rows.length ≤ 200

/-- The keys are in order, too. -/
structure ContactDesk.InOrder (d : ContactDesk) : Prop extends ContactsInOrder d.db where
  keyed : d.db.Keyed

/-! ### What a save does to the table -/

section tables
variable {db : Contacts} {insertion : Insertion} {ub : ContactUser} {id : ℤ}

theorem ContactsInOrder.empty : ContactsInOrder {} where
  distinct := Table.distinct_empty
  filled := by simp [Table.All]
  few := Nat.zero_le _

theorem ContactsInOrder.delete (h : ContactsInOrder db) (p : Row ContactUser → Bool) :
    ContactsInOrder (db.delete p) where
  distinct := h.distinct.delete p
  filled := h.filled.delete p
  few := (List.length_filter_le _ _).trans h.few

/-- The count is read as it is. -/
theorem getTotalUserNum_eq (hfew : db.rows.length ≤ 200) :
    getTotalUserNum db = db.rows.length :=
  javaInt_eq_self (by omega) (by unfold intMax; omega)

theorem addNew_few (hfew : db.rows.length ≤ 200) (hroom : getTotalUserNum db < 200) :
    (addNew db ub).rows.length ≤ 200 := by
  rw [getTotalUserNum_eq hfew] at hroom
  rw [addNew, Table.insert, List.length_append, List.length_singleton]
  omega

theorem ContactsInOrder.addNew_iff (h : ContactsInOrder db) (hname : ub.name ≠ "")
    (hphone : ub.cellphone ≠ "") (hroom : getTotalUserNum db < 200) :
    ContactsInOrder (addNew db ub) ↔ ub.cellphone ∉ getUserNums db := by
  constructor
  · intro hadd
    exact h.distinct.insert_iff.mp hadd.distinct
  · intro hnew
    exact ⟨h.distinct.insert_iff.mpr hnew, h.filled.insert ⟨hname, hphone⟩,
      addNew_few h.few hroom⟩

theorem updateUser_of_none (hno : ¬∃ r ∈ db.rows, (r.id : ℤ) = id) :
    (updateUser db id ub).1 = db := by
  have hrows : ∀ r ∈ db.rows, (if ((r.id : ℤ) = id : Bool) then { r with cols := ub } else r) = r :=
    fun r hr => if_neg fun hid => hno ⟨r, hr, of_decide_eq_true hid⟩
  rw [updateUser, Table.update, List.map_congr_left hrows, List.map_id']

@[simp]
theorem updateUser_length : (updateUser db id ub).1.rows.length = db.rows.length := by
  simp [updateUser, Table.update]

theorem updateUser_keyed (hkeyed : db.Keyed) : (updateUser db id ub).1.Keyed := by
  exact hkeyed.update (fun r => (r.id : ℤ) = id) fun _ => ub

/-- A row may be updated to a contact with a name and with a number that no other row has. -/
theorem ContactsInOrder.updateUser_iff (h : ContactsInOrder db) (hkeyed : db.Keyed)
    (hid : ∃ r ∈ db.rows, (r.id : ℤ) = id) :
    ContactsInOrder (updateUser db id ub).1 ↔ ub.name ≠ "" ∧ ub.cellphone ≠ "" ∧
      ∀ r ∈ db.rows, (r.id : ℤ) ≠ id → r.cols.cellphone ≠ ub.cellphone := by
  obtain ⟨r, hr, hid⟩ := hid
  have hp : ∀ r' ∈ db.rows, decide ((r'.id : ℤ) = id) = true ↔ r' = r := by
    intro r' hr'
    rw [decide_eq_true_eq]
    constructor
    · intro hid'
      exact hkeyed.unique r' hr' r hr (by omega)
    · rintro rfl
      exact hid
  have hdistinct := h.distinct.update_iff (v := ub) hr hp
  constructor
  · intro hupdate
    have hmem : (⟨r.id, ub⟩ : Row ContactUser) ∈ (updateUser db id ub).1.rows :=
      Table.mem_update.mpr ⟨r, hr, if_pos ((hp r hr).mpr rfl)⟩
    obtain ⟨hname, hphone⟩ := hupdate.filled _ hmem
    refine ⟨hname, hphone, fun r' hr' hne => ?_⟩
    exact hdistinct.mp hupdate.distinct r' hr' fun heq => hne (heq ▸ hid)
  · rintro ⟨hname, hphone, hother⟩
    refine ⟨hdistinct.mpr fun r' hr' hne => ?_, fun r' hr' => ?_, ?_⟩
    · exact hother r' hr' fun hid' => hne ((hp r' hr').mp (decide_eq_true hid'))
    · obtain ⟨r₀, hr₀, rfl⟩ := Table.mem_update.mp hr'
      split
      · exact ⟨hname, hphone⟩
      · exact h.filled r₀ hr₀
    · rw [updateUser_length]
      exact h.few

theorem AddContact.onSave_of_stores {a : AddContact} (h : a.Stores db insertion) :
    (a.onSave db insertion).1 = addNew db { name := a.etName, cellphone := a.etPhone } := by
  obtain ⟨rfl, hname, hphone, hnew, hroom⟩ := h
  rw [onSave, if_neg (not_or.mpr ⟨hname, hphone⟩), if_neg hnew, if_neg (not_le.mpr hroom)]

theorem AddContact.onSave_of_not {a : AddContact} (h : ¬a.Stores db insertion) :
    (a.onSave db insertion).1 = db := by
  unfold onSave
  split_ifs with hempty htaken hfull
  · rfl
  · rfl
  · rfl
  · cases insertion with
    | done => exact absurd ⟨rfl, (not_or.mp hempty).1, (not_or.mp hempty).2, htaken, by omega⟩ h
    | full => rfl
    | failed => rfl

theorem EditContact.onSave_db (c : EditContact) : (c.onSave db).1 =
    if c.Taken then db else (updateUser db c.id ⟨c.imageId, c.etName, c.etPhone⟩).1 := by
  unfold onSave
  split <;> rfl

/-- A save keeps the table in order exactly when it is fresh. -/
theorem onSave_inOrder_iff (h : ContactsInOrder db) (hkeyed : db.Keyed) (screen : ContactScreen) :
    ContactsInOrder (screen.onSave db insertion).1 ↔
      ContactDesk.SavesFresh db insertion screen := by
  cases screen with
  | add a =>
    change ContactsInOrder (a.onSave db insertion).1 ↔
      (a.Stores db insertion → a.etPhone ∉ getUserNums db)
    by_cases hstores : a.Stores db insertion
    · obtain ⟨-, hname, hphone, -, hroom⟩ := id hstores
      rw [AddContact.onSave_of_stores hstores, h.addNew_iff hname hphone hroom]
      exact (true_imp_iff.symm.trans (by rw [eq_true hstores]))
    · rw [AddContact.onSave_of_not hstores]
      exact iff_of_true h fun hs => absurd hs hstores
  | edit c =>
    change ContactsInOrder (c.onSave db).1 ↔ (¬c.Taken → _ → _)
    rw [c.onSave_db]
    by_cases htaken : c.Taken
    · rw [if_pos htaken]
      exact iff_of_true h fun hfree => absurd htaken hfree
    · rw [if_neg htaken]
      by_cases hid : ∃ r ∈ db.rows, (r.id : ℤ) = c.id
      · rw [h.updateUser_iff hkeyed hid]
        exact ⟨fun hok _ _ => hok, fun hok => hok htaken hid⟩
      · rw [updateUser_of_none hid]
        exact iff_of_true h fun _ hid' => absurd hid' hid

theorem keyed_onSave (hkeyed : db.Keyed) (screen : ContactScreen) :
    (screen.onSave db insertion).1.Keyed := by
  cases screen with
  | add a =>
    change (a.onSave db insertion).1.Keyed
    by_cases hstores : a.Stores db insertion
    · rw [AddContact.onSave_of_stores hstores]
      exact hkeyed.insert _
    · rwa [AddContact.onSave_of_not hstores]
  | edit c =>
    change (c.onSave db).1.Keyed
    rw [c.onSave_db]
    split
    · exact hkeyed
    · exact updateUser_keyed hkeyed

theorem few_onSave (hfew : db.rows.length ≤ 200) (screen : ContactScreen) :
    (screen.onSave db insertion).1.rows.length ≤ 200 := by
  cases screen with
  | add a =>
    change (a.onSave db insertion).1.rows.length ≤ 200
    by_cases hstores : a.Stores db insertion
    · rw [AddContact.onSave_of_stores hstores]
      exact addNew_few hfew hstores.2.2.2.2
    · rwa [AddContact.onSave_of_not hstores]
  | edit c =>
    change (c.onSave db).1.rows.length ≤ 200
    rw [c.onSave_db]
    split
    · exact hfew
    · rwa [updateUser_length]

end tables

/-! ### Runs -/

section runs

namespace ContactDesk

variable {d : ContactDesk} {e : ContactEvent}

theorem InOrder.start : InOrder {} where
  toContactsInOrder := .empty
  keyed := Table.keyed_empty

theorem InOrder.delete (h : d.InOrder) (id : ℤ) :
    ContactsInOrder (ContactUserCl.delete d.db id).1 ∧ (ContactUserCl.delete d.db id).1.Keyed :=
  ⟨h.toContactsInOrder.delete _, h.keyed.delete _⟩

/-- What holds of the table after the screen in front had its turn. -/
theorem inFront_db {P : Contacts → Prop} {f : Contacts → ContactScreen → Contacts × ContactScreen}
    (h : P d.db) (hf : ∀ screen ∈ d.screens.head?, P (f d.db screen).1) : P (d.inFront f).db := by
  unfold inFront
  cases hscreens : d.screens with
  | nil => exact h
  | cons screen screens => exact hf screen (by rw [hscreens]; rfl)

/-- What the table keeps over the steps: what a deletion keeps, and each save. -/
theorem step_db {P : Contacts → Prop} (h : P d.db)
    (hdelete : ∀ id, P (ContactUserCl.delete d.db id).1)
    (hsave : ∀ insertion, e = .save insertion → ∀ screen ∈ d.screens.head?,
      P (screen.onSave d.db insertion).1) : P (d.step e).db := by
  cases e with
  | list offset => exact h
  | openAdd address => exact h
  | openEdit map => exact h
  | leave => exact h
  | setName text => exact inFront_db h fun _ _ => h
  | setPhone text => exact inFront_db h fun _ _ => h
  | save insertion => exact inFront_db h (hsave insertion rfl)
  | delete =>
    refine inFront_db h fun screen _ => ?_
    cases screen with
    | add a => exact h
    | edit c => exact hdelete c.id
  | deleteListed map => exact hdelete (contactId map)

theorem step_inOrder (h : d.InOrder) (hfresh : d.Fresh e) : (d.step e).InOrder := by
  have hstep : ContactsInOrder (d.step e).db ∧ (d.step e).db.Keyed := by
    refine step_db (P := fun db => ContactsInOrder db ∧ db.Keyed) ⟨h.toContactsInOrder, h.keyed⟩
      h.delete ?_
    rintro insertion rfl screen hscreen
    exact ⟨(onSave_inOrder_iff h.toContactsInOrder h.keyed screen).mpr (hfresh screen hscreen),
      keyed_onSave h.keyed screen⟩
  exact ⟨hstep.1, hstep.2⟩

theorem step_breaks (h : d.InOrder) (hstale : ¬d.Fresh e) : ¬ContactsInOrder (d.step e).db := by
  cases e with
  | save insertion =>
    cases hscreens : d.screens with
    | nil => simp [Fresh, hscreens] at hstale
    | cons screen screens =>
      have hsaves : ¬SavesFresh d.db insertion screen := by simpa [Fresh, hscreens] using hstale
      rw [step, inFront, hscreens]
      exact mt (onSave_inOrder_iff h.toContactsInOrder h.keyed screen).mp hsaves
  | _ => exact absurd trivial hstale

end ContactDesk

/-- There are never more than 200 contacts, also where saves are not fresh. -/
theorem runs_fewContacts {d : ContactDesk} (h : contactDesk.Reached (fun _ _ => True) d) :
    d.db.rows.length ≤ 200 := by
  refine h.invariant (P := fun d => d.db.rows.length ≤ 200) ?_ ?_
  · rintro _ rfl
    exact Nat.zero_le _
  · intro d e hfew _ _
    refine ContactDesk.step_db (P := fun db => db.rows.length ≤ 200) hfew ?_ ?_
    · intro id
      exact (List.length_filter_le _ _).trans hfew
    · intro insertion _ screen _
      exact few_onSave hfew screen

/-- In a run from the empty table the contacts are always in order exactly when each save is
fresh. -/
theorem contacts_inOrder_iff {d : ContactDesk} {es : List ContactEvent} (hinit : contactDesk.init d)
    (hes : contactDesk.Allowed (fun _ _ => True) d es) :
    contactDesk.Allowed ContactDesk.Fresh d es ↔
      ∀ es', es' <+: es → ContactsInOrder (contactDesk.run d es').db := by
  obtain rfl := hinit
  refine System.allowed_iff (P := ContactDesk.InOrder) (Q := fun d => ContactsInOrder d.db)
    (fun _ h => h.toContactsInOrder) ?_ ?_ ContactDesk.InOrder.start hes
  · intro d e h _ hfresh
    exact ContactDesk.step_inOrder h hfresh
  · intro d e h _ hstale
    exact ContactDesk.step_breaks h hstale

/-- Two contacts are added, and the second one gets another number. -/
def addAndEditRun : List ContactEvent :=
  [.openAdd "101", .setName "Ann", .save .done, .leave, .openAdd "", .setName "Bob",
    .setPhone "102", .save .done, .leave, .list 0, .openEdit ⟨2, ⟨0, "Bob", "102"⟩⟩,
    .setPhone "103", .save .done, .leave]

theorem addAndEdit_inOrder : ContactsInOrder (contactDesk.run {} addAndEditRun).db :=
  (contacts_inOrder_iff rfl (by decide +kernel)).mp (by decide +kernel) addAndEditRun
    List.prefix_rfl

/-- The button to save is clicked twice before the screen is gone. -/
def savedTwiceRun : List ContactEvent :=
  [.openAdd "101", .setName "Ann", .save .done, .save .done]

/-- The name of a contact is emptied. -/
def emptiedRun : List ContactEvent :=
  [.openAdd "101", .setName "Ann", .save .done, .leave, .list 0,
    .openEdit ⟨1, ⟨0, "Ann", "101"⟩⟩, .setName "", .save .done]

theorem saved_twice_or_emptied :
    (contactDesk.Allowed (fun _ _ => True) {} savedTwiceRun ∧
      ¬ContactsInOrder (contactDesk.run {} savedTwiceRun).db) ∧
    contactDesk.Allowed (fun _ _ => True) {} emptiedRun ∧
      ¬ContactsInOrder (contactDesk.run {} emptiedRun).db := by
  refine ⟨⟨by decide +kernel, fun h => ?_⟩, by decide +kernel, fun h => ?_⟩
  · exact absurd h.distinct (by decide +kernel : ¬[("101" : String), "101"].Nodup)
  · exact absurd rfl (h.filled ⟨1, ⟨0, "", "101"⟩⟩ (by decide +kernel)).1

end runs

end PttTerminal
