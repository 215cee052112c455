import PttTerminal.Contacts

/-!
# The pages of the contacts

The screen of the contacts reads twenty rows at a time and counts in its own object how far it came.
A load that was asked for runs a second later, also when another screen is in front. When the screen
comes back it reads the first page again.
-/
namespace PttTerminal

open Tables Pages Runs

/-- `PBKActivity`, one instance. The field `userlistinit` and the adapter hold references to the
lists that were made. -/
structure ContactList where
  /-- The counter of `ContactUserCl`. -/
  index : ℤ := 20
  lists : List (List (Row ContactUser)) := [[]]
  userlistinit : ℕ := 0
  adapter : ℕ := 0
  listID : ℤ := -1
  loadMoreVisible : Bool := false
  loading : Bool := false
  /-- The loads that were asked for and did not run yet. -/
  delayed : ℕ := 0
  /-- The contact that a dialog asks about. -/
  asked : Option (Row ContactUser) := none
  finished : Bool := false
  deriving Repr, DecidableEq

namespace ContactList

variable (db : Contacts) (c : ContactList)

/-- The list behind a reference. -/
def deref (ref : ℕ) : List (Row ContactUser) := c.lists.getD ref []

/-- What the list view shows. -/
def shown : List (Row ContactUser) := c.deref c.adapter

/-- `userlistinit` gets a new list. -/
def getUserListInit : ContactList :=
  { c with
    lists := c.lists ++ [ContactUserCl.getUserListInit db]
    userlistinit := c.lists.length }

/-- The adapter is made for `userlistinit`. -/
def loadListView : ContactList := { c with adapter := c.userlistinit }

def resetIndex : ContactList := { c with index := 20 }

def showLoadMore : ContactList := { c with loadMoreVisible := 20 ≤ c.shown.length }

def onCreate : ContactList := (getUserListInit db {}).loadListView.showLoadMore

def onRestart : ContactList := (c.getUserListInit db).resetIndex.loadListView.showLoadMore

def onActivityResult (requestCode resultCode : ℤ) : ContactList :=
  if (requestCode = 0 ∨ requestCode = 3) ∧ resultCode = 1 then (c.getUserListInit db).loadListView
  else c

def loadMore : ContactList := { c with loading := true, delayed := c.delayed + 1 }

/-- What the delayed load adds to the list of the adapter; the counter goes on also when nothing is
returned. -/
def loadData : ContactList :=
  { c with
    lists := c.lists.modify c.adapter (· ++ ContactUserCl.getUserListAdd db c.index)
    index := javaInt (c.index + 20)
    loading := false
    delayed := c.delayed - 1 }

/-- The item of the context menu to delete: a dialog asks about the contact that was selected. -/
def askDelete : ContactList :=
  if 0 ≤ c.listID ∧ c.listID ≤ c.shown.length - 1 then
    { c with asked := (c.deref c.userlistinit)[c.listID.toNat]? }
  else c

/-- The list is read again although the screen is finished. -/
def deleted : ContactList :=
  { ((({ c with finished := true }.getUserListInit db).resetIndex).loadListView).showLoadMore with
    listID := c.listID - 1 }

end ContactList

/-- What the screens to add and to edit do to the table. -/
inductive ContactWrite where
  | addNew (ub : ContactUser)
  | updateUser (id : ℤ) (ub : ContactUser)
  | delete (id : ℤ)
  deriving Repr, DecidableEq

def ContactWrite.run (db : Contacts) : ContactWrite → Contacts
  | addNew ub => ContactUserCl.addNew db ub
  | updateUser id ub => (ContactUserCl.updateUser db id ub).1
  | delete id => (ContactUserCl.delete db id).1

/-- The table, all screens of contacts there were, and which of them is in front. -/
structure ContactApp where
  db : Contacts := {}
  screens : List ContactList := []
  front : Option ℕ := none
  deriving Repr, DecidableEq

inductive ContactPageEvent where
  | openScreen
  | leave (finish : Bool)
  | resume (k : ℕ) (result : Option (ℤ × ℤ))
  | select (position : ℕ)
  | loadMore
  | load (k : ℕ)
  | askDelete
  | confirm
  | cancel
  | write (w : ContactWrite)
  deriving Repr, DecidableEq

namespace ContactApp

variable (s : ContactApp)

def screen (k : ℕ) : ContactList := s.screens.getD k {}

def setScreen (k : ℕ) (c : ContactList) : ContactApp := { s with screens := s.screens.set k c }

/-- The screen comes back, perhaps with the result of the one that was started from it. -/
def resume (k : ℕ) (result : Option (ℤ × ℤ)) : ContactApp :=
  let c := (s.screen k).onRestart s.db
  { s with front := some k }.setScreen k
    (result.elim c fun codes => c.onActivityResult s.db codes.1 codes.2)

/-- The positive button of the dialog. A new screen is started when the contact was deleted. -/
def confirm (k : ℕ) : ContactApp :=
  match (s.screen k).asked with
  | none => s
  | some map =>
    let c := { s.screen k with asked := none }
    let deletion := ContactUserCl.delete s.db (contactId map)
    { s with db := deletion.1 }.setScreen k (if deletion.2 then c.deleted deletion.1 else c)

def step (e : ContactPageEvent) : ContactApp :=
  let k := s.front.getD 0
  let c := s.screen k
  match e with
  | .openScreen =>
    { s with
      screens := s.screens ++ [ContactList.onCreate s.db]
      front := some s.screens.length }
  | .leave finish =>
    { s with front := none }.setScreen k { c with finished := c.finished || finish }
  | .resume j result => s.resume j result
  | .select position => s.setScreen k { c with listID := position }
  | .loadMore => s.setScreen k c.loadMore
  | .load j => s.setScreen j ((s.screen j).loadData s.db)
  | .askDelete => s.setScreen k c.askDelete
  | .confirm => s.confirm k
  | .cancel => s.setScreen k { c with asked := none }
  | .write w => { s with db := w.run s.db }

/-- The screen in front takes what the user does, and other screens write while none is in front. A
screen that is finished stays in front until the new one is there. -/
def possible : ContactPageEvent → Bool
  | .openScreen => s.front.all fun k => (s.screen k).finished
  | .leave _ | .select _ | .askDelete | .cancel => s.front.isSome
  | .resume k _ => s.front.isNone && decide (k < s.screens.length) && !(s.screen k).finished
  | .loadMore => s.front.any fun k => (s.screen k).loadMoreVisible && !(s.screen k).loading
  | .load k => decide (k < s.screens.length) && decide (0 < (s.screen k).delayed)
  | .confirm => s.front.any fun k => (s.screen k).asked.isSome
  | .write _ => s.front.isNone

/-- A load of the screen in front finds a counter that has not wrapped round, or an empty table. -/
def Unwrapped : ContactPageEvent → Prop
  | .load k => s.front = some k → 0 ≤ (s.screen k).index ∨ s.db.rows = []
  | _ => True

instance : (e : ContactPageEvent) → Decidable (s.Unwrapped e)
  | .load k =>
    inferInstanceAs (Decidable (s.front = some k → 0 ≤ (s.screen k).index ∨ s.db.rows = []))
  | .openScreen | .leave _ | .resume _ _ | .select _ | .loadMore | .askDelete | .confirm | .cancel
  | .write _ => isTrue trivial

/-- The screen in front shows the first rows of the table, and its handlers look at the list that it
shows. -/
def Paged : Prop :=
  ∀ k, s.front = some k → (s.screen k).shown <+: s.db.rows ∧
    (s.screen k).adapter = (s.screen k).userlistinit

end ContactApp

/-- The screens over any table. -/
def contactApp : System ContactApp ContactPageEvent where
  init s := ∃ db : Contacts, db.Ordered ∧ s = { db := db }
  enabled s e := s.possible e = true
  next := ContactApp.step

instance (s : ContactApp) (e : ContactPageEvent) : Decidable (contactApp.enabled s e) :=
  inferInstanceAs (Decidable (s.possible e = true))

/-! ### One screen -/

section screens
variable {rows : List (Row ContactUser)} {db : Contacts} {c c' : ContactList}

/-- The list is a beginning of the rows that goes as far as the counter says, as long as the counter
has not wrapped round, and the references are to lists that were made. -/
structure ContactList.InOrder (rows : List (Row ContactUser)) (c : ContactList) : Prop where
  same : c.adapter = c.userlistinit
  made : c.adapter < c.lists.length
  paged : c.shown <+: rows
  some_shown : c.shown = [] → rows = []
  index_le : c.index ≤ intMax
  count : 0 ≤ c.index → c.shown.length = min c.index.toNat rows.length

namespace ContactList

/-- A list that was just read is the first page. -/
theorem inOrder_of_init (hsame : c.adapter = c.userlistinit) (hmade : c.adapter < c.lists.length)
    (hshown : c.shown = ContactUserCl.getUserListInit db) (hindex : c.index = 20) :
    c.InOrder db.rows := by
  rw [ContactUserCl.getUserListInit, page, List.drop_zero] at hshown
  refine ⟨hsame, hmade, ?_, fun hnil => ?_, ?_, fun _ => ?_⟩
  · rw [hshown]
    exact List.take_prefix 20 _
  · rw [hshown, List.take_eq_nil_iff] at hnil
    exact hnil.resolve_left (by decide)
  · rw [hindex]
    decide
  · rw [hshown, hindex, List.length_take]
    rfl

/-- Nothing that matters for the list was touched. -/
theorem InOrder.congr (h : c.InOrder rows) (hlists : c'.lists = c.lists)
    (hadapter : c'.adapter = c.adapter) (hinit : c'.userlistinit = c.userlistinit)
    (hindex : c'.index = c.index) : c'.InOrder rows := by
  have hshown : c'.shown = c.shown := by rw [shown, shown, deref, deref, hlists, hadapter]
  refine ⟨?_, ?_, ?_, ?_, ?_, ?_⟩
  · rw [hadapter, hinit]
    exact h.same
  · rw [hadapter, hlists]
    exact h.made
  · rw [hshown]
    exact h.paged
  · rw [hshown]
    exact h.some_shown
  · rw [hindex]
    exact h.index_le
  · rw [hindex, hshown]
    exact h.count

theorem deref_getUserListInit (db : Contacts) (c : ContactList) :
    (c.getUserListInit db).deref c.lists.length = ContactUserCl.getUserListInit db := by
  simp [deref, getUserListInit]

theorem onCreate_inOrder (db : Contacts) : (onCreate db).InOrder db.rows :=
  inOrder_of_init rfl Nat.one_lt_two (deref_getUserListInit db {}) rfl

theorem onRestart_inOrder (db : Contacts) (c : ContactList) : (c.onRestart db).InOrder db.rows :=
  inOrder_of_init rfl (by simp [onRestart, getUserListInit, resetIndex, loadListView, showLoadMore])
    (deref_getUserListInit db c) rfl

theorem deleted_inOrder (db : Contacts) (c : ContactList) : (c.deleted db).InOrder db.rows :=
  (onRestart_inOrder db c).congr rfl rfl rfl rfl

/-- The counter does not matter here as the screen was just restarted. -/
theorem onActivityResult_inOrder (hindex : c.index = 20) (h : c.InOrder db.rows)
    (requestCode resultCode : ℤ) : (c.onActivityResult db requestCode resultCode).InOrder db.rows := by
  unfold onActivityResult
  split
  · exact inOrder_of_init rfl (by simp [getUserListInit, loadListView])
      (deref_getUserListInit db c) hindex
  · exact h

theorem shown_loadData (hmade : c.adapter < c.lists.length) :
    (c.loadData db).shown = c.shown ++ ContactUserCl.getUserListAdd db c.index := by
  simp only [shown, deref, loadData, List.getD_eq_getElem?_getD]
  rw [List.getElem?_modify_eq, List.getElem?_eq_getElem hmade]
  rfl

theorem loadData_paged_iff (h : c.InOrder db.rows) (hnodup : db.rows.Nodup) :
    (c.loadData db).shown <+: db.rows ↔ 0 ≤ c.index ∨ db.rows = [] := by
  rw [shown_loadData h.made, ContactUserCl.getUserListAdd,
    prefix_append_page_iff hnodup h.paged (by decide)]
  constructor
  · intro hfits
    by_contra hno
    obtain ⟨hneg, hrows⟩ := not_or.mp hno
    have hzero : c.index.toNat = 0 := Int.toNat_eq_zero.mpr (by omega)
    have hlength : 0 < db.rows.length := List.length_pos_iff.mpr hrows
    have hshown : 0 < c.shown.length := List.length_pos_iff.mpr (mt h.some_shown hrows)
    omega
  · rintro (hindex | hrows)
    · have hcount := h.count hindex
      omega
    · right
      rw [hrows]
      exact Nat.zero_le _

theorem loadData_inOrder (h : c.InOrder db.rows) (hnodup : db.rows.Nodup)
    (hok : 0 ≤ c.index ∨ db.rows = []) : (c.loadData db).InOrder db.rows := by
  have hshown : (c.loadData db).shown = c.shown ++ ContactUserCl.getUserListAdd db c.index :=
    shown_loadData h.made
  refine ⟨h.same, ?_, (loadData_paged_iff h hnodup).mpr hok, fun hnil => ?_, ?_, fun hnext => ?_⟩
  · rw [loadData, List.length_modify]
    exact h.made
  · rw [hshown] at hnil
    exact h.some_shown (List.append_eq_nil_iff.mp hnil).1
  · exact javaInt_le_intMax _
  · have hle := h.index_le
    rw [hshown, List.length_append, ContactUserCl.getUserListAdd, page, List.length_take,
      List.length_drop]
    obtain hindex | hrows := hok
    · have hadd : javaInt (c.index + 20) = c.index + 20 :=
        javaInt_eq_of_nonneg (by omega) (by unfold intMax at hle; omega) hnext
      have hcount := h.count hindex
      change _ = min (javaInt (c.index + 20)).toNat _
      rw [hadd]
      omega
    · have hprefix := h.paged.length_le
      rw [hrows] at hprefix ⊢
      simpa using hprefix

end ContactList

end screens

/-! ### All screens -/

section app

/-- A deletion that reports no row leaves the table as it is. -/
theorem delete_eq_self {db : Contacts} (h : db.Ordered) {id : ℤ}
    (hno : (ContactUserCl.delete db id).2 = false) : (ContactUserCl.delete db id).1 = db := by
  have hids : (db.rows.map fun r => (r.id : ℤ)).Nodup := by
    have hcast := h.nodup.map (Nat.cast_injective (R := ℤ))
    rwa [List.map_map] at hcast
  have hcount : db.rows.countP (fun r => (r.id : ℤ) = id) ≤ 1 := by
    have hle := List.nodup_iff_count_le_one.mp hids id
    rw [List.count, List.countP_map] at hle
    exact hle
  have hone : db.rows.countP (fun r => (r.id : ℤ) = id) ≠ 1 := of_decide_eq_false hno
  have hzero := List.countP_eq_zero.mp (by omega : db.rows.countP (fun r => (r.id : ℤ) = id) = 0)
  have hrows : db.rows.filter (fun r => !decide ((r.id : ℤ) = id)) = db.rows :=
    List.filter_eq_self.mpr fun r hr => by simpa using hzero r hr
  rw [ContactUserCl.delete, Table.delete, hrows]

theorem ContactWrite.run_ordered {db : Contacts} (h : db.Ordered) (w : ContactWrite) :
    (w.run db).Ordered := by
  cases w with
  | addNew ub => exact h.insert ub
  | updateUser id ub => exact h.update (fun r => (r.id : ℤ) = id) fun _ => ub
  | delete id => exact h.delete fun r => (r.id : ℤ) = id

namespace ContactApp

structure InOrder (s : ContactApp) : Prop where
  ordered : s.db.Ordered
  front_lt : ∀ k, s.front = some k → k < s.screens.length
  front : ∀ k, s.front = some k → (s.screen k).InOrder s.db.rows

variable {s : ContactApp} {e : ContactPageEvent} {k : ℕ} {c : ContactList}

theorem InOrder.paged (h : s.InOrder) : s.Paged :=
  fun k hk => ⟨(h.front k hk).paged, (h.front k hk).same⟩

theorem InOrder.nodup (h : s.InOrder) : s.db.rows.Nodup := h.ordered.nodup.of_map _

theorem screen_setScreen (hk : k < s.screens.length) : (s.setScreen k c).screen k = c := by
  rw [screen, setScreen, List.getD_eq_getElem?_getD, List.getElem?_set_self hk, Option.getD_some]

theorem screen_setScreen_ne {j : ℕ} (h : k ≠ j) : (s.setScreen k c).screen j = s.screen j := by
  rw [screen, setScreen, List.getD_eq_getElem?_getD, List.getElem?_set_ne h,
    ← List.getD_eq_getElem?_getD]
  rfl

theorem inOrder_of_none (hordered : s.db.Ordered) (hfront : s.front = none) : s.InOrder := by
  refine ⟨hordered, fun k hk => ?_, fun k hk => ?_⟩ <;> rw [hfront] at hk <;> cases hk

/-- Only the screen in front has to be in order. -/
theorem inOrder_setScreen (hordered : s.db.Ordered) (hfront : s.front = some k)
    (hk : k < s.screens.length) (hc : c.InOrder s.db.rows) : (s.setScreen k c).InOrder := by
  refine ⟨hordered, fun j hj => ?_, fun j hj => ?_⟩ <;>
    obtain rfl : k = j := Option.some.inj (hfront.symm.trans hj)
  · rwa [setScreen, List.length_set]
  · rw [screen_setScreen hk]
    exact hc

theorem InOrder.setOther (h : s.InOrder) (hother : s.front ≠ some k) :
    (s.setScreen k c).InOrder := by
  refine ⟨h.ordered, fun j hj => ?_, fun j hj => ?_⟩
  · rw [setScreen, List.length_set]
    exact h.front_lt j hj
  · have hne : k ≠ j := by
      rintro rfl
      exact hother hj
    rw [screen_setScreen_ne hne]
    exact h.front j hj

/-- The screen in front may change in what its list does not depend on. -/
theorem InOrder.touch (h : s.InOrder) (hfront : s.front = some k)
    (hlists : c.lists = (s.screen k).lists) (hadapter : c.adapter = (s.screen k).adapter)
    (hinit : c.userlistinit = (s.screen k).userlistinit) (hindex : c.index = (s.screen k).index) :
    (s.setScreen k c).InOrder :=
  inOrder_setScreen h.ordered hfront (h.front_lt k hfront)
    ((h.front k hfront).congr hlists hadapter hinit hindex)

theorem openScreen_inOrder (h : s.InOrder) : (s.step .openScreen).InOrder := by
  refine ⟨h.ordered, fun k hk => ?_, fun k hk => ?_⟩ <;>
    obtain rfl : s.screens.length = k := Option.some.inj hk
  · simp [step]
  · have hscreen : (s.step .openScreen).screen s.screens.length = ContactList.onCreate s.db := by
      simp [screen, step]
    rw [hscreen]
    exact ContactList.onCreate_inOrder s.db

theorem resume_inOrder (h : s.InOrder) (hk : k < s.screens.length) (result : Option (ℤ × ℤ)) :
    (s.resume k result).InOrder := by
  have hrestart := ContactList.onRestart_inOrder s.db (s.screen k)
  refine inOrder_setScreen (s := { s with front := some k }) h.ordered rfl hk ?_
  cases result with
  | none => exact hrestart
  | some codes => exact ContactList.onActivityResult_inOrder rfl hrestart codes.1 codes.2

theorem confirm_inOrder (h : s.InOrder) (hfront : s.front = some k) : (s.confirm k).InOrder := by
  have hk := h.front_lt k hfront
  unfold confirm
  cases (s.screen k).asked with
  | none => exact h
  | some map =>
    refine inOrder_setScreen (h.ordered.delete _) hfront hk ?_
    dsimp only
    split
    · exact ContactList.deleted_inOrder _ _
    · rw [delete_eq_self h.ordered (Bool.eq_false_of_not_eq_true ‹_›)]
      exact (h.front k hfront).congr rfl rfl rfl rfl

theorem load_inOrder (h : s.InOrder) (hok : s.Unwrapped (.load k)) : (s.step (.load k)).InOrder := by
  by_cases hfront : s.front = some k
  · exact inOrder_setScreen h.ordered hfront (h.front_lt k hfront)
      (ContactList.loadData_inOrder (h.front k hfront) h.nodup (hok hfront))
  · exact h.setOther hfront

theorem askDelete_touches (c : ContactList) : c.askDelete.lists = c.lists ∧
    c.askDelete.adapter = c.adapter ∧ c.askDelete.userlistinit = c.userlistinit ∧
    c.askDelete.index = c.index := by
  unfold ContactList.askDelete
  split <;> exact ⟨rfl, rfl, rfl, rfl⟩

theorem step_inOrder (h : s.InOrder) (he : s.possible e = true) (hok : s.Unwrapped e) :
    (s.step e).InOrder := by
  have hfront : s.front.isSome = true → s.front = some (s.front.getD 0) := by
    intro hsome
    obtain ⟨k, hk⟩ := Option.isSome_iff_exists.mp hsome
    rw [hk, Option.getD_some]
  cases e with
  | openScreen => exact openScreen_inOrder h
  | leave finish => exact inOrder_of_none h.ordered rfl
  | resume k result =>
    simp only [possible, Bool.and_eq_true, decide_eq_true_eq] at he
    exact resume_inOrder h he.1.2 result
  | select position => exact h.touch (hfront he) rfl rfl rfl rfl
  | loadMore =>
    obtain ⟨k, hk, -⟩ := (Option.any_eq_true _ _).mp he
    exact h.touch (hfront (by rw [hk]; rfl)) rfl rfl rfl rfl
  | load k => exact load_inOrder h hok
  | askDelete =>
    obtain ⟨hlists, hadapter, hinit, hindex⟩ := askDelete_touches (s.screen (s.front.getD 0))
    exact h.touch (hfront he) hlists hadapter hinit hindex
  | confirm =>
    obtain ⟨k, hk, -⟩ := (Option.any_eq_true _ _).mp he
    exact confirm_inOrder h (hfront (by rw [hk]; rfl))
  | cancel => exact h.touch (hfront he) rfl rfl rfl rfl
  | write w =>
    exact inOrder_of_none (w.run_ordered h.ordered) (Option.isNone_iff_eq_none.mp he)

theorem step_breaks (h : s.InOrder) (hwrapped : ¬s.Unwrapped e) : ¬(s.step e).Paged := by
  cases e with
  | load k =>
    obtain ⟨hfront, hno⟩ := Classical.not_imp.mp hwrapped
    intro hpaged
    have hshown := (hpaged k hfront).1
    rw [step, screen_setScreen (h.front_lt k hfront)] at hshown
    exact hno ((ContactList.loadData_paged_iff (h.front k hfront) h.nodup).mp hshown)
  | _ => exact absurd trivial hwrapped

theorem init_inOrder (h : contactApp.init s) : s.InOrder := by
  obtain ⟨db, hordered, rfl⟩ := h
  exact inOrder_of_none hordered rfl

theorem reached_inOrder (h : contactApp.Reached Unwrapped s) : s.InOrder := by
  refine h.invariant (fun _ hinit => init_inOrder hinit) ?_
  intro s e hs he hok
  exact step_inOrder hs he hok

end ContactApp

/-- In a run, the screen in front always shows the first rows of the table exactly when no counter
of a screen in front has wrapped round at a load. -/
theorem contactPages_iff {s : ContactApp} {es : List ContactPageEvent} (hinit : contactApp.init s)
    (hes : contactApp.Allowed (fun _ _ => True) s es) :
    contactApp.Allowed ContactApp.Unwrapped s es ↔
      ∀ es', es' <+: es → (contactApp.run s es').Paged := by
  refine System.allowed_iff (P := ContactApp.InOrder) (Q := ContactApp.Paged)
    (fun _ h => h.paged) ?_ ?_ (ContactApp.init_inOrder hinit) hes
  · intro s e h he hok
    exact ContactApp.step_inOrder h he hok
  · intro s e h _ hwrapped
    exact ContactApp.step_breaks h hwrapped

/-- A table of `n` contacts. -/
def contactTable : ℕ → Contacts
  | 0 => {}
  | n + 1 => ContactUserCl.addNew (contactTable n) { name := "Ann", cellphone := toString n }

theorem contactTable_ordered : ∀ n, (contactTable n).Ordered
  | 0 => Table.ordered_empty
  | n + 1 => (contactTable_ordered n).insert _

@[simp]
theorem contactTable_length (n : ℕ) : (contactTable n).rows.length = n := by
  induction n with
  | zero => rfl
  | succ n ih => simp [contactTable, ContactUserCl.addNew, Table.insert, ih]

/-- The load runs while a contact is added, and one of the contacts is deleted. -/
def contactPagesRun : List ContactPageEvent :=
  [.openScreen, .loadMore, .leave false, .write (.addNew ⟨0, "Bob", "401"⟩), .load 0,
    .resume 0 (some (0, 0)), .select 3, .askDelete, .loadMore, .confirm, .load 0, .openScreen]

theorem contactPagesRun_paged :
    (contactApp.run { db := contactTable 45 } contactPagesRun).Paged :=
  (contactPages_iff ⟨_, contactTable_ordered 45, rfl⟩ (by decide +kernel)).mp (by decide +kernel)
    contactPagesRun List.prefix_rfl

/-! ### A screen that is never left -/

/-- The screen over twenty contacts, with this counter. -/
def openedScreen (index : ℤ) : ContactApp where
  db := contactTable 20
  screens := [{ ContactList.onCreate (contactTable 20) with index := index }]
  front := some 0

/-- One load after the other. -/
def loads : ℕ → List ContactPageEvent
  | 0 => []
  | n + 1 => loads n ++ [.loadMore, .load 0]

section loads
variable {index : ℤ}

/-- A load behind the last row changes the counter only. -/
theorem loadData_at_end {db : Contacts} {c : ContactList} (hmade : c.adapter < c.lists.length)
    (hend : db.rows.length ≤ c.index.toNat) :
    c.loadData db =
      { c with index := javaInt (c.index + 20), loading := false, delayed := c.delayed - 1 } := by
  have hpage : ContactUserCl.getUserListAdd db c.index = [] := (page_eq_nil (by decide)).mpr hend
  have hlists : c.lists.modify c.adapter (· ++ ContactUserCl.getUserListAdd db c.index) =
      c.lists := by
    rw [hpage, List.modify_eq_set_getElem?, List.getElem?_eq_getElem hmade]
    simp
  rw [ContactList.loadData, hlists]

theorem run_load (h : 20 ≤ index) :
    contactApp.run (openedScreen index) [.loadMore, .load 0] =
      openedScreen (javaInt (index + 20)) := by
  let c : ContactList := { ContactList.onCreate (contactTable 20) with index := index }
  have hload : c.loadMore.loadData (contactTable 20) =
      { ContactList.onCreate (contactTable 20) with index := javaInt (index + 20) } := by
    rw [loadData_at_end Nat.one_lt_two]
    · rfl
    · rw [contactTable_length]
      change 20 ≤ index.toNat
      omega
  change { openedScreen index with screens := [c.loadMore.loadData (contactTable 20)] } = _
  rw [hload]
  rfl

theorem visible_onCreate : (ContactList.onCreate (contactTable 20)).loadMoreVisible = true := by
  decide +kernel

theorem allowed_load (h : 0 ≤ index) :
    contactApp.Allowed ContactApp.Unwrapped (openedScreen index) [.loadMore, .load 0] :=
  ⟨visible_onCreate, trivial, rfl, fun _ => .inl h, trivial⟩

theorem run_loads {n : ℕ} (hn : (20 + 20 * n : ℤ) ≤ intMax) :
    contactApp.run (openedScreen 20) (loads n) = openedScreen (20 + 20 * n) ∧
      contactApp.Allowed ContactApp.Unwrapped (openedScreen 20) (loads n) := by
  induction n with
  | zero => exact ⟨rfl, trivial⟩
  | succ n ih =>
    push_cast at hn ⊢
    obtain ⟨hrun, hallowed⟩ := ih (by omega)
    have hindex : javaInt (20 + 20 * n + 20) = 20 + 20 * (n + 1) := by
      rw [javaInt_eq_self (by omega) (by omega)]
      ring
    rw [loads, System.run_append, System.allowed_append, hrun, run_load (by omega), hindex]
    exact ⟨rfl, hallowed, allowed_load (by omega)⟩

/-- With all rows shown, the loads go on until the counter is negative, and the next one shows the
first rows once more. -/
theorem endless_loads_repeat :
    ¬∀ s es, contactApp.init s → contactApp.Allowed (fun _ _ => True) s es →
      (contactApp.run s es).Paged := by
  intro h
  obtain ⟨n, hn⟩ : ∃ n : ℕ, (n : ℤ) = 107374181 := ⟨107374181, rfl⟩
  have hinit : contactApp.init { db := contactTable 20 } := ⟨_, contactTable_ordered 20, rfl⟩
  have hopen : contactApp.run { db := contactTable 20 } [.openScreen] = openedScreen 20 := rfl
  obtain ⟨hrun, hallowed⟩ := run_loads (n := n) (by rw [hn]; decide)
  have hwrap : contactApp.run (openedScreen 20) (loads n ++ [.loadMore, .load 0]) =
      openedScreen (-2147483636) := by
    have hindex : javaInt (20 + 20 * 107374181 + 20) = -2147483636 := by decide +kernel
    rw [System.run_append, hrun, hn, run_load (by decide), hindex]
  let es := [.openScreen] ++ (loads n ++ [.loadMore, .load 0]) ++ [.loadMore]
  have hend : contactApp.run { db := contactTable 20 } es =
      (openedScreen (-2147483636)).step .loadMore := by
    rw [System.run_append, System.run_append, hopen, hwrap]
    rfl
  have hes : contactApp.Allowed ContactApp.Unwrapped { db := contactTable 20 } es := by
    refine System.allowed_append.mpr ⟨System.allowed_append.mpr ⟨⟨rfl, trivial, trivial⟩, ?_⟩, ?_⟩
    · rw [hopen, System.allowed_append, hrun]
      exact ⟨hallowed, allowed_load (by omega)⟩
    · rw [System.run_append, hopen, hwrap]
      exact ⟨visible_onCreate, trivial, trivial⟩
  have horder : ((openedScreen (-2147483636)).step .loadMore).InOrder :=
    hend ▸ ContactApp.reached_inOrder (System.reached_run hinit hes)
  have hpaged := h { db := contactTable 20 } (es ++ [.load 0]) hinit
    (System.allowed_append.mpr ⟨hes.imp fun _ _ _ => trivial, by
      rw [hend]
      exact ⟨rfl, trivial, trivial⟩⟩)
  rw [System.run_append, hend] at hpaged
  exact ContactApp.step_breaks horder (e := .load 0) (by decide +kernel) hpaged

end loads

end app

end PttTerminal
