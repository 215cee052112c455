import PttTerminal.CallLog
import PttTerminal.Library.Pages
import PttTerminal.Library.Runs

/-!
# The pages of the call log

The screen shows the calls of a tab twenty at a time. How far it came is kept in one counter for
all tabs and all screens; a load that was asked for runs a second later, for the tab that its screen
has by then, and also when the screen was left.
-/
namespace PttTerminal

open Tables Pages Runs

namespace DBHelper

variable (db : CallLogs)

/-- The rows of a type, the latest first. -/
def latestFirst (logType : LogType) : List (Row CallLog) :=
  (db.rows.filter fun r => logType = .all || r.cols.logType = logType).insertionSort
    fun r r' => r'.cols.time ≤ r.cols.time

def queryCallLog (logType : LogType) : List (Row CallLog) := page (latestFirst db logType) 0 20

/-- SQLite takes a negative offset for zero. -/
def queryCallLogAdd (index : ℤ) (logType : LogType) : List (Row CallLog) :=
  page (latestFirst db logType) index.toNat 20

def deleteTabCallLog (logType : LogType) : CallLogs :=
  db.delete fun r => r.cols.logType = logType

end DBHelper

open DBHelper

/-- One instance of the screen. The adapter shows the list of the tab that it was made for. -/
structure CallLogScreen where
  currentTab : LogType := .out
  lists : LogType → List (Row CallLog) := fun _ => []
  adapter : LogType := .out
  /-- Whether the button to load more is there, and whether it says that it is loading. -/
  loadMoreVisible : Bool := false
  loading : Bool := false
  /-- The loads that were asked for and did not run yet. -/
  delayed : ℕ := 0
  destroyed : Bool := false

/-- The table, the counter, all screens there were and which of them is in front. -/
structure CallLogApp where
  db : CallLogs := {}
  index : ℤ := 20
  screens : List CallLogScreen := []
  front : Option ℕ := none

inductive CallLogEvent where
  | openScreen
  | leave (finish : Bool)
  | resume (k : ℕ)
  | tabChanged (tag : LogType)
  | loadMore
  | load (k : ℕ)
  | deleteLog (listPosition : ℕ) (result : Bool)
  | deleteAll (result : Bool)
  | save (callLog : Option CallLog)
  deriving Repr, DecidableEq

namespace CallLogScreen

def shown (c : CallLogScreen) : List (Row CallLog) := c.lists c.adapter

/-- The list of the tab is read again and gets an adapter of its own. -/
def updateView (db : CallLogs) (tag : LogType) (c : CallLogScreen) : CallLogScreen :=
  { c with
    lists := Function.update c.lists tag (queryCallLog db tag)
    adapter := tag
    loadMoreVisible := 20 ≤ (queryCallLog db tag).length }

/-- What the delayed load adds to the adapter. -/
def addItems (rows : List (Row CallLog)) (c : CallLogScreen) : CallLogScreen :=
  { c with
    lists := Function.update c.lists c.adapter (c.lists c.adapter ++ rows)
    loading := false
    delayed := c.delayed - 1 }

end CallLogScreen

namespace CallLogApp

def screen (s : CallLogApp) (k : ℕ) : CallLogScreen := s.screens.getD k {}

def setScreen (s : CallLogApp) (k : ℕ) (c : CallLogScreen) : CallLogApp :=
  { s with screens := s.screens.set k c }

def resetIndex (s : CallLogApp) : CallLogApp := { s with index := 20 }

/-- `UpdateView` for a tab of the screen, and `resetIndex`. -/
def refresh (s : CallLogApp) (k : ℕ) (tag : LogType) : CallLogApp :=
  (s.setScreen k ((s.screen k).updateView s.db tag)).resetIndex

/-- The screen that is resumed shows its tab again. -/
def onResume (s : CallLogApp) (k : ℕ) : CallLogApp :=
  { s with front := some k }.refresh k (s.screen k).currentTab

/-- A new screen has the tab of the outgoing calls. -/
def onCreate (s : CallLogApp) : CallLogApp :=
  { s with screens := s.screens ++ [({} : CallLogScreen).updateView s.db .out] }

def onTabChanged (s : CallLogApp) (k : ℕ) (tag : LogType) : CallLogApp :=
  (s.setScreen k { s.screen k with currentTab := tag }).refresh k tag

def loadMore (s : CallLogApp) (k : ℕ) : CallLogApp :=
  s.setScreen k { s.screen k with loading := true, delayed := (s.screen k).delayed + 1 }

/-- The counter goes on also when nothing is returned. -/
def loadData (s : CallLogApp) (k : ℕ) : CallLogApp :=
  let c := s.screen k
  let rows := queryCallLogAdd s.db s.index c.currentTab
  { s with index := javaInt (s.index + 20) }.setScreen k (c.addItems rows)

/-- The row goes from the lists, too, and the tab is read again. -/
def deleteLog (s : CallLogApp) (k : ℕ) (map : Row CallLog) (result : Bool) : CallLogApp :=
  let c := s.screen k
  if result then
    let lists := Function.update c.lists c.currentTab ((c.lists c.currentTab).erase map)
    let lists := Function.update lists .all ((lists .all).erase map)
    let s := s.setScreen k { c with lists := lists }
    { s with db := deleteCallLog s.db (getId map) false }.refresh k c.currentTab
  else s.refresh k c.currentTab

/-- The rows of the type of the first one shown go, in the last tab all of them. -/
def deleteAllLog (s : CallLogApp) (k : ℕ) (map : Row CallLog) (result : Bool) : CallLogApp :=
  let c := s.screen k
  if c.currentTab = .all then
    { s with db := if result then deleteCallLog s.db (-1) true else s.db }.refresh k c.currentTab
  else { s with db := deleteTabCallLog s.db map.cols.logType }.refresh k c.currentTab

def leave (s : CallLogApp) (k : ℕ) (finish : Bool) : CallLogApp :=
  { s with front := none }.setScreen k
    { s.screen k with destroyed := (s.screen k).destroyed || finish }

end CallLogApp

namespace CallLogEvent

open CallLogApp

def step (s : CallLogApp) (e : CallLogEvent) : CallLogApp :=
  let k := s.front.getD 0
  match e with
  | openScreen => s.onCreate.onResume s.screens.length
  | leave finish => s.leave k finish
  | resume j => s.onResume j
  | tabChanged tag => s.onTabChanged k tag
  | loadMore => s.loadMore k
  | load j => s.loadData j
  | deleteLog listPosition result =>
    match (s.screen k).shown[listPosition]? with
    | some map => s.deleteLog k map result
    | none => s
  | deleteAll result =>
    match (s.screen k).shown.head? with
    | some map => s.deleteAllLog k map result
    | none => s
  | save callLog => { s with db := saveCallLog s.db callLog }

/-- The screen in front takes what the user does, and the table is written while none is there. -/
def possible (s : CallLogApp) : CallLogEvent → Bool
  | openScreen | save _ => s.front.isNone
  | resume k => s.front.isNone && decide (k < s.screens.length) && !(s.screen k).destroyed
  | leave _ => s.front.isSome
  | tabChanged tag => s.front.any fun k => (s.screen k).currentTab ≠ tag
  | loadMore => s.front.any fun k => (s.screen k).loadMoreVisible && !(s.screen k).loading
  | load k => decide (k < s.screens.length) && decide (0 < (s.screen k).delayed)
  | deleteLog listPosition _ =>
    s.front.any fun k => decide (listPosition < (s.screen k).shown.length)
  | deleteAll _ => s.front.any fun k => !(s.screen k).shown.isEmpty

/-- The counter stands where the list of the screen in front ends, or behind all of its rows, when a
load of this screen runs. -/
def Fits (s : CallLogApp) : CallLogEvent → Prop
  | load k => s.front = some k →
      s.index.toNat = (s.screen k).shown.length ∨
        (latestFirst s.db (s.screen k).currentTab).length ≤ s.index.toNat
  | _ => True

instance (s : CallLogApp) : (e : CallLogEvent) → Decidable (Fits s e)
  | load k => inferInstanceAs (Decidable (s.front = some k →
      s.index.toNat = (s.screen k).shown.length ∨
        (latestFirst s.db (s.screen k).currentTab).length ≤ s.index.toNat))
  | openScreen | leave _ | resume _ | tabChanged _ | loadMore | deleteLog _ _ | deleteAll _
  | save _ => isTrue trivial

end CallLogEvent

def callLogApp : System CallLogApp CallLogEvent where
  init s := ∃ db : CallLogs, (db.rows.map fun r => r.cols.time).Nodup ∧ s = { db := db }
  enabled s e := e.possible s = true
  next := CallLogEvent.step

instance (s : CallLogApp) (e : CallLogEvent) : Decidable (callLogApp.enabled s e) :=
  inferInstanceAs (Decidable (e.possible s = true))

/-- The screen in front shows the first rows of its tab, none of them twice and none left out. -/
def CallLogApp.Paged (s : CallLogApp) : Prop :=
  ∀ k, s.front = some k → (s.screen k).shown <+: latestFirst s.db (s.screen k).currentTab

/-- What holds besides in every run. -/
structure CallLogApp.InOrder (s : CallLogApp) : Prop where
  times : (s.db.rows.map fun r => r.cols.time).Nodup
  front_lt : ∀ k, s.front = some k → k < s.screens.length
  adapter : ∀ k, s.front = some k → (s.screen k).adapter = (s.screen k).currentTab
  paged : s.Paged

/-! ### The table -/

section tables

variable {db : CallLogs} {logType : LogType}

theorem nodup_latestFirst (h : (db.rows.map fun r => r.cols.time).Nodup) :
    (latestFirst db logType).Nodup := by
  have hrows : db.rows.Nodup := h.of_map _
  exact (List.perm_insertionSort _ _).nodup_iff.mpr (hrows.filter _)

theorem queryCallLog_prefix (db : CallLogs) (logType : LogType) :
    queryCallLog db logType <+: latestFirst db logType := by
  rw [queryCallLog, page, List.drop_zero]
  exact List.take_prefix _ _

theorem times_delete (h : (db.rows.map fun r => r.cols.time).Nodup) (p : Row CallLog → Bool) :
    ((db.delete p).rows.map fun r => r.cols.time).Nodup :=
  h.sublist (List.filter_sublist.map _)

theorem times_insert {callLog : CallLog} (h : (db.rows.map fun r => r.cols.time).Nodup)
    (hnew : ∀ r ∈ db.rows, r.cols.time ≠ callLog.time) :
    ((insertCallLog db callLog).rows.map fun r => r.cols.time).Nodup := by
  unfold insertCallLog
  split_ifs
  · simp only [Table.insert, List.map_append, List.map_cons, List.map_nil]
    refine h.append (List.nodup_singleton _) ?_
    simpa [List.disjoint_singleton] using hnew
  · exact h

/-- The count of the rows of a time is zero or one, and is read as it is. -/
theorem times_ne_of_count {time : ℤ} (h : (db.rows.map fun r => r.cols.time).Nodup)
    (hcount : ¬ 0 < queryLogCountByTime db time) : ∀ r ∈ db.rows, r.cols.time ≠ time := by
  intro r hr htime
  let hits := db.rows.filter fun r => r.cols.time = time
  have hall : hits.map (fun r => r.cols.time) = List.replicate hits.length time := by
    rw [List.eq_replicate_iff, List.length_map]
    refine ⟨rfl, ?_⟩
    intro t ht
    obtain ⟨r, hr, rfl⟩ := List.mem_map.mp ht
    simpa using (List.mem_filter.mp hr).2
  have hnd : (List.replicate hits.length time).Nodup :=
    hall ▸ h.sublist (List.filter_sublist.map _)
  have hle : hits.length ≤ 1 := List.nodup_replicate.mp hnd
  have hmem : r ∈ hits := List.mem_filter.mpr ⟨hr, by simpa using htime⟩
  have hpos : 0 < hits.length := List.length_pos_of_mem hmem
  have hlen : (hits.length : ℤ) = 1 := by omega
  refine hcount ?_
  change 0 < javaInt hits.length
  rw [hlen]
  decide

theorem times_store {callLog : CallLog} (h : (db.rows.map fun r => r.cols.time).Nodup)
    (hnew : ∀ r ∈ db.rows, r.cols.time ≠ callLog.time) :
    ((storeCallLog db callLog).rows.map fun r => r.cols.time).Nodup := by
  unfold storeCallLog
  split_ifs
  · cases queryLatestLog db with
    | none => exact h
    | some log =>
      refine times_insert (times_delete h _) fun r hr => ?_
      exact hnew r (List.mem_filter.mp hr).1
  · exact times_insert h hnew

/-- A log is stored only if no row has its time. -/
theorem times_save (h : (db.rows.map fun r => r.cols.time).Nodup) (callLog : Option CallLog) :
    ((saveCallLog db callLog).rows.map fun r => r.cols.time).Nodup := by
  cases callLog with
  | none => exact h
  | some callLog =>
    simp only [saveCallLog]
    split_ifs with hbad hcount
    · exact h
    · exact h
    · exact times_store h (times_ne_of_count h hcount)

end tables

/-! ### The screens -/

section screens

namespace CallLogApp

variable {s : CallLogApp} {k j : ℕ} {c : CallLogScreen} {tag : LogType}

theorem screen_setScreen (hk : k < s.screens.length) : (s.setScreen k c).screen k = c := by
  rw [screen, setScreen, List.getD_eq_getElem?_getD, List.getElem?_set_self hk, Option.getD_some]

theorem screen_setScreen_ne (h : k ≠ j) : (s.setScreen k c).screen j = s.screen j := by
  rw [screen, setScreen, List.getD_eq_getElem?_getD, List.getElem?_set_ne h,
    ← List.getD_eq_getElem?_getD]
  rfl

@[simp]
theorem length_setScreen : (s.setScreen k c).screens.length = s.screens.length :=
  List.length_set

@[simp]
theorem shown_updateView (db : CallLogs) : (c.updateView db tag).shown = queryCallLog db tag :=
  Function.update_self _ _ _

/-- A screen in front that was read again shows the first rows of its tab. -/
theorem refresh_inOrder (htimes : (s.db.rows.map fun r => r.cols.time).Nodup)
    (hfront : s.front = some k) (hk : k < s.screens.length)
    (htab : (s.screen k).currentTab = tag) : (s.refresh k tag).InOrder := by
  have hscreen : (s.refresh k tag).screen k = (s.screen k).updateView s.db tag :=
    screen_setScreen hk
  refine ⟨htimes, ?_, ?_, ?_⟩ <;> intro j hj <;>
    obtain rfl : k = j := Option.some.inj (hfront.symm.trans hj)
  · simpa [refresh, resetIndex] using hk
  · rw [hscreen]
    exact htab.symm
  · rw [hscreen, shown_updateView]
    change _ <+: latestFirst s.db (s.screen k).currentTab
    rw [htab]
    exact queryCallLog_prefix s.db tag

/-- A screen that keeps its tab and its list changes nothing. -/
theorem InOrder.setScreen (h : s.InOrder) (hk : k < s.screens.length)
    (htab : c.currentTab = (s.screen k).currentTab) (hadapter : c.adapter = (s.screen k).adapter)
    (hlists : c.lists = (s.screen k).lists) : (s.setScreen k c).InOrder := by
  have hshown : c.shown = (s.screen k).shown := by
    rw [CallLogScreen.shown, CallLogScreen.shown, hadapter, hlists]
  have hscreen : ∀ j, ((s.setScreen k c).screen j).shown = (s.screen j).shown ∧
      ((s.setScreen k c).screen j).adapter = (s.screen j).adapter ∧
      ((s.setScreen k c).screen j).currentTab = (s.screen j).currentTab := by
    intro j
    by_cases hj : k = j
    · subst hj
      rw [screen_setScreen hk]
      exact ⟨hshown, hadapter, htab⟩
    · rw [screen_setScreen_ne hj]
      exact ⟨rfl, rfl, rfl⟩
  refine ⟨h.times, fun j hj => ?_, fun j hj => ?_, fun j hj => ?_⟩
  · rw [length_setScreen]
    exact h.front_lt j hj
  · rw [(hscreen j).2.1, (hscreen j).2.2]
    exact h.adapter j hj
  · rw [(hscreen j).1, (hscreen j).2.2]
    exact h.paged j hj

/-- Without a screen in front there is nothing to show. -/
theorem inOrder_of_none (htimes : (s.db.rows.map fun r => r.cols.time).Nodup)
    (hfront : s.front = none) : s.InOrder := by
  refine ⟨htimes, ?_, ?_, ?_⟩ <;> intro k hk <;> rw [hfront] at hk <;> cases hk

theorem InOrder.setOther (h : s.InOrder) (hfront : s.front ≠ some k) :
    (s.setScreen k c).InOrder := by
  have hscreen : ∀ j, s.front = some j → (s.setScreen k c).screen j = s.screen j := by
    intro j hj
    apply screen_setScreen_ne
    rintro rfl
    exact hfront hj
  refine ⟨h.times, fun j hj => ?_, fun j hj => ?_, fun j hj => ?_⟩
  · rw [length_setScreen]
    exact h.front_lt j hj
  · rw [hscreen j hj]
    exact h.adapter j hj
  · rw [hscreen j hj]
    exact h.paged j hj

theorem InOrder.setIndex (h : s.InOrder) (index : ℤ) : { s with index := index }.InOrder :=
  ⟨h.times, h.front_lt, h.adapter, h.paged⟩

theorem screen_loadData (h : s.InOrder) (hfront : s.front = some k) :
    (s.loadData k).screen k = (s.screen k).addItems
      (queryCallLogAdd s.db s.index (s.screen k).currentTab) :=
  screen_setScreen (s := { s with index := javaInt (s.index + 20) }) (h.front_lt k hfront)

theorem shown_loadData (h : s.InOrder) (hfront : s.front = some k) :
    ((s.loadData k).screen k).shown = (s.screen k).shown ++
      page (latestFirst s.db (s.screen k).currentTab) s.index.toNat 20 := by
  rw [screen_loadData h hfront]
  exact Function.update_self _ _ _

theorem currentTab_loadData (h : s.InOrder) (hfront : s.front = some k) :
    ((s.loadData k).screen k).currentTab = (s.screen k).currentTab ∧
      ((s.loadData k).screen k).adapter = (s.screen k).adapter := by
  rw [screen_loadData h hfront]
  exact ⟨rfl, rfl⟩

/-- A load of the screen in front adds the next rows exactly when the counter fits. -/
theorem loadData_paged_iff (h : s.InOrder) (hfront : s.front = some k) :
    (s.loadData k).Paged ↔ s.index.toNat = (s.screen k).shown.length ∨
      (latestFirst s.db (s.screen k).currentTab).length ≤ s.index.toNat := by
  rw [← prefix_append_page_iff (nodup_latestFirst h.times) (h.paged k hfront) (by decide : 0 < 20),
    ← shown_loadData h hfront]
  constructor
  · intro hpaged
    have hk := hpaged k hfront
    rw [(currentTab_loadData h hfront).1] at hk
    exact hk
  · intro hk j hj
    obtain rfl : k = j := Option.some.inj (hfront.symm.trans hj)
    rw [(currentTab_loadData h hfront).1]
    exact hk

theorem loadData_inOrder (h : s.InOrder) (hfits : CallLogEvent.Fits s (.load k)) :
    (s.loadData k).InOrder := by
  by_cases hfront : s.front = some k
  · refine ⟨h.times, fun j hj => ?_, fun j hj => ?_, ?_⟩
    · rw [loadData, length_setScreen]
      exact h.front_lt j hj
    · obtain rfl : k = j := Option.some.inj (hfront.symm.trans hj)
      obtain ⟨htab, hadapter⟩ := currentTab_loadData h hfront
      rw [htab, hadapter]
      exact h.adapter k hfront
    · exact (loadData_paged_iff h hfront).mpr (hfits hfront)
  · exact (h.setIndex _).setOther hfront

/-- What an event that is no load leads to: no screen is in front, or the one in front was read
again, or a screen shows what it showed. -/
inductive Changed (s : CallLogApp) : CallLogApp → Prop
  | away {t : CallLogApp} : (t.db.rows.map fun r => r.cols.time).Nodup → t.front = none →
      t.index = s.index → Changed s t
  | fresh {t : CallLogApp} {i tab} : (t.db.rows.map fun r => r.cols.time).Nodup →
      t.front = some i → i < t.screens.length → (t.screen i).currentTab = tab →
      Changed s (t.refresh i tab)
  | same {i} {d : CallLogScreen} : i < s.screens.length →
      d.currentTab = (s.screen i).currentTab → d.adapter = (s.screen i).adapter →
      d.lists = (s.screen i).lists → Changed s (s.setScreen i d)

theorem onTabChanged_changed (h : s.InOrder) (hfront : s.front = some k) (tag : LogType) :
    Changed s (s.onTabChanged k tag) := by
  have hk := h.front_lt k hfront
  refine .fresh h.times hfront (by simpa using hk) ?_
  rw [screen_setScreen hk]

theorem deleteLog_changed (h : s.InOrder) (hfront : s.front = some k) (map : Row CallLog)
    (result : Bool) : Changed s (s.deleteLog k map result) := by
  have hk := h.front_lt k hfront
  cases result with
  | false => exact .fresh h.times hfront hk rfl
  | true =>
    refine .fresh (times_delete h.times _) hfront ?_ ?_
    · exact hk.trans_eq (List.length_set).symm
    · change ((s.setScreen k _).screen k).currentTab = (s.screen k).currentTab
      rw [screen_setScreen hk]

theorem deleteAllLog_changed (h : s.InOrder) (hfront : s.front = some k) (map : Row CallLog)
    (result : Bool) : Changed s (s.deleteAllLog k map result) := by
  have hk := h.front_lt k hfront
  unfold deleteAllLog
  dsimp only
  split_ifs
  · exact .fresh (times_delete h.times _) hfront hk rfl
  · exact .fresh h.times hfront hk rfl
  · exact .fresh (times_delete h.times _) hfront hk rfl

theorem step_changed {e : CallLogEvent} (h : s.InOrder) (he : e.possible s = true)
    (hload : ∀ k, e ≠ .load k) : Changed s (e.step s) := by
  cases e with
  | openScreen =>
    have hk : s.screens.length < s.onCreate.screens.length := by simp [onCreate]
    exact .fresh (t := { s.onCreate with front := some s.screens.length }) h.times rfl hk rfl
  | leave finish => exact .away h.times rfl rfl
  | resume k =>
    simp only [CallLogEvent.possible, Bool.and_eq_true, decide_eq_true_eq] at he
    exact .fresh (t := { s with front := some k }) h.times rfl he.1.2 rfl
  | load k => exact absurd rfl (hload k)
  | save callLog =>
    exact .away (times_save h.times callLog) (Option.isNone_iff_eq_none.mp he) rfl
  | tabChanged tag =>
    obtain ⟨k, hfront, -⟩ := (Option.any_eq_true _ _).mp he
    simp only [CallLogEvent.step, hfront, Option.getD_some]
    exact onTabChanged_changed h hfront tag
  | loadMore =>
    obtain ⟨k, hfront, -⟩ := (Option.any_eq_true _ _).mp he
    simp only [CallLogEvent.step, hfront, Option.getD_some]
    exact .same (h.front_lt k hfront) rfl rfl rfl
  | deleteLog listPosition result =>
    obtain ⟨k, hfront, hlt⟩ := (Option.any_eq_true _ _).mp he
    simp only [CallLogEvent.step, hfront, Option.getD_some]
    rw [List.getElem?_eq_getElem (of_decide_eq_true hlt)]
    exact deleteLog_changed h hfront _ result
  | deleteAll result =>
    obtain ⟨k, hfront, hne⟩ := (Option.any_eq_true _ _).mp he
    simp only [CallLogEvent.step, hfront, Option.getD_some]
    cases hshown : (s.screen k).shown with
    | nil => simp [hshown] at hne
    | cons map rows => exact deleteAllLog_changed h hfront map result

theorem Changed.inOrder {t : CallLogApp} (h : s.InOrder) (ht : Changed s t) : t.InOrder := by
  cases ht with
  | away htimes hfront _ => exact inOrder_of_none htimes hfront
  | fresh htimes hfront hk htab => exact refresh_inOrder htimes hfront hk htab
  | same hk htab hadapter hlists => exact h.setScreen hk htab hadapter hlists

end CallLogApp

end screens

/-! ### Runs -/

section runs

open CallLogApp

variable {s : CallLogApp} {e : CallLogEvent} {es : List CallLogEvent}

theorem callLog_step (h : s.InOrder) (he : e.possible s = true) (hfits : e.Fits s) :
    (e.step s).InOrder := by
  cases e with
  | load k => exact loadData_inOrder h hfits
  | _ => exact (step_changed h he (by simp)).inOrder h

theorem callLog_breaks (h : s.InOrder) (hfits : ¬ e.Fits s) : ¬ (e.step s).Paged := by
  cases e with
  | load k =>
    obtain ⟨hfront, hindex⟩ := Classical.not_imp.mp hfits
    exact fun hpaged => hindex ((loadData_paged_iff h hfront).mp hpaged)
  | _ => exact absurd trivial hfits

theorem callLog_init (h : callLogApp.init s) : s.InOrder := by
  obtain ⟨db, htimes, rfl⟩ := h
  exact inOrder_of_none htimes rfl

/-- In a run, the screen in front always shows the first rows of its tab exactly when the counter
fits at each load of the screen in front. -/
theorem paged_iff (hinit : callLogApp.init s)
    (hes : callLogApp.Allowed (fun _ _ => True) s es) :
    callLogApp.Allowed (fun s e => e.Fits s) s es ↔
      ∀ es', es' <+: es → (callLogApp.run s es').Paged := by
  refine System.allowed_iff (P := InOrder) (Q := Paged) (fun _ h => h.paged) ?_ ?_
    (callLog_init hinit) hes
  · intro t e h he hfits
    exact callLog_step h he hfits
  · intro t e h _ hfits
    exact callLog_breaks h hfits

end runs

/-! ### Loads of the screen in front -/

section own

namespace CallLogApp

/-- A load runs for the screen in front or while there is none, and the counter stays an `int`. -/
def OwnLoad (s : CallLogApp) : CallLogEvent → Prop
  | .load k => (∀ j, s.front = some j → j = k) ∧ s.index + 20 ≤ intMax
  | _ => True

/-- The screen in front shows as many rows as the counter says, or all. -/
structure Counted (s : CallLogApp) : Prop extends InOrder s where
  index_nonneg : 0 ≤ s.index
  count : ∀ k, s.front = some k → (s.screen k).shown.length =
    min s.index.toNat (latestFirst s.db (s.screen k).currentTab).length

variable {s t : CallLogApp} {k : ℕ}

theorem Counted.fits (h : s.Counted) (e : CallLogEvent) : e.Fits s := by
  cases e with
  | load k =>
    intro hfront
    have hcount := h.count k hfront
    omega
  | _ => trivial

theorem Changed.counted (h : s.Counted) (ht : Changed s t) : t.Counted := by
  have hin := ht.inOrder h.toInOrder
  cases ht with
  | away htimes hfront hindex =>
    refine ⟨hin, hindex ▸ h.index_nonneg, fun k hk => ?_⟩
    rw [hfront] at hk
    cases hk
  | @fresh t i tab htimes hfront hi htab =>
    refine ⟨hin, (by decide : (0 : ℤ) ≤ 20), fun k hk => ?_⟩
    obtain rfl : i = k := Option.some.inj (hfront.symm.trans hk)
    have hscreen : (t.refresh i tab).screen i = (t.screen i).updateView t.db tab :=
      screen_setScreen hi
    rw [hscreen, shown_updateView]
    change (queryCallLog t.db tab).length = min 20 (latestFirst t.db (t.screen i).currentTab).length
    rw [htab, queryCallLog, page, List.drop_zero, List.length_take]
  | @same i d hi htab hadapter hlists =>
    refine ⟨hin, h.index_nonneg, fun k hk => ?_⟩
    have hcount := h.count k hk
    by_cases hik : i = k
    · subst hik
      rw [screen_setScreen hi, CallLogScreen.shown, hadapter, hlists, htab]
      exact hcount
    · rw [screen_setScreen_ne hik]
      exact hcount

theorem loadData_counted (h : s.Counted) (hfront : ∀ j, s.front = some j → j = k)
    (hindex : s.index + 20 ≤ intMax) : (s.loadData k).Counted := by
  have hnonneg := h.index_nonneg
  have hnext : javaInt (s.index + 20) = s.index + 20 := javaInt_eq_self (by omega) hindex
  refine ⟨loadData_inOrder h.toInOrder (h.fits _), ?_, fun j hj => ?_⟩
  · change 0 ≤ javaInt (s.index + 20)
    omega
  · obtain rfl : j = k := hfront j hj
    have hcount := h.count j hj
    rw [shown_loadData h.toInOrder hj, (currentTab_loadData h.toInOrder hj).1]
    change _ = min (javaInt (s.index + 20)).toNat (latestFirst s.db _).length
    rw [hnext, List.length_append, hcount, page, List.length_take, List.length_drop]
    omega

end CallLogApp

open CallLogApp

/-- As long as no load of a screen that was left runs while another one is in front, the screen in
front shows the first rows of its tab. -/
theorem ownLoads_paged {s : CallLogApp} (h : callLogApp.Reached OwnLoad s) : s.Paged := by
  have hcounted : s.Counted := by
    refine h.invariant ?_ ?_
    · rintro _ ⟨db, htimes, rfl⟩
      exact ⟨inOrder_of_none htimes rfl, (by decide : (0 : ℤ) ≤ 20), by simp⟩
    · intro t e ht he hown
      cases e with
      | load k => exact loadData_counted ht hown.1 hown.2
      | _ => exact (step_changed ht.toInOrder he (by simp)).counted ht
  exact hcounted.paged

end own

/-- A table of `n` calls that were dialled. -/
def dialledRows (n : ℕ) : CallLogs where
  rows := (List.range n).map fun t => ⟨t + 1, dialledAt t⟩
  seq := n

theorem dialledRows_init (n : ℕ) : callLogApp.init { db := dialledRows n } := by
  refine ⟨dialledRows n, ?_, rfl⟩
  have htimes : (dialledRows n).rows.map (fun r => r.cols.time) =
      (List.range n).map fun t : ℕ => (t : ℤ) := by
    simp [dialledRows, dialledAt, Function.comp_def]
  rw [htimes]
  exact List.nodup_range.map Nat.cast_injective

/-- More rows are asked for on the tab of all calls. -/
def pagingRun : List CallLogEvent := [.openScreen, .loadMore, .tabChanged .all, .load 0]

/-- More rows are asked for, the screen is left and opened again, and more are asked for there. -/
def reopenedRun : List CallLogEvent :=
  [.openScreen, .loadMore, .leave true, .openScreen, .load 0, .loadMore]

theorem pagingRun_paged : (callLogApp.run { db := dialledRows 41 } pagingRun).Paged := by
  apply (paged_iff (dialledRows_init 41) _).mp _ pagingRun List.prefix_rfl
  · decide +kernel
  · decide +kernel

theorem reopened_screen_skips :
    ¬ ∀ s es, callLogApp.init s → callLogApp.Allowed (fun _ _ => True) s es →
      (callLogApp.run s es).Paged := by
  intro h
  have hpaged := h { db := dialledRows 41 } (reopenedRun ++ [.load 1]) (dialledRows_init 41)
    (by decide +kernel)
  have hreached : callLogApp.Reached (fun s e => e.Fits s)
      (callLogApp.run { db := dialledRows 41 } reopenedRun) :=
    System.reached_run (dialledRows_init 41) (by decide +kernel)
  have hin : (callLogApp.run { db := dialledRows 41 } reopenedRun).InOrder := by
    apply hreached.invariant
    · intro s hs
      exact callLog_init hs
    · intro s e hs he hfits
      exact callLog_step hs he hfits
  rw [System.run_append] at hpaged
  exact callLog_breaks hin (e := .load 1) (by decide +kernel) hpaged

end PttTerminal
