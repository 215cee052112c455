import PttTerminal.MessageStore
import Mathlib.Data.List.DropRight
import Mathlib.Data.List.ReduceOption
import Mathlib.Data.List.Sort

/-!
# The call log

The rows of the table of calls are the logs that `saveCallLog` stored. The uniqueness of the time,
the bound of the table, the choice of the row that goes and the insertion are four statements, one
after the other.
-/
namespace PttTerminal

open Tables

/-- `PTTConstant.LOG_OUT`, `LOG_ANSWERED`, `LOG_MISSING` and `LOG_ALL`. -/
inductive LogType where
  | out
  | answered
  | missing
  | all
  deriving Repr, DecidableEq

/-- A `CallLog` but for its id, which SQLite gives. `time` is in milliseconds. -/
structure CallLog where
  callId : ℤ
  num : Option String
  logType : LogType := .all
  duration : ℤ
  reason : Option String
  time : ℤ
  deriving Repr, DecidableEq

/-- The table of calls. -/
abbrev CallLogs := Table CallLog

/-- `PTTConstant.CALLLOG_MAX`. -/
abbrev callLogMax : ℕ := 200

namespace DBHelper

variable (db : CallLogs)

/-- The columns of the number and of the reason are NOT NULL; without one of them the insertion
fails. -/
def insertCallLog (callLog : CallLog) : CallLogs :=
  if callLog.num.isSome ∧ callLog.reason.isSome then db.insert callLog else db

def deleteCallLog (id : ℤ) (bAll : Bool) : CallLogs :=
  db.delete fun r => bAll || (r.id : ℤ) = id

def queryLogCount (logType : LogType) : ℤ :=
  javaInt (db.rows.filter fun r => logType = .all || r.cols.logType = logType).length

def queryLogCountByTime (time : ℤ) : ℤ :=
  javaInt (db.rows.filter fun r => r.cols.time = time).length

/-- The first row in the order of time. -/
def queryLatestLog : Option (Row CallLog) :=
  (db.rows.insertionSort fun r r' => r.cols.time ≤ r'.cols.time).head?

end DBHelper

/-- The id that `cursor.getInt` reads from a row. -/
def getId (log : Row CallLog) : ℤ := javaInt log.id

open DBHelper

/-- What `saveCallLog` does with a log whose time is new. -/
def storeCallLog (db : CallLogs) (callLog : CallLog) : CallLogs :=
  if callLogMax ≤ queryLogCount db .all then
    match queryLatestLog db with
    | none => db
    | some log => insertCallLog (deleteCallLog db (getId log) false) callLog
  else insertCallLog db callLog

def saveCallLog (db : CallLogs) : Option CallLog → CallLogs
  | none => db
  | some callLog =>
    if callLog.num = none ∨ callLog.logType = .all then db
    else if 0 < queryLogCountByTime db callLog.time then db
    else storeCallLog db callLog

/-- The table after the calls of `saveCallLog`, from an empty one. -/
def savedCalls (calls : List (Option CallLog)) : CallLogs := calls.foldl saveCallLog {}

/-! ### The logs that are accepted -/

/-- A log with a number and a type of its own. -/
def CallLog.saveable (l : CallLog) : Bool := l.num.isSome && decide (l.logType ≠ .all)

/-- `acc` with `l` when it is the first of its time. -/
def accept (acc : List CallLog) (l : CallLog) : List CallLog :=
  if l.saveable ∧ ∀ a ∈ acc, a.time ≠ l.time then acc ++ [l] else acc

def acceptedLogs (calls : List (Option CallLog)) : List CallLog :=
  calls.reduceOption.foldl accept []

/-- The bound of the table and what it retains, at every moment. -/
def RetentionLaw (calls : List (Option CallLog)) : Prop :=
  ∀ calls', calls' <+: calls →
    (savedCalls calls').rows.length ≤ callLogMax ∧
    ((savedCalls calls').rows.map fun r => r.cols.time).Nodup ∧
    (savedCalls calls').rows.map Row.cols =
      (acceptedLogs calls').rtake (min (acceptedLogs calls').length callLogMax)

/-- The time stamps never decrease. -/
def timesOrdered (calls : List (Option CallLog)) : Prop :=
  calls.reduceOption.Pairwise fun a b => a.time ≤ b.time

/-- Every insertion succeeds: a log that is to be stored has a reason. -/
def insertsSucceed (calls : List (Option CallLog)) : Prop :=
  ∀ l ∈ calls.reduceOption, l.saveable → l.reason.isSome

section
variable {db : CallLogs} {a : List CallLog} {l : CallLog} {calls : List (Option CallLog)}

@[simp]
theorem savedCalls_append (call : Option CallLog) :
    savedCalls (calls ++ [call]) = saveCallLog (savedCalls calls) call := by
  simp [savedCalls]

@[simp]
theorem acceptedLogs_append_none : acceptedLogs (calls ++ [none]) = acceptedLogs calls := by
  simp [acceptedLogs, List.reduceOption_append]

@[simp]
theorem acceptedLogs_append_some :
    acceptedLogs (calls ++ [some l]) = accept (acceptedLogs calls) l := by
  simp [acceptedLogs, List.reduceOption_append]

/-- The number of rows that made room for others after `n` accepted logs. An id of 2^31 or more is
not read back as it is, and its row is not found. -/
def evicted (n : ℕ) : ℕ := min (n - 200) (2 ^ 31 - 1)

/-- The table holds the accepted logs but for those that made room. -/
structure Retains (db : CallLogs) (a : List CallLog) : Prop where
  ordered : a.Pairwise fun l l' => l.time < l'.time
  lists : db.Lists (evicted a.length) (a.drop (evicted a.length))

theorem evicted_le (n : ℕ) : evicted n ≤ n := by
  unfold evicted
  omega

theorem retains_empty : Retains {} [] := ⟨List.Pairwise.nil, Table.lists_empty⟩

theorem Retains.length (h : Retains db a) : db.rows.length = a.length - evicted a.length := by
  rw [h.lists.length, List.length_drop]

theorem Retains.rows_ordered (h : Retains db a) :
    db.rows.Pairwise fun r r' => r.cols.time < r'.cols.time := by
  rw [h.lists.rows]
  exact pairwise_numbered.mpr (h.ordered.drop)

theorem Retains.times_nodup (h : Retains db a) : (db.rows.map fun r => r.cols.time).Nodup :=
  List.pairwise_map.mpr (h.rows_ordered.imp fun hlt => hlt.ne)

/-- The log that was accepted last is stored. -/
theorem Retains.last_stored (h : Retains db a) (hne : a ≠ []) :
    a.getLast hne ∈ db.rows.map Row.cols := by
  have hpos : 0 < a.length := List.length_pos_iff.mpr hne
  have hdrop : a.drop (evicted a.length) ≠ [] := by
    have : evicted a.length < a.length := by
      unfold evicted
      omega
    rw [Ne, List.drop_eq_nil_iff]
    omega
  rw [h.lists.cols, ← List.getLast_drop hdrop]
  exact List.getLast_mem hdrop

/-- A time that is not before any accepted log is stored when it was accepted before. -/
theorem Retains.countByTime (h : Retains db a) {t : ℤ} (hle : ∀ b ∈ a, b.time ≤ t) :
    0 < queryLogCountByTime db t ↔ ∃ b ∈ a, b.time = t := by
  have hcount : (db.rows.filter fun r => r.cols.time = t).length =
      (db.rows.map fun r => r.cols.time).count t := by
    rw [List.count_eq_countP, List.countP_map, List.countP_eq_length_filter]
    rfl
  unfold queryLogCountByTime
  rw [hcount]
  by_cases hmem : t ∈ db.rows.map fun r => r.cols.time
  · rw [List.count_eq_one_of_mem h.times_nodup hmem]
    obtain ⟨r, hr, ht⟩ := List.mem_map.mp hmem
    have hcols : r.cols ∈ a := by
      apply List.mem_of_mem_drop (i := evicted a.length)
      rw [← h.lists.cols]
      exact List.mem_map_of_mem hr
    simpa [javaInt] using ⟨r.cols, hcols, ht⟩
  · rw [List.count_eq_zero.mpr hmem]
    simp only [javaInt, Nat.cast_zero, Int.zero_bmod, lt_irrefl, false_iff]
    rintro ⟨b, hb, rfl⟩
    have hne : a ≠ [] := List.ne_nil_of_mem hb
    apply hmem
    have hlast := h.last_stored hne
    have hb' : b.time = (a.getLast hne).time := by
      have hrefl : a.Pairwise fun l l' => l.time ≤ l'.time := h.ordered.imp le_of_lt
      apply le_antisymm (hrefl.rel_getLast_of_rel_getLast_getLast hb le_rfl)
      exact hle _ (List.getLast_mem hne)
    rw [hb']
    obtain ⟨r, hr, heq⟩ := List.mem_map.mp hlast
    exact List.mem_map.mpr ⟨r, hr, by rw [heq]⟩

theorem queryLatestLog_of_ordered {r : Row CallLog} {rs : List (Row CallLog)}
    (hrows : db.rows = r :: rs) (h : db.rows.Pairwise fun r r' => r.cols.time < r'.cols.time) :
    queryLatestLog db = some r := by
  unfold queryLatestLog
  rw [(h.imp le_of_lt).insertionSort_eq, hrows, List.head?_cons]

theorem insertCallLog_of_saveable (hl : l.saveable = true) (hr : l.reason.isSome) :
    insertCallLog db l = db.insert l := by
  simp only [CallLog.saveable, Bool.and_eq_true] at hl
  rw [insertCallLog, if_pos ⟨hl.1, hr⟩]

/-- Below the bound a new log is added to the others. -/
theorem storeCallLog_below (hs : l.saveable = true) (hr : l.reason.isSome)
    (hlen : db.rows.length < callLogMax) : storeCallLog db l = db.insert l := by
  have hcount : queryLogCount db .all = db.rows.length := by
    simp only [queryLogCount, decide_true, Bool.true_or, List.filter_true]
    exact javaInt_eq_self (by omega) (by unfold intMax; unfold callLogMax at hlen; omega)
  rw [storeCallLog, hcount, if_neg (by omega), insertCallLog_of_saveable hs hr]

/-- At the bound the first row makes room when its id is read back. -/
theorem storeCallLog_full {k : ℕ} {v : CallLog} {vs : List CallLog} (hs : l.saveable = true)
    (hr : l.reason.isSome) (h : db.Lists k (v :: vs)) (hlen : db.rows.length = callLogMax)
    (ho : db.rows.Pairwise fun r r' => r.cols.time < r'.cols.time) (hk : k + 1 < 2 ^ 31) :
    (storeCallLog db l).Lists (k + 1) (vs ++ [l]) := by
  have hcount : queryLogCount db .all = callLogMax := by
    simp only [queryLogCount, decide_true, Bool.true_or, List.filter_true, hlen]
    rfl
  have hid : javaInt ((k + 1 : ℕ) : ℤ) = (k + 1 : ℕ) := by
    exact javaInt_eq_self (by omega) (by unfold intMax; omega)
  have hdel : (deleteCallLog db (javaInt ((k + 1 : ℕ) : ℤ)) false).Lists (k + 1) vs := by
    apply h.deleteFirst
    intro r _
    rw [hid]
    simp
    omega
  rw [storeCallLog, hcount, if_pos le_rfl, queryLatestLog_of_ordered h.rows ho]
  simp only [getId]
  rw [insertCallLog_of_saveable hs hr]
  exact hdel.insert l

/-- From 2^31 on the id of the first row is read as another number, and no row makes room. -/
theorem storeCallLog_stuck {k : ℕ} {v : CallLog} {vs : List CallLog} (hs : l.saveable = true)
    (hr : l.reason.isSome) (h : db.Lists k (v :: vs))
    (ho : db.rows.Pairwise fun r r' => r.cols.time < r'.cols.time) (hk : k + 1 = 2 ^ 31) :
    storeCallLog db l = db.insert l := by
  have hdel : deleteCallLog db (javaInt ((k + 1 : ℕ) : ℤ)) false = db := by
    have hid : javaInt ((k + 1 : ℕ) : ℤ) = -2 ^ 31 := by
      rw [hk]
      rfl
    rw [hid]
    unfold deleteCallLog Table.delete
    rw [List.filter_eq_self.mpr]
    intro r _
    simp
  unfold storeCallLog
  rw [queryLatestLog_of_ordered h.rows ho]
  simp only [getId, hdel]
  rw [insertCallLog_of_saveable hs hr, ite_self]

/-- A new log is added, and from the bound on the oldest one makes room as long as its id is read
back. -/
theorem Retains.add (h : Retains db a) (hlt : ∀ b ∈ a, b.time < l.time) (hs : l.saveable = true)
    (hr : l.reason.isSome) : Retains (storeCallLog db l) (a ++ [l]) := by
  constructor
  · rw [List.pairwise_append]
    refine ⟨h.ordered, List.pairwise_singleton _ _, fun b hb c hc => ?_⟩
    rw [List.mem_singleton.mp hc]
    exact hlt b hb
  · have hlists := h.lists
    have hlen := h.length
    have hle := evicted_le a.length
    by_cases hbelow : a.length < 200
    · have hk : evicted a.length = 0 ∧ evicted (a.length + 1) = 0 := by
        unfold evicted
        omega
      rw [storeCallLog_below hs hr (by unfold callLogMax; omega), List.length_append,
        List.length_singleton, hk.2]
      simpa [hk.1] using hlists.insert l
    have hlt : evicted a.length < a.length := by
      unfold evicted
      omega
    rw [List.drop_eq_getElem_cons hlt] at hlists
    by_cases hread : a.length - 200 < 2 ^ 31 - 1
    · have hk : evicted a.length = a.length - 200 ∧
          evicted (a ++ [l]).length = evicted a.length + 1 := by
        simp only [evicted, List.length_append, List.length_singleton]
        omega
      rw [hk.2, List.drop_append_of_le_length hlt]
      apply storeCallLog_full hs hr hlists _ h.rows_ordered
      · omega
      · unfold callLogMax
        omega
    · have hk : evicted a.length = 2 ^ 31 - 1 ∧ evicted (a ++ [l]).length = evicted a.length := by
        simp only [evicted, List.length_append, List.length_singleton]
        omega
      rw [storeCallLog_stuck hs hr hlists h.rows_ordered (by omega), hk.2,
        List.drop_append_of_le_length hle]
      exact h.lists.insert l

/-- What one call of `saveCallLog` does. -/
theorem Retains.save (h : Retains db a) (hle : ∀ b ∈ a, b.time ≤ l.time)
    (hr : l.saveable → l.reason.isSome) :
    Retains (saveCallLog db (some l)) (accept a l) := by
  by_cases hs : l.saveable = true
  · have hcond : ¬(l.num = none ∨ l.logType = .all) := by
      simp only [CallLog.saveable, Bool.and_eq_true, decide_eq_true_eq] at hs
      simp [hs.2, Option.ne_none_iff_isSome.mpr hs.1]
    simp only [saveCallLog, if_neg hcond, h.countByTime hle]
    by_cases hold : ∃ b ∈ a, b.time = l.time
    · rw [if_pos hold, accept, if_neg (by simpa using fun _ => hold)]
      exact h
    · push Not at hold
      rw [if_neg (by simpa using hold), accept, if_pos ⟨hs, hold⟩]
      exact h.add (fun b hb => lt_of_le_of_ne (hle b hb) (hold b hb)) hs (hr hs)
  · have hcond : l.num = none ∨ l.logType = .all := by
      by_contra hne
      push Not at hne
      apply hs
      simp [CallLog.saveable, hne.2, Option.isSome_iff_ne_none.mpr hne.1]
    rw [saveCallLog, if_pos hcond, accept, if_neg (by simp [hs])]
    exact h

theorem acceptedLogs_subset : acceptedLogs calls ⊆ calls.reduceOption := by
  induction calls using List.reverseRecOn with
  | nil => simp [acceptedLogs]
  | append_singleton calls call ih =>
    rw [List.reduceOption_append]
    cases call with
    | none => simpa using ih
    | some l =>
      rw [acceptedLogs_append_some]
      unfold accept
      split
      · intro b hb
        rcases List.mem_append.mp hb with hb | hb
        · exact List.mem_append_left _ (ih hb)
        · exact List.mem_append_right _ hb
      · exact fun b hb => List.mem_append_left _ (ih hb)

/-- What the table holds after every sequence of calls. -/
theorem retains_savedCalls (ht : timesOrdered calls) (hs : insertsSucceed calls) :
    Retains (savedCalls calls) (acceptedLogs calls) := by
  induction calls using List.reverseRecOn with
  | nil => exact retains_empty
  | append_singleton calls call ih =>
    rw [timesOrdered, List.reduceOption_append, List.pairwise_append] at ht
    rw [insertsSucceed, List.reduceOption_append] at hs
    have ih := ih ht.1 fun l hl => hs l (List.mem_append_left _ hl)
    cases call with
    | none => simpa [saveCallLog] using ih
    | some l =>
      rw [savedCalls_append, acceptedLogs_append_some]
      apply ih.save
      · intro b hb
        exact ht.2.2 b (acceptedLogs_subset hb) l (by simp)
      · exact hs l (by simp)

theorem accepted_mono {calls' : List (Option CallLog)} (h : calls' <+: calls) :
    (acceptedLogs calls').length ≤ (acceptedLogs calls).length := by
  obtain ⟨more, rfl⟩ := h
  induction more using List.reverseRecOn with
  | nil => simp
  | append_singleton more call ih =>
    rw [← List.append_assoc]
    cases call with
    | none =>
      rw [acceptedLogs_append_none]
      exact ih
    | some l =>
      rw [acceptedLogs_append_some]
      unfold accept
      split
      · rw [List.length_append]
        omega
      · exact ih

theorem RetentionLaw.lt (h : RetentionLaw calls) (ht : timesOrdered calls)
    (hs : insertsSucceed calls) : (acceptedLogs calls).length < 2 ^ 31 + 200 := by
  have hbound := (h calls (List.prefix_refl _)).1
  rw [(retains_savedCalls ht hs).length] at hbound
  unfold evicted callLogMax at hbound
  omega

end

/-- The table keeps its bound and the latest logs exactly as long as fewer than 2^31 + 200 logs are
accepted. -/
theorem retention_iff (calls : List (Option CallLog)) (ht : timesOrdered calls)
    (hs : insertsSucceed calls) :
    RetentionLaw calls ↔ (acceptedLogs calls).length < 2 ^ 31 + 200 := by
  refine ⟨fun h => h.lt ht hs, fun hn calls' hp => ?_⟩
  have hr : Retains (savedCalls calls') (acceptedLogs calls') := by
    apply retains_savedCalls
    · exact ht.sublist (hp.sublist.filterMap id)
    · intro l hl
      exact hs l ((hp.sublist.filterMap id).subset hl)
  have hle := accepted_mono hp
  have hk : evicted (acceptedLogs calls').length = (acceptedLogs calls').length - 200 := by
    unfold evicted
    omega
  refine ⟨?_, hr.times_nodup, ?_⟩
  · rw [hr.length, hk]
    unfold callLogMax
    omega
  · have hdrop : (acceptedLogs calls').length - 200 =
        (acceptedLogs calls').length - min (acceptedLogs calls').length callLogMax := by
      unfold callLogMax
      omega
    rw [hr.lists.cols, hk, hdrop, List.rtake]

/-- The log of a call that was dialled at the time `t`. -/
def dialledAt (t : ℕ) : CallLog where
  callId := 0
  num := some "100"
  logType := .out
  duration := 0
  reason := some "1"
  time := t

/-- One call for each moment before `n`. -/
def dialled (n : ℕ) : List (Option CallLog) := (List.range n).map fun t => some (dialledAt t)

theorem mem_dialled {n : ℕ} {l : CallLog} (h : l ∈ (dialled n).reduceOption) :
    ∃ t, t < n ∧ l = dialledAt t := by
  rw [List.reduceOption_mem_iff] at h
  obtain ⟨t, ht, heq⟩ := List.mem_map.mp h
  exact ⟨t, List.mem_range.mp ht, (Option.some.inj heq).symm⟩

theorem dialled_succ (n : ℕ) : dialled (n + 1) = dialled n ++ [some (dialledAt n)] := by
  simp [dialled, List.range_succ]

theorem dialled_ordered (n : ℕ) : timesOrdered (dialled n) := by
  induction n with
  | zero => exact List.Pairwise.nil
  | succ n ih =>
    rw [timesOrdered, dialled_succ, List.reduceOption_append, List.pairwise_append]
    refine ⟨ih, by simp, fun l hl l' hl' => ?_⟩
    obtain ⟨t, ht, rfl⟩ := mem_dialled hl
    rw [show l' = dialledAt n by simpa using hl']
    simp only [dialledAt]
    omega

theorem dialled_succeed (n : ℕ) : insertsSucceed (dialled n) := by
  intro l hl _
  obtain ⟨t, -, rfl⟩ := mem_dialled hl
  rfl

theorem dialled_accepted (n : ℕ) : (acceptedLogs (dialled n)).length = n := by
  induction n with
  | zero => rfl
  | succ n ih =>
    have hnew : ∀ b ∈ acceptedLogs (dialled n), b.time ≠ (dialledAt n).time := by
      intro b hb
      obtain ⟨t, ht, rfl⟩ := mem_dialled (acceptedLogs_subset hb)
      simp only [dialledAt]
      omega
    rw [dialled_succ, acceptedLogs_append_some, accept, if_pos ⟨rfl, hnew⟩, List.length_append, ih]
    rfl

/-- After 2^31 + 200 calls the table holds 201 rows. -/
theorem ids_run_out : ¬ ∀ calls : List (Option CallLog), timesOrdered calls →
    insertsSucceed calls → RetentionLaw calls := by
  intro h
  have hlt := (h (dialled (2 ^ 31 + 200)) (dialled_ordered _) (dialled_succeed _)).lt
    (dialled_ordered _) (dialled_succeed _)
  rw [dialled_accepted] at hlt
  omega

/-- The last two hundred of a thousand logs are kept. -/
theorem retention_thousand : RetentionLaw (dialled 1000) := by
  refine (retention_iff (dialled 1000) (dialled_ordered _) (dialled_succeed _)).mpr ?_
  rw [dialled_accepted]
  decide

end PttTerminal
