import PttTerminal.MessageScreens

/-!
# Threads and addresses

The thread of a message is chosen by its address. Two stored messages are in the same thread exactly
when they have the same address, whatever is received, sent, sent again and deleted, for as long as
the largest thread has a successor among the 32-bit integers.
-/
namespace PttTerminal

open Tables Runs MessageCl

/-- The law, with all threads among the positive 32-bit integers. -/
structure Numbered (db : Msgs) : Prop extends ThreadLaw db where
  inRange : db.All fun m => m.threadId ≤ intMax

section
variable {db : Msgs} {ms : Message}

theorem numbered_empty : Numbered {} := ⟨threadLaw_empty, by simp [Table.All]⟩

theorem Numbered.delete (h : Numbered db) (p : Row Message → Bool) : Numbered (db.delete p) :=
  ⟨h.toThreadLaw.delete p, h.inRange.delete p⟩

theorem Numbered.updateRead (h : Numbered db) (threadId : ℤ) (readStatus : ReadStatus) :
    Numbered (updateMsgReadStatus db threadId readStatus) :=
  ⟨h.toThreadLaw.updateRead threadId readStatus, h.inRange.update _ fun _ => id⟩

theorem Numbered.updateSend (h : Numbered db) (msg : Message) :
    Numbered (updateMsgSendStatus db msg) :=
  ⟨h.toThreadLaw.updateSend msg, h.inRange.update _ fun _ => id⟩

theorem getMaxThreadId_le (h : Numbered db) : getMaxThreadId db ≤ intMax := by
  cases hm : (db.rows.map fun r => r.cols.threadId).max? with
  | none =>
    simp only [getMaxThreadId, hm, Option.getD_none, intMax]
    omega
  | some m =>
    obtain ⟨r, hr, rfl⟩ := List.mem_map.mp (List.max?_eq_some_iff.mp hm).1
    simp only [getMaxThreadId, hm, Option.getD_some]
    exact h.inRange r hr

/-- A listed row that is still stored is filed in its thread again. -/
theorem Numbered.addListed (h : Numbered db) (hs : StillStored db ms) :
    Numbered (addNew db ms) := by
  obtain ⟨r, hr, ht, ha, -⟩ := hs
  obtain ⟨hid, hlaw⟩ := addNew_known h.toThreadLaw hr ht.symm ha.symm
  refine ⟨hlaw, h.inRange.insert ?_⟩
  rw [hid, ← ht]
  exact h.inRange r hr

theorem Numbered.addLookup (h : Numbered db)
    (ht : ms.threadId = getThreadidFromAddress db ms.address) (hroom : HasRoom db ms.address) :
    Numbered (addNew db ms) := by
  refine ⟨addNew_lookup h.toThreadLaw ht hroom, h.inRange.insert ?_⟩
  have hmax := getMaxThreadId_nonneg h.toThreadLaw
  unfold newThreadId
  by_cases ha : NoRow db ms.address
  · have hlt := hroom ha
    rw [ht, threadid_of_noRow ha, if_pos rfl, javaInt_eq_self (by omega) (by omega)]
    split
    · simp [intMax]
    · simp only
      omega
  · obtain ⟨r, hr, ha⟩ : ∃ r ∈ db.rows, r.cols.address = ms.address := by
      simpa [NoRow, Table.All] using ha
    have hr' : ms.threadId = r.cols.threadId := ht.trans (threadid_of_row h.toThreadLaw hr ha)
    have := (addNew_known h.toThreadLaw hr hr' ha.symm).1
    unfold newThreadId at this
    rw [this, hr']
    exact h.inRange r hr

/-- Without a number left, a new address gets a negative thread. -/
theorem Numbered.full (h : Numbered db) (ht : ms.threadId = getThreadidFromAddress db ms.address)
    (hroom : ¬HasRoom db ms.address) : ¬ThreadLaw (addNew db ms) := by
  unfold HasRoom at hroom
  push Not at hroom
  obtain ⟨ha, hfull⟩ := hroom
  have hmax : getMaxThreadId db = intMax := le_antisymm (getMaxThreadId_le h) hfull
  have hne : ¬(getThreadIds db).isEmpty = true := by
    rw [threadIds_isEmpty h.toThreadLaw]
    intro hnil
    simp [getMaxThreadId, hnil, intMax] at hmax
  have hid : newThreadId db ms = -2 ^ 31 := by
    rw [newThreadId, if_neg hne, if_pos (ht.trans (threadid_of_noRow ha)), hmax]
    decide
  intro hlaw
  have hpos : 0 < newThreadId db ms :=
    hlaw.positive ⟨db.seq + 1, { ms with threadId := newThreadId db ms }⟩
      (Table.mem_insert.mpr (.inr rfl))
  omega

end

/-! ### The events -/

section
variable {s : Screens} {e : ScreenEvent}

/-- A new address finds a number for its thread. -/
def keepsThreads (s : Screens) (e : ScreenEvent) : Prop :=
  ∀ ms ∈ s.stores e, HasRoom s.db ms.address

instance (s : Screens) (e : ScreenEvent) : Decidable (keepsThreads s e) :=
  inferInstanceAs (Decidable (∀ ms ∈ s.stores e, HasRoom s.db ms.address))

/-- A step that finds a number keeps the law. -/
theorem Numbered.next (hs : Numbered s.db) (hen : s.Enabled e) (hok : keepsThreads s e) :
    Numbered (s.next e).db := by
  cases hf : s.stores e with
  | none =>
    exact next_keeps (fun _ p h => h.delete p) (fun _ t h => h.updateRead t .read)
      (fun _ _ msg h => h.updateSend msg) hf hs
  | some ms =>
    rw [next_stores hf]
    rcases stores_cases hf hen with ht | hstill
    · exact hs.addLookup ht (hok ms hf)
    · exact hs.addListed hstill

theorem Numbered.next_breaks (hs : Numbered s.db) (hen : s.Enabled e) (hok : ¬keepsThreads s e) :
    ¬ThreadLaw (s.next e).db := by
  unfold keepsThreads at hok
  push Not at hok
  obtain ⟨ms, hf, hroom⟩ := hok
  rw [next_stores hf]
  rcases stores_cases hf hen with ht | ⟨r, hr, -, ha, -⟩
  · exact hs.full ht hroom
  · exact absurd (fun hno => absurd ha (hno r hr)) hroom

end

/-- Over a whole run, thread and address go together in every state exactly when no message of a new
address is stored while the largest thread is the largest 32-bit integer. -/
theorem runs_threadLaw (es : List ScreenEvent)
    (hes : messageScreens.Allowed (fun _ _ => True) {} es) :
    (∀ es', es' <+: es → ThreadLaw (messageScreens.run {} es').db) ↔
      messageScreens.Allowed keepsThreads {} es :=
  (System.allowed_iff (P := fun s : Screens => Numbered s.db) (fun _ h => h.toThreadLaw)
    (fun _ _ hs hen hok => hs.next hen hok) (fun _ _ hs hen hok => hs.next_breaks hen hok)
    numbered_empty hes).symm

/-- Two numbers, an answer that is sent twice, and the deletion of the other conversation. -/
theorem threadLaw_conversations : ThreadLaw (messageScreens.run {}
    [.receive "101" "hello" "05-01 10:00", .receive "102" "hello" "05-01 10:00",
      .openSessions [⟨2, "102", "05-01 10:00", "hello", .he, .unread, .unset⟩,
        ⟨1, "101", "05-01 10:00", "hello", .he, .unread, .unset⟩],
      .itemClick 1, .chatSend 0 "yes" "05-01 10:01" true, .result 200, .itemClick 1,
      .resend 1 1 true, .contextDelete 0]).db :=
  (runs_threadLaw _ (by decide)).mpr (by decide) _ List.prefix_rfl

/-! ### The last thread -/

/-- Two numbers in turn. -/
def turnOf (n : ℕ) : String := if n % 2 = 0 then "101" else "102"

def turnMessage (n : ℕ) : Message :=
  ⟨n + 1, turnOf n, "05-01 10:00", "hello", .he, .unread, .unset⟩

/-- Only the last message is stored, in thread `n + 1`. -/
def turnScreens (n : ℕ) : Screens where
  db := ⟨[⟨n + 1, turnMessage n⟩], n + 1⟩
  sessions := some ⟨[turnMessage n], true⟩

/-- The next message starts a thread, and the conversation before it is deleted. -/
def turn (n : ℕ) : List ScreenEvent :=
  [.receive (turnOf (n + 1)) "hello" "05-01 10:00", .fresh [turnMessage (n + 1), turnMessage n],
    .contextDelete 1]

def turns : ℕ → List ScreenEvent
  | 0 => [.openSessions [], .receive "101" "hello" "05-01 10:00", .fresh [turnMessage 0]]
  | n + 1 => turns n ++ turn n

theorem turnOf_succ_ne (n : ℕ) : turnOf n ≠ turnOf (n + 1) := by
  unfold turnOf
  split_ifs <;> first | omega | decide

/-- The two messages that are stored within a turn. -/
def betweenTurns (n : ℕ) : Screens where
  db := ⟨[⟨n + 1, turnMessage n⟩, ⟨n + 2, turnMessage (n + 1)⟩], n + 2⟩
  sessions := some ⟨[turnMessage n], true⟩
  freshView := [{ turnMessage (n + 1) with threadId := 0 }]

variable {n : ℕ}

theorem turn_lookup (n : ℕ) :
    getThreadidFromAddress (turnScreens n).db (turnOf (n + 1)) = 0 := by
  apply threadid_of_noRow
  intro r hr
  simp only [turnScreens, List.mem_singleton] at hr
  subst hr
  exact turnOf_succ_ne n

theorem turn_received (h : (n : ℤ) + 1 < intMax) :
    (turnScreens n).next (.receive (turnOf (n + 1)) "hello" "05-01 10:00") = betweenTurns n := by
  have hrec : Screens.received (turnScreens n).db (turnOf (n + 1)) "hello" "05-01 10:00" =
      { turnMessage (n + 1) with threadId := 0 } := by
    simp only [Screens.received, turn_lookup, turnMessage]
  have hid : newThreadId (turnScreens n).db { turnMessage (n + 1) with threadId := 0 } =
      (n + 1 : ℕ) + 1 := by
    unfold intMax at h
    have hne : (getThreadIds (turnScreens n).db).isEmpty = false := by
      simp [getThreadIds, turnScreens, turnMessage]
      omega
    have hmax : getMaxThreadId (turnScreens n).db = n + 1 := by
      simp [getMaxThreadId, turnScreens, turnMessage]
    rw [newThreadId, hne, if_neg (by simp), if_pos rfl, hmax,
      javaInt_eq_self (by omega) (by unfold intMax; omega)]
    push_cast
    rfl
  simp only [Screens.next, Screens.onNewMessage, addNew, hrec, hid]
  rfl

theorem turn_enabled (n : ℕ) : GetSessionList (betweenTurns n).db
    [turnMessage (n + 1), turnMessage n] := by
  refine ⟨?_, ?_, ?_⟩
  · simp [betweenTurns]
  · simp [turnMessage]
  · simp [betweenTurns]

theorem turn_run (h : (n : ℤ) + 1 < intMax) :
    messageScreens.Allowed (fun _ _ => True) (turnScreens n) (turn n) ∧
      messageScreens.run (turnScreens n) (turn n) = turnScreens (n + 1) := by
  constructor
  · refine ⟨trivial, trivial, ?_, trivial, trivial, trivial, trivial⟩
    rw [show messageScreens.next (turnScreens n) (.receive _ _ _) = _ from turn_received h]
    exact turn_enabled n
  · show (((turnScreens n).next (.receive (turnOf (n + 1)) "hello" "05-01 10:00")).next
      (.fresh [turnMessage (n + 1), turnMessage n])).next (.contextDelete 1) = turnScreens (n + 1)
    rw [turn_received h]
    simp [Screens.next, Screens.onFresh, betweenTurns, Chat.onFresh, Sessions.freshListView,
      Screens.contextDelete, deleteSession, Table.delete, turnScreens, checkIfAnyUnreadSession,
      turnMessage]

theorem turns_run (h : (n : ℤ) < intMax) :
    messageScreens.Allowed (fun _ _ => True) {} (turns n) ∧
      messageScreens.run {} (turns n) = turnScreens n := by
  induction n with
  | zero =>
    constructor
    · decide
    · decide
  | succ n ih =>
    obtain ⟨hallowed, hrun⟩ := ih (by push_cast at h; omega)
    obtain ⟨hturn, hnext⟩ := turn_run (n := n) (by exact_mod_cast h)
    rw [turns, System.allowed_append, System.run_append, hrun]
    exact ⟨⟨hallowed, hturn⟩, hnext⟩

theorem turn_numbered (h : (n : ℤ) < intMax) : Numbered (turnScreens n).db := by
  refine ⟨⟨?_, ?_⟩, ?_⟩
  · intro r hr
    simp only [turnScreens, List.mem_singleton] at hr
    subst hr
    simp only [turnMessage]
    omega
  · intro r hr r' hr'
    simp only [turnScreens, List.mem_singleton] at hr hr'
    subst hr hr'
    simp
  · intro r hr
    simp only [turnScreens, List.mem_singleton] at hr
    subst hr
    simp only [turnMessage]
    omega

/-- After `2 ^ 31 - 1` conversations, each deleted when the next one has begun, the thread of the next
message is not positive. -/
theorem threads_run_out : ¬∀ es, messageScreens.Allowed (fun _ _ => True) {} es →
    ThreadLaw (messageScreens.run {} es).db := by
  intro hall
  obtain ⟨n, hn⟩ : ∃ n : ℕ, (n : ℤ) + 1 = intMax := ⟨2 ^ 31 - 2, by norm_num [intMax]⟩
  obtain ⟨hallowed, hrun⟩ := turns_run (n := n) (by omega)
  have hen : messageScreens.Allowed (fun _ _ => True) (turnScreens n)
      [.receive (turnOf (n + 1)) "hello" "05-01 10:00"] := ⟨trivial, trivial, trivial⟩
  have hlaw := hall _ (System.allowed_append.mpr ⟨hallowed, by rw [hrun]; exact hen⟩)
  rw [System.run_append, hrun] at hlaw
  have hfull : ¬keepsThreads (turnScreens n) (.receive (turnOf (n + 1)) "hello" "05-01 10:00") := by
    intro hok
    have hroom := hok _ rfl
      ((threadid_eq_zero (turn_numbered (by omega)).toThreadLaw).mp (turn_lookup n))
    simp only [getMaxThreadId, turnScreens, turnMessage, List.map_cons, List.map_nil,
      List.max?_singleton, Option.getD_some] at hroom
    omega
  have hnext : (turnScreens n).Enabled (.receive (turnOf (n + 1)) "hello" "05-01 10:00") := trivial
  exact (turn_numbered (by omega)).next_breaks hnext hfull hlaw

end PttTerminal
