import PttTerminal.TimerAgenda
import PttTerminal.Library.Journals
import PttTerminal.Library.Runs

/-!
# The timers over whole runs

Any number of threads set and cancel timers and poll the heap; the lock makes each look at the heap
one step, and between two looks of a poll, while a callback runs, anything may happen. Nobody sets a
timer that is set, which the heap only asserts. The journal holds what the callers were told and
which callbacks were called.
-/
namespace PttTerminal

open Loops Journals Runs TimerHeap

inductive TimerNote where
  | scheduled (e : ℕ) (expires : TimeVal)
  | refused (e : ℕ) (status : TimerStatus)
  | cancelled (e : ℕ) (count : ℕ)
  | fired (e : ℕ) (now : TimeVal)
  /-- A poll ended; `full` says that it took as many timers as it may. -/
  | ended (full : Bool) (now nextDelay : TimeVal)
  deriving Repr, DecidableEq

/-- The heap, the polls that go on by their threads, and what happened, the latest first. -/
structure Timers where
  ht : TimerHeap
  polls : ℕ → Option Poll := fun _ => none
  journal : List TimerNote := []
  fault : Option TimerFault := none

inductive TimerEvent where
  | init (e : ℕ)
  | schedule (e : ℕ) (delay now : TimeVal)
  | cancel (e : ℕ)
  | setMaxTimedOutPerPoll (count : ℕ)
  | pollBegin (thread : ℕ) (now : TimeVal)
  | pollRound (thread : ℕ)
  deriving Repr, DecidableEq

namespace Timers

def note (s : Timers) (n : TimerNote) : Timers := { s with journal := n :: s.journal }

def schedule (e : ℕ) (delay now : TimeVal) (s : Timers) : Timers :=
  match s.ht.schedule e delay now with
  | .error f => { s with fault := some f }
  | .ok (.success, ht) => { s with ht := ht }.note (.scheduled e (now.add delay))
  | .ok (status, ht) => { s with ht := ht }.note (.refused e status)

def cancel (e : ℕ) (s : Timers) : Timers :=
  match s.ht.cancel e with
  | .error f => { s with fault := some f }
  | .ok (count, ht) => { s with ht := ht }.note (.cancelled e count)

/-- A poll of an empty heap is over before it takes the lock. -/
def pollBegin (thread : ℕ) (now : TimeVal) (s : Timers) : Timers :=
  if s.ht.curSize = 0 then s.note (.ended false now forever)
  else { s with polls := Function.update s.polls thread (some { now := now }) }

def pollRound (thread : ℕ) (s : Timers) : Timers :=
  match s.polls thread with
  | none => s
  | some poll =>
    match s.ht.pollRound poll with
    | .error f => { s with fault := some f }
    | .ok (.took e poll', ht) =>
      { s with ht := ht, polls := Function.update s.polls thread (some poll') }.note
        (.fired e poll.now)
    | .ok (.ended count delay, ht) =>
      { s with ht := ht, polls := Function.update s.polls thread none }.note
        (.ended (ht.maxEntriesPerPoll ≤ count) poll.now delay)

end Timers

/-- A timer that is set may be neither initialized nor set again, what is set has a callback, and a
thread polls once at a time. -/
def TimerEvent.enabled (s : Timers) : TimerEvent → Prop
  | .init e => s.ht.agenda e = none
  | .schedule e _ _ => (s.ht.entries e).cb = true ∧ s.ht.agenda e = none
  | .pollBegin thread _ => s.polls thread = none
  | _ => True

def TimerEvent.next (s : Timers) : TimerEvent → Timers
  | .init e => { s with ht := s.ht.entryInit e }
  | .schedule e delay now => s.schedule e delay now
  | .cancel e => s.cancel e
  | .setMaxTimedOutPerPoll count =>
    { s with ht := { s.ht with maxEntriesPerPoll := count } }
  | .pollBegin thread now => s.pollBegin thread now
  | .pollRound thread => s.pollRound thread

/-- At first no entry has the identifier of a timer that is set. -/
def timers : System Timers TimerEvent where
  init s := ∃ size entries, (∀ e, (entries e).timerId ≤ 0) ∧ s = { ht := create size entries }
  enabled := TimerEvent.enabled
  next := TimerEvent.next

/-! ### What the journal says -/

/-- What a note says about the timer `e`. -/
def TimerNote.setting (e : ℕ) : TimerNote → Option (Option TimeVal)
  | .scheduled a t => if a = e then some (some t) else none
  | .cancelled a _ => if a = e then some none else none
  | .fired a _ => if a = e then some none else none
  | _ => none

/-- The timers that were set and have neither been cancelled nor fired since. -/
def agendaOf (journal : List TimerNote) (e : ℕ) : Option TimeVal :=
  (latest (TimerNote.setting e) journal).join

/-- No timer is refused, a caller is told whether its timer was cancelled in time, only the earliest
timer fires, once it is due, and a poll ends with a timer that is due only when it took as many as
it may. -/
def timerLaw : TimerNote → List TimerNote → Prop
  | .scheduled e _, j => agendaOf j e = none
  | .refused _ _, _ => False
  | .cancelled e count, j => count = if (agendaOf j e).isSome then 1 else 0
  | .fired e now, j => ∃ t, Earliest (agendaOf j) e t ∧ t ≤ now
  | .ended full now delay, j =>
    (full = false → ∀ e t, agendaOf j e = some t → now < t) ∧ Awaits (agendaOf j) now delay

/-- No access failed, the heap is in order, and it holds what the journal says. -/
structure Timers.InOrder (s : Timers) : Prop where
  fault : s.fault = none
  valid : s.ht.Valid
  agenda : s.ht.agenda = agendaOf s.journal
  law : Throughout timerLaw s.journal

theorem agendaOf_cons_of_none {n : TimerNote} (h : ∀ e, n.setting e = none) (j : List TimerNote) :
    agendaOf (n :: j) = agendaOf j := by
  funext e
  simp only [agendaOf, latest_cons_of_none (h e)]

/-- A note about one timer says what becomes of it. -/
theorem agendaOf_cons {n : TimerNote} {e : ℕ} {o : Option TimeVal}
    (h : ∀ a, n.setting a = if e = a then some o else none) (j : List TimerNote) :
    agendaOf (n :: j) = Function.update (agendaOf j) e o := by
  funext a
  by_cases ha : a = e
  · subst ha
    have hn : n.setting a = some o := by simp [h]
    simp [agendaOf, latest_cons_of_some hn]
  · have hn : n.setting a = none := by simp [h, Ne.symm ha]
    rw [Function.update_of_ne ha]
    simp only [agendaOf, latest_cons_of_none hn]

namespace Timers

variable {s : Timers}

/-- A step that tells about one timer what the heap did with it. -/
theorem InOrder.sets {ht' : TimerHeap} (polls : ℕ → Option Poll) {n : TimerNote} {e : ℕ}
    {o : Option TimeVal} (h : s.InOrder) (hsets : Sets s.ht ht' e o)
    (hn : ∀ a, n.setting a = if e = a then some o else none) (hlaw : timerLaw n s.journal) :
    ({ s with ht := ht', polls := polls }.note n).InOrder := by
  refine ⟨h.fault, hsets.valid, ?_, hlaw, h.law⟩
  change ht'.agenda = agendaOf (n :: s.journal)
  rw [agendaOf_cons hn, hsets.agenda, h.agenda]

/-- A step that changes no timer. -/
theorem InOrder.keeps (polls : ℕ → Option Poll) {n : TimerNote} (h : s.InOrder)
    (hn : ∀ a, n.setting a = none) (hlaw : timerLaw n s.journal) :
    ({ s with polls := polls }.note n).InOrder := by
  refine ⟨h.fault, h.valid, ?_, hlaw, h.law⟩
  change s.ht.agenda = agendaOf (n :: s.journal)
  rw [agendaOf_cons_of_none hn, h.agenda]

theorem InOrder.schedule (h : s.InOrder) {e : ℕ} (hcb : (s.ht.entries e).cb = true)
    (he : s.ht.agenda e = none) (delay now : TimeVal) : (s.schedule e delay now).InOrder := by
  have hid := agenda_eq_none.mp he
  obtain ⟨ht', hop, hsets⟩ := h.valid.schedule_rule hid (now.add delay)
  have hop' : s.ht.schedule e delay now = .ok (.success, ht') := by rw [schedule_eq hcb hid, hop]
  have hlaw : timerLaw (.scheduled e (now.add delay)) s.journal := by
    change agendaOf s.journal e = none
    rw [← h.agenda, he]
  have := h.sets s.polls hsets (fun _ => rfl) hlaw
  rwa [Timers.schedule, hop']

theorem InOrder.cancel (h : s.InOrder) (e : ℕ) : (s.cancel e).InOrder := by
  obtain ⟨ht', hop, hsets⟩ := h.valid.cancel_rule e
  have hlaw : timerLaw (.cancelled e (if (s.ht.agenda e).isSome then 1 else 0)) s.journal := by
    rw [h.agenda]
    rfl
  have := h.sets s.polls hsets (fun _ => rfl) hlaw
  rwa [Timers.cancel, hop]

theorem InOrder.pollBegin (h : s.InOrder) (thread : ℕ) (now : TimeVal) :
    (s.pollBegin thread now).InOrder := by
  unfold Timers.pollBegin
  split_ifs with hempty
  · have hnone : ∀ e, agendaOf s.journal e = none := fun e => by
      rw [← h.agenda]
      exact h.valid.empty hempty e
    refine h.keeps s.polls (fun _ => rfl) ⟨fun _ e t he => ?_, .inl ⟨hnone, rfl⟩⟩
    rw [hnone] at he
    cases he
  · exact ⟨h.fault, h.valid, h.agenda, h.law⟩

theorem InOrder.pollRound (h : s.InOrder) (thread : ℕ) : (s.pollRound thread).InOrder := by
  unfold Timers.pollRound
  cases hp : s.polls thread with
  | none => exact h
  | some p =>
    rcases h.valid.pollRound_rule p with ⟨e, t, ht', hop, -, hearly, hdue, hsets⟩ | ⟨d, hop, hdue, hd⟩
    · simp only [hop]
      exact h.sets _ hsets (fun _ => rfl) ⟨t, h.agenda ▸ hearly, hdue⟩
    · simp only [hop]
      refine h.keeps _ (fun _ => rfl) ⟨fun hfull => ?_, h.agenda ▸ hd⟩
      rw [← h.agenda]
      exact hdue (by simpa using hfull)

end Timers

theorem timers_next {s : Timers} (h : s.InOrder) {e : TimerEvent} (he : e.enabled s) :
    (e.next s).InOrder := by
  cases e with
  | init e =>
    obtain ⟨hvalid, hagenda⟩ := h.valid.init_rule (agenda_eq_none.mp he)
    exact ⟨h.fault, hvalid, hagenda.trans h.agenda, h.law⟩
  | schedule e delay now => exact h.schedule he.1 he.2 delay now
  | cancel e => exact h.cancel e
  | setMaxTimedOutPerPoll count =>
    exact ⟨h.fault, h.valid.perPoll count, h.agenda, h.law⟩
  | pollBegin thread now => exact h.pollBegin thread now
  | pollRound thread => exact h.pollRound thread

theorem timers_init {s : Timers} (h : timers.init s) : s.InOrder := by
  obtain ⟨size, entries, hid, rfl⟩ := h
  refine ⟨rfl, create_valid size hid, ?_, throughout_nil⟩
  funext e
  exact agenda_eq_none.mpr (hid e)

instance TimerEvent.decEnabled (s : Timers) : (e : TimerEvent) → Decidable (TimerEvent.enabled s e)
  | .init e => inferInstanceAs (Decidable (s.ht.agenda e = none))
  | .pollBegin thread _ => decidable_of_iff ((s.polls thread).isNone = true) Option.isNone_iff_eq_none
  | .schedule e _ _ =>
    inferInstanceAs (Decidable ((s.ht.entries e).cb = true ∧ s.ht.agenda e = none))
  | .cancel _ => isTrue trivial
  | .setMaxTimedOutPerPoll _ => isTrue trivial
  | .pollRound _ => isTrue trivial

instance (s : Timers) (e : TimerEvent) : Decidable (timers.enabled s e) :=
  inferInstanceAs (Decidable (TimerEvent.enabled s e))

theorem timers_inOrder {s : Timers} (h : timers.Reached (fun _ _ => True) s) : s.InOrder :=
  h.invariant (fun _ => timers_init) fun _ _ h he _ => timers_next h he

/-- No access to an array of the heap fails, and no loop over it goes on for ever. -/
theorem timers_never_fault {s : Timers} (h : timers.Reached (fun _ _ => True) s) :
    s.fault = none ∧ s.ht.Valid := ⟨(timers_inOrder h).fault, (timers_inOrder h).valid⟩

/-- Three timers are set while the array grows. In a poll one fires and is set again, one is cancelled
between two looks and set again, and one fires. -/
def timersRun : List TimerEvent :=
  [.init 0, .init 1, .init 2, .schedule 0 ⟨3, 0⟩ ⟨10, 500⟩, .schedule 1 ⟨0, 900⟩ ⟨10, 600⟩,
    .schedule 2 ⟨1, 0⟩ ⟨10, 600⟩, .pollBegin 7 ⟨12, 0⟩, .pollRound 7, .schedule 1 ⟨9, 0⟩ ⟨12, 0⟩,
    .cancel 0, .pollRound 7, .schedule 0 ⟨5, 0⟩ ⟨12, 100⟩, .pollRound 7, .cancel 2]

def timersStart : Timers := { ht := create 0 fun _ => {} }

theorem timersStart_init : timers.init timersStart := ⟨0, fun _ => {}, by simp, rfl⟩

theorem timersRun_never_faults :
    (timers.run timersStart timersRun).fault = none ∧ (timers.run timersStart timersRun).ht.Valid :=
  timers_never_fault (System.reached_run timersStart_init (by decide +kernel))

/-- The heap holds the timers that were set and have neither fired nor been cancelled, for the times
they were set for, and every answer and every callback fits what happened before it. -/
theorem timers_follow_journal {s : Timers} (h : timers.Reached (fun _ _ => True) s) :
    s.ht.agenda = agendaOf s.journal ∧ Throughout timerLaw s.journal :=
  ⟨(timers_inOrder h).agenda, (timers_inOrder h).law⟩

theorem timersRun_follows_journal :
    (timers.run timersStart timersRun).journal =
      [.cancelled 2 0, .ended false ⟨12, 0⟩ ⟨5, 100⟩, .scheduled 0 ⟨17, 100⟩, .fired 2 ⟨12, 0⟩,
        .cancelled 0 1, .scheduled 1 ⟨21, 0⟩, .fired 1 ⟨12, 0⟩, .scheduled 2 ⟨11, 600⟩,
        .scheduled 1 ⟨11, 500⟩, .scheduled 0 ⟨13, 500⟩] ∧
    (timers.run timersStart timersRun).ht.agenda = agendaOf
      (timers.run timersStart timersRun).journal ∧
    Throughout timerLaw (timers.run timersStart timersRun).journal :=
  ⟨by decide +kernel,
    timers_follow_journal (System.reached_run timersStart_init (by decide +kernel))⟩

end PttTerminal
