import PttTerminal.CurrentGroup
import PttTerminal.RegroupLaw

/-!
# The multicast memberships

When the address of the network changes, the sockets of all groups leave their multicast groups and
join them again; the signal timer does the same from time to time. Both walk round the list of the
groups, whatever the list is at that time.
-/
namespace PttTerminal

open Loops LinkedCells Walks Runs

/-- `IP_DROP_MEMBERSHIP` and `IP_ADD_MEMBERSHIP`. -/
inductive MembershipOpt where
  | drop
  | add
  deriving Repr, DecidableEq

/-- The groups that a walk came to, and those whose socket it changed. -/
structure MembershipWalk where
  visited : List ℕ := []
  changed : List ℕ := []
  deriving Repr, DecidableEq

/-- A group without a transport is passed over. -/
def MembershipWalk.visit (w : MembershipWalk) (p : ℕ × GroupInfo) : MembershipWalk where
  visited := w.visited ++ [p.1]
  changed := if p.2.transport.isSome then w.changed ++ [p.1] else w.changed

def manageBody (heap : Store ℕ GroupInfo) (mediaGroup : ℕ) (s : ℕ × MembershipWalk) :
    Except Fault (Ctl (ℕ × MembershipWalk) MembershipWalk) := do
  let c ← live (heap s.1)
  let w := s.2.visit (s.1, c.val)
  if c.next = mediaGroup then return .exit w else return .next (c.next, w)

/-- The loop looks at its first group before it compares. -/
def managePttGroup (info : PttInfo) : Except Fault MembershipWalk :=
  match info.generalGroup with
  | none => .error .nullPointer
  | some mediaGroup =>
    loop .hang (manageBody info.heap mediaGroup) (info.fresh + 1) (mediaGroup, {})

/-- A call of `manage_ptt_group`, the variables it found and what it came to. -/
structure ManageCall where
  optname : MembershipOpt
  info : PttInfo
  result : Except Fault MembershipWalk

/-- The list is a circular one that is not empty, and each of its groups was visited once. -/
def ManageCall.Right (c : ManageCall) : Prop :=
  ∃ xs, c.info.Groups xs ∧ xs ≠ [] ∧ (xs.map Prod.fst).Nodup ∧
    c.result = .ok { visited := xs.map Prod.fst
                     changed := (xs.filter fun p => p.2.transport.isSome).map Prod.fst }

/-- The variables, the address of the network, the counter of the signal timer and the calls so far,
the latest first. A process that came to an end is `stopped`. -/
structure Membership where
  info : PttInfo
  switchAddr : Bytes := []
  pttTimerCount : ℕ := 0
  calls : List ManageCall := []
  stopped : Bool := false

inductive MembershipEvent where
  | native (e : NativeEvent)
  | login
  | hoInd (ip : Bytes)
  /-- The statement that starts the timer is commented out; here it may go off at any time. -/
  | signalTimer
  deriving Repr, DecidableEq

namespace Membership

def manage (optname : MembershipOpt) (s : Membership) : Membership :=
  let result := managePttGroup s.info
  { s with calls := ⟨optname, s.info, result⟩ :: s.calls, stopped := !result.toBool }

/-- The memberships are dropped and added again, unless the first walk ends the process. -/
def manageAgain (s : Membership) : Membership :=
  let s := s.manage .drop
  if s.stopped then s else s.manage .add

/-- The array of the address has 16 bytes. -/
def hoInd (ip : Bytes) (s : Membership) : Membership :=
  let ip := cString ip
  let s := s.manage .drop
  if s.stopped then s
  else if s.switchAddr = ip then s.manage .add
  else if ip.length < 16 then { s with switchAddr := ip }.manage .add
  else { s with stopped := true }

/-- The walks are repeated at the fourth and the seventh tick of nine. -/
def managesAt (count : ℕ) : Bool := 1 < count && count % 3 = 1

def pttSignalTimerCb (s : Membership) : Membership :=
  let count := s.pttTimerCount + 1
  let s := { s with pttTimerCount := count }
  let s := if managesAt count then s.manageAgain else s
  if count = 9 then { s with pttTimerCount := 0 } else s

/-- The variables are destroyed and initialised again. -/
def login (info : PttInfo) : Except Fault PttInfo := do
  let info ← pttDestroy info
  return pttInit info

end Membership

namespace MembershipEvent

/-- What the event does to the variables. -/
def info (s : Membership) : MembershipEvent → Except Fault PttInfo
  | .native e => e.step s.info
  | .login => Membership.login s.info
  | _ => .ok s.info

def step (s : Membership) (e : MembershipEvent) : Membership :=
  let s := { s with info := (e.info s).toOption.getD s.info }
  match e with
  | .native (.invite _ _) | .native (.bye _) | .native (.heartbeat _) =>
    { s with pttTimerCount := 0 }
  | .native _ => s
  | .login => { s with switchAddr := [] }
  | .hoInd ip => s.hoInd ip
  | .signalTimer => s.pttSignalTimerCb

/-- All messages but the older one, which no handler reads. -/
def isRead : MembershipEvent → Bool
  | .native e => isNotMessage e
  | _ => true

/-- There is a list when the event walks round it. -/
def HasList (s : Membership) : MembershipEvent → Prop
  | .hoInd _ => s.info.generalGroup ≠ none
  | .signalTimer =>
    Membership.managesAt (s.pttTimerCount + 1) = true → s.info.generalGroup ≠ none
  | _ => True

instance (s : Membership) : (e : MembershipEvent) → Decidable (HasList s e)
  | .hoInd _ => inferInstanceAs (Decidable (s.info.generalGroup ≠ none))
  | .signalTimer => inferInstanceAs (Decidable
      (Membership.managesAt (s.pttTimerCount + 1) = true → s.info.generalGroup ≠ none))
  | .native _ | .login => isTrue trivial

end MembershipEvent

def memberships : System Membership MembershipEvent where
  init s := (∃ udpCreate, s.info = .initial udpCreate) ∧ s.calls = [] ∧ s.stopped = false
  enabled s e := s.stopped = false ∧ e.isRead = true ∧ (e.info s).toBool = true
  next := MembershipEvent.step

instance (s : Membership) (e : MembershipEvent) : Decidable (memberships.enabled s e) :=
  inferInstanceAs (Decidable (_ ∧ _))

section

variable {info info' : PttInfo} {xs : List (ℕ × GroupInfo)} {s : Membership}

theorem manageBody_gathers (heap : Store ℕ GroupInfo) (head : ℕ) :
    Gathers (manageBody heap head) heap head MembershipWalk.visit := by
  intro i c acc hc
  constructor <;> intro hnext <;>
    simp [manageBody, hc, hnext, bind, Except.bind, pure, Except.pure]

theorem foldl_visit (xs : List (ℕ × GroupInfo)) (w : MembershipWalk) :
    xs.foldl MembershipWalk.visit w =
      { visited := w.visited ++ xs.map Prod.fst
        changed := w.changed ++ (xs.filter fun p => p.2.transport.isSome).map Prod.fst } := by
  induction xs generalizing w with
  | nil => simp
  | cons x xs ih =>
    rw [List.foldl_cons, ih]
    cases ht : x.2.transport <;> simp [MembershipWalk.visit, ht]

/-- Without a list the walk starts at the null pointer, and otherwise it goes round once. -/
theorem managePttGroup_eq (h : info.Groups xs) : managePttGroup info =
    if xs = [] then .error .nullPointer
    else .ok { visited := xs.map Prod.fst
               changed := (xs.filter fun p => p.2.transport.isSome).map Prod.fst } := by
  cases xs with
  | nil =>
    have hg : info.generalGroup = none := h.holds
    simp [managePttGroup, hg]
  | cons x xs =>
    have hle := h.length_le
    have hn : xs.length < info.fresh + 1 := by
      simp only [List.length_cons] at hle
      omega
    simp only [managePttGroup, h.holds.1]
    rw [loop_ring (l := []) (manageBody_gathers info.heap x.1) h.holds.2 rfl hn, foldl_visit]
    simp

/-- A message, a login or a signal leaves a list in order behind. -/
theorem native_groups (h : ∃ xs, info.Groups xs) {e : NativeEvent} (he : isNotMessage e = true)
    (hs : e.step info = .ok info') : ∃ xs, info'.Groups xs := by
  obtain ⟨xs, hg⟩ := h
  cases e with
  | groupInfo content => exact loadGroupInfo_groups hg hs
  | regroup content =>
    have hg' : (info.report .receiveRegroup).Groups xs := hg.of_sameList (report_sameList _ _)
    exact cleanup_groups hg' hs
  | memberInfo content =>
    obtain ⟨effects, tmpPools, rfl⟩ := doReceiveMemberInfo_frame hs
    exact ⟨xs, hg.holds, hg.bounded⟩
  | message content => cases he
  | destroy => exact ⟨[], pttDestroy_groups hg hs⟩
  | init =>
    cases hs
    exact ⟨[], rfl, hg.bounded⟩
  | _ => exact ⟨xs, hg.of_sameList (signal_sameList rfl hs)⟩

theorem login_groups (h : ∃ xs, info.Groups xs) (hs : Membership.login info = .ok info') :
    ∃ xs, info'.Groups xs := by
  obtain ⟨xs, hg⟩ := h
  obtain ⟨info₁, hdestroy, hs⟩ := bind_eq_ok.mp hs
  cases hs
  exact ⟨[], rfl, (pttDestroy_groups hg hdestroy).bounded⟩

end

/-! ### Runs -/

namespace Membership

def AllRight (s : Membership) : Prop := ∀ c ∈ s.calls, c.Right

/-- The list is in order, and so was every walk. -/
structure Good (s : Membership) : Prop where
  groups : ∃ xs, s.info.Groups xs
  right : s.AllRight

variable {s : Membership} {optname : MembershipOpt}

theorem manage_good (h : s.Good) (hlist : s.info.generalGroup ≠ none) :
    (s.manage optname).Good := by
  obtain ⟨xs, hg⟩ := h.groups
  refine ⟨⟨xs, hg⟩, ?_⟩
  intro c hc
  obtain rfl | hc := List.mem_cons.mp hc
  · have hne : xs ≠ [] := by
      rintro rfl
      exact hlist hg.holds
    exact ⟨xs, hg, hne, hg.nodup, by rw [managePttGroup_eq hg, if_neg hne]⟩
  · exact h.right c hc

/-- Without a list the walk ends the process, and its call is not right. -/
theorem manage_null (hlist : s.info.generalGroup = none) :
    (s.manage optname).stopped = true ∧ ¬(s.manage optname).AllRight := by
  have hnull : managePttGroup s.info = .error .nullPointer := by simp [managePttGroup, hlist]
  refine ⟨by simp [manage, hnull, Except.toBool], fun h => ?_⟩
  obtain ⟨xs, -, -, -, hres⟩ := h _ List.mem_cons_self
  rw [hnull] at hres
  cases hres

theorem Good.setAddr (h : s.Good) (ip : Bytes) : { s with switchAddr := ip }.Good :=
  ⟨h.groups, h.right⟩

theorem Good.setCount (h : s.Good) (count : ℕ) : { s with pttTimerCount := count }.Good :=
  ⟨h.groups, h.right⟩

theorem hoInd_good (h : s.Good) (hlist : s.info.generalGroup ≠ none) (ip : Bytes) :
    (s.hoInd ip).Good := by
  have hdrop : (s.manage .drop).Good := manage_good h hlist
  unfold hoInd
  dsimp only
  split_ifs
  · exact hdrop
  · exact manage_good hdrop hlist
  · exact manage_good (hdrop.setAddr _) hlist
  · exact ⟨hdrop.groups, hdrop.right⟩

theorem hoInd_null (hlist : s.info.generalGroup = none) (ip : Bytes) :
    ¬(s.hoInd ip).AllRight := by
  have hnull : (s.manage .drop).stopped = true ∧ ¬(s.manage .drop).AllRight := manage_null hlist
  obtain ⟨hstop, hwrong⟩ := hnull
  simpa only [hoInd, hstop, if_true] using hwrong

theorem manageAgain_good (h : s.Good) (hlist : s.info.generalGroup ≠ none) :
    s.manageAgain.Good := by
  have hdrop : (s.manage .drop).Good := manage_good h hlist
  unfold manageAgain
  dsimp only
  split_ifs
  · exact hdrop
  · exact manage_good hdrop hlist

theorem manageAgain_null (hlist : s.info.generalGroup = none) : ¬s.manageAgain.AllRight := by
  have hnull : (s.manage .drop).stopped = true ∧ ¬(s.manage .drop).AllRight := manage_null hlist
  obtain ⟨hstop, hwrong⟩ := hnull
  simpa only [manageAgain, hstop, if_true] using hwrong

theorem timer_good (h : s.Good)
    (hlist : managesAt (s.pttTimerCount + 1) = true → s.info.generalGroup ≠ none) :
    s.pttSignalTimerCb.Good := by
  have hwalk : (if managesAt (s.pttTimerCount + 1) then
      ({ s with pttTimerCount := s.pttTimerCount + 1 } : Membership).manageAgain
      else { s with pttTimerCount := s.pttTimerCount + 1 }).Good := by
    split_ifs with hat
    · exact manageAgain_good (h.setCount _) (hlist hat)
    · exact h.setCount _
  unfold pttSignalTimerCb
  dsimp only
  split_ifs at hwalk ⊢
  · exact hwalk.setCount _
  · exact hwalk.setCount _
  · exact hwalk
  · exact hwalk

theorem timer_null (hat : managesAt (s.pttTimerCount + 1) = true)
    (hlist : s.info.generalGroup = none) : ¬s.pttSignalTimerCb.AllRight := by
  have hwrong := manageAgain_null (s := { s with pttTimerCount := s.pttTimerCount + 1 }) hlist
  unfold pttSignalTimerCb
  simp only [hat, if_true]
  split_ifs
  · exact hwrong
  · exact hwrong

end Membership

section runs

variable {s : Membership} {es : List MembershipEvent}

theorem event_groups (h : ∃ xs, s.info.Groups xs) {e : MembershipEvent} (he : e.isRead = true) :
    ∃ xs, ((e.info s).toOption.getD s.info).Groups xs := by
  cases hs : e.info s with
  | error f => exact h
  | ok info' =>
    cases e with
    | native e => exact native_groups h he hs
    | login => exact login_groups h hs
    | hoInd ip =>
      cases hs
      exact h
    | signalTimer =>
      cases hs
      exact h

theorem membership_step (h : s.Good) {e : MembershipEvent} (he : e.isRead = true)
    (hlist : e.HasList s) : (e.step s).Good := by
  have hg := event_groups h.groups he
  cases e with
  | native e => cases e <;> exact ⟨hg, h.right⟩
  | login => exact ⟨hg, h.right⟩
  | hoInd ip => exact Membership.hoInd_good h hlist ip
  | signalTimer => exact Membership.timer_good h hlist

theorem membership_breaks {e : MembershipEvent} (hlist : ¬e.HasList s) : ¬(e.step s).AllRight := by
  cases e with
  | native e => exact absurd trivial hlist
  | login => exact absurd trivial hlist
  | hoInd ip => exact Membership.hoInd_null (not_not.mp hlist) ip
  | signalTimer =>
    obtain ⟨hat, hnone⟩ := Classical.not_imp.mp hlist
    exact Membership.timer_null hat (not_not.mp hnone)

/-- All walks of a run go once round a list in order just when a list is there at each of them. -/
theorem group_walks_iff (hinit : memberships.init s)
    (hes : memberships.Allowed (fun _ _ => True) s es) :
    memberships.Allowed MembershipEvent.HasList s es ↔
      ∀ es', es' <+: es → ∀ c ∈ (memberships.run s es').calls, c.Right := by
  obtain ⟨⟨udpCreate, hinfo⟩, hcalls, -⟩ := hinit
  have hgood : s.Good := by
    refine ⟨⟨[], hinfo ▸ PttInfo.initial_groups udpCreate⟩, fun c hc => ?_⟩
    rw [hcalls] at hc
    cases hc
  refine System.allowed_iff (P := Membership.Good) (Q := Membership.AllRight)
    (fun _ h => h.right) ?_ (fun _ _ _ _ hok => membership_breaks hok) hgood hes
  rintro t e h ⟨-, he, -⟩ hok
  exact membership_step h he hok

end runs

def Membership.start : Membership := { info := .initial fun _ _ => true }

/-- The network changes while there is a list of one group. -/
def handoverRun : List MembershipEvent :=
  [.native (.groupInfo listOfOne), .hoInd (ascii "10.0.0.2"), .signalTimer]

theorem handover_walks : (memberships.run .start handoverRun).AllRight := by
  apply (group_walks_iff ⟨⟨_, rfl⟩, rfl, rfl⟩ _).mp _ handoverRun List.prefix_rfl
  · decide
  · decide

/-- The network changes before there was a list. -/
theorem handover_without_list :
    ¬ ∀ s es, memberships.init s → memberships.Allowed (fun _ _ => True) s es →
      ∀ c ∈ (memberships.run s es).calls, c.Right := by
  intro h
  have hwrong : ¬((Membership.start).hoInd []).AllRight := Membership.hoInd_null rfl []
  exact hwrong (h .start [.hoInd []] ⟨⟨_, rfl⟩, rfl, rfl⟩ (by decide))

end PttTerminal
