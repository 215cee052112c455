import PttTerminal.GroupCells
import PttTerminal.MulticastSession

/-!
# The group of the session

The session points into the list of groups. The list changes with its messages and the pointer with
the signals, and each of them has to keep the other in order.
-/
namespace PttTerminal

open Loops LinkedCells Runs

/-- The pointer leads to a group of the list, if it leads anywhere. -/
def CurrentGroupValid (info : PttInfo) : Prop :=
  ∀ i, info.gCurrentGroup = some i →
    ∃ xs, info.heap.Holds info.generalGroup xs ∧ i ∈ xs.map Prod.fst

/-- The group of the session is one of `xs`, and without a session there is none. -/
structure Current (info : PttInfo) (xs : List (ℕ × GroupInfo)) : Prop where
  listed : ∀ i, info.gCurrentGroup = some i → i ∈ xs.map Prod.fst
  idle : info.pttState = .uninit → info.gCurrentGroup = none

/-- A list is loaded, destroyed or initialised only while there is no session, unless the text has
no line of groups. -/
def KeepsCurrent (info : PttInfo) : NativeEvent → Prop
  | .groupInfo content => info.gCurrentGroup = none ∨ Lines LoadLine [] content
  | .destroy | .init => info.gCurrentGroup = none
  | _ => True

/-- All events but the older message. -/
def isNotMessage : NativeEvent → Bool
  | .message _ => false
  | _ => true

section lists

variable {info info' : PttInfo} {xs ys l rs : List (ℕ × GroupInfo)} {y : ℕ × GroupInfo}
  {content : Bytes}

theorem Current.of_session (h : Current info xs) (hs : info'.session = info.session) :
    Current info' xs where
  listed i hi := h.listed i ((congrArg PttSession.gCurrentGroup hs).symm.trans hi)
  idle hstate := by
    have hsame : info'.gCurrentGroup = info.gCurrentGroup := congrArg PttSession.gCurrentGroup hs
    rw [hsame]
    exact h.idle ((congrArg PttSession.pttState hs).symm.trans hstate)

theorem Current.mono (h : Current info xs) (hsub : xs ⊆ ys) : Current info ys :=
  ⟨fun i hi => List.map_subset Prod.fst hsub (h.listed i hi), h.idle⟩

theorem current_of_none (h : info.gCurrentGroup = none) : Current info xs :=
  ⟨fun i hi => by simp [h] at hi, fun _ => h⟩

theorem Current.none (h : Current info []) : info.gCurrentGroup = none := by
  cases hi : info.gCurrentGroup with
  | none => rfl
  | some i => simpa using h.listed i hi

/-- A group that is removed is not the one of a session that goes on. -/
theorem Current.removed (ht : Tracked info (l ++ y :: rs)) (h : Current info (l ++ y :: rs))
    (hr : Removed info info' y) : Tracked info' (l ++ rs) ∧ Current info' (l ++ rs) := by
  obtain ⟨info₁, head, hend, hfreed⟩ := hr
  obtain ⟨hheap, hfresh, -⟩ := endSession_memory hend
  have ht₁ : Tracked { info₁ with generalGroup := head } (l ++ y :: rs) :=
    ht.of_frame (by rw [← hheap]) hfresh.ge
  refine ⟨ht₁.freed hfreed, Current.of_session ?_ hfreed.frame.2.2.1⟩
  obtain ⟨rfl, hother⟩ | ⟨-, rfl⟩ := endSession_frame hend
  · refine ⟨fun i hi => ?_, h.idle⟩
    change info₁.gCurrentGroup = some i at hi
    obtain hstate | ⟨j, g, hj, hg, hnum⟩ := hother
    · rw [h.idle hstate] at hi
      cases hi
    · obtain rfl : j = i := by rw [hi] at hj; exact (Option.some.inj hj).symm
      obtain ⟨p, hp, rfl⟩ := List.mem_map.mp (h.listed j hi)
      rw [ht.vl p hp] at hg
      obtain rfl := Option.some.inj hg
      have hne : p ≠ y := fun heq => hnum (by rw [heq])
      refine List.mem_map_of_mem ?_
      simp only [List.mem_append, List.mem_cons, hne, false_or] at hp ⊢
      exact hp
  · exact current_of_none rfl

/-- What holds of the list and of the group of the session through a message. -/
def PointsInto (info : PttInfo) (xs : List (ℕ × GroupInfo)) : Prop :=
    Tracked info xs ∧ Current info xs

theorem pointsInto_rule : RegroupRule PointsInto where
  added h ha :=
    ⟨h.1.added ha, (h.2.of_session ha.frame.2.2.2.1).mono (List.subset_append_left _ _)⟩
  dropped hg _ h := ⟨h.1.of_frame (dropped_vl hg.bounded) (Nat.le_succ _), h.2.of_session rfl⟩
  removed h hr := h.2.removed h.1 hr
  head _ h := ⟨h.1.of_frame rfl le_rfl, h.2.of_session rfl⟩
  report _ h := ⟨h.1.of_frame rfl le_rfl, h.2.of_session rfl⟩
  reset h := ⟨h.1.of_frame rfl le_rfl, h.2.listed, h.2.idle⟩

/-- While lines of groups are still to come, there is no session. -/
def PointsIntoAlone (ls : List (List GroupText)) (info : PttInfo)
    (xs : List (ℕ × GroupInfo)) : Prop :=
  PointsInto info xs ∧ (info.gCurrentGroup = none ∨ ls = [])

theorem pointsIntoAlone_rule : LoadRule PointsIntoAlone where
  added h ha := by
    have hgroup := congrArg PttSession.gCurrentGroup ha.frame.2.2.2.1
    exact ⟨pointsInto_rule.added h.1 ha, h.2.imp_left hgroup.trans⟩
  replaced := by
    rintro ts ls info info' xs y ⟨h, halone⟩ ha
    have hnone : info'.gCurrentGroup = none :=
      (congrArg PttSession.gCurrentGroup ha.frame.2.2.2.1).trans (halone.resolve_right (by simp))
    have hy : Tracked info' [y] := (h.1.added ha).sublist (List.sublist_append_right xs [y])
    exact ⟨⟨hy.of_frame rfl le_rfl, current_of_none hnone⟩, .inl hnone⟩
  signal _ _ h := ⟨⟨h.1.1.of_frame rfl le_rfl, h.1.2.of_session rfl⟩, h.2⟩

theorem loadGroupInfo_pointsInto (hg : info.Groups xs) (h : Current info xs)
    (hok : info.gCurrentGroup = none ∨ Lines LoadLine [] content)
    (hrun : loadGroupInfo info content = .ok info') : ∃ ys, info'.Groups ys ∧ Current info' ys := by
  have hin : PointsInto info xs := ⟨hg.tracked, h⟩
  have hlines : info.transportId = none →
      ∃ ls, Lines LoadLine ls content ∧ PointsIntoAlone ls info xs := by
    intro ht
    obtain hnone | hlines := hok
    · obtain ⟨ls, hl⟩ := (loadGroupInfo_isOk hg ht).mp ⟨info', hrun⟩
      exact ⟨ls, hl, hin, .inl hnone⟩
    · exact ⟨[], hlines, hin, .inr rfl⟩
  obtain ⟨ys, hg', hin', -⟩ := loadGroupInfo_keeps pointsIntoAlone_rule
    (fun _ _ groups h => ⟨pointsInto_rule.report groups h.1, h.2⟩) hg ⟨hin, .inr rfl⟩ hlines hrun
  exact ⟨ys, hg', hin'.2⟩

theorem regroup_pointsInto (hg : info.Groups xs) (h : Current info xs)
    (hrun : cleanupOnRegroup info content = .ok info') :
      ∃ ys, info'.Groups ys ∧ Current info' ys := by
  obtain ⟨ys, hg', hin⟩ | ⟨-, info₁, hg₁, hin, -, hload⟩ :=
    cleanup_rule pointsInto_rule hg ⟨hg.tracked, h⟩ hrun
  · exact ⟨ys, hg', hin.2⟩
  · exact loadGroupInfo_pointsInto hg₁ hin.2 (.inl hin.2.none) hload

theorem pttDestroy_groups (hg : info.Groups xs) (hrun : pttDestroy info = .ok info') :
    info'.Groups [] := by
  obtain ⟨info₁, hdestroy, hrun⟩ := bind_eq_ok.mp hrun
  cases hrun
  obtain ⟨info₂, -, hb, rfl⟩ := groupInfoDestroy_rule (P := fun _ _ => True)
    (fun _ _ _ _ _ _ => trivial) (fun _ _ _ => trivial) hg trivial hdestroy
  exact ⟨rfl, hb⟩

theorem destroy_pointsInto (hg : info.Groups xs) (h : info.gCurrentGroup = none)
    (hrun : pttDestroy info = .ok info') : info'.Groups [] ∧ info'.gCurrentGroup = none := by
  obtain ⟨info₁, hdestroy, hrun⟩ := bind_eq_ok.mp hrun
  cases hrun
  obtain ⟨info₂, h₂, hb, rfl⟩ :=
    groupInfoDestroy_rule (P := fun info _ => info.gCurrentGroup = none)
    (fun _ _ _ _ h hf => (congrArg PttSession.gCurrentGroup hf.frame.2.2.1).trans h)
    (fun _ _ h => h) hg h hdestroy
  exact ⟨⟨rfl, hb⟩, h₂⟩

end lists

/-! ### The signals -/

section signals

variable {info info' : PttInfo} {xs : List (ℕ × GroupInfo)}

theorem PttInfo.Groups.of_sameList (h : info.Groups xs) (hs : SameList info info') :
    info'.Groups xs where
  holds := by
    rw [hs.heap, hs.generalGroup]
    exact h.holds
  bounded i hi := by
    rw [hs.heap]
    exact h.bounded i (hs.fresh ▸ hi)

/-- The search leads to a group of the list that has the number. -/
theorem search_found {head node : ℕ} {number : Bytes} (h : info.Groups xs)
    (hhead : info.generalGroup = some head) (hs : search info head number head = .ok (true, node)) :
    ∃ p ∈ xs, p.1 = node ∧ p.2.number = number := by
  cases xs with
  | nil =>
    have hnone : info.generalGroup = none := h.holds
    simp [hhead] at hnone
  | cons x xs =>
    obtain rfl : head = x.1 := Option.some.inj (hhead.symm.trans h.holds.1)
    rw [search_eq (l := []) h rfl number] at hs
    split at hs
    · next p hfind =>
      cases hs
      exact ⟨p, List.mem_of_find?_eq_some hfind, rfl, by simpa using List.find?_some hfind⟩
    · cases hs

theorem search_mem {head node : ℕ} {number : Bytes} (h : info.Groups xs)
    (hhead : info.generalGroup = some head) (hs : search info head number head = .ok (true, node)) :
    node ∈ xs.map Prod.fst := by
  obtain ⟨p, hp, rfl, -⟩ := search_found h hhead hs
  exact List.mem_map_of_mem hp

theorem openMedia_current {o : Outside} (h : Current info xs)
    (hrun : pttOpenMedia o info = .ok info') :
    Current info' xs := by
  obtain ⟨-, hgroup, -, hstate⟩ := pttOpenMedia_ok hrun
  refine ⟨fun i hi => h.listed i (hgroup ▸ hi), fun hidle => ?_⟩
  rw [hgroup]
  exact h.idle (by_contra fun hne => hstate hne hidle)

theorem closeMedia_current (h : Current info xs) : Current (pttCloseMedia info) xs := by
  unfold pttCloseMedia
  dsimp only
  split_ifs with hstate
  · exact ⟨h.listed, by simp [pttEnterState]⟩
  · exact ⟨h.listed, h.idle⟩

theorem invite_current {o : Outside} {inv : MulticastInvite} (hg : info.Groups xs)
    (h : Current info xs) (hrun : multicastInvite o inv info = .ok info') : Current info' xs := by
  obtain ⟨t, ht⟩ := recordSpeaker_eq inv.speaker info
  obtain ⟨rfl, -⟩ | ⟨head, node, hgen, hsearch, hans⟩ := invite_cases hrun
  · rw [ht]
    exact ⟨h.listed, h.idle⟩
  · cases hans with
    | silent e _ heq =>
      rw [heq, recordCall, ht]
      exact ⟨h.listed, by simp [pttEnterState]⟩
    | own _ _ heq =>
      rw [heq, recordCall, ht]
      exact ⟨h.listed, h.idle⟩
    | group _ _ _ hinvited =>
      obtain ⟨-, hgroup, hstate⟩ := invited_ok hinvited
      refine ⟨fun i hi => ?_, fun hidle => absurd hidle hstate⟩
      rw [hgroup] at hi
      obtain rfl := Option.some.inj hi
      exact search_mem hg hgen hsearch

/-- A signal leads the session to a group of the list, or ends it. -/
theorem signal_current (hg : info.Groups xs) (h : Current info xs) {e : NativeEvent}
    (he : e.isSignal = true) (hs : e.step info = .ok info') : Current info' xs := by
  cases e with
  | invite o inv => exact invite_current hg h hs
  | bye callId =>
    cases hs
    unfold multicastBye
    split_ifs
    · exact current_of_none rfl
    · exact h
  | heartbeat header =>
    obtain rfl | rfl := heartbeat_cases hs
    · exact h
    · exact current_of_none rfl
  | openMedia o => exact openMedia_current h hs
  | closeMedia =>
    cases hs
    exact closeMedia_current h
  | checkPttError pttErrNo =>
    cases hs
    unfold checkPttError
    dsimp only
    split_ifs
    · exact current_of_none rfl
    · exact ⟨h.listed, h.idle⟩
    · exact h
  | _ => cases he

end signals

/-! ### Runs -/

section runs

variable {info info' : PttInfo}

theorem current_step (hP : ∃ xs, info.Groups xs ∧ Current info xs) {e : NativeEvent}
    (he : isNotMessage e = true) (hok : KeepsCurrent info e) (hs : e.step info = .ok info') :
    ∃ xs, info'.Groups xs ∧ Current info' xs := by
  obtain ⟨xs, hg, h⟩ := hP
  cases e with
  | groupInfo content => exact loadGroupInfo_pointsInto hg h hok hs
  | regroup content =>
    have hg' : (info.report .receiveRegroup).Groups xs := hg.of_sameList (report_sameList _ _)
    exact regroup_pointsInto hg' ⟨h.listed, h.idle⟩ hs
  | memberInfo content =>
    obtain ⟨effects, tmpPools, rfl⟩ := doReceiveMemberInfo_frame hs
    exact ⟨xs, ⟨hg.holds, hg.bounded⟩, h.listed, h.idle⟩
  | message content => cases he
  | destroy =>
    obtain ⟨hg', hnone⟩ := destroy_pointsInto hg hok hs
    exact ⟨[], hg', current_of_none hnone⟩
  | init =>
    cases hs
    exact ⟨[], ⟨rfl, hg.bounded⟩, current_of_none hok⟩
  | _ => exact ⟨xs, hg.of_sameList (signal_sameList rfl hs), signal_current hg h rfl hs⟩

/-- In every run that meets the condition, the session points into the list. -/
theorem runs_currentGroupValid (h : (native isNotMessage).Reached KeepsCurrent info) :
    CurrentGroupValid info := by
  have hcurrent : ∃ xs, info.Groups xs ∧ Current info xs :=
    native_invariant (fun udpCreate => ⟨[], PttInfo.initial_groups udpCreate, current_of_none rfl⟩)
      (fun _ _ _ hP he hok hs => current_step hP he hok hs) h
  obtain ⟨xs, hg, h⟩ := hcurrent
  exact fun i hi => ⟨xs, hg.holds, h.listed i hi⟩

end runs

/-- Somebody speaks in the group, the call ends and the terminal logs in again. -/
def reloginRun : List NativeEvent :=
  [.groupInfo listOfOne, .invite { callCount := 1 } ⟨ascii "1", ascii "7", ascii "c"⟩,
    .bye (ascii "c"), .destroy, .init, .groupInfo listOfOne,
    .invite { callCount := 1 } ⟨ascii "1", ascii "7", ascii "d"⟩]

theorem session_points_into_list :
    CurrentGroupValid ((native isNotMessage).run (.initial fun _ _ => true) reloginRun) := by
  refine runs_currentGroupValid (System.reached_run (native_init _) ?_)
  exact ⟨by decide, .inl rfl, by decide, trivial, by decide, trivial, by decide, rfl,
    by decide, rfl,
    by decide, .inl rfl, by decide, trivial, trivial⟩

/-- The list is destroyed while somebody speaks in the group. -/
def destroyedRun : List NativeEvent :=
  [.groupInfo listOfOne, .invite { callCount := 1 } ⟨ascii "1", ascii "7", ascii "c"⟩, .destroy]

theorem destroy_leaves_group :
    ¬ ∀ info, (native isNotMessage).Reached (fun _ _ => True) info → CurrentGroupValid info := by
  intro h
  have hrun : (native isNotMessage).Reached (fun _ _ => True)
    ((native isNotMessage).run (.initial fun _ _ => true) destroyedRun) :=
    System.reached_run (native_init _) (by decide)
  obtain ⟨xs, hlist, hmem⟩ := h _ hrun 0 (by decide)
  have hnone :
    ((native isNotMessage).run (.initial fun _ _ => true) destroyedRun).generalGroup = none :=
    by decide
  rw [hnone] at hlist
  cases xs with
  | nil => simp at hmem
  | cons x xs => cases hlist.1

end PttTerminal
