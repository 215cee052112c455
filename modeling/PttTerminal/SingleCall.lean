import PttTerminal.FloorUpdate

/-!
# Reports of single calls

A report of a call that is not a group's and carries no error goes to `jniUpdateCallState`, unless
the floor is in use: `passesCall` are the screens, statuses and keys in which it does. A report
that is passed on becomes the single call, and any other leaves the single call as it was.
-/
namespace PttTerminal

open Runs

namespace Terminal

/-- Whether the report of a call that is not a group's is passed on. -/
def passesCall (t : Terminal) : Bool :=
  if t.isPttUIOnTop then t.pttGroupStatus.status = .free || t.pttGroupStatus.status = .idle
  else t.isSingleCallOnTop || (t.ePttKeyStatus = .up && (t.pttGroupStatus.status = .free ||
    t.pttGroupStatus.status = .applying || t.pttGroupStatus.status = .idle))

/-- The call that is kept of a report: an ended one is idle without its activity. -/
def keptCall (cs : CallState) (t : Terminal) : CallState :=
  if cs.callState = .ended ∧ !t.ui.inCallScreenActivity then { cs with callState := .idle } else cs

section
variable {native : ℤ} {cs : CallState} {t : Terminal}

theorem jniUpdateCallState_kept (cs : CallState) (t : Terminal) :
    t.jniUpdateCallState cs = { t with currentCallState := t.keptCall cs } := by
  unfold jniUpdateCallState keptCall
  dsimp only
  split <;> rfl

/-- A report without an error of a number that is not a group's. -/
theorem showCallState_single (hg : t.checkIsGroupNum cs.number = false)
    (he : checkErrorCode cs.errorCode = false) :
    t.showCallState native cs = (t.note (.callState cs)).otherCall t.pttGroupStatus.status cs := by
  unfold showCallState
  dsimp only
  rw [if_neg (by simp [he]), if_neg (by simp [hg])]
  rfl

theorem otherCall_single (hg : t.checkIsGroupNum cs.number = false) :
    t.otherCall t.pttGroupStatus.status cs = t.jniUpdateCallState cs ∧ t.passesCall ∨
      (t.otherCall t.pttGroupStatus.status cs).currentCallState = t.currentCallState ∧
        t.passesCall = false := by
  unfold otherCall passesCall
  cases ht : t.isPttUIOnTop <;> cases hc : t.isSingleCallOnTop <;> cases hk : t.ePttKeyStatus <;>
    cases hs : t.pttGroupStatus.status <;> simp [hg]

theorem showCallState_passed (hg : t.checkIsGroupNum cs.number = false)
    (he : checkErrorCode cs.errorCode = false) (hp : t.passesCall = true) :
    t.showCallState native cs = (t.note (.callState cs)).jniUpdateCallState cs := by
  rw [showCallState_single hg he]
  obtain ⟨h, -⟩ | ⟨-, hn⟩ := otherCall_single (t := t.note (.callState cs)) hg
  · exact h
  · have hpass : (t.note (.callState cs)).passesCall = t.passesCall := rfl
    rw [hpass, hp] at hn
    exact absurd hn (by simp)

theorem showCallState_dropped (hg : t.checkIsGroupNum cs.number = false)
    (he : checkErrorCode cs.errorCode = false) (hp : t.passesCall = false) :
    (t.showCallState native cs).currentCallState = t.currentCallState := by
  rw [showCallState_single hg he]
  obtain ⟨-, hy⟩ | ⟨h, -⟩ := otherCall_single (t := t.note (.callState cs)) hg
  · have hpass : (t.note (.callState cs)).passesCall = t.passesCall := rfl
    rw [hpass, hp] at hy
    exact absurd hy (by simp)
  · exact h

theorem showCallState_kept (hg : t.checkIsGroupNum cs.number = false)
    (he : checkErrorCode cs.errorCode = false) (hp : t.passesCall = true) :
    (t.showCallState native cs).currentCallState = t.keptCall cs := by
  rw [showCallState_passed hg he hp, jniUpdateCallState_kept]
  rfl

/-- The kept call is the reported one, but for an end that no activity is there to show. -/
theorem keptCall_eq_iff (cs : CallState) (t : Terminal) :
    t.keptCall cs = cs ↔ (cs.callState = .ended → t.ui.inCallScreenActivity = true) := by
  unfold keptCall
  split
  case isTrue h =>
    refine ⟨fun hidle => ?_, fun hact => by simp [hact h.1] at h⟩
    have hstate : CallStatus.idle = cs.callState := congrArg CallState.callState hidle
    rw [h.1] at hstate
    cases hstate
  case isFalse h => simpa using h

end

end Terminal

/-- In any state, a report of a single call that carries no error becomes the stored call where it
is passed on, and leaves the stored call as it was where it is not. What is passed on is stored as
it was reported, but for an end without the activity. -/
theorem showCallState_keeps (t : Terminal) (native : ℤ) (cs : CallState)
    (hg : t.checkIsGroupNum cs.number = false) (he : Terminal.checkErrorCode cs.errorCode = false) :
    (t.passesCall = true →
      t.showCallState native cs = (t.note (.callState cs)).jniUpdateCallState cs ∧
        (t.showCallState native cs).currentCallState = t.keptCall cs) ∧
    (t.passesCall = false →
      (t.showCallState native cs).currentCallState = t.currentCallState) ∧
    ((t.showCallState native cs).currentCallState = cs ↔
      if t.passesCall then cs.callState = .ended → t.ui.inCallScreenActivity = true
      else t.currentCallState = cs) := by
  refine ⟨fun hp => ⟨?_, ?_⟩, fun hp => ?_, ?_⟩
  · exact Terminal.showCallState_passed hg he hp
  · exact Terminal.showCallState_kept hg he hp
  · exact Terminal.showCallState_dropped hg he hp
  · cases hp : t.passesCall with
    | true =>
      rw [Terminal.showCallState_kept hg he hp, Terminal.keptCall_eq_iff]
      simp
    | false =>
      rw [Terminal.showCallState_dropped hg he hp]
      simp

/-- The call that ends while its screen is on top and nobody speaks. -/
theorem showCallState_keeps_ended :
    let t := (terminal Terminal.Fresh Event.ofNative).run .ready
      [.showCallState 0 ⟨0, some (ascii "200"), .talking, 0⟩,
        .showUi { topActivity := .inCall, inCallScreenActivity := true }]
    t.passesCall = true ∧
      (t.showCallState 0 ⟨0, some (ascii "200"), .ended, 0⟩).currentCallState =
        ⟨0, some (ascii "200"), .ended, 0⟩ :=
  ⟨by decide, ((showCallState_keeps _ 0 ⟨0, some (ascii "200"), .ended, 0⟩ (by decide)
    (by decide)).1 (by decide)).2.trans (by decide)⟩

/-- Somebody speaks in the group while a single call is up, and the user leaves its screen: the
report that the call has ended is dropped, and the stored call is talking for good. -/
theorem showCallState_drops_ended :
    let t := (terminal Terminal.Fresh Event.ofNative).run .ready
      [.showCallState 0 ⟨0, some (ascii "200"), .talking, 0⟩,
        .showUi { topActivity := .inCall, inCallScreenActivity := true },
        .mInviteIndicate 0 (some (ascii "8001")) (some (ascii "101")),
        .showUi { topActivity := .other, inCallScreenActivity := true }]
    (terminal Terminal.Fresh Event.ofNative).Reached (fun _ _ => True) t ∧
      t.checkIsGroupNum (some (ascii "200")) = false ∧
      (t.showCallState 0
        ⟨0, some (ascii "200"), .ended, 0⟩).currentCallState.callState = .talking :=
  ⟨System.reached_run fresh_ready (by decide), by decide, by decide⟩

end PttTerminal
