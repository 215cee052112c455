import PttTerminal.Library.Journals
import PttTerminal.FloorUpdate

/-!
# Whom the terminal listens to

A terminal that listens names a speaker. It is true to the floor when the latest indication for its
group named this speaker. A speaker that is stored outlives the statuses of the user's own requests
and becomes the one that is listened to when a request ends, so that each stored speaker has to be
the one that was indicated last, unless the user speaks. `KeepsTruth` are the steps that keep this
so. It is broken by an indication that is left aside, by a speaker that is stored for another group,
and by a speech that is cancelled although nobody indicated it.
-/
namespace PttTerminal

open Runs Journals

/-- What an entry says about the floor of a group. -/
def Entry.indicates (groupNum : Option Bytes) : Entry → Option (Option Bytes)
  | .mInviteIndicate (some n) speaker => if some n = groupNum then some speaker else none
  | _ => none

/-- The speaker that the latest indication for a group named. -/
def lastIndication (groupNum : Option Bytes) (es : List Entry) : Option Bytes :=
  (latest (Entry.indicates groupNum) es).join

theorem lastIndication_none (es : List Entry) : lastIndication none es = none := by
  induction es with
  | nil => rfl
  | cons e es ih =>
    have he : e.indicates none = none := by
      cases e with
      | mInviteIndicate groupNum speaker => cases groupNum <;> simp [Entry.indicates]
      | _ => rfl
    rw [lastIndication, latest_cons_of_none he]
    exact ih

theorem lastIndication_indicated (groupNum : Bytes) (speaker : Option Bytes) (es : List Entry) :
    lastIndication (some groupNum) (.mInviteIndicate (some groupNum) speaker :: es) = speaker := by
  rw [lastIndication, latest_cons_of_some (a := speaker) (by simp [Entry.indicates])]
  rfl

theorem lastIndication_other {groupNum : Bytes} {g : Option Bytes} (h : some groupNum ≠ g)
    (speaker : Option Bytes) (es : List Entry) :
    lastIndication g (.mInviteIndicate (some groupNum) speaker :: es) = lastIndication g es := by
  rw [lastIndication, latest_cons_of_none (by simp [Entry.indicates, h])]
  rfl

namespace Terminal

/-- Nobody is stored as the speaker, or the one whom the group's latest indication named. -/
def SpeakerTrue (groupNum : Option Bytes) (t : Terminal) : Prop :=
  isStrBlank t.pttGroupStatus.speakerNum = true ∨
    lastIndication groupNum t.journal = t.pttGroupStatus.speakerNum

instance (groupNum : Option Bytes) (t : Terminal) : Decidable (t.SpeakerTrue groupNum) :=
  inferInstanceAs (Decidable (isStrBlank t.pttGroupStatus.speakerNum = true ∨
    lastIndication groupNum t.journal = t.pttGroupStatus.speakerNum))

/-- The stored speaker is true for the group unless the user speaks, and a terminal that listens has
somebody to listen to. -/
def FloorTrue (groupNum : Option Bytes) (t : Terminal) : Prop :=
  (t.pttGroupStatus.status = .speaking ∨ t.SpeakerTrue groupNum) ∧
    (t.pttGroupStatus.status = .listening → isStrBlank t.pttGroupStatus.speakerNum = false)

/-- The latest indication for the stored group named the speaker that is listened to. -/
def ListensTruly (t : Terminal) : Prop :=
  t.pttGroupStatus.status = .listening → isStrBlank t.pttGroupStatus.speakerNum = false ∧
    lastIndication t.pttGroupStatus.groupNum t.journal = t.pttGroupStatus.speakerNum

instance (t : Terminal) : Decidable t.ListensTruly := by
  unfold ListensTruly
  infer_instance

/-- The law for the stored group. -/
def Truthful (t : Terminal) : Prop := t.FloorTrue t.pttGroupStatus.groupNum

section
variable {native : ℤ} {t t' : Terminal} {g : Option Bytes} {s : PttStatus}

theorem Truthful.listensTruly (h : t.Truthful) : t.ListensTruly := by
  intro hl
  have hb := h.2 hl
  obtain hs | hs | hs := h.1
  · simp [hl] at hs
  · simp [hb] at hs
  · exact ⟨hb, hs⟩

/-- Without a group there is no speaker, unless the user speaks. -/
theorem FloorTrue.blank_of_none (h : t.FloorTrue none) (hs : t.pttGroupStatus.status ≠ .speaking) :
    isStrBlank t.pttGroupStatus.speakerNum = true := by
  obtain h | h | h := h.1
  · exact absurd h hs
  · exact h
  · rw [← h, lastIndication_none]
    rfl

/-! ### Writes -/

theorem FloorTrue.speakerTrue (h : t.FloorTrue g) (hs : t.pttGroupStatus.status ≠ .speaking) :
    t.SpeakerTrue g := h.1.resolve_left hs

theorem floorTrue_setStatus (h : t.SpeakerTrue g)
    (hl : s = .listening → isStrBlank t.pttGroupStatus.speakerNum = false) :
    (t.setStatus s).FloorTrue g := ⟨.inr h, hl⟩

theorem floorTrue_speaking (t : Terminal) : (t.setStatus .speaking).FloorTrue g :=
  ⟨.inl rfl, fun h => by simp at h⟩

/-- The status that the stored speaker suggests. -/
theorem floorTrue_bySpeaker (h : t.SpeakerTrue g) :
    (t.setStatus (if isStrBlank t.pttGroupStatus.speakerNum then .free else .listening)).FloorTrue
      g := by
  split
  · exact floorTrue_setStatus h (by simp)
  next hb => exact floorTrue_setStatus h fun _ => by simpa using hb

theorem floorTrue_free (t : Terminal) : t.free.FloorTrue g :=
  ⟨.inr (.inl rfl), fun h => by simp at h⟩

theorem truthful_clear (t : Terminal) : t.clear.Truthful :=
  ⟨.inr (.inl rfl), fun h => by simp at h⟩

/-- An entry that is no indication changes nothing. -/
theorem FloorTrue.note (h : t.FloorTrue g) {e : Entry} (he : e.indicates g = none) :
    (t.note e).FloorTrue g := by
  refine ⟨h.1.imp_right (Or.imp_right fun hl => ?_), h.2⟩
  exact (congrArg Option.join (latest_cons_of_none he t.journal)).trans hl

theorem Truthful.note (h : t.Truthful) {e : Entry} (he : ∀ g, e.indicates g = none) :
    (t.note e).Truthful := FloorTrue.note h (he _)

/-! ### Requests -/

theorem FloorTrue.checkResult (h : t.FloorTrue g) (result : ℤ) :
    (t.checkResult result).FloorTrue g := by
  unfold Terminal.checkResult
  split
  · have hf : ((t.setSpeakerNum none).setStatus .free).FloorTrue g := floorTrue_free t
    dsimp only
    split <;> exact hf
  · exact h

theorem FloorTrue.hangupPttCall (h : t.FloorTrue g) : t.hangupPttCall.FloorTrue g := by
  unfold Terminal.hangupPttCall
  split <;> exact h

theorem FloorTrue.cancelPttRight (h : t.FloorTrue g) (native : ℤ) :
    (t.cancelPttRight native).FloorTrue g := by
  unfold Terminal.cancelPttRight
  split
  · exact h
  · exact FloorTrue.checkResult (t := t.note _) h native

theorem SpeakerTrue.cancelPttRight (h : t.SpeakerTrue g) (native : ℤ) :
    (t.cancelPttRight native).SpeakerTrue g := by
  unfold Terminal.cancelPttRight requestCancelPttRight Terminal.checkResult
  split
  · exact h
  · split
    · dsimp only
      split <;> exact .inl rfl
    · exact h

/-! ### Updates of the floor -/

theorem FloorTrue.settled (h : t.FloorTrue g) (hs : Settled native t t') : t'.FloorTrue g := by
  cases hs with
  | kept => exact h
  | speaks => exact floorTrue_speaking t
  | starts => exact floorTrue_speaking _
  | silenced => exact floorTrue_free _
  | hungUp => exact h.hangupPttCall
  | cancelled => exact h.cancelPttRight native
  | forgotten => exact floorTrue_free t

theorem FloorTrue.updateOwn (h : t.FloorTrue g) (native : ℤ) :
    (t.updateOwnPttState native).FloorTrue g := by
  obtain ⟨t₁, h₁ | h₁, hs⟩ := updateOwn_settled native t
  · exact (h₁ ▸ h : t₁.FloorTrue g).settled hs
  · exact (h₁ ▸ h : t₁.FloorTrue g).settled hs

/-- What touches nothing but the floor leaves the group as it is. -/
theorem FloorTrue.truthful (h : t'.FloorTrue t.pttGroupStatus.groupNum) (ho : OnlyFloor t t') :
    t'.Truthful := by
  unfold Truthful
  rw [ho.groupNum]
  exact h

theorem Truthful.checkResult (h : t.Truthful) (result : ℤ) : (t.checkResult result).Truthful :=
  (FloorTrue.checkResult h result).truthful (onlyFloor_checkResult result t)

theorem Truthful.hangupPttCall (h : t.Truthful) : t.hangupPttCall.Truthful :=
  (FloorTrue.hangupPttCall h).truthful (onlyFloor_hangupPttCall t)

theorem Truthful.cancelPttRight (h : t.Truthful) (native : ℤ) :
    (t.cancelPttRight native).Truthful :=
  (FloorTrue.cancelPttRight h native).truthful (onlyFloor_cancelPttRight native t)

theorem Truthful.updateOwn (h : t.Truthful) (native : ℤ) : (t.updateOwnPttState native).Truthful :=
  (FloorTrue.updateOwn h native).truthful (onlyFloor_updateOwn native t)

/-! ### Indications -/

/-- A free floor without a speaker stays without one. -/
theorem updateOwn_free_speaker (native : ℤ) (t : Terminal) :
    (t.free.updateOwnPttState native).pttGroupStatus.speakerNum = none := by
  unfold updateOwnPttState
  rw [jniUpdate_free rfl rfl]
  split <;> rfl

/-- The indication is left aside: a single call is shown and the group is unknown or nobody speaks,
or the floor gets free while the user asks for it. -/
def ignoresIndication (groupNum : Bytes) (speaker : Option Bytes) (t : Terminal) : Bool :=
  if t.singleCallActive && t.inSingleCall then
    !t.checkIsGroupNum (some groupNum) || isStrBlank speaker
  else isStrBlank speaker &&
    (t.pttGroupStatus.status = .accepted || t.pttGroupStatus.status = .applying)

/-- An indication for the stored group is left aside and another speaker stays stored. -/
def forgetsSpeaker (groupNum : Bytes) (speaker : Option Bytes) (t : Terminal) : Bool :=
  t.ignoresIndication groupNum speaker && some groupNum = t.pttGroupStatus.groupNum &&
    t.pttGroupStatus.status ≠ .speaking && !isStrBlank t.pttGroupStatus.speakerNum &&
    speaker ≠ t.pttGroupStatus.speakerNum

/-- The speaker of another group is stored beside the user's request. -/
def misplacesSpeaker (groupNum : Bytes) (speaker : Option Bytes) (t : Terminal) : Bool :=
  !(t.singleCallActive && t.inSingleCall) && !isStrBlank speaker && !t.isUser speaker &&
    t.keepsRequest && some groupNum ≠ t.pttGroupStatus.groupNum

/-- An indication that is left aside does no harm where it is not forgotten. -/
theorem Truthful.indicated (h : t.Truthful) {groupNum : Bytes} {speaker : Option Bytes}
    (hi : t.ignoresIndication groupNum speaker = true)
    (hok : t.forgetsSpeaker groupNum speaker = false) :
    (t.note (.mInviteIndicate (some groupNum) speaker)).Truthful := by
  refine ⟨?_, h.2⟩
  by_cases hs : t.pttGroupStatus.status = .speaking
  · exact .inl hs
  · obtain hb | hl := h.speakerTrue hs
    · exact .inr (.inl hb)
    · by_cases hg : some groupNum = t.pttGroupStatus.groupNum
      · have hok' : isStrBlank t.pttGroupStatus.speakerNum = false →
            speaker = t.pttGroupStatus.speakerNum := by
          simpa [forgetsSpeaker, hi, hg, hs] using hok
        refine .inr ?_
        cases hb : isStrBlank t.pttGroupStatus.speakerNum with
        | true => exact .inl hb
        | false =>
          right
          show lastIndication t.pttGroupStatus.groupNum
            (.mInviteIndicate (some groupNum) speaker :: t.journal) = t.pttGroupStatus.speakerNum
          rw [← hg, lastIndication_indicated]
          exact hok' hb
      · exact .inr (.inr ((lastIndication_other hg speaker t.journal).trans hl))

theorem Truthful.indicateInCall (h : t.Truthful) {groupNum : Bytes} {speaker : Option Bytes}
    (hc : (t.singleCallActive && t.inSingleCall) = true)
    (hok : t.forgetsSpeaker groupNum speaker = false) :
    ((t.note (.mInviteIndicate (some groupNum) speaker)).indicateInCall groupNum speaker).Truthful := by
  unfold Terminal.indicateInCall
  split
  next hi => exact h.indicated (by rw [ignoresIndication, if_pos hc]; exact hi) hok
  next hi =>
    have hb : isStrBlank speaker = false := by
      simp only [Bool.or_eq_true, not_or, Bool.not_eq_true] at hi
      exact hi.2
    exact ⟨.inr (.inr (lastIndication_indicated groupNum speaker t.journal)), fun _ => hb⟩

theorem Truthful.indicateFree (h : t.Truthful) {groupNum : Bytes} {speaker : Option Bytes}
    (hc : ¬(t.singleCallActive && t.inSingleCall) = true) (hb : isStrBlank speaker = true)
    (hok : t.forgetsSpeaker groupNum speaker = false)
      (hn : t' = t.note (.mInviteIndicate (some groupNum)
      speaker) ∨ t' = (t.note (.mInviteIndicate (some groupNum) speaker)).clearCall) :
    (t'.indicateFree native groupNum speaker).Truthful := by
  have hst : t'.pttGroupStatus = t.pttGroupStatus := by obtain rfl | rfl := hn <;> rfl
  have hleft : t.pttGroupStatus.status = .accepted ∨ t.pttGroupStatus.status = .applying →
      t'.Truthful := by
    intro hs
    have ht : (t.note (.mInviteIndicate (some groupNum) speaker)).Truthful :=
      h.indicated (by rw [ignoresIndication, if_neg hc]; simpa [hb] using hs) hok
    obtain rfl | rfl := hn <;> exact ht
  unfold Terminal.indicateFree
  split
  next hs => exact hleft (.inl (hst ▸ hs))
  next hs => exact hleft (.inr (hst ▸ hs))
  next => exact ⟨.inr (.inl rfl), fun hl => by simp at hl⟩
  next =>
    dsimp only
    rw [endIndication_of_ne_idle (updateOwn_ne_idle (by simp))]
    refine ⟨.inr (.inl ?_), ?_⟩
    · show isStrBlank (Terminal.updateOwnPttState native _).pttGroupStatus.speakerNum = true
      exact (congrArg isStrBlank (updateOwn_free_speaker native _)).trans rfl
    · exact (FloorTrue.updateOwn (g := none) (floorTrue_free _) native).2

/-- The speaker is stored for the group that was indicated. -/
theorem truthful_indicateSpeaker {groupNum : Bytes} {speaker : Option Bytes}
    (hb : isStrBlank speaker = false) (hl : lastIndication (some groupNum) t.journal = speaker)
    (hok : t.isUser speaker = false → t.keepsRequest = true →
      some groupNum = t.pttGroupStatus.groupNum) (native : ℤ) :
    (t.indicateSpeaker native groupNum speaker).Truthful := by
  have hto : ∀ u : Terminal, u.FloorTrue (some groupNum) → u.pttGroupStatus.status ≠ .idle →
      ((u.updateOwnPttState native).endIndication groupNum speaker).Truthful := fun u hu hs => by
    rw [endIndication_of_ne_idle (updateOwn_ne_idle hs)]
    exact FloorTrue.updateOwn hu native
  have hsp : ((t.setStatus .listening).setSpeakerNum speaker).SpeakerTrue (some groupNum) := .inr hl
  unfold Terminal.indicateSpeaker
  dsimp only
  split
  next hu => exact hto _ (floorTrue_speaking _) (by simp)
  next hu =>
    split
    next hk =>
      have hg : some groupNum = t.pttGroupStatus.groupNum := hok (by simpa using hu) hk
      refine Truthful.updateOwn ?_ native
      show Terminal.FloorTrue t.pttGroupStatus.groupNum _
      rw [← hg]
      exact floorTrue_setStatus hsp fun _ => hb
    next => exact hto _ (floorTrue_setStatus hsp fun _ => hb) (by simp)

theorem Truthful.mInviteIndicate {groupNum speaker : Option Bytes} (h : t.Truthful)
    (hok : ∀ n, groupNum = some n → t.forgetsSpeaker n speaker = false ∧
      t.misplacesSpeaker n speaker = false) (native : ℤ) :
    (t.mInviteIndicate native groupNum speaker).Truthful := by
  cases groupNum with
  | none => exact truthful_clear _
  | some groupNum =>
    obtain ⟨hf, hm⟩ := hok groupNum rfl
    obtain ⟨hc, hi⟩ | ⟨hc, u, hu, hi⟩ := mInviteIndicate_cases native groupNum speaker t
    · rw [hi]
      exact h.indicateInCall hc hf
    · have hn : u = t.note (.mInviteIndicate (some groupNum) speaker) ∨
          u = (t.note (.mInviteIndicate (some groupNum) speaker)).clearCall :=
        hu.imp And.right And.right
      obtain ⟨hb, hi⟩ | ⟨hb, hi⟩ := hi
      · rw [hi]
        exact h.indicateFree (by simp [hc]) hb hf hn
      · have hl := lastIndication_indicated groupNum speaker t.journal
        have hg : t.isUser speaker = false → t.keepsRequest = true →
            some groupNum = t.pttGroupStatus.groupNum := fun hu hk => by
          have hu' : ¬speaker = some t.username := by simpa using hu
          simpa [misplacesSpeaker, hc, hb, hu', hk] using hm
        rw [hi]
        obtain rfl | rfl := hn
        · exact truthful_indicateSpeaker (t := t.note _) hb hl hg native
        · exact truthful_indicateSpeaker (t := (t.note _).clearCall) hb hl hg native

/-! ### Commands -/

/-- The user speaks, and a speaker is stored whom no indication for the group named last. -/
def speechUntrue (t : Terminal) : Bool :=
  t.pttGroupStatus.status = .speaking && !decide (t.SpeakerTrue t.pttGroupStatus.groupNum)

theorem Truthful.speakerTrue (h : t.Truthful) (hs : t.speechUntrue = false) :
    t.SpeakerTrue t.pttGroupStatus.groupNum := by
  by_cases hp : t.pttGroupStatus.status = .speaking
  · simpa [speechUntrue, hp] using hs
  · exact FloorTrue.speakerTrue h hp

/-- An application ends a speech that was not indicated, or takes the speaker to another group. -/
def applyMisleads (t : Terminal) : Bool :=
  !t.exitFlag && !(t.bPttErrorShowing && t.ui.topActivity = .alert) && t.registered &&
    (t.speechUntrue || (!t.lstGroupData.isEmpty && isStrBlank t.pttGroupStatus.groupNum &&
      t.getCurrentGroupInfo.isSome && !isStrBlank t.pttGroupStatus.speakerNum))

/-- A cancellation ends a speech that was not indicated. -/
def cancelMisleads (t : Terminal) : Bool := !t.exitFlag && t.speechUntrue

theorem Truthful.requestApplyPttRight (h : t.Truthful) (groupNumber : Bytes) :
    (t.requestApplyPttRight native groupNumber).Truthful := by
  unfold Terminal.requestApplyPttRight
  split
  · exact h
  · dsimp only
    split
    · have hb : (t.setBPttErrorShowing true).Truthful := h
      exact (hb.note fun _ => rfl).checkResult native
    · exact (h.note fun _ => rfl).checkResult native

theorem Truthful.applyPttRight (h : t.Truthful)
    (hg : isStrBlank t.pttGroupStatus.groupNum = true → t.getCurrentGroupInfo.isSome = true →
      isStrBlank t.pttGroupStatus.speakerNum = true) (native : ℤ) :
    (t.applyPttRight native).Truthful := by
  unfold Terminal.applyPttRight
  split
  · exact h
  next grpNum hgrp =>
    refine Truthful.requestApplyPttRight ?_ grpNum
    unfold applyGroup at hgrp
    split at hgrp
    next hb =>
      have hs : t.getCurrentGroupInfo.isSome = true := by
        cases hi : t.getCurrentGroupInfo with
        | none => simp [hi] at hgrp
        | some i => rfl
      exact ⟨.inr (.inl (hg hb hs)), h.2⟩
    next =>
      show Terminal.FloorTrue (some grpNum) _
      rw [← hgrp]
      exact h

theorem Truthful.handleApply (h : t.Truthful) (hx : t.exitFlag = false)
    (hok : t.applyMisleads = false) (native : ℤ) : (t.handleApply native).Truthful := by
  obtain ⟨b, hb⟩ := isbPttErrorShowing_eq t
  unfold Terminal.handleApply
  dsimp only
  rw [hb]
  split
  · exact h
  next hp =>
    have hp' : t.isbPttErrorShowing.1 = false ∧ t.registered = true := by simpa using hp
    rw [isbPttErrorShowing_fst] at hp'
    have hok' : t.speechUntrue = false ∧ (t.lstGroupData.isEmpty = false →
        isStrBlank t.pttGroupStatus.groupNum = true → t.getCurrentGroupInfo.isSome = true →
          isStrBlank t.pttGroupStatus.speakerNum = true) := by
      simpa [applyMisleads, hx, hp'.1, hp'.2] using hok
    have ht : t.SpeakerTrue t.pttGroupStatus.groupNum := h.speakerTrue hok'.1
    have hset : ∀ s : PttStatus, s ≠ .listening →
        ((t.setBPttErrorShowing b).setStatus s).Truthful := fun s hs =>
      floorTrue_setStatus (t := t.setBPttErrorShowing b) ht fun hl => absurd hl hs
    split
    next => exact hset .init (by simp)
    next hl =>
      have hl' : t.lstGroupData.isEmpty = false := by simpa using hl
      exact (hset .applying (by simp)).applyPttRight (hok'.2 hl') native

theorem Truthful.handleCancel (h : t.Truthful) (hs : t.speechUntrue = false) (native : ℤ) :
    (t.handleCancel native).Truthful := by
  unfold Terminal.handleCancel
  have hb : (t.setStatus (if isStrBlank t.pttGroupStatus.speakerNum then .free
      else .listening)).Truthful := floorTrue_bySpeaker (h.speakerTrue hs)
  exact hb.cancelPttRight native

theorem truthful_handleHangup (t : Terminal) : t.handleHangup.Truthful := by
  have hf : (t.free.setCallState .ending).Truthful := floorTrue_free t
  rw [handleHangup_eq]
  exact hf.hangupPttCall

theorem Truthful.handleMakeCall (h : t.Truthful) (native : ℤ) (number : Option Bytes) :
    (t.handleMakeCall native number).Truthful := by
  obtain ⟨c, b, hc | hc⟩ := handleMakeCall_eq native number t
  · rw [hc]
    exact h
  · have hb : ({ t with currentCallState := c, bForceInSC := b } : Terminal).Truthful := h
    rw [hc]
    exact hb.checkResult native

theorem Truthful.handleSingleCall (h : t.Truthful) (native : ℤ) {e : ℤ → Entry}
    (he : ∀ g i, (e i).indicates g = none) : (t.handleSingleCall native e).Truthful := by
  have hn : (t.note (e t.currentCallState.callId)).Truthful := h.note fun g => he g _
  obtain hs | ⟨c, b, hs⟩ := handleSingleCall_eq native e t
  · rw [hs]
    exact h
  · rw [hs]
    exact hn

theorem Truthful.handleCommand (h : t.Truthful) (native : ℤ) (c : Command)
    (ha : c = .applyPttRight → t.applyMisleads = false)
    (hc : c = .cancelPttRight → t.cancelMisleads = false) :
    (t.handleCommand native c).Truthful := by
  unfold Terminal.handleCommand
  split
  · exact h
  next hx =>
    have hx' : t.exitFlag = false := by simpa using hx
    cases c with
    | hangupPttCall => exact truthful_handleHangup t
    | applyPttRight => exact h.handleApply hx' (ha rfl) native
    | cancelPttRight => exact h.handleCancel (by simpa [cancelMisleads, hx'] using hc rfl) native
    | openPttUi =>
      dsimp only
      split
      · exact h
      · unfold Terminal.isbPttErrorShowing
        split <;> exact h
    | startApp => exact h
    | updatePttUi =>
      show Terminal.Truthful t.isbPttErrorShowing.2
      unfold Terminal.isbPttErrorShowing
      split <;> exact h
    | closePtt => exact truthful_clear _
    | makeCall number => exact h.handleMakeCall native number
    | sendDtmf => exact h
    | answerCall => exact h.handleSingleCall native fun _ _ => rfl
    | hangupCall => exact h.handleSingleCall native fun _ _ => rfl

/-! ### Responses -/

theorem truthful_setStatus (h : t.SpeakerTrue t.pttGroupStatus.groupNum) (hl : s ≠ .listening) :
    (t.setStatus s).Truthful := floorTrue_setStatus h fun hs => absurd hs hl

theorem Truthful.receivePttRightResponse (h : t.Truthful)
    (ho : Event.ofNative (.receivePttRightResponse native s)) :
    (t.receivePttRightResponse native s).Truthful := by
  have hn : (t.note (.response s)).Truthful := h.note fun _ => rfl
  obtain ⟨-, he⟩ | ⟨hp, hcases⟩ := receivePttRightResponse_cases t ho
  · rw [he]
    exact hn
  have ht : (t.note (.response s)).SpeakerTrue t.pttGroupStatus.groupNum :=
    FloorTrue.speakerTrue hn hp
  obtain ⟨rfl, he⟩ | ⟨hs, he⟩ | ⟨rfl, he⟩ := hcases
  · rw [he]
    exact (truthful_setStatus ht (by simp)).updateOwn native
  · rw [he]
    refine Truthful.updateOwn ?_ native
    split
    · exact floorTrue_bySpeaker ht
    · exact truthful_setStatus ht (by obtain rfl | rfl := hs <;> simp)
  · rw [he]
    split
    · exact ⟨.inr (.inl rfl), fun hl => by simp at hl⟩
    · exact truthful_clear _

/-- A waiting or rejected response ends a speech that was not indicated. -/
def responseMisleads (obj : PttGroupStatus) (t : Terminal) : Bool :=
  (obj.status = .waiting || obj.status = .rejected) && t.ePttKeyStatus = .up && t.speechUntrue

theorem Truthful.updatePttState (h : t.Truthful) {obj : PttGroupStatus}
    (ho : Event.ofNative (.updatePttState native obj)) (hok : t.responseMisleads obj = false) :
    (t.updatePttState native obj).Truthful := by
  have hn : (t.note (.response obj.status)).Truthful := h.note fun _ => rfl
  obtain he | ⟨hf, hnone, he⟩ | ⟨hw, hk, he⟩ := updatePttState_cases t ho
  · rw [he]
    exact hn
  · rw [he]
    refine ⟨.inr (.inl ?_), fun hl => ?_⟩
    · show isStrBlank obj.speakerNum = true
      rw [hnone]
      rfl
    · have hl' : obj.status = .listening := hl
      simp [hf] at hl'
  · have hst : t.speechUntrue = false := by
      rw [← Bool.not_eq_true]
      intro hu
      have hp : t.pttGroupStatus.status = .speaking := by
        simp only [speechUntrue, Bool.and_eq_true, decide_eq_true_eq] at hu
        exact hu.1
      have hup : t.ePttKeyStatus = .up := by
        cases hk' : t.ePttKeyStatus with
        | up => rfl
        | down => exact absurd ⟨hp, hk'⟩ hk
      have hok' : obj.status ≠ .waiting ∧ obj.status ≠ .rejected := by
        simpa [responseMisleads, hup, hu] using hok
      exact hw.elim hok'.1 hok'.2
    have ht : (t.note (.response obj.status)).SpeakerTrue t.pttGroupStatus.groupNum :=
      Truthful.speakerTrue hn hst
    have hset : ((t.note (.response obj.status)).setCurrentPttState { obj with
        groupNum := t.pttGroupStatus.groupNum
        speakerNum := t.pttGroupStatus.speakerNum }).FloorTrue t.pttGroupStatus.groupNum := by
      refine ⟨.inr ht, fun hl => ?_⟩
      have hl' : obj.status = .listening := hl
      obtain hw | hw := hw <;> simp [hw] at hl'
    have hd := hset.settled he
    unfold Truthful
    rw [he.onlyFloor.groupNum]
    exact hd

/-! ### Calls -/

theorem Truthful.jniUpdateCallState (h : t.Truthful) (cs : CallState) :
    (t.jniUpdateCallState cs).Truthful := by
  obtain ⟨c, hc⟩ := jniUpdateCallState_eq cs t
  rw [hc]
  exact h

theorem Truthful.otherCall (h : t.Truthful) (iPttStatus : PttStatus) (cs : CallState) :
    (t.otherCall iPttStatus cs).Truthful := by
  obtain ho | ho | ⟨-, -, -, -, ho⟩ := otherCall_cases iPttStatus cs t
  · rw [ho]
    exact h
  · rw [ho]
    exact h.jniUpdateCallState cs
  · rw [ho]
    exact h

theorem Truthful.requestHangup (h : t.Truthful) (callId : ℤ) :
    (t.requestHangup callId).Truthful := by
  unfold Terminal.requestHangup
  split
  · exact h
  · exact h.note fun _ => rfl

theorem Truthful.showCallError (h : t.Truthful) (cs : CallState) :
    (t.showCallError cs).Truthful := by
  have hset : ∀ u : Terminal, u.Truthful →
      (if cs.errorCode = 504 then u.requestHangup cs.callId else u).Truthful := fun u hu => by
    split
    · exact hu.requestHangup cs.callId
    · exact hu
  have hf : t.free.Truthful := floorTrue_free t
  obtain ⟨u, hu, ⟨-, rfl | rfl⟩ | ⟨-, rfl | ⟨b, rfl⟩⟩⟩ := showCallError_cases cs t
  · rw [hu]
    exact hset _ h
  · rw [hu]
    exact hset _ (h.jniUpdateCallState cs)
  · rw [hu]
    exact hset _ h
  · rw [hu]
    exact hset _ hf

theorem Truthful.answerGroup (h : t.Truthful) (hs : t.pttGroupStatus.status ≠ .speaking) :
    t.answerGroup.Truthful := by
  unfold Terminal.answerGroup
  split
  next hn =>
    split
    next g _ =>
      have hnone : t.pttGroupStatus.groupNum = none := by simpa using hn
      have hb : isStrBlank t.pttGroupStatus.speakerNum = true :=
        FloorTrue.blank_of_none (hnone ▸ h : t.FloorTrue none) hs
      exact ⟨.inr (.inl hb), h.2⟩
    next => exact h
  next => exact h

/-- The held key makes the user the speaker in the place of another one, where the screen of a
single call covers the update. -/
def callMisleads (cs : CallState) (t : Terminal) : Bool :=
  t.ePttKeyStatus = .down && !checkErrorCode cs.errorCode && t.checkIsGroupNum cs.number &&
    !t.bForceInSC && cs.callState = .talking && !isEmptyStr t.pttGroupStatus.speakerNum &&
    !t.isUser t.pttGroupStatus.speakerNum && t.isSingleCallOnTop &&
    (t.storeCall cs).awaitsTalk t.pttGroupStatus.status cs

theorem Truthful.groupAnswered (h : t.Truthful) (hs : t.pttGroupStatus.status ≠ .speaking)
    (hc : t.callState = .talking)
    (hok : t.ePttKeyStatus = .down → isEmptyStr t.pttGroupStatus.speakerNum = false →
      t.isUser t.pttGroupStatus.speakerNum = false → t.inSingleCall = false)
    (native : ℤ) (cs : CallState) : (t.groupAnswered native cs).Truthful := by
  obtain ⟨n, hn⟩ := answerGroup_eq t
  have hg : (t.setGroupNum n).Truthful := hn ▸ h.answerGroup hs
  unfold Terminal.groupAnswered
  rw [hn]
  cases hk : t.ePttKeyStatus with
  | up =>
    rw [answerSpeaker_keyUp (t := t.setGroupNum n) hk]
    split
    · exact Truthful.updateOwn (t := ((t.setGroupNum n).setStatus .speaking).setCallId cs.callId)
        (floorTrue_speaking _) native
    · exact Truthful.updateOwn (t := (t.setGroupNum n).setCallId cs.callId) hg native
  | down =>
    rw [answerSpeaker_keyDown (t := t.setGroupNum n) hk]
    split
    · exact Truthful.updateOwn (t := (((t.setGroupNum n).setStatus .speaking).setSpeakerNum
        (some t.username)).setCallId cs.callId) ⟨.inl rfl, fun hl => by simp at hl⟩ native
    next hu =>
      have hu' : t.isUser t.pttGroupStatus.speakerNum = false ∧
          isEmptyStr t.pttGroupStatus.speakerNum = false := by
        simpa using hu
      have htalk := updateOwn_talks (t := ((t.setGroupNum n).setSpeakerNum
        (some t.username)).setCallId cs.callId) (hok hk hu'.2 hu'.1) hk (by simp) hc hs native
      exact ⟨.inl htalk, fun hl => absurd (htalk.symm.trans hl) (by simp)⟩

theorem Truthful.groupTalking (h : t.Truthful) (hc : t.callState = .talking) {cs : CallState}
    (hok : t.awaitsTalk t.pttGroupStatus.status cs = true → t.ePttKeyStatus = .down →
      isEmptyStr t.pttGroupStatus.speakerNum = false →
        t.isUser t.pttGroupStatus.speakerNum = false →
      t.inSingleCall = false) (native : ℤ) :
    (t.groupTalking native t.pttGroupStatus.status cs).Truthful := by
  unfold Terminal.groupTalking
  split
  · exact h
  next ha =>
    have ha' : t.awaitsTalk t.pttGroupStatus.status cs = true := by simpa using ha
    have hs : t.pttGroupStatus.status ≠ .speaking := fun hs => by simp [awaitsTalk, hs] at ha'
    split
    · exact h.groupAnswered hs hc (hok ha') native cs
    · exact h.hangupPttCall

theorem Truthful.groupRinging (h : t.Truthful) (iPttStatus : PttStatus) (cs : CallState) :
    (t.groupRinging iPttStatus cs).2.Truthful := by
  have ha : ((t.setCallId cs.callId).note (.requestAnswer cs.callId)).Truthful := h
  have hr : (if t.ePttKeyStatus ≠ .down then t.requestHangup cs.callId else t).Truthful := by
    split
    · exact h.requestHangup cs.callId
    · exact h
  cases iPttStatus <;> first | exact ha | exact hr

theorem Truthful.groupEnded (h : t.Truthful) (native : ℤ) :
    (t.groupEnded native t.pttGroupStatus.status).2.Truthful := by
  have hf : (((t.setSpeakerNum none).setStatus .free).updateOwnPttState native).Truthful :=
    Truthful.updateOwn (floorTrue_free t) native
  have hend : t.pttGroupStatus.status ≠ .speaking → ((t.setStatus
      (if isStrBlank t.pttGroupStatus.speakerNum then .free else .listening)).updateOwnPttState
        native).Truthful := fun hs =>
    Truthful.updateOwn (floorTrue_bySpeaker (FloorTrue.speakerTrue h hs)) native
  have hcancel : t.pttGroupStatus.status ≠ .speaking →
      (((t.cancelPttRight native).setStatus .canceling).updateOwnPttState native).Truthful :=
        fun hs => by
    refine Truthful.updateOwn (truthful_setStatus ?_ (by simp)) native
    rw [(onlyFloor_cancelPttRight native t).groupNum]
    exact (FloorTrue.speakerTrue h hs).cancelPttRight native
  obtain he | he | ⟨hs, he | he⟩ := groupEnded_cases native t.pttGroupStatus.status t
  · rw [he]
    exact h
  · rw [he]
    exact hf
  · rw [he]
    exact hcancel hs
  · rw [he]
    exact hend hs

theorem Truthful.groupCall (h : t.Truthful) {cs : CallState}
    (hok : cs.callState = .talking → (t.storeCall cs).awaitsTalk t.pttGroupStatus.status cs = true →
      t.ePttKeyStatus = .down → isEmptyStr t.pttGroupStatus.speakerNum = false →
      t.isUser t.pttGroupStatus.speakerNum = false → t.inSingleCall = false) (native : ℤ) :
    (t.groupCall native t.pttGroupStatus.status cs).2.Truthful := by
  obtain ⟨i, hi⟩ := storeCall_eq cs t
  have hs : ((t.setCallId i).setCallState cs.callState).Truthful := h
  rw [hi] at hok
  unfold Terminal.groupCall
  rw [hi]
  dsimp only
  split
  next => exact hs.groupRinging _ cs
  next ht => exact hs.groupTalking ht (hok ht) native
  next => exact hs.groupEnded native
  next => exact hs

theorem Truthful.showCallState (h : t.Truthful) {cs : CallState} (hok : t.callMisleads cs = false)
    (native : ℤ) : (t.showCallState native cs).Truthful := by
  have hn : (t.note (.callState cs)).Truthful := h.note fun _ => rfl
  unfold Terminal.showCallState
  dsimp only
  split
  · exact hn.showCallError cs
  next he =>
    split
    next hg =>
      split
      · exact hn.jniUpdateCallState cs
      next hforce =>
        have hc :
          ((t.note (.callState cs)).groupCall native t.pttGroupStatus.status cs).2.Truthful := by
          refine hn.groupCall (fun ht ha hk hsp hu => ?_) native
          have hforce' : t.bForceInSC = false := by simpa using hforce
          have hk' : t.ePttKeyStatus = .down := hk
          have he' : checkErrorCode cs.errorCode = false := by simpa using he
          have hg' : t.checkIsGroupNum cs.number = true := hg
          have ha' : (t.storeCall cs).awaitsTalk t.pttGroupStatus.status cs = true := by
            have hcall : ((t.note (.callState cs)).storeCall cs).pttGroupStatus =
                (t.storeCall cs).pttGroupStatus := by
              unfold storeCall
              split <;> rfl
            unfold awaitsTalk at ha ⊢
            rw [hcall] at ha
            exact ha
          have hsp' : isEmptyStr t.pttGroupStatus.speakerNum = false := hsp
          have hu' : t.isUser t.pttGroupStatus.speakerNum = false := hu
          show (t.bForceInSC || t.isSingleCallOnTop) = false
          unfold callMisleads at hok
          rw [he', hg', ha', hsp', hu', hforce'] at hok
          simpa [hforce', hk', ht] using hok
        split
        · exact hc
        · exact hc.otherCall _ cs
    next => exact hn.otherCall _ cs

/-! ### Keys -/

theorem Truthful.handlePttDown (h : t.Truthful) : t.handlePttDown.Truthful := by
  obtain hc | hc | hc | hc := handlePttDown_cases t <;> rw [hc] <;> exact h

theorem Truthful.resumePttUp (h : t.Truthful) : t.resumePttUp.Truthful := by
  have hr : t.pttGroupStatus.status ≠ .speaking →
      (((({ t with releasing := false } : Terminal).setRejectReason (-1)).setStatus
        (if isStrBlank t.pttGroupStatus.speakerNum then .free else .listening)).sendPttCommand
        .updatePttUi).Truthful := fun hs =>
    floorTrue_bySpeaker (t := ({ t with releasing := false } : Terminal).setRejectReason (-1))
      (FloorTrue.speakerTrue h hs)
  unfold Terminal.resumePttUp
  dsimp only
  split
  next => exact h
  next => exact h
  next => exact h
  next => exact h
  next hs => exact hr (by simp [hs])
  next hs => exact hr (by simp [hs])
  next => exact h

/-- The command that is received first. -/
def commandMisleads (t : Terminal) : Bool :=
  match t.commands.head? with
  | some .applyPttRight => t.applyMisleads
  | some .cancelPttRight => t.cancelMisleads
  | _ => false

theorem Truthful.deliver (h : t.Truthful) (hok : t.commandMisleads = false) (native : ℤ) :
    (t.deliver native).Truthful := by
  unfold Terminal.deliver
  split
  · exact h
  next c cs hcs =>
    have hh : t.commands.head? = some c := by rw [hcs]; rfl
    refine Truthful.handleCommand (t := { t with commands := cs }) h native c ?_ ?_
    · rintro rfl
      have ha : t.applyMisleads = false := by simpa [commandMisleads, hh] using hok
      exact ha
    · rintro rfl
      have ha : t.cancelMisleads = false := by simpa [commandMisleads, hh] using hok
      exact ha

/-! ### Runs -/

/-- The steps that keep the stored speaker true. -/
def keepsTruth (t : Terminal) : Event → Bool
  | .mInviteIndicate _ (some groupNum) speaker =>
    !t.forgetsSpeaker groupNum speaker && !t.misplacesSpeaker groupNum speaker
  | .deliver _ => !t.commandMisleads
  | .updatePttState _ obj => !t.responseMisleads obj
  | .showCallState _ cs => !t.callMisleads cs
  | _ => true

theorem Truthful.handle {e : Event} (h : t.Truthful) (ho : e.ofNative) (hg : e.keepsGroups)
    (hok : t.keepsTruth e) : (e.handle t).Truthful := by
  cases e with
  | keyDown => exact h.handlePttDown
  | keyUpResume => exact h.resumePttUp
  | deliver native => exact h.deliver (by simpa [keepsTruth] using hok) native
  | mInviteIndicate native groupNum speaker =>
    refine h.mInviteIndicate (fun n hn => ?_) native
    subst hn
    simpa [keepsTruth] using hok
  | mByeIndicate => exact truthful_clear t
  | receivePttRightResponse native s => exact h.receivePttRightResponse ho
  | updatePttState native obj => exact h.updatePttState ho (by simpa [keepsTruth] using hok)
  | showCallState native cs => exact h.showCallState (by simpa [keepsTruth] using hok) native
  | receiveGroupInfo native groupInfos => simp [Event.keepsGroups] at hg
  | receiveMessage number =>
    unfold Event.handle jniReceiveMessage
    dsimp only
    split <;> exact h
  | clear => exact truthful_clear t
  | _ => exact h

theorem Fresh.truthful (h : t.Fresh) : t.Truthful := by
  constructor
  · rw [h.status]
    exact .inr (.inl (by rw [h.status]; rfl))
  · intro hl
    simp [h.status] at hl

end

end Terminal

/-- In every run whose steps all meet the condition, a terminal that listens listens to the speaker
whom the latest indication for its group named. -/
theorem runs_listensTruly {t : Terminal}
    (h : (terminal Terminal.Fresh fun e => e.ofNative && e.keepsGroups).Reached
      (fun t e => t.keepsTruth e) t) : t.ListensTruly := by
  have ht : t.Truthful := h.invariant (fun s (hs : s.Fresh) => hs.truthful)
    fun s e (hs : s.Truthful) he hok => by
      have he' : e.ofNative = true ∧ e.keepsGroups = true := by
        rw [← Bool.and_eq_true]
        exact he.1
      exact hs.handle he'.1 he'.2 hok
  exact ht.listensTruly

/-- The user asks for the floor while somebody speaks and gives up, and another one speaks. -/
theorem listens_after_request :
    let t := (terminal Terminal.Fresh fun e => e.ofNative && e.keepsGroups).run .ready
      [.mInviteIndicate 0 (some (ascii "8001")) (some (ascii "101")), .keyDown, .deliver 0,
        .keyUp, .keyUpResume, .deliver 0,
        .mInviteIndicate 0 (some (ascii "8001")) (some (ascii "102"))]
    t.pttGroupStatus.status = .listening ∧ t.ListensTruly :=
  ⟨by decide, runs_listensTruly (System.reached_run fresh_ready (by decide))⟩

/-- The floor gets free while the user applies, and the application is cancelled: the terminal goes
on listening to the one who has gone. -/
theorem cancelled_request_listens :
    let t := (terminal Terminal.Fresh fun e => e.ofNative && e.keepsGroups).run .ready
      [.mInviteIndicate 0 (some (ascii "8001")) (some (ascii "101")), .keyDown, .deliver 0,
        .mInviteIndicate 0 (some (ascii "8001")) none, .keyUp, .keyUpResume, .deliver 0]
    (terminal Terminal.Fresh fun e => e.ofNative && e.keepsGroups).Reached (fun _ _ => True) t ∧
      ¬t.ListensTruly :=
  ⟨System.reached_run fresh_ready (by decide), by decide⟩

end PttTerminal
