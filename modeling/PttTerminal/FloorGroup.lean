import PttTerminal.FloorRequests

/-!
# The group that is asked for and cancelled

An application takes the stored group, or else the selected one; a cancellation takes the first of
the list. They agree as long as applications are for the first group and the list keeps it first,
which `addressesApplied` asks of the steps: floor indications, selections and new lists are free
otherwise.
-/
namespace PttTerminal

open Runs Journals

/-- The group of the most recent request. -/
def lastApplied (es : List Entry) : Option Bytes :=
  latest (fun
    | .requestApplyPttRight g _ _ => some g
    | _ => none) es

/-- A cancellation is for the group of the most recent request, which was for a group of the
list. -/
def Addressed : Entry → List Entry → Prop
  | .requestCancelPttRight h, es => lastApplied es = some h
  | .requestApplyPttRight g numbers _, _ => g ∈ numbers
  | _, _ => True

instance : (e : Entry) → (es : List Entry) → Decidable (Addressed e es)
  | .requestCancelPttRight h, es => inferInstanceAs (Decidable (lastApplied es = some h))
  | .requestApplyPttRight g numbers _, _ => inferInstanceAs (Decidable (g ∈ numbers))
  | .status _, _ | .command _, _ | .mInviteIndicate .., _ | .response _, _ | .callState _, _ |
    .hangupPttCall _, _ | .requestHangup _, _ | .requestAnswer _, _ => isTrue trivial

/-- An entry that neither requests nor cancels. -/
def Entry.keepsGroup : Entry → Bool
  | .requestCancelPttRight _ | .requestApplyPttRight .. => false
  | _ => true

/-- Group updates and selections, indications, keys, commands, and whatever changes the screen. -/
def Event.ofGroup : Event → Bool
  | .receivePttRightResponse .. | .updatePttState .. | .showCallState .. => false
  | _ => true

namespace Terminal

/-- Cancellations address the group applied for, and applications a group of the list. -/
def RequestsAddressed (t : Terminal) : Prop := Throughout Addressed t.journal

instance (t : Terminal) : Decidable t.RequestsAddressed :=
  inferInstanceAs (Decidable (Throughout Addressed t.journal))

/-- The number of the first group. -/
def firstNumber (t : Terminal) : Option Bytes := t.getPttGroup.map GroupEntry.number

/-- The list is empty or begins with the group of the most recent request. -/
def KeepsFirst (t : Terminal) : Prop :=
  t.lstGroupData = [] ∨ lastApplied t.journal = none ∨ lastApplied t.journal = t.firstNumber

def GroupKept (t : Terminal) : Prop := t.RequestsAddressed ∧ t.KeepsFirst

section
variable {native : ℤ} {t t' : Terminal}

/-! ### Writes -/

theorem GroupKept.note (h : t.GroupKept) {e : Entry} (he : e.keepsGroup) :
    (t.note e).GroupKept := by
  have hl : lastApplied (e :: t.journal) = lastApplied t.journal :=
    latest_cons_of_none (by cases e <;> first | rfl | simp [Entry.keepsGroup] at he) _
  have ha : Addressed e t.journal := by
    cases e <;> trivial
  refine ⟨⟨ha, h.1⟩, ?_⟩
  unfold KeepsFirst
  rw [note_journal, hl]
  exact h.2

theorem GroupKept.setStatus (h : t.GroupKept) (s : PttStatus) : (t.setStatus s).GroupKept :=
  h.note (e := .status s) rfl

theorem GroupKept.clear (h : t.GroupKept) : t.clear.GroupKept := h.note (e := .status .idle) rfl

theorem GroupKept.sendPttCommand (h : t.GroupKept) (c : Command) : (t.sendPttCommand c).GroupKept :=
  h.note (e := .command c) rfl

theorem GroupKept.checkResult (h : t.GroupKept) (result : ℤ) :
    (t.checkResult result).GroupKept := by
  have hf : ((t.setSpeakerNum none).setStatus .free).GroupKept := h.setStatus .free
  unfold Terminal.checkResult
  split
  · dsimp only
    split
    · exact hf
    · exact hf
  · exact h

theorem GroupKept.hangupPttCall (h : t.GroupKept) : t.hangupPttCall.GroupKept := by
  unfold Terminal.hangupPttCall
  split
  · exact h
  · exact h.note rfl

theorem GroupKept.isbPttErrorShowing (h : t.GroupKept) : t.isbPttErrorShowing.2.GroupKept := by
  obtain ⟨b, hb⟩ := isbPttErrorShowing_eq t
  rw [hb]
  exact h

/-! ### Requests -/

theorem GroupKept.cancelPttRight (h : t.GroupKept)
    (hl : t.lstGroupData = [] ∨ lastApplied t.journal ≠ none) (native : ℤ) :
    (t.cancelPttRight native).GroupKept := by
  unfold Terminal.cancelPttRight
  cases hg : t.getPttGroup with
  | none => exact h
  | some g =>
    have hne : t.lstGroupData ≠ [] := by
      intro hnil
      simp [getPttGroup, hnil] at hg
    have hf : lastApplied t.journal = some g.number := by
      obtain h | h | h := h.2
      · exact absurd h hne
      · exact absurd h (hl.resolve_left hne)
      · rw [h, firstNumber, hg]
        rfl
    have hn : (t.note (.requestCancelPttRight g.number)).GroupKept := ⟨⟨hf, h.1⟩, h.2⟩
    exact hn.checkResult native

theorem GroupKept.applyPttRight (h : t.GroupKept)
    (hg : t.applyGroup = none ∨ t.applyGroup = t.firstNumber) (native : ℤ) :
    (t.applyPttRight native).GroupKept := by
  unfold Terminal.applyPttRight
  cases ha : t.applyGroup with
  | none => exact h
  | some g =>
    have hf : t.firstNumber = some g := by
      obtain hg | hg := hg
      · simp [ha] at hg
      · rw [← hg, ha]
    have hmem : g ∈ t.lstGroupData.map GroupEntry.number := by
      unfold firstNumber getPttGroup at hf
      cases hl : t.lstGroupData with
      | nil => simp [hl] at hf
      | cons e es =>
        have he : e.number = g := by simpa [hl] using hf
        simp [he]
    have hn : ∀ b, (((t.setGroupNum (some g)).setBPttErrorShowing b).note (.requestApplyPttRight g
        (t.lstGroupData.map GroupEntry.number) native)).GroupKept := fun b =>
      ⟨⟨hmem, h.1⟩, .inr (.inr hf.symm)⟩
    dsimp only [requestApplyPttRight]
    split
    · exact h
    · split
      · exact (hn true).checkResult native
      · exact (hn t.bPttErrorShowing).checkResult native

/-! ### Updates and indications -/

/-- An update cancels only the request of a released key. -/
theorem GroupKept.settled (h : t.GroupKept) (hs : Settled native t t')
    (hno : t.ePttKeyStatus = .down ∨ t.asking = false) : t'.GroupKept := by
  have hf : ∀ u : Terminal, u.GroupKept → u.free.GroupKept := fun u hu => hu.setStatus .free
  cases hs with
  | kept => exact h
  | speaks => exact h.setStatus .speaking
  | starts => exact (h.setStatus .speaking).setStatus .speaking
  | silenced =>
    refine hf _ ?_
    unfold hangupIfTalking
    split
    · exact h.hangupPttCall
    · exact h
  | hungUp => exact h.hangupPttCall
  | cancelled _ hk hw =>
    obtain hd | ha := hno
    · simp [hk] at hd
    · obtain hw | hw := hw <;> simp [asking, hw] at ha
  | forgotten => exact hf t h

theorem GroupKept.updateOwn (h : t.GroupKept) (hno : t.ePttKeyStatus = .down ∨ t.asking = false) :
    (t.updateOwnPttState native).GroupKept := by
  obtain ⟨t₁, h₁ | h₁, hs⟩ := updateOwn_settled native t
  · subst h₁
    exact h.settled hs hno
  · have hk : t₁.GroupKept := h₁ ▸ h.setStatus t.pttGroupStatus.status
    refine hk.settled hs ?_
    rw [h₁]
    exact hno

theorem GroupKept.endIndication (h : t.GroupKept) (groupNum : Bytes) (speaker : Option Bytes) :
    (t.endIndication groupNum speaker).GroupKept := by
  unfold Terminal.endIndication
  dsimp only
  split
  · exact GroupKept.setStatus (t := (t.setGroupNum (some groupNum)).setSpeakerNum speaker) h _
  · exact h

theorem GroupKept.indicateFree (h : t.GroupKept) (native : ℤ) (groupNum : Bytes)
    (speaker : Option Bytes) : (t.indicateFree native groupNum speaker).GroupKept := by
  unfold Terminal.indicateFree
  split
  · exact h
  · exact h
  · exact h.hangupPttCall.setStatus .applying
  · have hf : ∀ u : Terminal, u.GroupKept →
      (((u.setStatus .free).setSpeakerNum none).updateOwnPttState
        native).GroupKept := fun u hu =>
      GroupKept.updateOwn (t := (u.setStatus .free).setSpeakerNum none) (hu.setStatus .free)
        (.inr (by simp [asking]))
    refine GroupKept.endIndication (hf _ ?_) groupNum speaker
    split
    · exact h.hangupPttCall
    · exact h

theorem GroupKept.indicateSpeaker (h : t.GroupKept) (native : ℤ) (groupNum : Bytes)
    (speaker : Option Bytes) : (t.indicateSpeaker native groupNum speaker).GroupKept := by
  have hl : ((t.setStatus .listening).setSpeakerNum speaker).GroupKept := h.setStatus .listening
  unfold Terminal.indicateSpeaker
  dsimp only
  split
  · exact ((hl.setStatus .speaking).updateOwn (.inr (by simp [asking]))).endIndication groupNum speaker
  · split
    next hk =>
      refine (hl.setStatus t.pttGroupStatus.status).updateOwn (.inl ?_)
      simp only [keepsRequest, Bool.and_eq_true, decide_eq_true_eq] at hk
      exact hk.1
    next =>
      exact ((hl.setStatus .listening).updateOwn (.inr (by simp [asking]))).endIndication groupNum speaker

theorem GroupKept.mInviteIndicate (h : t.GroupKept) (native : ℤ) (groupNum speaker : Option Bytes) :
    (t.mInviteIndicate native groupNum speaker).GroupKept := by
  have hn : (t.note (.mInviteIndicate groupNum speaker)).GroupKept := h.note rfl
  cases groupNum with
  | none => exact hn.clear
  | some groupNum =>
    obtain ⟨-, hi⟩ | ⟨-, u, hu, hi⟩ := mInviteIndicate_cases native groupNum speaker t
    · rw [hi]
      unfold indicateInCall
      split
      · exact hn
      · exact hn.setStatus .listening
    · have hk : u.GroupKept := by
        obtain ⟨-, rfl⟩ | ⟨-, rfl⟩ := hu
        · exact hn
        · exact hn
      obtain ⟨-, hi⟩ | ⟨-, hi⟩ := hi
      · rw [hi]
        exact hk.indicateFree native groupNum speaker
      · rw [hi]
        exact hk.indicateSpeaker native groupNum speaker

/-! ### Commands -/

theorem GroupKept.handleApply (h : t.GroupKept)
    (hg : t.opensApply = true → t.applyGroup = none ∨ t.applyGroup = t.firstNumber) (native : ℤ) :
    (t.handleApply native).GroupKept := by
  have hb := h.isbPttErrorShowing
  obtain ⟨b, hb'⟩ := isbPttErrorShowing_eq t
  unfold Terminal.handleApply
  dsimp only
  rw [hb'] at hb ⊢
  split
  · exact hb
  next hr =>
    split
    · exact hb.setStatus .init
    next hl =>
      have hr' : t.isbPttErrorShowing.1 = false ∧ t.registered = true := by
        simpa using hr
      have hl' : t.lstGroupData.isEmpty = false := Bool.eq_false_iff.mpr hl
      have hg' := hg (by simp [opensApply, hr'.1, hr'.2, hl'])
      exact (hb.setStatus .applying).applyPttRight hg' native

theorem GroupKept.handleCancel (h : t.GroupKept)
    (hl : t.lstGroupData = [] ∨ lastApplied t.journal ≠ none) (native : ℤ) :
    (t.handleCancel native).GroupKept := by
  unfold Terminal.handleCancel
  exact (h.setStatus _).cancelPttRight hl native

theorem GroupKept.handleHangup (h : t.GroupKept) : t.handleHangup.GroupKept := by
  have hf : (t.free.setCallState .ending).GroupKept := h.setStatus .free
  rw [handleHangup_eq]
  exact hf.hangupPttCall

theorem GroupKept.handleMakeCall (h : t.GroupKept) (native : ℤ) (number : Option Bytes) :
    (t.handleMakeCall native number).GroupKept := by
  obtain ⟨c, b, hc | hc⟩ := handleMakeCall_eq native number t
  · rw [hc]
    exact h
  · have hb : ({ t with currentCallState := c, bForceInSC := b } : Terminal).GroupKept := h
    rw [hc]
    exact hb.checkResult native

theorem GroupKept.handleSingleCall (h : t.GroupKept) (native : ℤ) {e : ℤ → Entry}
    (he : ∀ i, (e i).keepsGroup) : (t.handleSingleCall native e).GroupKept := by
  obtain hs | ⟨c, b, hs⟩ := handleSingleCall_eq native e t
  · rw [hs]
    exact h
  · rw [hs]
    exact h.note (he _)

theorem GroupKept.handleClose (h : t.GroupKept) : t.handleClose.GroupKept := by
  unfold Terminal.handleClose
  dsimp only
  split
  · exact h.hangupPttCall.clear
  · exact h.hangupPttCall.clear
  · exact h.hangupPttCall.clear
  · exact h.clear

theorem GroupKept.handleCommand (h : t.GroupKept) {c : Command}
    (hc : t.exitFlag = false → match c with
      | .applyPttRight => t.opensApply = true → t.applyGroup = none ∨ t.applyGroup = t.firstNumber
      | .cancelPttRight => t.lstGroupData = [] ∨ lastApplied t.journal ≠ none
      | _ => True) (native : ℤ) : (t.handleCommand native c).GroupKept := by
  unfold Terminal.handleCommand
  split
  · exact h
  next hx =>
    have hc' := hc (Bool.eq_false_iff.mpr hx)
    cases c with
    | hangupPttCall => exact h.handleHangup
    | applyPttRight => exact h.handleApply hc' native
    | cancelPttRight => exact h.handleCancel hc' native
    | openPttUi =>
      dsimp only
      split
      · exact h
      · exact h.isbPttErrorShowing
    | startApp => exact h
    | updatePttUi => exact h.isbPttErrorShowing
    | closePtt => exact h.handleClose
    | makeCall number => exact h.handleMakeCall native number
    | sendDtmf => exact h
    | answerCall => exact h.handleSingleCall native fun _ => rfl
    | hangupCall => exact h.handleSingleCall native fun _ => rfl

/-! ### Group updates -/

/-- The new list is empty or keeps the group of the most recent request first. -/
def keepsApplied (groupInfos : List GroupEntry) (t : Terminal) : Bool :=
  groupInfos.isEmpty || (lastApplied t.journal).isNone ||
    lastApplied t.journal = groupInfos.head?.map GroupEntry.number

/-- An application that waits for the groups would be for the first one. -/
def resumesFirst (groupInfos : List GroupEntry) (t : Terminal) : Bool :=
  t.pttGroupStatus.status ≠ .init || t.ePttKeyStatus = .up || t.exitFlag ||
    !(t.addGroups groupInfos).opensApply ||
    match (t.addGroups groupInfos).getCurrentGroupInfo with
    | none => true
    | some g => some g.number = groupInfos.head?.map GroupEntry.number

theorem GroupKept.addGroups (h : t.GroupKept) {groupInfos : List GroupEntry}
    (hk : t.keepsApplied groupInfos) : (t.addGroups groupInfos).GroupKept := by
  obtain ⟨n, hn⟩ := addGroups_eq groupInfos t
  rw [hn]
  refine ⟨h.1, ?_⟩
  have hk' : (groupInfos = [] ∨ lastApplied t.journal = none) ∨
      lastApplied t.journal = groupInfos.head?.map GroupEntry.number := by
    simpa [keepsApplied] using hk
  exact or_assoc.mp hk'

/-- The group that is stored for a resumed application is the one that it takes. -/
theorem applyGroup_selected {g : GroupEntry} (hg : t.getCurrentGroupInfo = some g) :
    (t.setGroupNum (some g.number)).applyGroup = some g.number := by
  have hg' : (t.setGroupNum (some g.number)).getCurrentGroupInfo = some g := hg
  unfold applyGroup
  rw [hg']
  split <;> rfl

theorem GroupKept.resumeApply {groupInfos : List GroupEntry}
    (h : (t.addGroups groupInfos).GroupKept)
    (hr : t.resumesFirst groupInfos) (native : ℤ) :
    ((t.addGroups groupInfos).resumeApply native).GroupKept := by
  obtain ⟨n, hn⟩ := addGroups_eq groupInfos t
  have hfirst : (t.addGroups groupInfos).firstNumber = groupInfos.head?.map GroupEntry.number := by
    rw [hn]
    rfl
  unfold Terminal.resumeApply
  split
  · exact h
  next hs =>
    have hi : t.pttGroupStatus.status = .init := by simpa [hn] using hs
    cases hg : (t.addGroups groupInfos).getCurrentGroupInfo with
    | none => exact h.clear
    | some g =>
      have hk : ((t.addGroups groupInfos).setGroupNum (some g.number)).GroupKept := h
      dsimp only
      split
      next hd =>
        have hd' : t.ePttKeyStatus = .down := by simpa [hn] using hd
        refine hk.handleCommand (c := .applyPttRight) (fun hx ho => .inr ?_) native
        have hx' : t.exitFlag = false := by simpa [hn] using hx
        have ho' : (t.addGroups groupInfos).opensApply = true := by
          simp only [opensApply, isbPttErrorShowing_fst] at ho ⊢
          exact ho
        rw [applyGroup_selected hg]
        change some g.number = (t.addGroups groupInfos).firstNumber
        rw [hfirst]
        simpa [resumesFirst, hi, hd', hx', ho', hg] using hr
      next => exact hk.setStatus .free

theorem GroupKept.regroup (h : t.GroupKept) (groupInfos : List GroupEntry) :
    (t.regroup groupInfos).GroupKept := by
  have hl : (Terminal.regroup.leave t).GroupKept := by
    unfold Terminal.regroup.leave
    dsimp only
    split
    · exact h.hangupPttCall.clear
    · exact h.clear
  unfold Terminal.regroup
  split
  · exact h
  · split
    · exact h
    · split
      · exact hl
      · split
        · exact h
        · split
          · exact hl
          · exact h

/-! ### Runs -/

/-- The steps that keep the group of an application first: applications for the first group, lists
that begin with the group applied for, and no cancellation before the first application. -/
def addressesApplied (t : Terminal) : Event → Bool
  | .deliver _ => match t.commands with
    | .applyPttRight :: _ =>
      t.exitFlag || !t.opensApply || t.applyGroup.isNone || t.applyGroup = t.firstNumber
    | .cancelPttRight :: _ => t.exitFlag || t.lstGroupData.isEmpty || (lastApplied t.journal).isSome
    | _ => true
  | .receiveGroupInfo _ groupInfos => t.keepsApplied groupInfos && t.resumesFirst groupInfos
  | _ => true

theorem GroupKept.handle (h : t.GroupKept) {e : Event} (he : e.ofGroup)
    (hok : t.addressesApplied e) :
    (e.handle t).GroupKept := by
  cases e with
  | keyDown =>
    have hd : ({ t with ePttKeyStatus := .down } : Terminal).GroupKept := h
    dsimp only [Event.handle]
    obtain hk | hk | hk | hk := handlePttDown_cases t <;> rw [hk]
    · exact h
    · exact h.sendPttCommand _
    · exact hd
    · exact hd.sendPttCommand _
  | keyUp => exact h
  | keyUpResume =>
    have hr : ({ t with releasing := false } : Terminal).GroupKept := h
    dsimp only [Event.handle, resumePttUp]
    split
    · exact hr.sendPttCommand _
    · exact hr.sendPttCommand _
    · exact hr.sendPttCommand _
    · exact hr.sendPttCommand _
    · refine GroupKept.sendPttCommand ?_ _
      exact GroupKept.setStatus (t := ({ t with releasing := false } : Terminal).setRejectReason (-1)) h _
    · refine GroupKept.sendPttCommand ?_ _
      exact GroupKept.setStatus (t := ({ t with releasing := false } : Terminal).setRejectReason (-1)) h _
    · exact hr
  | deliver native =>
    dsimp only [Event.handle, deliver]
    split
    · exact h
    next c cs hcs =>
      have hu : ({ t with commands := cs } : Terminal).GroupKept := h
      refine hu.handleCommand (fun hx => ?_) native
      have hx' : t.exitFlag = false := hx
      simp only [addressesApplied, hcs] at hok
      cases c with
      | applyPttRight =>
        intro ho
        rw [opensApply_commands] at ho
        have hg : t.applyGroup = none ∨ t.applyGroup = t.firstNumber := by simpa [hx', ho] using hok
        exact hg
      | cancelPttRight =>
        have hl : t.lstGroupData = [] ∨ (lastApplied t.journal).isSome = true := by
          simpa [hx'] using hok
        exact hl.imp_right Option.isSome_iff_ne_none.mp
      | _ => trivial
  | sendCommand c => exact h.sendPttCommand c
  | mInviteIndicate native groupNum speaker => exact h.mInviteIndicate native groupNum speaker
  | mByeIndicate => exact h.clear
  | receiveGroupInfo native groupInfos =>
    have hok' : t.keepsApplied groupInfos = true ∧ t.resumesFirst groupInfos = true := by
      simpa [addressesApplied] using hok
    exact ((h.addGroups hok'.1).resumeApply hok'.2 native).regroup groupInfos
  | receiveMessage number =>
    dsimp only [Event.handle, jniReceiveMessage]
    split <;> exact h
  | clear => exact h.clear
  | receivePttRightResponse native s => simp [Event.ofGroup] at he
  | updatePttState native obj => simp [Event.ofGroup] at he
  | showCallState native cs => simp [Event.ofGroup] at he
  | _ => exact h

end

end Terminal

/-- In every run from a started service whose steps all meet the condition, cancellations address
the group of the most recent request, and requests a group of the list. -/
theorem runs_requestsAddressed {t : Terminal}
    (h : (terminal Terminal.Fresh Event.ofGroup).Reached (fun t e => t.addressesApplied e) t) :
    t.RequestsAddressed := by
  have hk : t.GroupKept := by
    refine h.invariant (fun s (hs : s.Fresh) => ?_) fun s e (hs : s.GroupKept) he hok =>
      hs.handle he.1 hok
    refine ⟨?_, .inr (.inl ?_)⟩
    · simp [Terminal.RequestsAddressed, hs.journal]
    · simp [hs.journal, lastApplied]
  exact hk.1

/-- A request for the first of the groups, which stays the first when the list changes. -/
theorem cancel_addresses_request :
    let t := (terminal Terminal.Fresh Event.ofGroup).run .ready
      [.sendCommand .applyPttRight, .deliver 0, .mInviteIndicate 0 (some (ascii "8002")) none,
        .receiveGroupInfo 0 [⟨ascii "day", ascii "8001", 1⟩],
          .sendCommand .cancelPttRight, .deliver 0]
    t.journal.head? = some (.requestCancelPttRight (ascii "8001")) ∧ t.RequestsAddressed :=
  ⟨by decide, runs_requestsAddressed (System.reached_run fresh_ready (by decide))⟩

/-- An indication for the second group is stored, the application is for that group, and the cancel
command cancels the request of the first group. -/
theorem cancel_addresses_first_group :
    let t := (terminal Terminal.Fresh Event.ofGroup).run .ready
      [.mInviteIndicate 0 (some (ascii "8002")) none, .sendCommand .applyPttRight, .deliver 0,
        .sendCommand .cancelPttRight, .deliver 0]
    (terminal Terminal.Fresh Event.ofGroup).Reached (fun _ _ => True) t ∧ ¬t.RequestsAddressed :=
  ⟨System.reached_run fresh_ready (by decide), by decide⟩

end PttTerminal
