import PttTerminal.DeletionPass
import PttTerminal.GroupListFrame
import PttTerminal.GroupListMerge
import PttTerminal.MemberInfo

/-!
# What becomes of the session

The readers of groups leave the session alone, apart from the media, which a list that is released
closes. Only the deletion of a group may end the session.
-/
namespace PttTerminal

open Loops LinkedCells

/-- The session goes on; of the media, some may have been closed. -/
structure SessionKept (info info' : PttInfo) : Prop where
  pttState : info'.pttState = info.pttState
  gCurrentGroup : info'.gCurrentGroup = info.gCurrentGroup
  currentCallId : info'.currentCallId = info.currentCallId
  gSpeaker : info'.gSpeaker = info.gSpeaker
  stream : info'.stream → info.stream
  sndPort : info'.sndPort → info.sndPort
  sndPool : info'.sndPool → info.sndPool

theorem SessionKept.refl (info : PttInfo) : SessionKept info info :=
  ⟨rfl, rfl, rfl, rfl, id, id, id⟩

theorem SessionKept.trans {info info₁ info' : PttInfo} (h : SessionKept info info₁)
    (h' : SessionKept info₁ info') : SessionKept info info' where
  pttState := h'.pttState.trans h.pttState
  gCurrentGroup := h'.gCurrentGroup.trans h.gCurrentGroup
  currentCallId := h'.currentCallId.trans h.currentCallId
  gSpeaker := h'.gSpeaker.trans h.gSpeaker
  stream := h.stream ∘ h'.stream
  sndPort := h.sndPort ∘ h'.sndPort
  sndPool := h.sndPool ∘ h'.sndPool

theorem sessionKept_of_session {info info' : PttInfo} (h : info'.session = info.session) :
    SessionKept info info' where
  pttState := congrArg PttSession.pttState h
  gCurrentGroup := congrArg PttSession.gCurrentGroup h
  currentCallId := congrArg PttSession.currentCallId h
  gSpeaker := congrArg PttSession.gSpeaker h
  stream := (congrArg PttSession.stream h).symm.trans
  sndPort := (congrArg PttSession.sndPort h).symm.trans
  sndPool := (congrArg PttSession.sndPool h).symm.trans

/-- Besides, every group that is there was there before, under the same number. -/
structure Shrunk (info info' : PttInfo) : Prop where
  kept : SessionKept info info'
  numbers : ∀ i g', info'.heap.vl i = some g' → ∃ g, info.heap.vl i = some g ∧ g.number = g'.number

theorem Shrunk.refl (info : PttInfo) : Shrunk info info := ⟨.refl info, fun _ g' h => ⟨g', h, rfl⟩⟩

theorem Shrunk.trans {info info₁ info' : PttInfo} (h : Shrunk info info₁)
    (h' : Shrunk info₁ info') :
    Shrunk info info' := by
  refine ⟨h.kept.trans h'.kept, fun i g' hg' => ?_⟩
  obtain ⟨g₁, hg₁, hnum₁⟩ := h'.numbers i g' hg'
  obtain ⟨g, hg, hnum⟩ := h.numbers i g₁ hg₁
  exact ⟨g, hg, hnum.trans hnum₁⟩

theorem shrunk_of_vl {info info' : PttInfo} (hs : info'.session = info.session)
    (hvl : info'.heap.vl = info.heap.vl) : Shrunk info info' :=
  ⟨sessionKept_of_session hs, fun i g' hg' => ⟨g', by rw [← hvl, hg'], rfl⟩⟩

section

variable {info info' : PttInfo} {r m : Bytes} {head node : ℕ}

/-! ### Merging -/

theorem openTransport_session (h : openTransport info node = .ok info') :
    info'.session = info.session := by
  simp only [openTransport, bind_eq_ok] at h
  obtain ⟨c, -, h⟩ := h
  split_ifs at h
  · obtain ⟨heap, -, h⟩ := bind_eq_ok.mp h
    cases h
    rfl
  · cases h
    rfl

theorem createBody_ok {s : PttInfo × ℕ} {ctl : Ctl (PttInfo × ℕ) PttInfo}
    (h : createBody head s = .ok ctl) : ∃ info₁, openTransport s.1 s.2 = .ok info₁ ∧
      (ctl = .exit info₁ ∨ ∃ node, ctl = .next (info₁, node)) := by
  simp only [createBody, bind_eq_ok] at h
  obtain ⟨info₁, hopen, c, -, h⟩ := h
  refine ⟨info₁, hopen, ?_⟩
  split_ifs at h
  · cases h
    exact .inl rfl
  · cases h
    exact .inr ⟨_, rfl⟩

theorem create_session (h : pttMediaTransportCreate info node = .ok info') :
    info'.session = info.session := by
  refine loop_invariant (P := fun s : PttInfo × ℕ => s.1.session = info.session)
    (Q := fun u : PttInfo => u.session = info.session) ?_ ?_ h rfl
  · intro s t hs hb
    obtain ⟨info₁, hopen, h⟩ := createBody_ok hb
    obtain ⟨_, h⟩ : ∃ node, Ctl.next t = .next (info₁, node) := h.resolve_left (by simp)
    cases h
    exact (openTransport_session hopen).trans hs
  · intro s u hs hb
    obtain ⟨info₁, hopen, h⟩ := createBody_ok hb
    obtain h : Ctl.exit u = .exit info₁ := h.resolve_right (by simp)
    cases h
    exact (openTransport_session hopen).trans hs

theorem mergeGroup_session {node' : ℕ} (h : mergeGroup head info node r = .ok (info', node', m)) :
    info'.session = info.session := by
  simp only [mergeGroup, bind_eq_ok, Prod.exists] at h
  obtain ⟨g, r, -, bfind, node₁, -, h⟩ := h
  cases bfind with
  | true =>
    cases h
    rfl
  | false =>
    simp only [Bool.false_eq_true, if_false, bind_eq_ok] at h
    obtain ⟨info₁, hcreate, info₂, hpush, h⟩ := h
    cases h
    rw [(pushBack_frame hpush).1, create_session hcreate, session_alloc]

theorem mergeMore_session {n : ℕ} {s t : PttInfo × ℕ × UInt8 × Bytes}
    (h : loop .hang (mergeMoreBody head) n s = .ok t) : t.1.session = s.1.session := by
  refine loop_invariant (P := fun u => u.1.session = s.1.session)
    (Q := fun u => u.1.session = s.1.session) ?_ ?_ h rfl
  · rintro ⟨info, node, c, r⟩ t hs hb
    simp only [mergeMoreBody] at hb
    split_ifs at hb
    · simp only [bind_eq_ok, Prod.exists] at hb
      obtain ⟨info₁, node₁, r₁, hmerge, d, k, -, hb⟩ := hb
      cases hb
      exact (mergeGroup_session hmerge).trans hs
    · cases hb
  · rintro ⟨info, node, c, r⟩ t hs hb
    simp only [mergeMoreBody] at hb
    split_ifs at hb
    · simp only [bind_eq_ok, Prod.exists] at hb
      obtain ⟨info₁, node₁, r₁, -, d, k, -, hb⟩ := hb
      cases hb
    · cases hb
      exact hs

/-- A line of groups, whatever stands before its first group. -/
theorem mergeLine_session {info₁ info₂ : PttInfo} {node₁ node₂ node' n : ℕ} {c d : UInt8}
    {x y k : Bytes} (hmerge : mergeGroup head info node r = .ok (info₁, node₁, x))
    (hrun : loop .hang (mergeMoreBody head) n (info₁, node₁, c, y) = .ok (info₂, node₂, d, k))
    (h : (if d = CR then do
        let p ← pjScanGetNewline k
        return (info₂, node₂, p.2)
      else return (info₂, node₂, k) : Except Fault (PttInfo × ℕ × Bytes)) = .ok (info', node', m)) :
    info'.session = info.session := by
  have hsession : info₂.session = info.session :=
    (mergeMore_session hrun).trans (mergeGroup_session hmerge)
  split_ifs at h
  · obtain ⟨p, -, h⟩ := bind_eq_ok.mp h
    cases h
    exact hsession
  · cases h
    exact hsession

theorem mergeGeneralGroup_session {node' : ℕ}
    (h : mergeGeneralGroup head info node r = .ok (info', node', m)) :
    info'.session = info.session := by
  simp only [mergeGeneralGroup, bind_eq_ok, Prod.exists] at h
  obtain ⟨_, r, -, info₁, node₁, x, hmerge, c, y, -, info₂, node₂, d, k, hrun, h⟩ := h
  exact mergeLine_session hmerge hrun h

theorem messageMergeGroup_session {node' : ℕ}
    (h : messageMergeGroup head info node r = .ok (info', node', m)) :
    info'.session = info.session := by
  simp only [messageMergeGroup, bind_eq_ok, Prod.exists] at h
  obtain ⟨_, r, -, info₁, node₁, x, hmerge, c, y, -, info₂, node₂, d, k, hrun, h⟩ := h
  exact mergeLine_session hmerge hrun h

theorem mergeLoop_session {n : ℕ} {s : PttInfo × ℕ × Bytes}
    (h : loop .hang (mergeBody head) n s = .ok info') : info'.session = s.1.session := by
  refine loop_invariant (P := fun u => u.1.session = s.1.session)
    (Q := fun u : PttInfo => u.session = s.1.session) ?_ ?_ h rfl
  · rintro ⟨info, node, r⟩ t hs hb
    simp only [mergeBody] at hb
    split_ifs at hb
    · cases hb
    · obtain ⟨⟨general, r⟩, -, hb⟩ := bind_eq_ok.mp hb
      cases general with
      | true =>
        obtain ⟨t, hmerge, hb⟩ := bind_eq_ok.mp hb
        cases hb
        exact (mergeGeneralGroup_session hmerge).trans hs
      | false =>
        obtain ⟨_, -, hb⟩ := bind_eq_ok.mp hb
        cases hb
        exact hs
  · rintro ⟨info, node, r⟩ u hs hb
    exact (mergeBody_exit.mp hb).2 ▸ hs

theorem messageMergeLoop_session {n : ℕ} {s : PttInfo × ℕ × Bytes}
    (h : loop .hang (messageMergeBody head) n s = .ok info') : info'.session = s.1.session := by
  refine loop_invariant (P := fun u => u.1.session = s.1.session)
    (Q := fun u : PttInfo => u.session = s.1.session) ?_ ?_ h rfl
  · rintro ⟨info, node, r⟩ t hs hb
    simp only [messageMergeBody] at hb
    split_ifs at hb
    · cases hb
    · obtain ⟨⟨group, r⟩, -, hb⟩ := bind_eq_ok.mp hb
      cases group with
      | true =>
        obtain ⟨t, hmerge, hb⟩ := bind_eq_ok.mp hb
        cases hb
        exact (messageMergeGroup_session hmerge).trans hs
      | false =>
        obtain ⟨_, -, hb⟩ := bind_eq_ok.mp hb
        cases hb
        exact hs
  · rintro ⟨info, node, r⟩ u hs hb
    simp only [messageMergeBody] at hb
    split_ifs at hb
    · cases hb
      exact hs
    · obtain ⟨⟨group, r⟩, -, hb⟩ := bind_eq_ok.mp hb
      cases group with
      | true =>
        obtain ⟨t, -, hb⟩ := bind_eq_ok.mp hb
        cases hb
      | false =>
        obtain ⟨_, -, hb⟩ := bind_eq_ok.mp hb
        cases hb

/-! ### The answer to the registration -/

theorem regGroup_session (h : regGroup info r = .ok (info', m)) : info'.session = info.session := by
  simp only [regGroup, bind_eq_ok, Prod.exists] at h
  obtain ⟨_, r, -, g, r, -, c, r, -, info₁, d, r, hrun, h⟩ := h
  have hsession : info₁.session = info.session := (loadMore_quiet hrun).1
  split_ifs at h
  · simp only [bind_eq_ok, Prod.exists] at h
    obtain ⟨_, r, -, h⟩ := h
    cases h
    exact hsession
  · cases h
    exact hsession

theorem regSignalAddress_session (h : regSignalAddress info r = .ok (info', m)) :
    info'.session = info.session := by
  simp only [regSignalAddress, bind_eq_ok, Prod.exists] at h
  obtain ⟨_, r, -, addr, r, -, out, r, -, _, r, -, h⟩ := h
  cases h
  rfl

/-- One line read; the reader is left at the end of the text only. -/
theorem regBody_session {ctl : Ctl (PttInfo × Bytes) PttInfo} (h : regBody (info, r) = .ok ctl) :
    ctl = .exit info ∨ ∃ info' m, ctl = .next (info', m) ∧ info'.session = info.session := by
  simp only [regBody] at h
  split_ifs at h
  · cases h
    exact .inl rfl
  refine .inr ?_
  obtain ⟨⟨group, r⟩, -, h⟩ := bind_eq_ok.mp h
  cases group with
  | true =>
    obtain ⟨⟨info', m⟩, hrun, h⟩ := bind_eq_ok.mp h
    cases h
    exact ⟨info', m, rfl, regGroup_session hrun⟩
  | false =>
    obtain ⟨⟨emergency, r⟩, -, h⟩ := bind_eq_ok.mp h
    cases emergency with
    | true =>
      obtain ⟨⟨_, m⟩, -, h⟩ := bind_eq_ok.mp h
      cases h
      exact ⟨info, m, rfl, rfl⟩
    | false =>
      obtain ⟨⟨signal, r⟩, -, h⟩ := bind_eq_ok.mp h
      cases signal with
      | true =>
        obtain ⟨⟨info', m⟩, hrun, h⟩ := bind_eq_ok.mp h
        cases h
        exact ⟨info', m, rfl, regSignalAddress_session hrun⟩
      | false =>
        obtain ⟨⟨_, m⟩, -, h⟩ := bind_eq_ok.mp h
        cases h
        exact ⟨info, m, rfl, rfl⟩

theorem reg200okParse_session {content : Bytes}
    (h : pttReg200okContentParse info content = .ok info') : info'.session = info.session := by
  unfold pttReg200okContentParse at h
  split_ifs at h
  · cases h
    rfl
  · refine loop_invariant (P := fun u : PttInfo × Bytes => u.1.session = info.session)
      (Q := fun u : PttInfo => u.session = info.session) ?_ ?_ h rfl
    · rintro ⟨info₁, r⟩ t hs hb
      obtain hb | ⟨info', m, hb, hsession⟩ := regBody_session hb
      · cases hb
      · cases hb
        exact hsession.trans hs
    · rintro ⟨info₁, r⟩ u hs hb
      obtain hb | ⟨info', m, hb, -⟩ := regBody_session hb
      · cases hb
        exact hs
      · cases hb

/-! ### Releasing -/

theorem pjmediaTransportClose_session (info : PttInfo) (g : GroupInfo) :
    (pjmediaTransportClose info g).session = info.session ∧
      (pjmediaTransportClose info g).heap = info.heap := by
  obtain ⟨effects, transports, h⟩ := pjmediaTransportClose_eq info g
  rw [h]
  exact ⟨rfl, rfl⟩

/-- A group that is released has no number any more, and the others keep theirs. -/
theorem destroyBody_shrunk {ctl : Ctl (PttInfo × ℕ) PttInfo}
    (h : destroyBody (info, node) = .ok ctl) :
    ∃ info', Shrunk info info' ∧ (ctl = .exit info' ∨ ∃ node', ctl = .next (info', node')) := by
  simp only [destroyBody, bind_eq_ok, live_eq_ok] at h
  obtain ⟨c, hc, heap₁, hval, heap₂, herase, h⟩ := h
  have hclose := pjmediaTransportClose_session info c.val
  refine ⟨PttInfo.poolRelease { pjmediaTransportClose info c.val with heap := heap₂ } node,
    ⟨sessionKept_of_session hclose.1, fun i g' hg' => ?_⟩, ?_⟩
  · have hvl : (heap₂.release node).vl = Function.update info.heap.vl node none := by
      rw [Store.release_vl, Store.erase_vl herase, Store.setVal_vl hval, hclose.2,
        Function.update_idem]
    change (heap₂.release node).vl i = some g' at hg'
    rw [hvl] at hg'
    by_cases hi : i = node
    · simp [hi] at hg'
    · rw [Function.update_of_ne hi] at hg'
      exact ⟨g', hg', rfl⟩
  · split_ifs at h
    · cases h
      exact .inl rfl
    · cases h
      exact .inr ⟨_, rfl⟩

theorem destroyLoop_shrunk {n : ℕ} (h : loop .hang destroyBody n (info, node) = .ok info') :
    Shrunk info info' := by
  refine loop_invariant (P := fun u : PttInfo × ℕ => Shrunk info u.1) (Q := Shrunk info) ?_ ?_ h
    (.refl info)
  · rintro ⟨info₁, node₁⟩ t hs hb
    obtain ⟨info₂, hshrunk, h⟩ := destroyBody_shrunk hb
    obtain ⟨node₂, h⟩ : ∃ node₂, Ctl.next t = .next (info₂, node₂) := h.resolve_left (by simp)
    cases h
    exact hs.trans hshrunk
  · rintro ⟨info₁, node₁⟩ u hs hb
    obtain ⟨info₂, hshrunk, h⟩ := destroyBody_shrunk hb
    obtain h : Ctl.exit u = .exit info₂ := h.resolve_right (by simp)
    cases h
    exact hs.trans hshrunk

theorem groupInfoDestroy_kept (h : groupInfoDestroy info = .ok info') : SessionKept info info' := by
  obtain ⟨info₁, hrun, h⟩ := bind_eq_ok.mp h
  cases h
  suffices hkept : SessionKept info info₁ from hkept.trans ⟨rfl, rfl, rfl, rfl, id, id, id⟩
  unfold pttMediaTransportDestroy at hrun
  split at hrun
  · cases hrun
    exact .refl info
  · simp only [if_true] at hrun
    have hclosed : SessionKept info
        { info with sndPort := false, sndPool := false, stream := false } :=
      ⟨rfl, rfl, rfl, rfl, by simp, by simp, by simp⟩
    exact hclosed.trans (destroyLoop_shrunk hrun).kept

theorem bzero_kept (info : PttInfo) : SessionKept info (bzeroPttInfo info) :=
  ⟨rfl, rfl, rfl, rfl, id, id, by simp [bzeroPttInfo]⟩

theorem groupInfoInit_kept (info : PttInfo) : SessionKept info (groupInfoInit info) :=
  ⟨rfl, rfl, rfl, rfl, id, id, id⟩

/-- When the list is empty, everything is set back. -/
theorem reset_kept (h : groupInfoDestroy info = .ok info') :
    SessionKept info (groupInfoInit (bzeroPttInfo info')) :=
  (groupInfoDestroy_kept h).trans ((bzero_kept info').trans (groupInfoInit_kept _))

/-! ### The deletion passes -/

theorem takeOut_shrunk {nodeErase : ℕ}
    (h : (live (info.heap.erase nodeErase) >>= fun heap =>
      pttMediaTransportDestroy { info with heap := heap } (some nodeErase) false) = .ok info') :
    Shrunk info info' := by
  obtain ⟨heap, herase, hrun⟩ := bind_eq_ok.mp h
  have herased : Shrunk info { info with heap := heap } :=
    shrunk_of_vl rfl (Store.erase_vl (live_eq_ok.mp herase))
  exact herased.trans (destroyLoop_shrunk hrun)

theorem setHead_shrunk (info : PttInfo) (nodeErase node : ℕ) :
    Shrunk info (if info.generalGroup = some nodeErase then { info with generalGroup := some node }
      else info) := by
  split_ifs
  · exact shrunk_of_vl rfl rfl
  · exact .refl info

section passes

variable {P : PttInfo → Prop} {content : Bytes}

/-- A round that keeps `P`, and so does the way out of the loop. -/
def KeepsRound (P : PttInfo → Prop) (ctl : Ctl (PttInfo × ℕ) (PttInfo × ℕ × Option ℕ)) : Prop :=
  match ctl with
  | .next t => P t.1
  | .exit u => P u.1

/-- A round of either pass: the group is kept, or it is deleted and the walk goes on where it
can. -/
theorem round_keeps {ctl : Ctl (PttInfo × ℕ) (PttInfo × ℕ × Option ℕ)} {keep : Bool}
    {del : Except Fault PttInfo} {nodeErase : ℕ} (hP : P info)
    (hdel : ∀ info', keep = false → del = .ok info' → P info')
    (h : (if keep = true then
        if info.generalGroup ≠ some node then pure (.next (info, node))
        else pure (.exit (info, node, none))
      else del >>= fun info =>
        if info.generalGroup ≠ some node ∨ info.generalGroup = some node ∧ node ≠ nodeErase then
          pure (.next (info, node))
        else pure (.exit (info, node, some nodeErase))) = .ok ctl) : KeepsRound P ctl := by
  cases keep with
  | true =>
    simp only [if_true] at h
    split_ifs at h <;> cases h <;> exact hP
  | false =>
    obtain ⟨info', hrun, h⟩ := bind_eq_ok.mp h
    have hP' := hdel info' rfl hrun
    split_ifs at h <;> cases h <;> exact hP'

theorem pass_keeps (hshrunk : ∀ info info', P info → Shrunk info info' → P info')
    {body : PttInfo × ℕ → Except Fault (Ctl (PttInfo × ℕ) (PttInfo × ℕ × Option ℕ))} {n : ℕ}
    (hbody : ∀ s ctl, P s.1 → body s = .ok ctl → KeepsRound P ctl) (hP : P info)
    (h : (loop .hang body n (info, head) >>= fun s : PttInfo × ℕ × Option ℕ =>
      if s.2.2 = some s.2.1 then pure { s.1 with generalGroup := none } else pure s.1) =
        .ok info') : P info' := by
  obtain ⟨⟨info₁, node, nodeErase⟩, hrun, h⟩ := bind_eq_ok.mp h
  have hP₁ : P info₁ :=
    loop_invariant (P := fun s : PttInfo × ℕ => P s.1)
      (Q := fun u : PttInfo × ℕ × Option ℕ => P u.1)
      (fun s _ hs hb => hbody s _ hs hb) (fun s _ hs hb => hbody s _ hs hb) hrun hP
  dsimp only at h
  split_ifs at h <;> cases h
  · exact hshrunk _ _ hP₁ (shrunk_of_vl rfl rfl)
  · exact hP₁

/-- What holds of the session when groups go, and when it is ended with a group that is deleted,
holds of it after a deletion pass. -/
theorem pass_session (pass : Pass) (hshrunk : ∀ info info', P info → Shrunk info info' → P info')
    (hend : ∀ info info' node g, P info → info.heap.vl node = some g →
      pass.keeps content g = false → pass.endSession info g.number = .ok info' → P info')
    (h : pass.deleteGroups content info = .ok info') (hP : P info) : P info' := by
  unfold Pass.deleteGroups at h
  split at h
  · cases h
    exact hP
  · refine pass_keeps hshrunk ?_ hP h
    rintro ⟨info, nodeErase⟩ ctl hP hb
    obtain ⟨c, hc, hb⟩ := bind_eq_ok.mp hb
    refine round_keeps hP (fun info' hkeep hdel => ?_) hb
    have hvl : info.heap.vl nodeErase = some c.val := by
      rw [Store.vl, live_eq_ok.mp hc]
      rfl
    obtain ⟨info₁, hses, htake⟩ := bind_eq_ok.mp hdel
    exact hshrunk _ _ (hshrunk _ _ (hend _ _ _ _ hP hvl hkeep hses) (setHead_shrunk _ _ _))
      (takeOut_shrunk htake)

theorem deleteGroups_session (hshrunk : ∀ info info', P info → Shrunk info info' → P info')
    (hend : ∀ info info' number, P info → endSession info number = .ok info' → P info')
    (h : deleteGroups content info = .ok info') (hP : P info) : P info' := by
  rw [deleteGroups_pass] at h
  exact pass_session regroupPass hshrunk (fun _ _ _ g hP _ _ => hend _ _ g.number hP) h hP

/-- The pass of the older message; only groups that the content does not mention end the session. -/
theorem messageDeleteGroups_session (hshrunk : ∀ info info', P info → Shrunk info info' → P info')
    (hend : ∀ info info' node g, P info → info.heap.vl node = some g →
      messageMentions content g = false → messageEndSession info g.number = .ok info' → P info')
    (h : messageDeleteGroups content info = .ok info') (hP : P info) : P info' := by
  rw [messageDeleteGroups_pass] at h
  exact pass_session messagePass hshrunk hend h hP

end passes

/-! ### The messages -/

theorem receiveGroupInfo_kept (h : receiveGroupInfo info = .ok info') : SessionKept info info' := by
  obtain ⟨groups, rfl⟩ := receiveGroupInfo_frame h
  exact sessionKept_of_session rfl

theorem loadGroupInfo_kept {content : Bytes} (h : loadGroupInfo info content = .ok info') :
    SessionKept info info' := by
  obtain ⟨info₁, hquiet, hreport⟩ := loadGroupInfo_frame h
  exact (sessionKept_of_session hquiet.1).trans (receiveGroupInfo_kept hreport)

theorem memberInfo_kept {content : Bytes} (h : doReceiveMemberInfo info content = .ok info') :
    SessionKept info info' := by
  obtain ⟨effects, tmpPools, rfl⟩ := doReceiveMemberInfo_frame h
  exact sessionKept_of_session rfl

/-- A regroup message ends the session or leaves it. -/
theorem cleanup_session {P : PttInfo → Prop} {content : Bytes}
    (hkept : ∀ info info', P info → SessionKept info info' → P info')
    (hend : ∀ info info' number, P info → endSession info number = .ok info' → P info')
    (h : cleanupOnRegroup info content = .ok info') (hP : P info) : P info' := by
  obtain ⟨info₁, hdel, h⟩ := bind_eq_ok.mp h
  have hP₁ : P info₁ :=
    deleteGroups_session (fun _ _ hP hs => hkept _ _ hP hs.kept) hend hdel hP
  split at h
  · obtain ⟨info₂, hdestroy, hload⟩ := bind_eq_ok.mp h
    exact hkept _ _ hP₁ ((reset_kept hdestroy).trans (loadGroupInfo_kept hload))
  · obtain ⟨info₂, hmerge, hreport⟩ := bind_eq_ok.mp h
    exact hkept _ _ hP₁
      ((sessionKept_of_session (mergeLoop_session hmerge)).trans (receiveGroupInfo_kept hreport))

/-- What the deletion pass of the older message leaves, the rest of it keeps. -/
theorem message_kept {content : Bytes} (h : pttMessageContentParse info content = .ok info') :
    ∃ info₁, messageDeleteGroups content info = .ok info₁ ∧ SessionKept info₁ info' := by
  obtain ⟨info₁, hdel, h⟩ := bind_eq_ok.mp h
  refine ⟨info₁, hdel, ?_⟩
  split at h
  · obtain ⟨info₂, hdestroy, hload⟩ := bind_eq_ok.mp h
    exact (reset_kept hdestroy).trans (sessionKept_of_session (reg200okParse_session hload))
  · obtain ⟨info₂, hmerge, hreport⟩ := bind_eq_ok.mp h
    exact (sessionKept_of_session (messageMergeLoop_session hmerge)).trans
      (receiveGroupInfo_kept hreport)

/-! ### The end of a session -/

theorem deref_eq_ok {p : Option ℕ} {i : ℕ} {c : Cell ℕ GroupInfo} :
    info.deref p = .ok (i, c) ↔ p = some i ∧ info.heap i = some c := by
  cases p with
  | none => simp [PttInfo.deref]
  | some j =>
    simp only [PttInfo.deref, bind_eq_ok, live_eq_ok, pure, Except.pure, Except.ok.injEq,
      Prod.mk.injEq, Option.some.injEq]
    constructor
    · rintro ⟨d, hd, rfl, rfl⟩
      exact ⟨rfl, hd⟩
    · rintro ⟨rfl, hc⟩
      exact ⟨c, hc, rfl, rfl⟩

theorem pttCloseMedia_eq (info : PttInfo) :
    ∃ state, pttCloseMedia info = { multicastCallEnding info with pttState := state } := by
  unfold pttCloseMedia
  dsimp only
  split <;> exact ⟨_, rfl⟩

/-- The session goes on, if there is one and its group has another number, or the media are
closed. -/
theorem endSession_frame {number : Bytes} (h : endSession info number = .ok info') :
    (info' = info ∧ (info.pttState = .uninit ∨ ∃ i g, info.gCurrentGroup = some i ∧
      info.heap.vl i = some g ∧ g.number ≠ number)) ∨
    (info.pttState ≠ .uninit ∧ info' =
      { pttEnterState { pttCloseMedia info with currentCallId := [], gSpeaker := [] } .uninit with
        gCurrentGroup := none }) := by
  unfold endSession at h
  by_cases hstate : info.pttState ≠ .uninit
  · rw [if_pos hstate] at h
    obtain ⟨⟨i, c⟩, hderef, h⟩ := bind_eq_ok.mp h
    obtain ⟨hi, hc⟩ := deref_eq_ok.mp hderef
    dsimp only at h
    split_ifs at h with hnum <;> cases h
    · exact .inr ⟨hstate, rfl⟩
    · exact .inl ⟨rfl, .inr ⟨i, c.val, hi, by simp [Store.vl, hc], hnum⟩⟩
  · rw [if_neg hstate] at h
    cases h
    exact .inl ⟨rfl, .inl (not_not.mp hstate)⟩

/-- Ending a session releases nothing. -/
theorem endSession_memory {number : Bytes} (h : endSession info number = .ok info') :
    info'.heap = info.heap ∧ info'.fresh = info.fresh ∧ info'.effects = info.effects ∧
      info'.transports = info.transports ∧ info'.tmpPools = info.tmpPools := by
  obtain ⟨rfl, -⟩ | ⟨-, rfl⟩ := endSession_frame h
  · exact ⟨rfl, rfl, rfl, rfl, rfl⟩
  · obtain ⟨state, hclose⟩ := pttCloseMedia_eq info
    rw [hclose]
    exact ⟨rfl, rfl, rfl, rfl, rfl⟩

theorem messageEndSession_frame {number : Bytes} (h : messageEndSession info number = .ok info') :
    info' = info ∨ info.pttState ≠ .uninit ∧
      (∃ i g, info.gCurrentGroup = some i ∧ info.heap.vl i = some g ∧ g.number = number) ∧
      info' = { pttEnterState (pttCloseMedia info) .uninit with gCurrentGroup := none } := by
  unfold messageEndSession at h
  by_cases hstate : info.pttState ≠ .uninit
  · rw [if_pos hstate] at h
    obtain ⟨⟨i, c⟩, hderef, h⟩ := bind_eq_ok.mp h
    obtain ⟨hi, hc⟩ := deref_eq_ok.mp hderef
    dsimp only at h
    split_ifs at h with hnum <;> cases h
    · exact .inr ⟨hstate, ⟨i, c.val, hi, by simp [Store.vl, hc], hnum⟩, rfl⟩
    · exact .inl rfl
  · rw [if_neg hstate] at h
    cases h
    exact .inl rfl

end

end PttTerminal
