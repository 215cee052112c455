import PttTerminal.GroupListLoad

/-!
# What a group list leaves alone

The loader changes the list and the signalling address only, and reports nothing. The merger also
opens transports and releases pools. Neither of them touches the session.
-/
namespace PttTerminal

open Loops LinkedCells

/-- The variables that no group list is read into. -/
structure PttSession where
  transportId : Option ℕ
  sndPool : Bool
  sndPort : Bool
  stream : Bool
  pttState : NativeStatus
  gCurrentGroup : Option ℕ
  currentCallId : Bytes
  gSpeaker : Bytes
  udpCreate : Bytes → UInt32 → Bool

def PttInfo.session (info : PttInfo) : PttSession where
  transportId := info.transportId
  sndPool := info.sndPool
  sndPort := info.sndPort
  stream := info.stream
  pttState := info.pttState
  gCurrentGroup := info.gCurrentGroup
  currentCallId := info.currentCallId
  gSpeaker := info.gSpeaker
  udpCreate := info.udpCreate

section
variable {info info' : PttInfo} {r m : Bytes} {head node : ℕ}

@[simp]
theorem session_alloc (info : PttInfo) (g : GroupInfo) :
    (info.alloc g).session = info.session := rfl

theorem pushBack_frame (h : info.pjListPushBack head node = .ok info') :
    info'.session = info.session ∧ info'.effects = info.effects := by
  simp only [PttInfo.pjListPushBack, bind_eq_ok, pure, Except.pure, Except.ok.injEq] at h
  obtain ⟨heap, -, rfl⟩ := h
  exact ⟨rfl, rfl⟩

theorem receiveGroupInfo_frame (h : receiveGroupInfo info = .ok info') :
    ∃ groups, info' = { info with effects := .receiveGroupInfo groups :: info.effects } := by
  simp only [receiveGroupInfo, bind_eq_ok, pure, Except.pure, Except.ok.injEq] at h
  obtain ⟨groups, -, rfl⟩ := h
  exact ⟨_, rfl⟩

/-! ### The loader -/

/-- Nothing was reported and the session is the same. -/
def Quiet (info info' : PttInfo) : Prop :=
  info'.session = info.session ∧ info'.effects = info.effects

theorem Quiet.refl (info : PttInfo) : Quiet info info := ⟨rfl, rfl⟩

theorem Quiet.trans {info'' : PttInfo} (h : Quiet info info') (h' : Quiet info' info'') :
    Quiet info info'' := ⟨h'.1.trans h.1, h'.2.trans h.2⟩

theorem loadMoreBody_quiet {s t : PttInfo × UInt8 × Bytes}
    (h : loadMoreBody head s = .ok (.next t)) : Quiet s.1 t.1 := by
  obtain ⟨info, c, r⟩ := s
  by_cases hc : c = 59
  · simp only [loadMoreBody, hc, if_true, bind_eq_ok, Prod.exists, pure, Except.pure] at h
    obtain ⟨g, r', -, info', hpush, d, r'', -, h⟩ := h
    cases h
    exact (pushBack_frame hpush : Quiet (info.alloc g) info')
  · simp [loadMoreBody, hc, pure, Except.pure] at h

theorem loadMoreBody_exit {s t : PttInfo × UInt8 × Bytes}
    (h : loadMoreBody head s = .ok (.exit t)) : t = s := by
  obtain ⟨info, c, r⟩ := s
  by_cases hc : c = 59
  · simp only [loadMoreBody, hc, if_true, bind_eq_ok, Prod.exists, pure, Except.pure] at h
    obtain ⟨g, r', -, info', -, d, r'', -, h⟩ := h
    cases h
  · simpa [loadMoreBody, hc, pure, Except.pure, eq_comm] using h

theorem loadMore_quiet {n : ℕ} {s t : PttInfo × UInt8 × Bytes}
    (h : loop .hang (loadMoreBody head) n s = .ok t) : Quiet s.1 t.1 :=
  loop_invariant (P := fun u => Quiet s.1 u.1) (Q := fun u => Quiet s.1 u.1)
    (fun _ _ hs hb => hs.trans (loadMoreBody_quiet hb))
    (fun _ _ hs hb => loadMoreBody_exit hb ▸ hs) h (.refl _)

theorem loadGeneralGroup_quiet (h : loadGeneralGroup info r = .ok (info', m)) :
    Quiet info info' := by
  simp only [loadGeneralGroup, bind_eq_ok, Prod.exists] at h
  obtain ⟨_, r, -, h⟩ := h
  split_ifs at h
  · simp only [bind_eq_ok, Prod.exists] at h
    obtain ⟨_, r, -, h⟩ := h
    cases h
    exact .refl _
  · simp only [bind_eq_ok, Prod.exists] at h
    obtain ⟨g, r, -, c, r, -, info₁, d, r, hrun, h⟩ := h
    have hq : Quiet info info₁ := loadMore_quiet hrun
    split_ifs at h
    · simp only [bind_eq_ok, Prod.exists] at h
      obtain ⟨_, r, -, b, r, -, h⟩ := h
      cases h
      exact hq
    · cases h
      exact hq

theorem loadSignalAddress_quiet (h : loadSignalAddress info r = .ok (info', m)) :
    Quiet info info' := by
  simp only [loadSignalAddress, bind_eq_ok, Prod.exists] at h
  obtain ⟨_, r, -, _, r, -, addr, r, -, out, r, -, _, r, -, h⟩ := h
  cases h
  exact .refl _

theorem loadBody_quiet {s t : PttInfo × Bytes} (h : loadBody s = .ok (.next t)) :
    Quiet s.1 t.1 := by
  obtain ⟨info, r⟩ := s
  simp only [loadBody] at h
  split_ifs at h
  · cases h
  simp only [bind_eq_ok, Prod.exists] at h
  obtain ⟨general, r, -, h⟩ := h
  cases general with
  | true =>
    simp only [if_true, bind_eq_ok, Prod.exists] at h
    obtain ⟨info', r, hrun, h⟩ := h
    cases h
    exact loadGeneralGroup_quiet hrun
  | false =>
    simp only [Bool.false_eq_true, if_false, bind_eq_ok, Prod.exists] at h
    obtain ⟨emergency, r, -, h⟩ := h
    cases emergency with
    | true =>
      simp only [if_true, bind_eq_ok, Prod.exists] at h
      obtain ⟨_, r, -, h⟩ := h
      cases h
      exact .refl _
    | false =>
      simp only [Bool.false_eq_true, if_false, bind_eq_ok, Prod.exists] at h
      obtain ⟨signal, r, -, h⟩ := h
      cases signal with
      | true =>
        simp only [if_true, bind_eq_ok, Prod.exists] at h
        obtain ⟨info', r, hrun, h⟩ := h
        cases h
        exact loadSignalAddress_quiet hrun
      | false =>
        simp only [Bool.false_eq_true, if_false, bind_eq_ok, Prod.exists] at h
        obtain ⟨_, r, -, h⟩ := h
        cases h
        exact .refl _

theorem loadLoop_quiet {n : ℕ} (h : loop .hang loadBody n (info, r) = .ok info') :
    Quiet info info' :=
  loop_invariant (P := fun u => Quiet info u.1) (Q := Quiet info)
    (fun _ _ hs hb => hs.trans (loadBody_quiet hb))
    (fun _ _ hs hb => (loadBody_exit.mp hb).2 ▸ hs) h (.refl _)

/-- The loader reports the groups once, at its end. -/
theorem loadGroupInfo_frame {content : Bytes} (h : loadGroupInfo info content = .ok info') :
    ∃ info₁, Quiet info info₁ ∧ receiveGroupInfo info₁ = .ok info' := by
  simp only [loadGroupInfo] at h
  split_ifs at h
  · exact ⟨info, .refl _, h⟩
  · obtain ⟨info₁, hrun, h⟩ := bind_eq_ok.mp h
    exact ⟨info₁, loadLoop_quiet hrun, h⟩

end

end PttTerminal
