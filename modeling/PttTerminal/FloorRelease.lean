import PttTerminal.FloorRequests

/-!
# What a released key leaves behind

When the key is up, its handler is done and no command is on its way, no request is pending and the
status does not ask for the floor. A request of a released key needs a cancel command that is still
to be received; `settlesRelease` are the steps that see to it. It is broken by an application that
is received after the key was released, and by a waiting response that cancels without a new status.
-/
namespace PttTerminal

open Runs

namespace Floor

/-- A request or question of a released key is about to be cancelled, and while the key is held or
its handler sleeps, the status tells of a pending request. -/
structure Settles (f : Floor) : Prop where
  released : f.key = .up → f.releasing = false → (f.pending = true ∨ f.asking = true) →
    .cancelPttRight ∈ f.commands
  held : f.pending = true → f.asking = true ∨ .cancelPttRight ∈ f.commands
  groups : f.pending = true → f.groups = true

end Floor

namespace Terminal

/-- A released key leaves no request behind. -/
def ReleaseSettled (t : Terminal) : Prop :=
  t.ePttKeyStatus = .up → t.releasing = false → t.commands = [] →
    pending t.journal = false ∧ t.asking = false

instance (t : Terminal) : Decidable t.ReleaseSettled := by
  unfold ReleaseSettled
  infer_instance

/-- The steps that leave a cancellation to come where one is needed. -/
def settlesRelease (t : Terminal) : Event → Bool
  | .deliver native => match t.commands with
    | .applyPttRight :: cs => !t.opensApply || cs.contains .cancelPttRight ||
      if t.ePttKeyStatus = .up then t.applyGroup.isSome && native ≠ 0
      else t.applyGroup.isNone || native = 0 || !t.asking
    | .hangupPttCall :: cs => t.ePttKeyStatus = .up || !t.asking || cs.contains .cancelPttRight
    | _ => true
  | .updatePttState native obj =>
    obj.status ≠ .waiting || t.ePttKeyStatus = .down || t.releasing ||
      t.commands.contains .cancelPttRight ||
      (native ≠ 0 && !t.inSingleCall && !t.lstGroupData.isEmpty)
  | _ => true

section
variable {native : ℤ} {t : Terminal}

/-! ### Deliveries -/

/-- What the queue promises after its first command was taken. -/
theorem settles_tail {f : Floor} {c : Command} {cs : List Command} (h : f.Settles)
    (hc : f.commands = c :: cs) (hne : c ≠ .cancelPttRight) :
    ({ f with commands := cs } : Floor).Settles := by
  have hmem : .cancelPttRight ∈ f.commands → .cancelPttRight ∈ cs := by
    rw [hc, List.mem_cons]
    rintro (h | h)
    · exact absurd h.symm hne
    · exact h
  exact ⟨fun hk hr hp => hmem (h.released hk hr hp), fun hp => (h.held hp).imp_right hmem, h.groups⟩

/-- With a cancel command on its way, nothing more is needed than that a request has a group. -/
theorem settles_of_mem {f : Floor} (hm : .cancelPttRight ∈ f.commands)
    (hg : f.pending = true → f.groups = true) : f.Settles :=
  ⟨fun _ _ _ => hm, fun _ => .inr hm, hg⟩

theorem settles_of_settled {f : Floor} (hp : f.pending = false) (ha : f.asking = false) :
    f.Settles :=
  ⟨by simp [hp, ha], by simp [hp], by simp [hp]⟩

theorem settles_request (h : t.floor.Settles) (hrel : t.releasing = false)
    (hl : t.lstGroupData.isEmpty = false)
    (hok : .cancelPttRight ∈ t.commands ∨
      if t.ePttKeyStatus = .up then native ≠ 0 else native = 0 ∨ t.asking = false) :
    (t.floor.request (native = 0)).Settles := by
  have hg : t.floor.groups = true := by simp [floor, hl]
  by_cases hm : .cancelPttRight ∈ t.commands
  · exact settles_of_mem hm fun _ => hg
  have hok' := hok.resolve_left hm
  have hpend : t.floor.pending = true → t.asking = true := fun hp => (h.held hp).resolve_right hm
  cases hk : t.ePttKeyStatus with
  | up =>
    have hn : native ≠ 0 := by simpa [hk] using hok'
    have hp : t.floor.pending = false := by
      rw [← Bool.not_eq_true]
      exact fun hp => hm (h.released hk hrel (.inl hp))
    exact settles_of_settled (by simp [Floor.request, hp, hn]) (by simp [Floor.request, hn])
  | down =>
    have hdown : t.floor.key = .down := hk
    refine ⟨fun hu => ?_, fun hs => ?_, fun _ => hg⟩
    · simp [Floor.request, hdown] at hu
    · have hn : native = 0 ∨ t.asking = false := by simpa [hk] using hok'
      obtain hn | ha := hn
      · exact .inl (by simp [Floor.request, hn])
      · have hp : t.floor.pending = false := by
          rw [← Bool.not_eq_true]
          intro hp
          simp [hpend hp] at ha
        exact .inl (by simpa [Floor.request, hp] using hs)

theorem settles_handleApply (h : t.floor.Settles) (hrel : t.releasing = false)
    (hok : t.opensApply = true → .cancelPttRight ∈ t.commands ∨
      if t.ePttKeyStatus = .up then t.applyGroup.isSome = true ∧ native ≠ 0
      else t.applyGroup.isNone = true ∨ native = 0 ∨ t.asking = false) :
    (t.handleApply native).floor.Settles := by
  rw [floor_handleApply]
  split
  · exact h
  next hr =>
    simp only [Bool.or_eq_true, not_or, Bool.not_eq_true, Bool.not_eq_false'] at hr
    split
    next hl =>
      have hp : t.floor.pending = false := by
        rw [← Bool.not_eq_true]
        intro hp
        have hg := h.groups hp
        simp [floor, hl] at hg
      exact settles_of_settled hp rfl
    next hl =>
      have hl' : t.lstGroupData.isEmpty = false := by simpa using hl
      have hok' := hok (by simp [opensApply, hr.1, hr.2, hl'])
      split
      next hg =>
        refine ⟨fun hk _ _ => ?_, fun _ => .inl rfl, h.groups⟩
        have hk' : t.ePttKeyStatus = .up := hk
        have hs : t.applyGroup = none := by simpa using hg
        obtain hm | hok' := hok'
        · exact hm
        · simp [hk', hs] at hok'
      next hg =>
        have hn : t.applyGroup.isNone = false := Bool.eq_false_iff.mpr hg
        refine settles_request h hrel hl' (hok'.imp_right fun ho => ?_)
        split at ho
        next hk =>
          rw [if_pos hk]
          exact ho.2
        next hk =>
          rw [if_neg hk]
          exact ho.resolve_left (by simp [hn])

theorem settles_deliver (hr : t.Ready) (h : t.floor.Settles) (hrel : t.releasing = false)
    (hok : t.settlesRelease (.deliver native)) : (t.deliver native).floor.Settles := by
  unfold deliver
  split
  · exact h
  next c cs hcs =>
    have hc : c.ofKey := hr.2.2 c (by rw [hcs]; exact List.mem_cons_self)
    have hu : c ≠ .cancelPttRight → ({ t with commands := cs } : Terminal).floor.Settles :=
      settles_tail h hcs
    unfold handleCommand
    rw [if_neg (by simp [hr.2.1])]
    simp only [settlesRelease, hcs] at hok
    cases c with
    | applyPttRight =>
      refine settles_handleApply (hu (by simp)) hrel fun ho => ?_
      rw [opensApply_commands] at ho
      rw [ho] at hok
      by_cases hm : .cancelPttRight ∈ cs
      · exact .inl hm
      · have hok' : (if t.ePttKeyStatus = .up then t.applyGroup.isSome && decide (native ≠ 0)
            else t.applyGroup.isNone || decide (native = 0) || !t.asking) = true := by
          simpa [hm] using hok
        right
        split at hok'
        next hk =>
          rw [if_pos hk]
          have hand : t.applyGroup.isSome = true ∧ native ≠ 0 := by simpa using hok'
          exact hand
        next hk =>
          rw [if_neg hk]
          have hor : (t.applyGroup.isNone = true ∨ native = 0) ∨ t.asking = false := by
            simpa using hok'
          exact or_assoc.mp hor
    | cancelPttRight =>
      dsimp only
      rw [floor_handleCancel]
      refine settles_of_settled ?_ rfl
      cases hp : pending t.journal with
      | false => simp
      | true =>
        have hg : t.floor.groups = true := h.groups hp
        simpa [floor] using hg
    | hangupPttCall =>
      dsimp only
      rw [floor_handleHangup]
      have hu' := hu (by simp)
      have ho : (t.ePttKeyStatus = .up ∨ t.asking = false) ∨ .cancelPttRight ∈ cs := by
        simpa using hok
      have hheld : pending t.journal = true → .cancelPttRight ∈ cs := by
        intro hp
        obtain (hk | ha) | hm := ho
        · exact hu'.released hk hrel (.inl hp)
        · obtain ha' | hm := hu'.held hp
          · have ha'' : t.asking = true := ha'
            simp [ha''] at ha
          · exact hm
        · exact hm
      exact ⟨fun _ _ hp => hheld (hp.resolve_right (by simp)), fun hp => .inr (hheld hp), h.groups⟩
    | updatePttUi =>
      dsimp only
      rw [floor_isbPttErrorShowing]
      exact hu (by simp)
    | _ => simp [Command.ofKey] at hc

theorem settles_waiting {obj : PttGroupStatus} (hc : t.callState ≠ .talking) (h : t.floor.Settles)
    (hw : obj.status = .waiting)
    (hok : t.ePttKeyStatus = .down ∨ t.releasing = true ∨ .cancelPttRight ∈ t.commands ∨
      (native ≠ 0 ∧ t.inSingleCall = false ∧ t.lstGroupData.isEmpty = false)) :
    (t.updatePttState native obj).floor.Settles := by
  obtain ⟨-, hf⟩ | hf := floor_waiting native hc hw
  · rw [hf]
    exact h
  · have hask : ∀ f : Floor, f = { t.floor with asking := true } →
      (f.key = .up → f.releasing = false →
        .cancelPttRight ∈ f.commands) → f.Settles := fun f hf hrel => by
      subst hf
      exact ⟨fun hk hr _ => hrel hk hr, fun _ => .inl rfl, h.groups⟩
    rw [hf]
    split
    next hs =>
      have hup : t.floor.key = .up := hs.2
      unfold Floor.cancel
      split
      next hg =>
        refine ⟨fun _ hr ha => ?_, fun hp => by simp at hp, fun hp => by simp at hp⟩
        have hr' : t.releasing = false := hr
        have hn : native = 0 := by simpa using ha
        show Command.cancelPttRight ∈ t.commands
        simpa [hs.2, hr', hn] using hok
      next hg =>
        have hl : t.lstGroupData.isEmpty = true := by simpa [floor] using hg
        refine hask _ rfl fun _ hr => ?_
        have hr' : t.releasing = false := hr
        show Command.cancelPttRight ∈ t.commands
        simpa [hs.2, hr', hl] using hok
    next hs =>
      refine hask _ rfl fun hk hr => ?_
      have hk' : t.ePttKeyStatus = .up := hk
      have hr' : t.releasing = false := hr
      have hin : t.inSingleCall = true := by simpa [hk'] using hs
      show Command.cancelPttRight ∈ t.commands
      simpa [hk', hr', hin] using hok

theorem settles_handle {e : Event} (hr : t.Ready) (h : t.floor.Settles) (he : e.ofFloor)
    (hen : e.enabled t) (hok : t.settlesRelease e) : (e.handle t).floor.Settles := by
  cases e with
  | keyDown =>
    obtain ⟨k, l, -, hk, hf⟩ := floor_handlePttDown t
    dsimp only [Event.handle]
    rw [hf]
    refine ⟨fun hu hr hp => ?_, fun hp => ?_, h.groups⟩
    · obtain rfl | rfl := hk
      · exact List.mem_append_left _ (h.released hu hr hp)
      · simp at hu
    · exact (h.held hp).imp_right (List.mem_append_left _)
  | keyUp =>
    exact ⟨fun _ hr => by simp [Event.handle, handlePttUp, floor] at hr, h.held, h.groups⟩
  | keyUpResume =>
    obtain ⟨l, -, hc, hf⟩ := floor_resumePttUp t
    dsimp only [Event.handle]
    rw [hf]
    refine ⟨fun _ _ hp => ?_, fun hp => ?_, h.groups⟩
    · obtain hp | ha := hp
      · obtain ha | hm := h.held hp
        · exact List.mem_append_right _ (hc ha)
        · exact List.mem_append_left _ hm
      · exact List.mem_append_right _ (hc ha)
    · exact (h.held hp).imp_right (List.mem_append_left _)
  | deliver native =>
    have hwait : t.releasing = false := by simpa [Event.enabled, Event.onMainThread] using hen
    exact settles_deliver hr h hwait hok
  | receivePttRightResponse native s =>
    obtain ⟨l, -, hf⟩ := floor_response native hr.1 he
    dsimp only [Event.handle]
    rw [hf]
    exact settles_of_settled rfl rfl
  | updatePttState native obj =>
    have hw : obj.status = .waiting ∨ obj.status = .rejected := by simpa [Event.ofFloor] using he
    obtain hw | hw := hw
    · refine settles_waiting hr.1 h hw ?_
      have ho : ((t.ePttKeyStatus = .down ∨ t.releasing = true) ∨ .cancelPttRight ∈ t.commands) ∨
          (native ≠ 0 ∧ t.inSingleCall = false) ∧ t.lstGroupData.isEmpty = false := by
        simpa [settlesRelease, hw] using hok
      obtain ((hk | hr) | hm) | hc := ho
      · exact .inl hk
      · exact .inr (.inl hr)
      · exact .inr (.inr (.inl hm))
      · exact .inr (.inr (.inr ⟨hc.1.1, hc.1.2, hc.2⟩))
    · dsimp only [Event.handle]
      rw [floor_rejected hr.1 hw]
      exact settles_of_settled rfl rfl
  | _ => simp [Event.ofFloor] at he

end

end Terminal

/-- In every run from a quiet terminal whose steps all meet the condition, a released key leaves
neither a request nor a question for the floor. -/
theorem runs_releaseSettled {t : Terminal}
    (h : (terminal Terminal.Quiet Event.ofFloor).Reached (fun t e => t.settlesRelease e) t) :
    t.ReleaseSettled := by
  have hs : t.Ready ∧ t.floor.Settles := by
    refine h.invariant (P := fun t => t.Ready ∧ t.floor.Settles) (fun s (hs : s.Quiet) => ?_) ?_
    · refine ⟨hs.ready, Terminal.settles_of_settled ?_ hs.asking⟩
      simp [Terminal.floor, hs.journal, pending]
    · intro s e ih he hok
      exact ⟨Terminal.ready_handle ih.1 he.1, Terminal.settles_handle ih.1 ih.2 he.1 he.2 hok⟩
  intro hk hr hc
  have hno : .cancelPttRight ∉ t.commands := by simp [hc]
  constructor
  · rw [← Bool.not_eq_true]
    exact fun hp => hno (hs.2.released hk hr (.inl hp))
  · rw [← Bool.not_eq_true]
    exact fun ha => hno (hs.2.released hk hr (.inr ha))

/-- A press that is released while its request waits: the handler of the released key cancels. -/
theorem release_cancels_request :
    let t := (terminal Terminal.Quiet Event.ofFloor).run .afterSpeech
      [.keyDown, .deliver 0, .updatePttState 0 { status := .waiting }, .keyUp,
        .keyUpResume, .deliver 0]
    t.journal ≠ [] ∧ t.commands = [] ∧ t.ReleaseSettled :=
  ⟨by decide, by decide, runs_releaseSettled (System.reached_run quiet_afterSpeech (by decide))⟩

/-- The key is released before its command is received: the handler finds a free floor and sends
nothing, and the application is made with the key up. -/
theorem late_application_stays :
    let t := (terminal Terminal.Quiet Event.ofFloor).run .afterSpeech
      [.keyDown, .keyUp, .keyUpResume, .deliver 0]
    (terminal Terminal.Quiet Event.ofFloor).Reached (fun _ _ => True) t ∧ ¬t.ReleaseSettled :=
  ⟨System.reached_run quiet_afterSpeech (by decide), by decide⟩

end PttTerminal
