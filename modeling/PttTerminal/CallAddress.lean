import PttTerminal.CallDesk

/-!
# Which call is answered and hung up

A queued command names the right call as long as the record is the one that the user saw, or becomes
the record of the number that was dialled. `KeepsAddress` are the steps that keep this so. It is
broken by a command that is handled before the call is reported, when the stored id is the initial
zero, and by a record that is reset or overwritten under a queued command.
-/
namespace PttTerminal

open Runs

namespace CallDesk

/-! ### The steps that keep a command addressed -/

/-- The stored id may become zero: no queued command is about a call with another id. -/
def mayReset (queue : List Queued) : Bool :=
  queue.all fun q => match q.target with
    | some (.call callId _) => callId = 0
    | _ => true

/-- A report is of the queued call, which goes on, or is not stored; the report of a dialled call
is. -/
def keepsTarget (d : CallDesk) (cs : CallState) : Option Target → Bool
  | some (.call callId number) =>
    (cs.callId ≠ callId || d.single cs && cs.number = number) &&
      (!d.terminal.storesCall cs || cs.callId = callId)
  | some (.dialled number) => !(d.single cs && cs.number = number) || d.terminal.storesCall cs
  | _ => true

/-- Nothing is asked for a call that was not reported. -/
def reported (d : CallDesk) : Option Target → Bool
  | some (.call _ _) | none => true
  | some _ => !d.asks

def keepsAddress (d : CallDesk) : DeskEvent → Bool
  | .makeCall _ number => number.isEmpty || mayReset d.queue
  | .showCallState _ cs => d.queue.all fun q => d.keepsTarget cs q.target
  | .onDestroy => d.terminal.keepsScreen || mayReset d.queue
  | .deliver k native => match d.queue[k]? with
    | none => true
    | some q => d.reported q.target &&
      (!d.terminal.clearsCall native q.command || mayReset (d.queue.eraseIdx k))
  | .regError _ => d.terminal.currentCallState.callState = .idle ||
      d.reported d.target && mayReset d.queue
  | .regNot => d.terminal.currentCallState.callState = .idle || mayReset d.queue
  | _ => true

/-! ### The invariant -/

/-- A call that is acted on is alive, and its id is the stored one. -/
def holds (d : CallDesk) : Target → Prop
  | .call callId number =>
    d.terminal.currentCallState.callId = callId ∧ (callId, number) ∈ d.calls
  | .dialled _ => True
  | .ended => False

/-- Every request was in order, and every queued command has its call. -/
structure Addressed (d : CallDesk) : Prop where
  inOrder : ∀ r ∈ d.requests, r.inOrder = true
  queued : ∀ q ∈ d.queue, ∀ target ∈ q.target, d.holds target

section
variable {d d' : CallDesk} {target : Target} {cs : CallState} {native : ℤ}

theorem holds_target (d : CallDesk) : d.holds d.target := by
  unfold CallDesk.target
  dsimp only
  split
  next h => exact ⟨rfl, h⟩
  next => trivial

/-- What a queued command needs is the stored id and the calls that are alive. -/
theorem holds_congr (hi : d'.terminal.currentCallState.callId = d.terminal.currentCallState.callId)
    (hc : d'.calls = d.calls) (h : d.holds target) : d'.holds target := by
  cases target with
  | call callId number => exact ⟨hi.trans h.1, hc ▸ h.2⟩
  | dialled number => trivial
  | ended => exact h

theorem Addressed.congr (h : d.Addressed)
    (hi : d'.terminal.currentCallState.callId = d.terminal.currentCallState.callId)
    (hc : d'.calls = d.calls) (hr : d'.requests = d.requests) (hq : d'.queue ⊆ d.queue) :
    d'.Addressed where
  inOrder := hr ▸ h.inOrder
  queued q hmem target ht := holds_congr hi hc (h.queued q (hq hmem) target ht)

/-- The stored id becomes zero. -/
theorem Addressed.reset (h : d.Addressed) (hm : mayReset d'.queue = true)
    (hi : d'.terminal.currentCallState.callId = 0) (hc : d'.calls = d.calls)
    (hr : d'.requests = d.requests) (hq : d'.queue ⊆ d.queue) : d'.Addressed where
  inOrder := hr ▸ h.inOrder
  queued q hmem target ht := by
    have hold := h.queued q (hq hmem) target ht
    cases target with
    | call callId number =>
      have hz := List.all_eq_true.mp hm q hmem
      rw [Option.mem_def.mp ht] at hz
      have hz' : callId = 0 := by simpa using hz
      exact ⟨hi.trans hz'.symm, hc ▸ hold.2⟩
    | dialled number => trivial
    | ended => exact hold

/-- A request for a call that is acted on names it. -/
theorem Addressed.request (h : d.Addressed) (ht : d.holds target)
    (hr : d.reported (some target) = true) : (d.request target).Addressed := by
  unfold CallDesk.request
  split
  next ha =>
    refine ⟨fun r hmem => ?_, h.queued⟩
    rcases List.mem_cons.mp hmem with rfl | hmem
    · cases target with
      | call callId number =>
        have halive : d.calls.any (fun c => c.1 = d.terminal.currentCallState.callId) = true :=
          List.any_eq_true.mpr ⟨_, ht.2, by simpa using ht.1.symm⟩
        simp only [Request.inOrder, halive, Bool.true_and, decide_eq_true_eq]
        exact ht.1.symm
      | dialled number => simp [reported, ha] at hr
      | ended => exact ht.elim
    · exact h.inOrder r hmem
  next => exact h

/-! ### The steps -/

theorem holds_after (h : d.holds target) (hk : d.keepsTarget cs (some target) = true) (native : ℤ) :
    (d.showCallState native cs).holds (target.after cs (d.single cs)) := by
  have hid : (d.showCallState native cs).terminal.currentCallState.callId =
      if d.terminal.storesCall cs then cs.callId else d.terminal.currentCallState.callId := by
    change (d.terminal.showCallState native cs).currentCallState.callId = _
    rw [Terminal.showCallState_stored]
    split
    · unfold Terminal.keptCall
      split <;> rfl
    · rfl
  have hcalls : (d.showCallState native cs).calls = if d.single cs then
      (cs.callId, cs.number) :: d.calls.filter (fun c => c.1 ≠ cs.callId)
    else d.calls.filter fun c => c.1 ≠ cs.callId := rfl
  cases target with
  | ended => exact h.elim
  | call callId number =>
    simp only [keepsTarget, Bool.and_eq_true, Bool.or_eq_true, decide_eq_true_eq,
      Bool.not_eq_true'] at hk
    obtain ⟨hsame, hstored⟩ := hk
    have hid' : (d.showCallState native cs).terminal.currentCallState.callId = callId := by
      rw [hid]
      split
      next hs => exact hstored.resolve_left (by simp [hs])
      next => exact h.1
    by_cases hc : cs.callId = callId
    · obtain ⟨hs, hn⟩ := hsame.resolve_left (by simpa using hc)
      rw [Target.after, if_neg (by simp [hs, hn])]
      refine ⟨hid', ?_⟩
      rw [hcalls, if_pos hs, hc, hn]
      exact List.mem_cons_self
    · rw [Target.after, if_neg (by simp [hc])]
      refine ⟨hid', ?_⟩
      have hmem : (callId, number) ∈ d.calls.filter fun c => c.1 ≠ cs.callId :=
        List.mem_filter.mpr ⟨h.2, by simpa using Ne.symm hc⟩
      rw [hcalls]
      split
      · exact List.mem_cons_of_mem _ hmem
      · exact hmem
  | dialled number =>
    unfold Target.after
    dsimp only
    split
    next hn =>
      have hs : d.terminal.storesCall cs = true := by simpa [keepsTarget, hn] using hk
      refine ⟨by rw [hid, if_pos hs], ?_⟩
      rw [hcalls, if_pos hn.1, hn.2]
      exact List.mem_cons_self
    next => trivial

theorem Addressed.showCallState (h : d.Addressed)
    (hok : d.queue.all (fun q => d.keepsTarget cs q.target) = true) (native : ℤ) :
    (d.showCallState native cs).Addressed where
  inOrder := h.inOrder
  queued q' hmem target' ht' := by
    obtain ⟨q, hq, rfl⟩ := List.mem_map.mp hmem
    have hk := List.all_eq_true.mp hok q hq
    cases q with
    | other c => cases ht'
    | hangup target =>
      obtain rfl : target.after cs (d.single cs) = target' := Option.some.inj ht'
      exact holds_after (h.queued _ hq target rfl) hk native
    | answer target =>
      obtain rfl : target.after cs (d.single cs) = target' := Option.some.inj ht'
      exact holds_after (h.queued _ hq target rfl) hk native

/-- A command that the user sends is about the call on the screen. -/
theorem Addressed.send (h : d.Addressed) {q : Queued} (hq : ∀ target ∈ q.target, target = d.target)
    {t : Terminal} (hi : t.currentCallState.callId = d.terminal.currentCallState.callId) :
    Addressed { d with terminal := t, queue := d.queue ++ [q] } where
  inOrder := h.inOrder
  queued q' hmem target ht := by
    refine holds_congr (d := d) hi rfl ?_
    rcases List.mem_append.mp hmem with hmem | hmem
    · exact h.queued q' hmem target ht
    · obtain rfl := List.mem_singleton.mp hmem
      rw [hq target ht]
      exact holds_target d

theorem Addressed.handle (h : d.Addressed) {q : Queued} (hq : ∀ target ∈ q.target, d.holds target)
    (hr : d.reported q.target = true)
    (hm : d.terminal.clearsCall native q.command = true → mayReset d.queue = true) :
    (d.handle native q).Addressed := by
  have hid := Terminal.handleCommand_callId native q.command d.terminal
  have hrun : ∀ d₁ : CallDesk, d₁.Addressed → d₁.terminal = d.terminal → d₁.queue = d.queue →
      Addressed { d₁ with terminal := d₁.terminal.handleCommand native q.command } := by
    intro d₁ h₁ ht hqueue
    split at hid
    next hc =>
      refine h₁.reset (hqueue ▸ hm hc) ?_ rfl rfl (List.Subset.refl _)
      rw [ht]
      exact hid
    next =>
      refine h₁.congr ?_ rfl rfl (List.Subset.refl _)
      rw [ht]
      exact hid
  unfold CallDesk.handle
  cases ht : q.target with
  | none => exact hrun d h rfl rfl
  | some target =>
    have hd : (d.request target).terminal = d.terminal ∧ (d.request target).queue = d.queue := by
      unfold CallDesk.request
      split <;> exact ⟨rfl, rfl⟩
    exact hrun _ (h.request (hq target ht) (ht ▸ hr)) hd.1 hd.2

theorem Addressed.deliver (h : d.Addressed) {k : ℕ}
    (hok : d.keepsAddress (.deliver k native) = true) : (d.deliver k native).Addressed := by
  unfold CallDesk.deliver
  cases hk : d.queue[k]? with
  | none => exact h
  | some q =>
    simp only [keepsAddress, hk, Bool.and_eq_true, Bool.or_eq_true, Bool.not_eq_true'] at hok
    have h₁ : Addressed { d with queue := d.queue.eraseIdx k } :=
      h.congr rfl rfl rfl (List.eraseIdx_subset)
    refine h₁.handle (fun target ht => ?_) hok.1 fun hc => ?_
    · exact holds_congr rfl rfl (h.queued q (List.mem_of_getElem? hk) target ht)
    · exact hok.2.resolve_left (by rw [show d.terminal.clearsCall native q.command = true from hc]; simp)

/-- The id is kept or becomes zero, and the queue and the requests are the same. -/
theorem Addressed.keptOrReset (h : d.Addressed) {p : Prop} [Decidable p]
    (hi : d'.terminal.currentCallState.callId = if p then d.terminal.currentCallState.callId else 0)
    (hm : ¬p → mayReset d'.queue = true) (hc : d'.calls = d.calls) (hr : d'.requests = d.requests)
    (hq : d'.queue ⊆ d.queue) : d'.Addressed := by
  by_cases hp : p
  · exact h.congr (by rw [hi, if_pos hp]) hc hr hq
  · exact h.reset (hm hp) (by rw [hi, if_neg hp]) hc hr hq

theorem Addressed.regError (h : d.Addressed)
    (hok : d.keepsAddress (.regError native) = true) : (d.regError native).Addressed := by
  simp only [keepsAddress, Bool.or_eq_true, Bool.and_eq_true, decide_eq_true_eq] at hok
  have hid := Terminal.regError_callId native d.terminal
  by_cases hi : d.terminal.currentCallState.callState = .idle
  · have he : d.regError native = { d with terminal := d.terminal.regError native } := by
      unfold CallDesk.regError
      rw [if_neg (not_not.mpr hi)]
    rw [he]
    exact h.keptOrReset hid (fun hn => absurd hi hn) rfl rfl (List.Subset.refl _)
  · obtain ⟨hrep, hm⟩ := hok.resolve_left hi
    have he : d.regError native =
        { d.request d.target with terminal := d.terminal.regError native } := by
      unfold CallDesk.regError
      rw [if_pos hi]
    have hd : (d.request d.target).queue = d.queue := by
      unfold CallDesk.request
      split <;> rfl
    rw [he]
    refine (h.request (holds_target d) hrep).reset ?_ ?_ rfl rfl (List.Subset.refl _)
    · exact hd ▸ hm
    · rw [if_neg hi] at hid
      exact hid

theorem Addressed.event (h : d.Addressed) {e : DeskEvent} (hok : d.keepsAddress e = true) :
    (e.handle d).Addressed := by
  cases e with
  | makeCall native number =>
    refine h.keptOrReset (Terminal.makeCall_callId native number _) (fun hn => ?_) rfl rfl
      (List.Subset.refl _)
    have hm : mayReset d.queue = true := by simpa [keepsAddress, hn] using hok
    exact hm
  | showCallState native cs => exact h.showCallState hok native
  | answer =>
    exact h.send (q := .answer d.target) (by simp [Queued.target]) rfl
  | hangup =>
    show d.hangup.Addressed
    unfold CallDesk.hangup
    split
    · exact h.send (q := .hangup d.target) (by simp [Queued.target]) rfl
    · exact h
  | onDestroy =>
    refine h.keptOrReset (Terminal.onDestroy_callId _) (fun hn => ?_) rfl rfl (List.Subset.refl _)
    have hm : mayReset d.queue = true := by simpa [keepsAddress, hn] using hok
    exact hm
  | sendCommand c => exact h.send (q := .other c) (by simp [Queued.target]) rfl
  | deliver k native => exact h.deliver hok
  | regError native => exact h.regError hok
  | regNot =>
    refine h.keptOrReset (Terminal.regNot_callId _) (fun hn => ?_) rfl rfl (List.Subset.refl _)
    have hm : mayReset d.queue = true := by simpa [keepsAddress, hn] using hok
    exact hm
  | showUi ui => exact h.congr rfl rfl rfl (List.Subset.refl _)

end

end CallDesk

/-- In every run whose steps keep the queued commands addressed, every request names the single call
that the user acted on, which is alive. -/
theorem runs_callsAddressed (d : CallDesk)
    (h : callDesk.Reached (fun d e => d.keepsAddress e = true) d) : ∀ r ∈ d.requests,
      r.inOrder = true := by
  have hrun : d.Addressed := h.invariant
    (fun d hd => ⟨by simp [hd.2.2.2], by simp [hd.2.1]⟩)
    (fun d e hd _ hok => hd.event hok)
  exact hrun.inOrder

/-- A call that comes in is answered and hung up. -/
theorem answered_call_hung_up :
    let d := callDesk.run { terminal := .ready }
      [.showCallState 0 ⟨0, some (ascii "200"), .ringing, 0⟩,
      .showUi { topActivity := .inCall, inCallScreenActivity := true }, .answer, .deliver 0 0,
      .showCallState 0 ⟨0, some (ascii "200"), .talking, 0⟩, .hangup, .deliver 0 0]
    d.requests.map Request.callId = [0, 0] ∧ ∀ r ∈ d.requests, r.inOrder = true :=
  ⟨by decide, runs_callsAddressed _ (System.reached_run fresh_desk (by decide))⟩

/-- The call of a group has the id zero when the user dials a number and hangs up at once: the
stored id is the initial zero, and the group's call is hung up. -/
theorem dialled_call_hangs_up_group :
    let d := callDesk.run { terminal := .ready }
      [.showCallState 0 ⟨0, some (ascii "8001"), .talking, 0⟩,
      .makeCall 0 (ascii "200"), .showUi { topActivity := .inCall, inCallScreenActivity := true },
      .hangup, .deliver 0 0]
    callDesk.Reached (fun _ _ => True) d ∧ ¬(∀ r ∈ d.requests, r.inOrder = true) ∧
      d.requests = [⟨0, .dialled (some (ascii "200")), false⟩] ∧
      d.terminal.liveGroupCall 0 d.terminal.journal = true :=
  ⟨System.reached_run fresh_desk (by decide), by decide, by decide, by decide⟩

end PttTerminal
