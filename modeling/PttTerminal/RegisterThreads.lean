import PttTerminal.Library.Runs

/-!
# Registrations at the same time

Each command to register starts a thread of its own. The threads share the registration state: a
thread that finds it REGISTERING goes away, and another one sets it and calls the native login. The
native callback and a cancelled dialog write the state as well, and of each of them the test and the
assignment are two steps.
-/
namespace PttTerminal

open Runs

inductive EnumLoginState where
  | unregistered
  | registering
  | errorCodeNumber
  | registereSuccess
  deriving Repr, DecidableEq

/-- Where a thread stands: before the two tests of `run`, before the test of `doRegister`, before
it sets the state, before it calls `RequestRegister`, within the call, and before it looks at the
result. -/
inductive RegisterPc where
  | run
  | runSecond
  | doRegister
  | setRegistering
  | requestRegister
  | inRequest
  | checkResult (success : Bool)
  | ended
  deriving Repr, DecidableEq

structure RegisterThread where
  bForceRedo : Bool
  pc : RegisterPc := .run
  deriving Repr, DecidableEq

/-- The shared state, which is null after a callback with an unknown state, the threads, and the
states that native callbacks and cancelled dialogs are about to set. -/
structure Registrar where
  currentRegisterState : Option EnumLoginState := some .unregistered
  threads : List RegisterThread := []
  pending : List (Option EnumLoginState) := []
  deriving Repr, DecidableEq

/-- The codes of `PTTConstant`. -/
inductive RegCode where
  | not
  | ed
  | ing
  | error
  | other
  deriving Repr, DecidableEq

def RegCode.newState : RegCode → Option EnumLoginState
  | .not => some .unregistered
  | .ed => some .registereSuccess
  | .ing => some .registering
  | .error => some .errorCodeNumber
  | .other => none

namespace Registrar

/-- `handleRegister` starts a thread. -/
def handleRegister (bForce : Bool) (g : Registrar) : Registrar :=
  { g with threads := g.threads ++ [{ bForceRedo := bForce }] }

/-- What a thread finds and does next, when the state is `st`: its next place, and what it assigns
to the state. `success` is what `RequestRegister` answers. -/
def advance (st : Option EnumLoginState) (success : Bool) (t : RegisterThread) :
    RegisterPc × Option EnumLoginState :=
  match t.pc with
  | .run =>
    if t.bForceRedo then (.doRegister, none)
    else if st = some .errorCodeNumber then (.doRegister, none)
    else (.runSecond, none)
  | .runSecond => if st = some .unregistered then (.doRegister, none) else (.ended, none)
  | .doRegister => if st = some .registering then (.ended, none) else (.setRegistering, none)
  | .setRegistering => (.requestRegister, some .registering)
  | .requestRegister => (.inRequest, none)
  | .inRequest => (.checkResult success, none)
  | .checkResult true => (.ended, none)
  | .checkResult false => (.ended, some .errorCodeNumber)
  | .ended => (.ended, none)

/-- One step of the thread `i`. -/
def threadStep (i : ℕ) (success : Bool) (g : Registrar) : Registrar :=
  match g.threads[i]? with
  | none => g
  | some t =>
    let (pc, written) := advance g.currentRegisterState success t
    { g with
      currentRegisterState := written.or g.currentRegisterState
      threads := g.threads.set i { t with pc := pc } }

/-- `showLoginState` up to the assignment: an error is ignored while the terminal is not
registered. -/
def showLoginState (state : RegCode) (errorCode : ℤ) (g : Registrar) : Registrar :=
  if g.currentRegisterState = some .unregistered ∧ errorCode ≠ 200 then g
  else { g with pending := g.pending ++ [state.newState] }

/-- The progress dialog of a registration is cancelled, up to the assignment. -/
def cancelDialog (g : Registrar) : Registrar :=
  if g.currentRegisterState = some .registereSuccess then g
  else { g with pending := g.pending ++ [some .unregistered] }

/-- The assignment `i` that was left. -/
def setPending (i : ℕ) (g : Registrar) : Registrar :=
  match g.pending[i]? with
  | none => g
  | some newState =>
    { g with currentRegisterState := newState, pending := g.pending.eraseIdx i }

end Registrar

inductive RegisterEvent where
  | handleRegister (bForce : Bool)
  | thread (i : ℕ) (success : Bool)
  | showLoginState (state : RegCode) (errorCode : ℤ)
  | cancelDialog
  | setPending (i : ℕ)
  deriving Repr, DecidableEq

def Registrar.next (g : Registrar) : RegisterEvent → Registrar
  | .handleRegister bForce => g.handleRegister bForce
  | .thread i success => g.threadStep i success
  | .showLoginState state errorCode => g.showLoginState state errorCode
  | .cancelDialog => g.cancelDialog
  | .setPending i => g.setPending i

def registrar : System Registrar RegisterEvent where
  init g := g = {}
  enabled _ _ := True
  next := Registrar.next

instance (g : Registrar) (e : RegisterEvent) : Decidable (registrar.enabled g e) := isTrue trivial

/-! ### One request at a time -/

/-- The place of a thread. -/
def Registrar.pcOf (g : Registrar) (i : ℕ) : Option RegisterPc :=
  (g.threads[i]?).map RegisterThread.pc

/-- No two threads are within `RequestRegister`. -/
def Registrar.OneInFlight (g : Registrar) : Prop :=
  ∀ i j, g.pcOf i = some .inRequest → g.pcOf j = some .inRequest → i = j

/-- The thread has set the state, and its request has not returned. -/
def RegisterPc.isRequesting : RegisterPc → Bool
  | .requestRegister => true
  | .inRequest => true
  | _ => false

/-- The thread has passed its test, and its request has not returned. -/
def RegisterPc.isAdmitted : RegisterPc → Bool
  | .setRegistering => true
  | pc => pc.isRequesting

/-- No thread but `i` is at a place of the kind. -/
def Registrar.NoneBut (g : Registrar) (i : Option ℕ) (kind : RegisterPc → Bool) : Prop :=
  ∀ j < g.threads.length, some j ≠ i → ∀ pc ∈ g.pcOf j, kind pc = false

instance (g : Registrar) (i : Option ℕ) (kind : RegisterPc → Bool) : Decidable (g.NoneBut i kind) :=
  inferInstanceAs (Decidable
    (∀ j < g.threads.length, some j ≠ i → ∀ pc ∈ g.pcOf j, kind pc = false))

/-- The thread that takes the step. -/
def RegisterEvent.actor : RegisterEvent → Option ℕ
  | .thread i _ => some i
  | _ => none

/-- What an event assigns to the state. -/
def Registrar.written (g : Registrar) : RegisterEvent → Option (Option EnumLoginState)
  | .thread i success => (g.threads[i]?).bind fun t =>
      (Registrar.advance g.currentRegisterState success t).2.map some
  | .setPending i => g.pending[i]?
  | _ => none

/-- A thread passes its test only while no other thread has passed its own and not set the state;
and the state is set to anything but REGISTERING only while no other thread has a request under
way. -/
structure Registrar.KeepsOne (g : Registrar) (e : RegisterEvent) : Prop where
  test : ∀ i ∈ e.actor, g.pcOf i = some .doRegister → g.currentRegisterState ≠ some .registering →
    g.NoneBut (some i) (· == .setRegistering)
  state : ∀ st ∈ g.written e, st ≠ some .registering → g.NoneBut e.actor RegisterPc.isRequesting

theorem Registrar.keepsOne_iff {g : Registrar} {e : RegisterEvent} : g.KeepsOne e ↔
    (∀ i ∈ e.actor, g.pcOf i = some .doRegister → g.currentRegisterState ≠ some .registering →
      g.NoneBut (some i) (· == .setRegistering)) ∧
    ∀ st ∈ g.written e, st ≠ some .registering → g.NoneBut e.actor RegisterPc.isRequesting :=
  ⟨fun h => ⟨h.test, h.state⟩, fun h => ⟨h.1, h.2⟩⟩

instance (g : Registrar) (e : RegisterEvent) : Decidable (g.KeepsOne e) :=
  decidable_of_iff _ Registrar.keepsOne_iff.symm

/-- One thread at most has passed its test, and while its request is under way the state says so. -/
structure Registrar.OneAdmitted (g : Registrar) : Prop where
  unique : ∀ i j pc pc', g.pcOf i = some pc → g.pcOf j = some pc' → pc.isAdmitted →
    pc'.isAdmitted → i = j
  state : ∀ i pc, g.pcOf i = some pc → pc.isRequesting →
    g.currentRegisterState = some .registering

namespace Registrar

variable {g : Registrar} {e : RegisterEvent}

theorem OneAdmitted.oneInFlight (h : g.OneAdmitted) : g.OneInFlight :=
  fun i j hi hj => h.unique i j _ _ hi hj rfl rfl

theorem noneBut_apply {i : Option ℕ} {kind : RegisterPc → Bool} (h : g.NoneBut i kind) {j : ℕ}
    {pc : RegisterPc} (hj : g.pcOf j = some pc) (hne : some j ≠ i) : kind pc = false := by
  refine h j ?_ hne pc hj
  obtain ⟨t, ht, -⟩ := Option.map_eq_some_iff.mp hj
  exact (List.getElem?_eq_some_iff.mp ht).1

/-- An event that moves no thread keeps the order when its assignment does. -/
theorem OneAdmitted.samePcs {g' : Registrar} (h : g.OneAdmitted)
    (hpc : ∀ i pc, g'.pcOf i = some pc → pc.isAdmitted → g.pcOf i = some pc)
    (hstate : ∀ i pc, g.pcOf i = some pc → pc.isRequesting →
      g'.currentRegisterState = some .registering) : g'.OneAdmitted := by
  have hadmitted : ∀ pc : RegisterPc, pc.isRequesting = true → pc.isAdmitted = true := by
    intro pc
    cases pc <;> simp [RegisterPc.isRequesting, RegisterPc.isAdmitted]
  constructor
  · intro i j pc pc' hi hj ha ha'
    exact h.unique i j pc pc' (hpc i pc hi ha) (hpc j pc' hj ha') ha ha'
  · intro i pc hi hr
    exact hstate i pc (hpc i pc hi (hadmitted pc hr)) hr

theorem pcOf_threadStep {i j : ℕ} {success : Bool} {t : RegisterThread}
    (ht : g.threads[i]? = some t) : (g.threadStep i success).pcOf j =
      if j = i then some (advance g.currentRegisterState success t).1 else g.pcOf j := by
  have hi := (List.getElem?_eq_some_iff.mp ht).1
  simp only [threadStep, ht, pcOf, List.getElem?_set]
  by_cases hj : i = j
  · subst hj
    simp [hi]
  · rw [if_neg hj, if_neg (Ne.symm hj)]

theorem state_threadStep {i : ℕ} (success : Bool) {t : RegisterThread}
    (ht : g.threads[i]? = some t) : (g.threadStep i success).currentRegisterState =
      (advance g.currentRegisterState success t).2.or g.currentRegisterState := by
  simp only [threadStep, ht]

/-- A thread that goes on to a place where nothing is admitted, and leaves the state to the
others. -/
theorem OneAdmitted.leave (h : g.OneAdmitted) {i : ℕ} {success : Bool} {t : RegisterThread}
    (ht : g.threads[i]? = some t)
    (hpc : (advance g.currentRegisterState success t).1.isAdmitted = false)
    (hstate : ∀ j pc, j ≠ i → g.pcOf j = some pc → pc.isRequesting →
      (g.threadStep i success).currentRegisterState = some .registering) :
    (g.threadStep i success).OneAdmitted := by
  have hother : ∀ j pc, (g.threadStep i success).pcOf j = some pc → pc.isAdmitted →
      j ≠ i ∧ g.pcOf j = some pc := by
    intro j pc hj ha
    rw [pcOf_threadStep ht] at hj
    split at hj
    · cases hj
      rw [hpc] at ha
      cases ha
    next hne => exact ⟨hne, hj⟩
  constructor
  · intro j k pc pc' hj hk ha ha'
    exact h.unique j k pc pc' (hother j pc hj ha).2 (hother k pc' hk ha').2 ha ha'
  · intro j pc hj hr
    have ha : pc.isAdmitted = true := by
      cases pc <;> simp [RegisterPc.isRequesting, RegisterPc.isAdmitted] at hr ⊢
    obtain ⟨hne, hj⟩ := hother j pc hj ha
    exact hstate j pc hne hj hr

/-- Such a thread, when it writes nothing. -/
theorem OneAdmitted.goOn (h : g.OneAdmitted) {i : ℕ} {success : Bool} {t : RegisterThread}
    {pc : RegisterPc} (ht : g.threads[i]? = some t)
    (hadv : advance g.currentRegisterState success t = (pc, none))
    (hpc : pc.isAdmitted = false) : (g.threadStep i success).OneAdmitted := by
  apply h.leave ht (by rw [hadv]; exact hpc)
  intro j pc' _ hj hr
  rw [state_threadStep success ht, hadv]
  exact h.state j pc' hj hr

/-- A thread that is or becomes the only one that is admitted. -/
theorem OneAdmitted.stay {i : ℕ} {success : Bool} {t : RegisterThread}
    (ht : g.threads[i]? = some t)
    (hnone : ∀ j pc, j ≠ i → g.pcOf j = some pc → pc.isAdmitted = false)
    (hstate : (advance g.currentRegisterState success t).1.isRequesting →
      (g.threadStep i success).currentRegisterState = some .registering) :
    (g.threadStep i success).OneAdmitted := by
  have honly : ∀ j pc, (g.threadStep i success).pcOf j = some pc → pc.isAdmitted →
      j = i ∧ pc = (advance g.currentRegisterState success t).1 := by
    intro j pc hj ha
    rw [pcOf_threadStep ht] at hj
    split at hj
    next heq =>
      cases hj
      exact ⟨heq, rfl⟩
    next hne =>
      rw [hnone j pc hne hj] at ha
      cases ha
  constructor
  · intro j k pc pc' hj hk ha ha'
    rw [(honly j pc hj ha).1, (honly k pc' hk ha').1]
  · intro j pc hj hr
    have ha : pc.isAdmitted = true := by
      cases pc <;> simp [RegisterPc.isRequesting, RegisterPc.isAdmitted] at hr ⊢
    rw [(honly j pc hj ha).2] at hr
    exact hstate hr

/-- Who is admitted is alone. -/
theorem OneAdmitted.alone (h : g.OneAdmitted) {i : ℕ} {pc : RegisterPc} (hi : g.pcOf i = some pc)
    (ha : pc.isAdmitted) : ∀ j pc', j ≠ i → g.pcOf j = some pc' → pc'.isAdmitted = false := by
  intro j pc' hne hj
  by_contra ha'
  exact hne (h.unique j i pc' pc hj hi (by simpa using ha') ha)

theorem OneAdmitted.thread (h : g.OneAdmitted) {i : ℕ} {success : Bool}
    (hok : g.KeepsOne (.thread i success)) : (g.threadStep i success).OneAdmitted := by
  cases ht : g.threads[i]? with
  | none =>
    have hsame : g.threadStep i success = g := by simp only [threadStep, ht]
    rwa [hsame]
  | some t =>
    have hpc : g.pcOf i = some t.pc := by simp [pcOf, ht]
    have hst := state_threadStep success ht
    cases hc : t.pc with
    | run =>
      have hadv : ∃ pc, advance g.currentRegisterState success t = (pc, none) ∧
          pc.isAdmitted = false := by
        simp only [advance, hc]
        split_ifs
        · exact ⟨_, rfl, rfl⟩
        · exact ⟨_, rfl, rfl⟩
        · exact ⟨_, rfl, rfl⟩
      obtain ⟨pc, hadv, ha⟩ := hadv
      exact h.goOn ht hadv ha
    | runSecond =>
      have hadv : ∃ pc, advance g.currentRegisterState success t = (pc, none) ∧
          pc.isAdmitted = false := by
        simp only [advance, hc]
        split_ifs
        · exact ⟨_, rfl, rfl⟩
        · exact ⟨_, rfl, rfl⟩
      obtain ⟨pc, hadv, ha⟩ := hadv
      exact h.goOn ht hadv ha
    | doRegister =>
      by_cases hreg : g.currentRegisterState = some .registering
      · have hadv : advance g.currentRegisterState success t = (.ended, none) := by
          simp only [advance, hc, hreg, if_true]
        exact h.goOn ht hadv rfl
      · -- the test is passed: nobody requests, for the state would say so, and nobody sets it
        have hadv : advance g.currentRegisterState success t = (.setRegistering, none) := by
          simp only [advance, hc, hreg, if_false]
        have hset := hok.test i rfl (by rw [hpc, hc]) hreg
        apply OneAdmitted.stay ht
        · intro j pc' hne hj
          have hnset := noneBut_apply hset hj (by simpa using hne)
          have hnreq : pc'.isRequesting = false := by
            by_contra hr
            exact hreg (h.state j pc' hj (by simpa using hr))
          cases pc' <;> simp_all [RegisterPc.isAdmitted, RegisterPc.isRequesting]
        · rw [hadv]
          simp [RegisterPc.isRequesting]
    | setRegistering =>
      have hadv : advance g.currentRegisterState success t =
          (.requestRegister, some .registering) := by
        simp only [advance, hc]
      rw [hadv] at hst
      refine OneAdmitted.stay ht (h.alone hpc (by rw [hc]; rfl)) fun _ => ?_
      rw [hst]
      rfl
    | requestRegister =>
      have hadv : advance g.currentRegisterState success t = (.inRequest, none) := by
        simp only [advance, hc]
      rw [hadv] at hst
      refine OneAdmitted.stay ht (h.alone hpc (by rw [hc]; rfl)) fun _ => ?_
      rw [hst]
      exact h.state i t.pc hpc (by rw [hc]; rfl)
    | inRequest =>
      have hadv : advance g.currentRegisterState success t = (.checkResult success, none) := by
        simp only [advance, hc]
      exact h.goOn ht hadv rfl
    | checkResult ok =>
      cases ok with
      | true =>
        have hadv : advance g.currentRegisterState success t = (.ended, none) := by
          simp only [advance, hc]
        exact h.goOn ht hadv rfl
      | false =>
        have hadv : advance g.currentRegisterState success t =
            (.ended, some .errorCodeNumber) := by
          simp only [advance, hc]
        have hnone := hok.state (some .errorCodeNumber) (by simp [written, ht, hadv]) (by simp)
        apply h.leave ht (by rw [hadv]; rfl)
        intro j pc' hne hj hr
        rw [noneBut_apply hnone hj (by simpa [RegisterEvent.actor] using hne)] at hr
        cases hr
    | ended =>
      have hadv : advance g.currentRegisterState success t = (.ended, none) := by
        simp only [advance, hc]
      exact h.goOn ht hadv rfl

/-- Another writer of the state, while no request is under way unless it writes REGISTERING. -/
theorem OneAdmitted.write (h : g.OneAdmitted) (hactor : e.actor = none) (hok : g.KeepsOne e)
    {g' : Registrar} {st : Option EnumLoginState} (hw : g.written e = some st)
    (hst : g'.currentRegisterState = st) (hpcs : g'.pcOf = g.pcOf) : g'.OneAdmitted := by
  apply h.samePcs
  · intro i pc hi _
    rwa [← hpcs]
  · intro i pc hi hr
    rw [hst]
    by_contra hne
    have hnone := hok.state st hw hne
    rw [hactor] at hnone
    rw [noneBut_apply hnone hi (by simp)] at hr
    cases hr

theorem OneAdmitted.next (h : g.OneAdmitted) (hok : g.KeepsOne e) : (g.next e).OneAdmitted := by
  cases e with
  | handleRegister bForce =>
    apply h.samePcs
    · intro i pc hi ha
      simp only [Registrar.next, handleRegister, pcOf, List.getElem?_append] at hi
      split at hi
      · exact hi
      · obtain ⟨t, ht, rfl⟩ := Option.map_eq_some_iff.mp hi
        obtain rfl := List.mem_singleton.mp (List.mem_of_getElem? ht)
        cases ha
    · exact h.state
  | thread i success => exact h.thread hok
  | showLoginState state errorCode =>
    simp only [Registrar.next, showLoginState]
    split
    · exact h
    · exact h.samePcs (fun _ _ hi _ => hi) h.state
  | cancelDialog =>
    simp only [Registrar.next, cancelDialog]
    split
    · exact h
    · exact h.samePcs (fun _ _ hi _ => hi) h.state
  | setPending i =>
    cases hc : g.pending[i]? with
    | none => simpa only [Registrar.next, setPending, hc] using h
    | some st =>
      simp only [Registrar.next, setPending, hc]
      have hw : g.written (.setPending i) = some st := hc
      exact h.write rfl hok hw rfl rfl

end Registrar

/-- In every run whose steps meet the condition, one request at most is under way. -/
theorem runs_oneInFlight {g : Registrar} (h : registrar.Reached Registrar.KeepsOne g) :
    g.OneInFlight := by
  apply Registrar.OneAdmitted.oneInFlight
  refine h.invariant ?_ fun g e hg _ hok => hg.next hok
  rintro _ rfl
  constructor
  · intro i j pc pc' hi
    simp [Registrar.pcOf] at hi
  · intro i pc hi
    simp [Registrar.pcOf] at hi

/-- A forced registration, and one that finds it under way and ends. -/
theorem second_registration_ends : (registrar.run {} [.handleRegister true, .handleRegister true,
    .thread 0 true, .thread 0 true, .thread 0 true, .thread 1 true, .thread 1 true,
    .thread 0 true]).OneInFlight :=
  runs_oneInFlight (System.reached_run rfl (by decide))

/-- Both threads pass the test before either sets the state. -/
theorem two_registrations : ¬(registrar.run {} [.handleRegister true, .handleRegister true,
    .thread 0 true, .thread 0 true, .thread 1 true, .thread 1 true, .thread 0 true, .thread 1 true,
    .thread 0 true, .thread 1 true]).OneInFlight := by
  intro h
  have heq := h 0 1 (by decide) (by decide)
  revert heq
  decide

end PttTerminal
