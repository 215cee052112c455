import PttTerminal.AnswerCall
import PttTerminal.Library.Journals
import PttTerminal.Library.Users

/-!
# The tones of the native calls

The generator of a tone is one port of the conference bridge for all calls: a counter says how many
of them are to have the tone, the first connects the port to the sound device and the last takes it
away again. No call has the tone of an incoming call, which is never begun.
-/
namespace PttTerminal

open Journals Runs Users

/-- What `app_config` and its `call_data` hold of one tone, and whether its port is connected. -/
structure ToneData (n : ℕ) where
  on : Fin n → Bool := fun _ => false
  cnt : ℤ := 0
  /-- Whether the port was added to the bridge. -/
  slot : Bool
  connected : Bool := false
  /-- Whether no assertion about the counter failed. -/
  asserted : Bool := true

namespace ToneData

variable {n : ℕ}

def start (i : Fin n) (t : ToneData n) : ToneData n :=
  if t.on i then t
  else
    { t with
      on := Function.update t.on i true
      cnt := t.cnt + 1
      connected := if t.cnt + 1 = 1 ∧ t.slot then true else t.connected }

def stop (i : Fin n) (t : ToneData n) : ToneData n :=
  if t.on i then
    { t with
      on := Function.update t.on i false
      asserted := t.asserted && decide (t.cnt > 0)
      cnt := t.cnt - 1
      connected := if t.cnt - 1 = 0 ∧ t.slot then false else t.connected }
  else t

/-- The counter tells the calls that have the tone, and the port is connected for them. -/
structure Counted (t : ToneData n) : Prop where
  cnt : t.cnt = users t.on
  connected : t.connected = true ↔ t.slot = true ∧ ∃ i, t.on i = true
  asserted : t.asserted = true

variable {t : ToneData n} {i : Fin n}

theorem Counted.start (h : t.Counted) : (t.start i).Counted := by
  rw [ToneData.start]
  by_cases hon : t.on i = true
  · rwa [if_pos hon]
  · rw [if_neg hon]
    have hup : users (Function.update t.on i true) = users t.on + 1 :=
      users_up (by simpa using hon)
    have hnow : ∃ j, Function.update t.on i true j = true := ⟨i, by simp⟩
    refine ⟨?_, ?_, h.asserted⟩
    · simp [hup, h.cnt]
    · simp only [hnow, and_true]
      split_ifs with hfirst
      · simp [hfirst.2]
      · rw [h.connected]
        -- A call had the tone before, unless the port is missing.
        constructor
        · exact fun h' => h'.1
        · intro hslot
          refine ⟨hslot, users_pos.mp ?_⟩
          have : t.cnt + 1 ≠ 1 := fun h' => hfirst ⟨h', hslot⟩
          have := h.cnt
          omega

theorem Counted.stop (h : t.Counted) : (t.stop i).Counted := by
  rw [ToneData.stop]
  by_cases hon : t.on i = true
  · rw [if_pos hon]
    have hdown : users (Function.update t.on i false) + 1 = users t.on := users_down hon
    have hcnt := h.cnt
    refine ⟨?_, ?_, ?_⟩
    · simp only
      omega
    · simp only
      split_ifs with hlast
      · have hnone := users_eq_zero.mp (show users (Function.update t.on i false) = 0 by omega)
        simp [hnone]
      · rw [h.connected, ← users_pos, ← users_pos]
        constructor
        · rintro ⟨hslot, -⟩
          refine ⟨hslot, ?_⟩
          have : t.cnt - 1 ≠ 0 := fun h' => hlast ⟨h', hslot⟩
          omega
        · rintro ⟨hslot, h'⟩
          exact ⟨hslot, by omega⟩
    · have : t.cnt > 0 := by omega
      simp [h.asserted, this]
  · rwa [if_neg hon]

@[simp]
theorem start_on : (t.start i).on = Function.update t.on i true := by
  rw [start]
  by_cases hon : t.on i = true
  · rw [if_pos hon, ← hon, Function.update_eq_self]
  · rw [if_neg hon]

@[simp]
theorem stop_on : (t.stop i).on = Function.update t.on i false := by
  rw [stop]
  by_cases hon : t.on i = true
  · rw [if_pos hon]
  · rw [if_neg hon, ← Bool.eq_false_of_not_eq_true hon, Function.update_eq_self]

@[simp]
theorem start_slot : (t.start i).slot = t.slot := by
  rw [start]
  by_cases hon : t.on i = true
  · rw [if_pos hon]
  · rw [if_neg hon]

@[simp]
theorem stop_slot : (t.stop i).slot = t.slot := by
  rw [stop]
  by_cases hon : t.on i = true
  · rw [if_pos hon]
  · rw [if_neg hon]

end ToneData

inductive MediaType where
  | none
  | audio
  | video
  | application
  | unknown
  deriving Repr, DecidableEq

/-- A change that the callbacks of the calls are told of; `code` and `hasBody` are of the message
that brought it. -/
inductive ToneEvent (n : ℕ) where
  | onCallState (callId : Fin n) (state : InvState) (role : SipRole) (code : ℤ) (hasBody : Bool)
    (mediaNone : Bool)
  | onCallMediaState (callId : Fin n) (media : List MediaType)
  | onIncomingCall (callId : Fin n)
  deriving DecidableEq

structure Tones (n : ℕ) where
  noTones : Bool
  ringback : ToneData n
  ring : ToneData n
  journal : List (ToneEvent n) := []

namespace Tones

variable {n : ℕ}

def ringbackStart (callId : Fin n) (s : Tones n) : Tones n :=
  if s.noTones then s else { s with ringback := s.ringback.start callId }

def ringStop (callId : Fin n) (s : Tones n) : Tones n :=
  if s.noTones then s
  else { s with ringback := s.ringback.stop callId, ring := s.ring.stop callId }

/-- Nobody calls `ring_start`. -/
def onIncomingCall (_ : Fin n) (s : Tones n) : Tones n := s

def onCallAudioState (callId : Fin n) (s : Tones n) : Tones n := s.ringStop callId

def onCallMediaState (callId : Fin n) (media : List MediaType) (s : Tones n) : Tones n :=
  media.foldl (fun s type => if type = .audio then s.onCallAudioState callId else s) s

def onCallState (callId : Fin n) (state : InvState) (role : SipRole) (code : ℤ)
    (hasBody mediaNone : Bool) (s : Tones n) : Tones n :=
  if state = .disconnected then s.ringStop callId
  else if state = .early ∧ role = .uac ∧ code = 180 ∧ !hasBody ∧ mediaNone then
    s.ringbackStart callId
  else s

def handle (s : Tones n) : ToneEvent n → Tones n
  | .onCallState callId state role code hasBody mediaNone =>
    s.onCallState callId state role code hasBody mediaNone
  | .onCallMediaState callId media => s.onCallMediaState callId media
  | .onIncomingCall callId => s.onIncomingCall callId

end Tones

/-- The ports are there or not; no call has a tone yet. -/
def tones (n : ℕ) : System (Tones n) (ToneEvent n) where
  init s := ∃ noTones ringback ring,
    s = { noTones := noTones, ringback := { slot := ringback }, ring := { slot := ring } }
  enabled _ _ := True
  next s e := { s.handle e with journal := e :: s.journal }

/-- What a callback says about the tone that the user hears while the other side is called. -/
def ToneEvent.wants {n : ℕ} (i : Fin n) : ToneEvent n → Option Bool
  | .onCallState c state role code hasBody mediaNone =>
    if c = i then
      if state = .disconnected then some false
      else if state = .early ∧ role = .uac ∧ code = 180 ∧ !hasBody ∧ mediaNone then some true
      else none
    else none
  | .onCallMediaState c media => if c = i ∧ .audio ∈ media then some false else none
  | .onIncomingCall _ => none

/-- Call `i` was told that the other side rings, and has neither heard of its audio since nor
ended. -/
def ringsBack {n : ℕ} (journal : List (ToneEvent n)) (i : Fin n) : Bool :=
  (latest (ToneEvent.wants i) journal).getD false

namespace Tones

variable {n : ℕ} {s : Tones n}

/-- The flags say what the callbacks said, and the counters follow them. -/
structure Shared (s : Tones n) : Prop where
  ringback : s.ringback.Counted
  on : ∀ i, s.ringback.on i = (!s.noTones && ringsBack s.journal i)
  ring : s.ring.Counted
  silent : ∀ i, s.ring.on i = false

/-- What a callback does to both tones, when it says `said` about the tone of the other side. -/
structure Handled (s s' : Tones n) (said : Fin n → Option Bool) : Prop where
  noTones : s'.noTones = s.noTones
  journal : s'.journal = s.journal
  ringback : s'.ringback.Counted
  on : ∀ i, s'.ringback.on i = (!s.noTones && (said i).getD (s.ringback.on i))
  ring : s'.ring.Counted
  silent : ∀ i, s'.ring.on i = false

theorem Shared.on_of_noTones (h : s.Shared) (hno : s.noTones = true) (i : Fin n) :
    s.ringback.on i = false := by
  rw [h.on, hno]
  rfl

theorem Shared.kept (h : s.Shared) : Handled s s fun _ => none := by
  refine ⟨rfl, rfl, h.ringback, fun i => ?_, h.ring, h.silent⟩
  rw [h.on]
  cases s.noTones <;> rfl

theorem Shared.started (h : s.Shared) (c : Fin n) :
    Handled s (s.ringbackStart c) fun i => if c = i then some true else none := by
  unfold ringbackStart
  split_ifs with hno
  · refine ⟨rfl, rfl, h.ringback, fun i => ?_, h.ring, h.silent⟩
    rw [h.on_of_noTones hno, hno]
    rfl
  · refine ⟨rfl, rfl, h.ringback.start, fun i => ?_, h.ring, h.silent⟩
    rw [ToneData.start_on, Bool.eq_false_of_not_eq_true hno]
    by_cases hi : c = i
    · subst hi
      simp
    · simp [Function.update_of_ne (Ne.symm hi), hi]

theorem Shared.stopped (h : s.Shared) (c : Fin n) :
    Handled s (s.ringStop c) fun i => if c = i then some false else none := by
  unfold ringStop
  split_ifs with hno
  · refine ⟨rfl, rfl, h.ringback, fun i => ?_, h.ring, h.silent⟩
    rw [h.on_of_noTones hno, hno]
    rfl
  · refine ⟨rfl, rfl, h.ringback.stop, fun i => ?_, h.ring.stop, fun i => ?_⟩
    · rw [ToneData.stop_on, Bool.eq_false_of_not_eq_true hno]
      by_cases hi : c = i
      · subst hi
        simp
      · simp [Function.update_of_ne (Ne.symm hi), hi]
    · rw [ToneData.stop_on]
      by_cases hi : i = c
      · subst hi
        simp
      · rw [Function.update_of_ne hi, h.silent]

theorem ringStop_ringStop (s : Tones n) (c : Fin n) :
    (s.ringStop c).ringStop c = s.ringStop c := by
  have hstop : ∀ t : ToneData n, (t.stop c).stop c = t.stop c := fun t => by
    rw [ToneData.stop.eq_def c (t.stop c), if_neg (by simp)]
  unfold ringStop
  by_cases hno : s.noTones = true
  · simp [hno]
  · simp [hno, hstop]

/-- Several audio streams of a call stop its tones no more than one does. -/
theorem onCallMediaState_eq (c : Fin n) (media : List MediaType) (s : Tones n) :
    s.onCallMediaState c media = if .audio ∈ media then s.ringStop c else s := by
  induction media generalizing s with
  | nil => rfl
  | cons type media ih =>
    change (if type = .audio then s.onCallAudioState c else s).onCallMediaState c media = _
    rw [ih]
    by_cases htype : type = .audio
    · subst htype
      simp only [if_true, onCallAudioState, ringStop_ringStop, List.mem_cons_self, ite_self]
    · simp [htype, Ne.symm htype]

/-- What each callback says is what it does. -/
theorem Shared.handled (h : s.Shared) (e : ToneEvent n) :
    Handled s (s.handle e) fun i => e.wants i := by
  cases e with
  | onCallState c state role code hasBody mediaNone =>
    simp only [handle, onCallState, ToneEvent.wants]
    split_ifs with hend hearly
    · exact h.stopped c
    · exact h.started c
    · simpa using h.kept
  | onCallMediaState c media =>
    simp only [handle, onCallMediaState_eq, ToneEvent.wants]
    by_cases haudio : .audio ∈ media
    · simpa [haudio] using h.stopped c
    · simpa [haudio] using h.kept
  | onIncomingCall c => exact h.kept

theorem Shared.next (h : s.Shared) (e : ToneEvent n) : ((tones n).next s e).Shared := by
  have hdone := h.handled e
  refine ⟨hdone.ringback, fun i => ?_, hdone.ring, hdone.silent⟩
  change (s.handle e).ringback.on i = _
  rw [hdone.on, h.on]
  change _ = (!(s.handle e).noTones && ringsBack (e :: s.journal) i)
  rw [hdone.noTones, ringsBack, ringsBack, latest_cons]
  cases s.noTones with
  | true => rfl
  | false =>
    cases e.wants i with
    | none => simp
    | some b => rfl

theorem shared_init (h : (tones n).init s) : s.Shared := by
  obtain ⟨noTones, ringback, ring, rfl⟩ := h
  have hnone : ∀ slot, ToneData.Counted ({ slot := slot } : ToneData n) := fun slot =>
    ⟨by simp, by simp, rfl⟩
  exact ⟨hnone ringback, fun i => by simp [ringsBack], hnone ring, fun i => rfl⟩

end Tones

theorem tones_invariant {n : ℕ} {s : Tones n} (h : (tones n).Reached (fun _ _ => True) s) :
    s.Shared := h.invariant (fun _ => Tones.shared_init) fun _ e h _ _ => h.next e

/-- No assertion about a counter ever fails, the tone of the other side is heard exactly while a
call was told that it rings and of nothing since, and the tone of an incoming call never. -/
theorem tones_shared {n : ℕ} {s : Tones n} (h : (tones n).Reached (fun _ _ => True) s) :
    (s.ringback.asserted = true ∧ s.ring.asserted = true) ∧
    s.ringback.cnt = (if s.noTones then 0 else users (ringsBack s.journal) : ℕ) ∧
    (s.ringback.connected = true ↔ s.ringback.slot = true ∧ s.noTones = false ∧
      ∃ i, ringsBack s.journal i = true) ∧
    s.ring.connected = false := by
  have hs := tones_invariant h
  refine ⟨⟨hs.ringback.asserted, hs.ring.asserted⟩, ?_, ?_, ?_⟩
  · rw [hs.ringback.cnt, show s.ringback.on = _ from funext hs.on]
    cases s.noTones with
    | true => simp
    | false => simp
  · rw [hs.ringback.connected]
    simp only [hs.on, Bool.and_eq_true, Bool.not_eq_true', exists_and_left]
  · rw [Bool.eq_false_iff, ne_eq, hs.ring.connected]
    rintro ⟨-, i, hi⟩
    cases (hs.silent i).symm.trans hi

instance {n : ℕ} (s : Tones n) (e : ToneEvent n) : Decidable ((tones n).enabled s e) :=
  isTrue trivial

/-- Two calls at a time, of which one is told of its audio twice. -/
def overlappingTones : List (ToneEvent 4) :=
  [.onCallState 0 .early .uac 180 false true, .onCallState 2 .early .uac 180 false true,
    .onCallMediaState 2 [.audio, .video, .audio], .onCallState 2 .disconnected .uac 0 false false,
    .onIncomingCall 1]

def silentTones : Tones 4 where
  noTones := false
  ringback := { slot := true }
  ring := { slot := true }

def tonesEnd : Tones 4 := (tones 4).run silentTones overlappingTones

theorem overlappingTones_shared :
    (tonesEnd.ringback.asserted = true ∧ tonesEnd.ring.asserted = true) ∧
    tonesEnd.ringback.cnt =
      (if tonesEnd.noTones then 0 else users (ringsBack tonesEnd.journal) : ℕ) ∧
    (tonesEnd.ringback.connected = true ↔ tonesEnd.ringback.slot = true ∧
      tonesEnd.noTones = false ∧ ∃ i, ringsBack tonesEnd.journal i = true) ∧
    tonesEnd.ring.connected = false :=
  have hinit : (tones 4).init silentTones := ⟨false, true, true, rfl⟩
  tones_shared (System.reached_run hinit (by decide))

end PttTerminal
