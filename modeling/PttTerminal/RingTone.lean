import PttTerminal.TerminalState
import PttTerminal.Library.Runs

/-!
# The tone and the vibration of a call

The service rings when a call is reported, and is to be silent again once the call is talked to or
over, is answered or refused, or the terminal registers anew. What a stop silences depends on the
settings at that time, and whether it is tried at all on `bRingPlaying`.
-/
namespace PttTerminal

open Runs

/-- The player of tones. A call of it answers the player that it leaves behind and whether it came
back without an exception, which may depend on what `O` tells of the world outside. A player is
`idle` as long as it knows no data. -/
structure MediaPlayer (O P : Type) where
  create : P
  idle : P → Bool
  setDataSource : O → P → P × Bool
  prepare : O → P → P × Bool
  start : P → P
  /-- Also `false` where `isPlaying` throws. -/
  isPlaying : P → Bool
  stop : P → P × Bool

/-- What is documented of a player. -/
structure MediaPlayer.Documented {O P : Type} (m : MediaPlayer O P) : Prop where
  create_idle : m.idle m.create = true
  idle_silent : ∀ player, m.idle player = true → m.isPlaying player = false
  /-- `setDataSource` throws unless the player is idle, and leaves it as it is. -/
  setDataSource_refuses : ∀ o player, m.idle player = false →
    m.setDataSource o player = (player, false)
  setDataSource_takes : ∀ o player, m.idle player = true → (m.setDataSource o player).2 = true →
    m.idle (m.setDataSource o player).1 = false ∧ m.isPlaying (m.setDataSource o player).1 = false
  prepare_silent : ∀ o player, m.idle player = false → m.isPlaying player = false →
    m.idle (m.prepare o player).1 = false ∧ m.isPlaying (m.prepare o player).1 = false
  /-- A player that knows no data can be made to play. -/
  plays : ∀ player, m.idle player = true → ∃ o, (m.setDataSource o player).2 = true ∧
    (m.prepare o (m.setDataSource o player).1).2 = true ∧
      m.isPlaying (m.start (m.prepare o (m.setDataSource o player).1).1) = true
  stop_playing : ∀ player, m.isPlaying player = true → (m.stop player).2 = true

structure RingPrefs where
  ringEnable : Bool := true
  vibrateEnable : Bool := true
  currentRingtone : Option String := none
  deriving Repr, DecidableEq

/-- What the resources and the player come to when a tone is begun. -/
structure Resources (O : Type) where
  /-- The first file whose name begins as a ring tone's does. -/
  firstRingName : Option String
  /-- Whether `openFd` finds a file. -/
  opens : String → Bool
  media : O

structure Ringer (P : Type) where
  prefs : RingPrefs
  bRingPlaying : Bool := false
  ringPlayer : Option P
  vibrating : Bool := false
  /-- Whether the phone was told to ring, and not to be silent since. -/
  summoned : Bool := false

namespace Ringer

variable {O P : Type} (m : MediaPlayer O P)

/-- The player after the `try` block, and whether the method goes on behind it. -/
def loadTone (media : O) (player : P) : P × Bool :=
  match m.setDataSource media player with
  | (player, false) => (player, false)
  | (player, true) => m.prepare media player

def ringFile (o : Resources O) (file : String) : Option String :=
  if file = "" then o.firstRingName else some file

def vibrate (s : Ringer P) : Ringer P :=
  if s.prefs.vibrateEnable then { s with vibrating := true } else s

/-- A failed start leaves the method, so that the phone does not vibrate either. -/
def startTone (o : Resources O) (s : Ringer P) : Ringer P :=
  match loadTone m o.media (s.ringPlayer.getD m.create) with
  | (player, false) => { s with ringPlayer := some player }
  | (player, true) => { s with ringPlayer := some (m.start player) }.vibrate

def playRingtone (o : Resources O) (s : Ringer P) : Ringer P :=
  match s.prefs.currentRingtone with
  | none => s
  | some file =>
    if s.prefs.ringEnable && (ringFile o file).any o.opens then s.startTone m o else s.vibrate

/-- A player that is not playing, or that throws when it is asked, is left alone, and one that
throws when it is to stop is not released. -/
def stopTone (s : Ringer P) : Ringer P :=
  match s.ringPlayer with
  | none => s
  | some player =>
    if s.prefs.ringEnable && m.isPlaying player then
      match m.stop player with
      | (player, false) => { s with ringPlayer := some player }
      | (_, true) => { s with ringPlayer := none }
    else s

def stopVibration (s : Ringer P) : Ringer P :=
  if s.prefs.vibrateEnable then { s with vibrating := false } else s

def stopRingtone (s : Ringer P) : Ringer P := (s.stopTone m).stopVibration

/-- The stop of a report or of a registration, which forgets that the tone was playing. -/
def endRing (s : Ringer P) : Ringer P :=
  if s.bRingPlaying then { s with bRingPlaying := false }.stopRingtone m else s

/-- The stop of the commands to answer and to hang up, which does not. -/
def muteRing (s : Ringer P) : Ringer P := if s.bRingPlaying then s.stopRingtone m else s

def jniUpdateCallState (o : Resources O) (callState : CallStatus) (s : Ringer P) : Ringer P :=
  match callState with
  | .ringing => { s with bRingPlaying := true, summoned := true }.playRingtone m o
  | .talking | .ended => { s.endRing m with summoned := false }
  | _ => s

end Ringer

inductive RingEvent (O P : Type) where
  | jniUpdateCallState (o : Resources O) (callState : CallStatus)
  | answerCall
  /-- Also what an error of the registration asks for while there is a call. -/
  | hangupCall
  /-- The registration that is forced while there is a call. -/
  | handleRegister
  /-- The settings screen. -/
  | setPrefs (prefs : RingPrefs)
  /-- The player breaks down of its own accord. -/
  | playerFails (player : P)

section
variable {O P : Type} (m : MediaPlayer O P)

namespace RingEvent

def next (s : Ringer P) : RingEvent O P → Ringer P
  | jniUpdateCallState o callState => s.jniUpdateCallState m o callState
  | answerCall => { s.muteRing m with summoned := false }
  | hangupCall => { s.muteRing m with summoned := false }
  | handleRegister => { s.endRing m with summoned := false }
  | setPrefs prefs => { s with prefs := prefs }
  | playerFails player => { s with ringPlayer := some player }

/-- Whether the event is to silence the phone. -/
def silences : RingEvent O P → Bool
  | jniUpdateCallState _ callState => callState = .talking || callState = .ended
  | answerCall | hangupCall | handleRegister => true
  | setPrefs _ | playerFails _ => false

end RingEvent

/-- A player that breaks down is neither playing nor idle. -/
def Ringer.enabled (s : Ringer P) : RingEvent O P → Bool
  | .playerFails player => s.ringPlayer.isSome && !m.isPlaying player && !m.idle player
  | _ => true

/-- The service begins with a new player. -/
def ringer : System (Ringer P) (RingEvent O P) where
  init s := ∃ prefs, s = { prefs := prefs, ringPlayer := some m.create }
  enabled s e := s.enabled m e = true
  next := RingEvent.next m

end

namespace Ringer

variable {O P : Type} {m : MediaPlayer O P} {s : Ringer P} {o : Resources O}

def sounds (m : MediaPlayer O P) (s : Ringer P) : Bool := s.ringPlayer.any m.isPlaying

def alerts (m : MediaPlayer O P) (s : Ringer P) : Bool := s.sounds m || s.vibrating

/-- Both switches are as they were when what is to be heard or felt was begun. -/
def stopsAll (m : MediaPlayer O P) (s : Ringer P) : Bool :=
  (!s.sounds m || s.prefs.ringEnable) && (!s.vibrating || s.prefs.vibrateEnable)

theorem alerts_of_not_stopsAll (h : s.stopsAll m = false) : s.alerts m = true := by
  simp only [stopsAll, Bool.and_eq_false_iff, Bool.or_eq_false_iff, Bool.not_eq_false'] at h
  rcases h with ⟨h, -⟩ | ⟨h, -⟩
  · simp [alerts, h]
  · simp [alerts, h]

/-- The tone stops unless its switch was turned off, and nothing else is touched. -/
theorem stopTone_spec (hm : m.Documented) : (s.stopTone m).prefs = s.prefs ∧
    (s.stopTone m).vibrating = s.vibrating ∧
      (s.stopTone m).sounds m = (s.sounds m && !s.prefs.ringEnable) := by
  unfold stopTone
  cases hplayer : s.ringPlayer with
  | none => exact ⟨rfl, rfl, by simp [sounds, hplayer]⟩
  | some player =>
    dsimp only
    split_ifs with hstops
    · rw [Bool.and_eq_true] at hstops
      have hstop := hm.stop_playing player hstops.2
      split
      case _ _ hthrows => rw [hthrows] at hstop; cases hstop
      case _ => exact ⟨rfl, rfl, by simp [sounds, hplayer, hstops]⟩
    · refine ⟨rfl, rfl, ?_⟩
      rw [Bool.and_eq_true, not_and_or] at hstops
      rcases hstops with h | h <;> simp [sounds, hplayer, h]

/-- A stop leaves what its switch was turned off for. -/
theorem alerts_stopRingtone (hm : m.Documented) : (s.stopRingtone m).alerts m = !s.stopsAll m := by
  obtain ⟨hprefs, hvibrating, hsounds⟩ := stopTone_spec (s := s) hm
  rw [stopRingtone, stopVibration, hprefs]
  by_cases hvib : s.prefs.vibrateEnable = true
  · rw [if_pos hvib]
    change ((s.stopTone m).sounds m || false) = _
    simp [stopsAll, hvib, hsounds]
  · rw [if_neg hvib]
    simp [alerts, stopsAll, hvib, hvibrating, hsounds]

theorem startTone_flags : (s.startTone m o).bRingPlaying = s.bRingPlaying ∧
    (s.startTone m o).summoned = s.summoned := by
  unfold startTone vibrate
  split
  · exact ⟨rfl, rfl⟩
  · split_ifs <;> exact ⟨rfl, rfl⟩

theorem playRingtone_flags : (s.playRingtone m o).bRingPlaying = s.bRingPlaying ∧
    (s.playRingtone m o).summoned = s.summoned := by
  unfold playRingtone
  split
  · exact ⟨rfl, rfl⟩
  · split_ifs
    · exact startTone_flags
    · unfold vibrate
      split_ifs <;> exact ⟨rfl, rfl⟩

/-- What is heard or felt is the call that the phone was told of. -/
def InTune (m : MediaPlayer O P) (s : Ringer P) : Prop := s.alerts m = true → s.summoned = true

/-- Then the next stop is tried, too. -/
def Stoppable (m : MediaPlayer O P) (s : Ringer P) : Prop :=
  s.alerts m = true → s.summoned = true ∧ s.bRingPlaying = true

theorem endRing_eq (hm : m.Documented) (h : s.Stoppable m) :
    (s.endRing m).alerts m = !s.stopsAll m := by
  unfold endRing
  split_ifs with hflag
  · exact alerts_stopRingtone hm
  · have hquiet : s.alerts m = false := by
      rw [Bool.eq_false_iff]
      exact fun h' => hflag (h h').2
    cases hstops : s.stopsAll m with
    | true => exact hquiet
    | false => exact absurd (alerts_of_not_stopsAll hstops) (by simp [hquiet])

theorem muteRing_eq (hm : m.Documented) (h : s.Stoppable m) :
    (s.muteRing m).alerts m = !s.stopsAll m := by
  unfold muteRing
  split_ifs with hflag
  · exact alerts_stopRingtone hm
  · have := endRing_eq hm h
    rwa [endRing, if_neg hflag] at this

/-- An event that is to silence the phone does so while both switches are as they were. -/
theorem silenced {e : RingEvent O P} (hm : m.Documented) (h : s.Stoppable m)
    (he : e.silences = true) :
    (e.next m s).alerts m = !s.stopsAll m ∧ (e.next m s).summoned = false := by
  cases e with
  | jniUpdateCallState o callState =>
    rcases (by simpa [RingEvent.silences] using he : callState = .talking ∨ callState = .ended) with
      rfl | rfl
    · exact ⟨endRing_eq hm h, rfl⟩
    · exact ⟨endRing_eq hm h, rfl⟩
  | answerCall => exact ⟨muteRing_eq hm h, rfl⟩
  | hangupCall => exact ⟨muteRing_eq hm h, rfl⟩
  | handleRegister => exact ⟨endRing_eq hm h, rfl⟩
  | setPrefs prefs => cases he
  | playerFails player => cases he

theorem Stoppable.rung {e : RingEvent O P} (h : s.Stoppable m) (hen : s.enabled m e = true)
    (he : e.silences = false) : (e.next m s).Stoppable m := by
  cases e with
  | jniUpdateCallState o callState =>
    cases callState with
    | ringing => exact fun _ => ⟨playRingtone_flags.2, playRingtone_flags.1⟩
    | talking => cases he
    | ended => cases he
    | _ => exact h
  | setPrefs prefs => exact h
  | playerFails player =>
    -- A player that broke down is not heard, so that only the vibration can be left.
    simp only [enabled, Bool.and_eq_true, Bool.not_eq_true'] at hen
    intro halerts
    apply h
    simp only [RingEvent.next, alerts, sounds, Option.any_some, hen.1.2, Bool.false_or] at halerts
    simp [alerts, halerts]
  | _ => cases he

end Ringer

section
variable {O P : Type} {m : MediaPlayer O P}

/-- What sounds or vibrates when the phone is to be silent is not switched off in the settings. -/
def RingEvent.Silences (m : MediaPlayer O P) (s : Ringer P) (e : RingEvent O P) : Prop :=
  e.silences = true → s.stopsAll m = true

instance (s : Ringer P) (e : RingEvent O P) : Decidable ((ringer m).enabled s e) :=
  inferInstanceAs (Decidable (s.enabled m e = true))

instance (s : Ringer P) (e : RingEvent O P) : Decidable (e.Silences m s) :=
  inferInstanceAs (Decidable (e.silences = true → s.stopsAll m = true))

end

/-- The states that the service brings a player to. `error` is where a `prepare` that failed leaves
it. -/
inductive PlayerState where
  | idle
  | initialized
  | prepared
  | started
  | error
  deriving Repr, DecidableEq

/-- A player whose data is always found, and can be prepared or not. -/
def android : MediaPlayer Bool PlayerState where
  create := .idle
  idle player := player = .idle
  setDataSource _
    | .idle => (.initialized, true)
    | player => (player, false)
  prepare
    | true, .initialized => (.prepared, true)
    | false, .initialized => (.error, false)
    | _, player => (player, false)
  start
    | .prepared => .started
    | player => player
  isPlaying player := player = .started
  stop player := (player, player = .started)

theorem android_documented : android.Documented where
  create_idle := rfl
  idle_silent player := by cases player <;> decide
  setDataSource_refuses o player := by cases player <;> decide +revert
  setDataSource_takes o player := by cases player <;> decide +revert
  prepare_silent o player := by cases player <;> decide +revert
  plays player := by cases player <;> decide
  stop_playing player := by cases player <;> decide

def allFiles (media : Bool) : Resources Bool where
  firstRingName := some "call_1.mp3"
  opens _ := true
  media := media

def oneTone : RingPrefs := { currentRingtone := some "call_2.mp3" }

def quiet : Ringer PlayerState := { prefs := oneTone, ringPlayer := some .idle }

/-- A call that is answered, and one that is not. -/
def rungTwice : List (RingEvent Bool PlayerState) :=
  [.jniUpdateCallState (allFiles true) .ringing, .answerCall,
    .jniUpdateCallState (allFiles true) .talking, .jniUpdateCallState (allFiles true) .ended,
    .setPrefs { oneTone with vibrateEnable := false },
    .jniUpdateCallState (allFiles true) .ringing, .jniUpdateCallState (allFiles true) .ended]

namespace Ringer

variable {O P : Type} {m : MediaPlayer O P} {s : Ringer P} {o : Resources O}

/-- The player has its data and does not play: no call of the service is of use to it. -/
def Lost (m : MediaPlayer O P) (s : Ringer P) : Prop :=
  ∃ player, s.ringPlayer = some player ∧ m.idle player = false ∧ m.isPlaying player = false

theorem Lost.silent (h : s.Lost m) : s.sounds m = false := by
  obtain ⟨player, hplayer, -, hsilent⟩ := h
  simp [sounds, hplayer, hsilent]

theorem Lost.vibrate (h : s.Lost m) : s.vibrate.Lost m := by
  unfold Ringer.vibrate
  split_ifs
  · exact h
  · exact h

/-- It is not given up, since only a player that plays is. -/
theorem Lost.stopRingtone (h : s.Lost m) : (s.stopRingtone m).Lost m := by
  have hsame : s.stopTone m = s := by
    obtain ⟨player, hplayer, -, hsilent⟩ := h
    simp [stopTone, hplayer, hsilent]
  unfold Ringer.stopRingtone stopVibration
  rw [hsame]
  split_ifs
  · exact h
  · exact h

/-- A ring finds it not idle. -/
theorem Lost.playRingtone (hm : m.Documented) (h : s.Lost m) : (s.playRingtone m o).Lost m := by
  have hstart : (s.startTone m o).Lost m := by
    obtain ⟨player, hplayer, hidle, hsilent⟩ := h
    refine ⟨player, ?_, hidle, hsilent⟩
    simp [startTone, loadTone, hplayer, hm.setDataSource_refuses _ _ hidle]
  unfold Ringer.playRingtone
  split
  · exact h
  · split_ifs
    · exact hstart
    · exact h.vibrate

theorem Lost.endRing (h : s.Lost m) : (s.endRing m).Lost m := by
  unfold Ringer.endRing
  split_ifs
  · exact Lost.stopRingtone (s := { s with bRingPlaying := false }) h
  · exact h

theorem Lost.muteRing (h : s.Lost m) : (s.muteRing m).Lost m := by
  unfold Ringer.muteRing
  split_ifs
  · exact h.stopRingtone
  · exact h

theorem Lost.next (hm : m.Documented) (h : s.Lost m) {e : RingEvent O P}
    (hen : s.enabled m e = true) : (e.next m s).Lost m := by
  cases e with
  | jniUpdateCallState o callState =>
    cases callState with
    | ringing => exact Lost.playRingtone (s := { s with bRingPlaying := true, summoned := true }) hm h
    | talking => exact h.endRing
    | ended => exact h.endRing
    | _ => exact h
  | answerCall => exact h.muteRing
  | hangupCall => exact h.muteRing
  | handleRegister => exact h.endRing
  | setPrefs prefs => exact h
  | playerFails player =>
    simp only [enabled, Bool.and_eq_true, Bool.not_eq_true'] at hen
    exact ⟨player, rfl, hen.2, hen.1.2⟩

theorem loadTone_takes {media : O} {player : P} (hset : (m.setDataSource media player).2 = true) :
    loadTone m media player = m.prepare media (m.setDataSource media player).1 := by
  unfold loadTone
  split
  case _ hthrows =>
    rw [hthrows] at hset
    cases hset
  case _ htakes => rw [htakes]

/-- A call finds the tone switched on and its file. -/
def StartsTone (o : Resources O) (s : Ringer P) : Prop :=
  s.prefs.ringEnable = true ∧
    ∃ file, s.prefs.currentRingtone = some file ∧ (ringFile o file).any o.opens = true

theorem playRingtone_starts (h : s.StartsTone o) : s.playRingtone m o = s.startTone m o := by
  obtain ⟨hring, file, hfile, hopens⟩ := h
  simp [playRingtone, hfile, hring, hopens]

@[simp]
theorem vibrate_ringPlayer : s.vibrate.ringPlayer = s.ringPlayer := by
  unfold vibrate
  split_ifs <;> rfl

/-- The tone starts once the player has taken the file and is prepared. -/
theorem startTone_ringPlayer
    (hset : (m.setDataSource o.media (s.ringPlayer.getD m.create)).2 = true) :
    (s.startTone m o).ringPlayer =
      let (player, prepared) :=
        m.prepare o.media (m.setDataSource o.media (s.ringPlayer.getD m.create)).1
      some (if prepared then m.start player else player) := by
  unfold startTone
  rw [loadTone_takes hset]
  split
  case _ hthrows => simp [hthrows]
  case _ hprepared => simp [hprepared]

/-- A player that is idle, or one that is not there, sounds at the next call. -/
theorem rings_again (hm : m.Documented) (hidle : m.idle (s.ringPlayer.getD m.create) = true) :
    ∃ media, ((ringer m).run s [.setPrefs { currentRingtone := some "call_1.mp3" },
      .jniUpdateCallState ⟨none, fun _ => true, media⟩ .ringing]).sounds m = true := by
  obtain ⟨media, hset, hprepare, hplays⟩ := hm.plays _ hidle
  refine ⟨media, ?_⟩
  let s' : Ringer P :=
    { s with
      prefs := { currentRingtone := some "call_1.mp3" }
      bRingPlaying := true
      summoned := true }
  have hstarts : s'.StartsTone (⟨none, fun _ => true, media⟩ : Resources O) :=
    ⟨rfl, "call_1.mp3", rfl, by simp [ringFile]⟩
  change (s'.playRingtone m ⟨none, fun _ => true, media⟩).sounds m = true
  rw [playRingtone_starts hstarts, sounds, startTone_ringPlayer (s := s') hset]
  change Option.any m.isPlaying (some (if (m.prepare media _).2 = true then _ else _)) = true
  rw [if_pos hprepare]
  exact hplays

/-- The `prepare` of a call throws, once the player has taken the file. -/
def Unprepared (m : MediaPlayer O P) (o : Resources O) (s : Ringer P) : Prop :=
  s.StartsTone o ∧ m.idle (s.ringPlayer.getD m.create) = true ∧
    (m.setDataSource o.media (s.ringPlayer.getD m.create)).2 = true ∧
      (m.prepare o.media (m.setDataSource o.media (s.ringPlayer.getD m.create)).1).2 = false

theorem Unprepared.lost (hm : m.Documented) (h : s.Unprepared m o) :
    (RingEvent.next m s (.jniUpdateCallState o .ringing)).Lost m := by
  obtain ⟨hstarts, hidle, hset, hthrows⟩ := h
  let s' : Ringer P := { s with bRingPlaying := true, summoned := true }
  obtain ⟨hset_idle, hset_silent⟩ := hm.setDataSource_takes _ _ hidle hset
  obtain ⟨hidle, hsilent⟩ := hm.prepare_silent o.media _ hset_idle hset_silent
  refine ⟨_, ?_, hidle, hsilent⟩
  change (s'.playRingtone m o).ringPlayer = _
  rw [playRingtone_starts (s := s') hstarts, startTone_ringPlayer (s := s') hset]
  change some (if (m.prepare o.media _).2 = true then _ else _) = _
  rw [if_neg (by simp [s', hthrows])]

/-- What is not lost is idle, playing or not there. -/
theorem lost_or_sounds (hm : m.Documented) : s.Lost m ∨ s.sounds m = true ∨
    m.idle (s.ringPlayer.getD m.create) = true := by
  cases hplayer : s.ringPlayer with
  | none => exact .inr (.inr hm.create_idle)
  | some player =>
    by_cases hidle : m.idle player = true
    · exact .inr (.inr hidle)
    · by_cases hplays : m.isPlaying player = true
      · exact .inr (.inl (by simp [sounds, hplayer, hplays]))
      · exact .inl ⟨player, hplayer, by simpa using hidle, by simpa using hplays⟩

end Ringer

/-- The tone is never heard again, in whatever run, exactly if the player has data and does not
play, and a `prepare` that throws leaves it so. -/
theorem ringer_lost_iff {O P : Type} {m : MediaPlayer O P} (hm : m.Documented) (s : Ringer P) :
    ((∀ es, (ringer m).Allowed (fun _ _ => True) s es →
      ((ringer m).run s es).sounds m = false) ↔ s.Lost m) ∧
    ∀ o, s.Unprepared m o → (RingEvent.next m s (.jniUpdateCallState o .ringing)).Lost m := by
  refine ⟨⟨fun h => ?_, fun h es hes => ?_⟩, fun o ho => ho.lost hm⟩
  · obtain hlost | hsounds | hidle := Ringer.lost_or_sounds (s := s) hm
    · exact hlost
    · cases (h [] trivial).symm.trans hsounds
    · obtain ⟨media, hrings⟩ := Ringer.rings_again hm hidle
      have hsilent := h [.setPrefs { currentRingtone := some "call_1.mp3" },
        .jniUpdateCallState ⟨none, fun _ => true, media⟩ .ringing]
          ⟨rfl, trivial, rfl, trivial, trivial⟩
      cases hsilent.symm.trans hrings
  · have hkeeps : ((ringer m).run s es).Lost m := by
      induction es generalizing s with
      | nil => exact h
      | cons e es ih => exact ih _ (h.next hm hes.1) hes.2.2
    exact hkeeps.silent

/-- The file of the first call cannot be prepared, and that of the second one can. -/
def unprepared : List (RingEvent Bool PlayerState) :=
  [.jniUpdateCallState (allFiles true) .ended, .setPrefs oneTone,
    .jniUpdateCallState (allFiles true) .ringing]

theorem unprepared_lost :
    ((ringer android).run
      (RingEvent.next android quiet (.jniUpdateCallState (allFiles false) .ringing))
        unprepared).sounds android = false :=
  ((ringer_lost_iff android_documented _).1.mpr
    ((ringer_lost_iff android_documented quiet).2 (allFiles false)
      ⟨⟨rfl, "call_2.mp3", rfl, by decide⟩, rfl, rfl, rfl⟩)) unprepared (by decide)

end PttTerminal
