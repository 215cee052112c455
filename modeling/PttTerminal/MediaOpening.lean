import PttTerminal.MulticastSession

/-!
# Opening the media of a group

The stream, the pool and the sound port are variables of the module, each written before the next
operation can fail, and the transport of the group is read before it is created. What an error
leaves of them depends on the operation that failed.
-/
namespace PttTerminal

open Loops LinkedCells Runs

/-- A stream and the transport that it was created over. -/
structure MediaStream where
  id : ℕ
  transport : ℕ
  deriving Repr, DecidableEq

/-- Every operation succeeds. -/
def MediaOutcome.all (o : MediaOutcome) : Bool :=
  o.streamCreate && o.getPort && o.poolCreate && o.createPlayer && o.connect

/-- The variables with the three pointers for which `info` has flags only. -/
structure Media where
  info : PttInfo
  stream : Option MediaStream
  sndPort : Option ℕ
  sndPool : Option ℕ
  /-- The first pointer that was not used. -/
  next : ℕ
  fresh : ∀ s ∈ stream, s.id < next

namespace Media

/-- The variables with their flags. -/
def flags (m : Media) : PttInfo :=
  { m.info with
    stream := m.stream.isSome
    sndPort := m.sndPort.isSome
    sndPool := m.sndPool.isSome }

def createStream (m : Media) (t : ℕ) : Media where
  info := m.info
  stream := some ⟨m.next, t⟩
  sndPort := m.sndPort
  sndPool := m.sndPool
  next := m.next + 1
  fresh := by
    rintro s ⟨⟩
    exact Nat.lt_succ_self _

/-- Without a transport neither attaching the stream nor closing the transport is possible, and a
transport that was closed is gone. -/
def pjmediaStreamCreate (o : MediaOutcome) (m : Media) : Option ℕ → Except Fault (Bool × Media)
  | none => .error .nullPointer
  | some t =>
    if t ∉ m.info.transports then .error .useAfterFree
    else if o.streamCreate then .ok (true, m.createStream t)
    else .ok (false, m)

/-- Whether the call came up. The transport is the one that the group had before. -/
def multicastCallIncoming (o : MediaOutcome) (m : Media) (groupInfo : Option ℕ) :
    Except Fault (Bool × Media) := do
  let (node, c) ← m.info.deref groupInfo
  let info ← (if c.val.transport.isNone then pttMediaTransportCreate m.info node else .ok m.info)
  let (created, m) ← pjmediaStreamCreate o { m with info := info } c.val.transport
  if !created then return (false, { m with info := pjmediaTransportClose m.info c.val })
  else if !o.getPort then assertReturn o m
  else if !o.poolCreate then assertReturn o { m with sndPool := none }
  else
    let m := { m with sndPool := some m.next }
    if !o.createPlayer then return (false, m)
    else return (o.connect, { m with sndPort := some m.next })

def pttOpenMedia (o : MediaOutcome) (m : Media) : Except Fault (Bool × Media) :=
  match m.info.pttState with
  | .init => do
    let (success, m) ← multicastCallIncoming o { m with info := m.info.report .callHangupAll }
      m.info.gCurrentGroup
    return (success, if success then { m with info := pttEnterState m.info .busy } else m)
  | .free =>
    .ok (o.noValue, { m with info := pttEnterState (m.info.report .callHangupAll) .busy })
  | _ => .ok (false, m)

/-- The transport field of the group at the node. -/
def transportOf (m : Media) (node : Option ℕ) : Option ℕ :=
  node.bind fun i => (m.info.heap i).bind fun c => c.val.transport

/-- Nothing is open that was not before, and nothing was closed. -/
structure Untouched (m m' : Media) (node : Option ℕ) : Prop where
  stream : m'.stream = m.stream
  sndPort : m'.sndPort = m.sndPort
  sndPool : m'.sndPool = m.sndPool
  transport : m'.transportOf node = m.transportOf node
  transports : m'.info.transports = m.info.transports
  pttState : m'.info.pttState = m.info.pttState

/-- The function returns: with an error nothing has changed, and with success the stream is that
over the transport of the group. -/
def Atomic (m : Media) (node : Option ℕ) : Except Fault (Bool × Media) → Prop
  | .error _ => False
  | .ok (false, m') => Untouched m m' node
  | .ok (true, m') => ∃ s, m'.stream = some s ∧ m'.transportOf node = some s.transport

/-- The group has a transport that is open. -/
def HasTransport (m : Media) (node : Option ℕ) : Prop :=
  ∃ t, m.transportOf node = some t ∧ t ∈ m.info.transports

section

variable {o : MediaOutcome} {m m' : Media} {node : Option ℕ}

theorem not_untouched_createStream {t : ℕ} (h : m'.stream = (m.createStream t).stream) :
    ¬Untouched m m' node := by
  intro hsame
  have hnew : m.stream = some ⟨m.next, t⟩ := hsame.stream.symm.trans h
  have hlt := m.fresh ⟨m.next, t⟩ (by simp [hnew])
  simp at hlt

/-- What follows once the group has a transport. -/
theorem multicastCallIncoming_of_transport {i t : ℕ} {c : Cell ℕ GroupInfo}
    (hc : m.info.heap i = some c) (ht : c.val.transport = some t) (hopen : t ∈ m.info.transports) :
    m.multicastCallIncoming o (some i) =
      if !o.streamCreate then .ok (false, { m with info := pjmediaTransportClose m.info c.val })
      else if !o.getPort then assertReturn o (m.createStream t)
      else if !o.poolCreate then assertReturn o { m.createStream t with sndPool := none }
      else if !o.createPlayer then
        .ok (false, { m.createStream t with sndPool := some (m.next + 1) })
      else .ok (o.connect,
        { m.createStream t with sndPool := some (m.next + 1), sndPort := some (m.next + 1) }) := by
  have hcreate : ∀ m' : Media, m'.info.transports = m.info.transports →
      pjmediaStreamCreate o m' (some t) =
        .ok (o.streamCreate, if o.streamCreate then m'.createStream t else m') := by
    intro m' hm
    simp only [pjmediaStreamCreate, hm, hopen, not_true_eq_false, if_false]
    cases o.streamCreate <;> rfl
  simp only [multicastCallIncoming, PttInfo.deref, hc, ht, live_some, ok_bind, pure, Except.pure,
    Option.isNone_some, Bool.false_eq_true, if_false, hcreate _ rfl]
  cases o.streamCreate with
  | false => rfl
  | true => cases o.getPort <;> cases o.poolCreate <;> cases o.createPlayer <;> rfl

/-- Without a transport that is open the call ends in a fault. -/
theorem multicastCallIncoming_of_not (h : ¬m.HasTransport node) :
    ∃ f, m.multicastCallIncoming o node = .error f := by
  cases node with
  | none => exact ⟨_, rfl⟩
  | some i =>
    cases hc : m.info.heap i with
    | none => exact ⟨.useAfterFree, by simp [multicastCallIncoming, PttInfo.deref, hc, live, bind,
        Except.bind]⟩
    | some c =>
      have hderef : m.info.deref (some i) = .ok (i, c) := by
        simp [PttInfo.deref, hc, bind, Except.bind, pure, Except.pure]
      rw [multicastCallIncoming, hderef]
      cases ht : c.val.transport with
      | none =>
        simp only [ok_bind, ht, Option.isNone_none, if_true]
        cases pttMediaTransportCreate m.info i with
        | error f => exact ⟨f, rfl⟩
        | ok info => exact ⟨.nullPointer, rfl⟩
      | some t =>
        have hclosed : t ∉ m.info.transports := fun hopen =>
          h ⟨t, by simp [transportOf, hc, ht], hopen⟩
        simp only [ok_bind, ht, Option.isNone_some, Bool.false_eq_true, if_false,
          pjmediaStreamCreate, hclosed, not_false_eq_true, if_true]
        exact ⟨.useAfterFree, rfl⟩

/-- The call is atomic only when nothing fails. -/
theorem multicastCallIncoming_atomic (o : MediaOutcome) (m : Media) (node : Option ℕ) :
    Atomic m node (m.multicastCallIncoming o node) ↔ m.HasTransport node ∧ o.all = true := by
  by_cases hhas : m.HasTransport node
  · obtain ⟨t, ht, hopen⟩ := hhas
    obtain ⟨i, rfl, c, hc, hct⟩ : ∃ i, node = some i ∧ ∃ c, m.info.heap i = some c ∧
        c.val.transport = some t := by
      simpa [transportOf, Option.bind_eq_some_iff] using ht
    rw [multicastCallIncoming_of_transport hc hct hopen]
    have hhas : m.HasTransport (some i) := ⟨t, ht, hopen⟩
    have hfail : ∀ m' : Media, m'.stream = (m.createStream t).stream → o.all = false →
        (Atomic m (some i) (.ok (false, m')) ↔ m.HasTransport (some i) ∧ o.all = true) := by
      intro m' hm hall
      simp [Atomic, hall, not_untouched_createStream hm]
    have hassert : ∀ m' : Media, m'.stream = (m.createStream t).stream → o.all = false →
        (Atomic m (some i) (assertReturn o m') ↔ m.HasTransport (some i) ∧ o.all = true) := by
      intro m' hm hall
      unfold assertReturn
      split_ifs
      · exact hfail m' hm hall
      · simp [Atomic, hall]
    cases hs : o.streamCreate with
    | false =>
      have hclose :
          ¬Untouched m { m with info := pjmediaTransportClose m.info c.val } (some i) := by
        intro hsame
        have hgone := congrArg List.length hsame.transports
        simp only [pjmediaTransportClose, hct, List.length_erase_of_mem hopen] at hgone
        have := List.length_pos_of_mem hopen
        omega
      simp [Atomic, hclose, MediaOutcome.all, hs]
    | true =>
      cases hg : o.getPort with
      | false => exact hassert _ rfl (by simp [MediaOutcome.all, hg])
      | true =>
        cases hp : o.poolCreate with
        | false => exact hassert _ rfl (by simp [MediaOutcome.all, hp])
        | true =>
          cases hy : o.createPlayer with
          | false => exact hfail _ rfl (by simp [MediaOutcome.all, hy])
          | true =>
            cases hk : o.connect with
            | false => exact hfail _ rfl (by simp [MediaOutcome.all, hk])
            | true =>
              refine iff_of_true ⟨⟨m.next, t⟩, rfl, ht⟩ ⟨hhas, ?_⟩
              simp [MediaOutcome.all, hs, hg, hp, hy, hk]
  · obtain ⟨f, hf⟩ := multicastCallIncoming_of_not (o := o) hhas
    rw [hf]
    simp [Atomic, hhas]

theorem pttOpenMedia_init (h : m.info.pttState = .init) :
    Atomic m m.info.gCurrentGroup (m.pttOpenMedia o) ↔
      Atomic { m with info := m.info.report .callHangupAll } m.info.gCurrentGroup
        (multicastCallIncoming o { m with info := m.info.report .callHangupAll }
          m.info.gCurrentGroup) := by
  simp only [pttOpenMedia, h]
  cases multicastCallIncoming o { m with info := m.info.report .callHangupAll }
      m.info.gCurrentGroup with
  | error f => exact Iff.rfl
  | ok r =>
    obtain ⟨success, m₁⟩ := r
    cases success with
    | true => exact Iff.rfl
    | false =>
      constructor
      · rintro ⟨h₁, h₂, h₃, h₄, h₅, h₆⟩
        exact ⟨h₁, h₂, h₃, h₄, h₅, h₆⟩
      · rintro ⟨h₁, h₂, h₃, h₄, h₅, h₆⟩
        exact ⟨h₁, h₂, h₃, h₄, h₅, h₆⟩

/-- The stream goes on over the transport of the group. -/
def KeepsTransport (m : Media) (node : Option ℕ) : Prop :=
  ∃ s, m.stream = some s ∧ m.transportOf node = some s.transport

theorem pttOpenMedia_free (h : m.info.pttState = .free) :
    Atomic m m.info.gCurrentGroup (m.pttOpenMedia o) ↔
      o.noValue = true ∧ m.KeepsTransport m.info.gCurrentGroup := by
  simp only [pttOpenMedia, h]
  cases o.noValue with
  | true => simp [Atomic, KeepsTransport, transportOf, PttInfo.report, pttEnterState]
  | false =>
    simp only [Atomic, Bool.false_eq_true, false_and, iff_false]
    intro hsame
    have := hsame.pttState
    simp [pttEnterState, h] at this

theorem pttOpenMedia_refused (hinit : m.info.pttState ≠ .init) (hfree : m.info.pttState ≠ .free) :
    Atomic m m.info.gCurrentGroup (m.pttOpenMedia o) := by
  have hrefused : m.pttOpenMedia o = .ok (false, m) := by
    unfold pttOpenMedia
    cases hstate : m.info.pttState <;> simp_all
  rw [hrefused]
  exact ⟨rfl, rfl, rfl, rfl, rfl, rfl⟩

/-! ### The flags -/

/-- The operations as the signals of the session see them. -/
def outside (o : MediaOutcome) : Outside := { media := o }

/-- The flags follow the pointers when a call comes up. -/
theorem callIncoming_flags {success : Bool}
    (h : m.multicastCallIncoming o m.info.gCurrentGroup = .ok (success, m')) :
    PttTerminal.multicastCallIncoming (outside o) m.flags = .ok (success, m'.flags) := by
  by_cases hhas : m.HasTransport m.info.gCurrentGroup
  · obtain ⟨t, ht, hopen⟩ := hhas
    obtain ⟨i, hi, c, hc, hct⟩ : ∃ i, m.info.gCurrentGroup = some i ∧ ∃ c, m.info.heap i = some c ∧
        c.val.transport = some t := by
      simpa [transportOf, Option.bind_eq_some_iff] using ht
    have hderef : m.flags.deref m.flags.gCurrentGroup = .ok (i, c) := by
      simp [flags, PttInfo.deref, hi, hc, bind, Except.bind, pure, Except.pure]
    rw [hi, multicastCallIncoming_of_transport hc hct hopen] at h
    rw [PttTerminal.multicastCallIncoming, hderef]
    simp only [ok_bind, hct]
    cases hs : o.streamCreate with
    | false =>
      rw [hs] at h
      cases h
      simp [outside, hs, flags, pjmediaTransportClose, hct, pure, Except.pure]
    | true =>
      cases hport : o.getPort with
      | false =>
        simp only [hs, hport, Bool.not_true, Bool.not_false, Bool.false_eq_true, if_false,
          if_true] at h
        obtain ⟨hreturns, hr⟩ := assertReturn_eq_ok.mp h
        cases hr
        simp [outside, hs, hport, hreturns, assertReturn, flags, createStream]
      | true =>
        simp only [hs, hport, Bool.not_true, Bool.false_eq_true, if_false] at h
        cases hp : o.poolCreate with
        | false =>
          simp only [hp, Bool.not_false, if_true] at h
          obtain ⟨hreturns, hr⟩ := assertReturn_eq_ok.mp h
          cases hr
          simp [outside, hs, hport, hp, hreturns, assertReturn, flags, createStream]
        | true =>
          cases hy : o.createPlayer with
          | false =>
            rw [hp, hy] at h
            cases h
            simp [outside, hs, hport, hp, hy, flags, createStream, pure, Except.pure]
          | true =>
            rw [hp, hy] at h
            cases h
            simp [outside, hs, hport, hp, hy, flags, createStream, pure, Except.pure]
  · obtain ⟨f, hf⟩ := multicastCallIncoming_of_not (o := o) hhas
    rw [hf] at h
    cases h

/-- The flags follow the pointers when the media are opened. -/
theorem openMedia_flags {success : Bool}
    (h : m.pttOpenMedia o = .ok (success, m')) :
    PttTerminal.pttOpenMedia (outside o) m.flags = .ok m'.flags := by
  have hflags : m.flags.pttState = m.info.pttState := rfl
  cases hstate : m.info.pttState with
  | init =>
    simp only [pttOpenMedia, hstate] at h
    obtain ⟨⟨created, m₁⟩, hcall, h⟩ := bind_eq_ok.mp h
    have hcall := callIncoming_flags hcall
    cases h
    simp only [PttTerminal.pttOpenMedia, hflags, hstate]
    rw [show m.flags.report .callHangupAll =
      flags { m with info := m.info.report .callHangupAll } from rfl, hcall]
    cases created <;> rfl
  | free =>
    simp only [pttOpenMedia, hstate] at h
    cases h
    simp only [PttTerminal.pttOpenMedia, hflags, hstate]
    rfl
  | _ =>
    simp only [pttOpenMedia, hstate] at h
    cases h
    simp only [PttTerminal.pttOpenMedia, hflags, hstate]

end

/-- What opening the media needs: for a session without them an open transport and operations that
all succeed, for a silent one a stream over its transport and a good value where none is
returned. -/
def CanOpen (o : MediaOutcome) (m : Media) : Prop :=
  match m.info.pttState with
  | .init => m.HasTransport m.info.gCurrentGroup ∧ o.all = true
  | .free => o.noValue = true ∧ m.KeepsTransport m.info.gCurrentGroup
  | _ => True

/-- Whatever the operations answer, a call comes up atomically exactly when its group has an open
transport and nothing fails, and the media are opened atomically exactly when they can be. -/
theorem media_opening_atomic_iff (o : MediaOutcome) (m : Media) :
    (∀ node, Atomic m node (m.multicastCallIncoming o node) ↔
      m.HasTransport node ∧ o.all = true) ∧
    (Atomic m m.info.gCurrentGroup (m.pttOpenMedia o) ↔ CanOpen o m) := by
  refine ⟨multicastCallIncoming_atomic o m, ?_⟩
  cases hstate : m.info.pttState with
  | init =>
    simp only [CanOpen, hstate]
    rw [pttOpenMedia_init hstate, multicastCallIncoming_atomic]
    rfl
  | free =>
    simp only [CanOpen, hstate]
    exact pttOpenMedia_free hstate
  | _ =>
    simp only [CanOpen, hstate, iff_true]
    exact pttOpenMedia_refused (by simp [hstate]) (by simp [hstate])

/-- A session with the group 1 of a list, whose transport is open, before its media are. -/
def beforeMedia : Media where
  info :=
    let info := (native fun _ => true).run (.initial fun _ _ => true) [.groupInfo listOfOne]
    { (pttMediaTransportCreate info 0).toOption.getD info with
      pttState := .init
      gCurrentGroup := some 0 }
  stream := none
  sndPort := none
  sndPool := none
  next := 0
  fresh := by simp

example : beforeMedia.transportOf (some 0) = some 1 := by decide

/-- The sound device is busy: the stream and the pool stay behind. -/
theorem busy_device_leaves_stream : ¬ ∀ (o : MediaOutcome) (m : Media),
    (∀ node, Atomic m node (m.multicastCallIncoming o node)) ∧
      Atomic m m.info.gCurrentGroup (m.pttOpenMedia o) := by
  intro h
  have hatomic := (h { createPlayer := false } beforeMedia).1 (some 0)
  rw [multicastCallIncoming_atomic] at hatomic
  exact absurd hatomic.2 (by decide)

end Media

end PttTerminal
