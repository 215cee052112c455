import PttTerminal.Library.Dispatch
import PttTerminal.NativeCalls

/-!
# Requests that reach the multicast handler

The endpoint offers a request to its modules. The module for the multicast signals does not look at
the transport: a request that came another way finds the record of the signals all zero, which reads
as a heartbeat without groups, and the module takes it. The module that answers what nobody else
takes stands behind it.
-/
namespace PttTerminal

open Dispatch

inductive TransportType where
  | unspecified
  | udp
  | tcp
  | tls
  | sctp
  | loop
  | loopDgram
  | multicast
  | udp6
  | tcp6
  deriving Repr, DecidableEq

inductive SipMethod where
  | ack
  | register
  | notify
  | other (name : Bytes)
  deriving Repr, DecidableEq

/-- What a transport received. -/
structure RxData where
  transport : TransportType
  multicastInfo : MulticastSignal
  method : SipMethod
  deriving Repr, DecidableEq

/-- The record of a transport is allocated all zero, and a packet overwrites the message only: the
call of the parser for multicast signals is commented out. -/
inductive RxData.Received : RxData → Prop
  | first (transport : TransportType) (method : SipMethod) : Received ⟨transport, .zero, method⟩
  | next {r : RxData} (method : SipMethod) : Received r → Received { r with method := method }

theorem RxData.Received.zero {r : RxData} (h : r.Received) : r.multicastInfo = .zero := by
  induction h with
  | first transport method => rfl
  | next method _ ih => exact ih

/-! ### The modules -/

inductive Answer where
  | simpleRegistrar
  | response (statusCode : ℕ)
  deriving Repr, DecidableEq

/-- The native code, the answers of the default handler, and what the other modules keep. -/
structure World (τ : Type) where
  app : NativeApp
  answers : List Answer := []
  others : τ

abbrev SipModule (τ : Type) := Module String RxData (World τ) Fault

abbrev applicationPriority : ℕ := 64

variable {τ : Type}

def modMulticastHandler (τ : Type) (o : Outside) : SipModule τ where
  name := "mod-multicast-handler"
  priority := applicationPriority
  onRxRequest := some fun r w => do
    let (handled, app) ← w.app.multicastModOnRxRequest o r.multicastInfo
    return (handled, { w with app := app })

/-- `created` tells whether a response can be created. -/
def defaultModOnRxRequest (created : Bool) (r : RxData) (w : World τ) : World τ :=
  match r.method with
  | .ack => w
  | .register => { w with answers := .simpleRegistrar :: w.answers }
  | .notify => if created then { w with answers := .response 400 :: w.answers } else w
  | .other _ => if created then { w with answers := .response 405 :: w.answers } else w

def modDefaultHandler (τ : Type) (created : Bool) : SipModule τ where
  name := "mod-default-handler"
  priority := applicationPriority + 99
  onRxRequest := some fun r w => .ok (true, defaultModOnRxRequest created r w)

/-! ### The endpoint -/

abbrev maxModule : ℕ := 32

/-- The checks of the name are assertions only: when one fails the process ends, or it is passed
over and the list has two modules of one name. -/
def registerModule (m : SipModule τ) (ms : List (SipModule τ)) :
    Except Fault (List (SipModule τ)) :=
  if ms.any (·.name = m.name) then .error .assertion
  else if maxModule ≤ ms.length then .ok ms
  else .ok (insert m ms)

def unregisterModule (name : String) (ms : List (SipModule τ)) :
    Except Fault (List (SipModule τ)) :=
  if ms.any (·.name = name) then .ok (ms.filter (·.name ≠ name)) else .error .assertion

/-- The lists of modules that an endpoint can have as long as no assertion fails. -/
inductive Registered : List (SipModule τ) → Prop
  | empty : Registered []
  | register {m : SipModule τ} {ms ms'} : Registered ms → registerModule m ms = .ok ms' →
      Registered ms'
  | unregister {name : String} {ms ms'} : Registered ms → unregisterModule name ms = .ok ms' →
      Registered ms'

/-- `endpt_on_rx_msg` for a request: over multicast only the module for it is called. -/
def endptOnRxMsg (ms : List (SipModule τ)) (r : RxData) (w : World τ) :
    Except Fault (List (Call String (World τ))) :=
  if r.transport = .multicast then
    offer r (ms.reverse.filter (·.name = "mod-multicast-handler")) w
  else offer r ms w

theorem registerModule_eq_ok {m : SipModule τ} {ms ms' : List (SipModule τ)}
    (h : registerModule m ms = .ok ms') : (∀ m' ∈ ms, m'.name ≠ m.name) ∧
      (ms' = ms ∨ ms' = insert m ms) := by
  unfold registerModule at h
  split_ifs at h with hknown <;> cases h
  · exact ⟨by simpa using hknown, .inl rfl⟩
  · exact ⟨by simpa using hknown, .inr rfl⟩

theorem unregisterModule_eq_ok {name : String} {ms ms' : List (SipModule τ)}
    (h : unregisterModule name ms = .ok ms') : ms' = ms.filter (·.name ≠ name) := by
  unfold unregisterModule at h
  split_ifs at h
  cases h
  rfl

theorem Registered.sorted {ms : List (SipModule τ)} (h : Registered ms) : Sorted ms := by
  induction h with
  | empty => exact List.Pairwise.nil
  | register _ hrun ih =>
    obtain ⟨-, rfl | rfl⟩ := registerModule_eq_ok hrun
    · exact ih
    · exact ih.insert _
  | unregister _ hrun ih =>
    rw [unregisterModule_eq_ok hrun]
    exact ih.filter _

theorem Registered.nodup {ms : List (SipModule τ)} (h : Registered ms) :
    (ms.map Module.name).Nodup := by
  induction h with
  | empty => exact List.nodup_nil
  | @register m ms _ _ hrun ih =>
    obtain ⟨hnew, rfl | rfl⟩ := registerModule_eq_ok hrun
    · exact ih
    · rw [((insert_perm m ms).map Module.name).nodup_iff]
      refine List.nodup_cons.mpr ⟨?_, ih⟩
      intro hmem
      obtain ⟨m', hm', hname⟩ := List.mem_map.mp hmem
      exact hnew m' hm' hname
  | unregister _ hrun ih =>
    rw [unregisterModule_eq_ok hrun]
    exact ih.sublist (List.filter_sublist.map Module.name)

theorem Registered.foldlM {l ms ms' : List (SipModule τ)} (h : Registered ms)
    (hrun : l.foldlM (fun ms m => registerModule m ms) ms = .ok ms') : Registered ms' := by
  induction l generalizing ms with
  | nil =>
    cases hrun
    exact h
  | cons m l ih =>
    rw [List.foldlM_cons] at hrun
    obtain ⟨ms₁, hfirst, hrest⟩ := bind_eq_ok.mp hrun
    exact ih (.register h hfirst) hrest

/-! ### What becomes of an ordinary request -/

/-- The variables of the multicast session are as before. -/
structure SameVariables (app app' : NativeApp) : Prop where
  pttState : app'.info.pttState = app.info.pttState
  gCurrentGroup : app'.info.gCurrentGroup = app.info.gCurrentGroup
  gSpeaker : app'.info.gSpeaker = app.info.gSpeaker
  currentCallId : app'.info.currentCallId = app.info.currentCallId
  pttTimerCount : app'.pttTimerCount = app.pttTimerCount
  sipcallTimerCount : app'.sipcallTimerCount = app.sipcallTimerCount

/-- The multicast handler neither changed a variable nor took the request, and another module, in
the last resort the default handler, took it. -/
structure Undisturbed (calls : List (Call String (World τ))) : Prop where
  unchanged : ∀ c ∈ calls, c.name = "mod-multicast-handler" →
    SameVariables c.before.app c.after.app
  notConsumed : ∀ c ∈ calls, c.name = "mod-multicast-handler" → c.handled = false
  answered : ∃ c ∈ calls, c.name ≠ "mod-multicast-handler" ∧ c.handled = true

def isOther (m : SipModule τ) : Bool := m.name ≠ "mod-multicast-handler"

/-- The modules in front of the multicast handler. -/
def front (ms : List (SipModule τ)) : List (SipModule τ) := ms.takeWhile isOther

/-- A module in front of the multicast handler takes the request. -/
def TakenBefore (ms : List (SipModule τ)) (r : RxData) (w : World τ) : Prop :=
  ∃ calls, offer r (front ms) w = .ok calls ∧ Taken calls

/-- A heartbeat without groups ends a session that is not open; the counters are reset always. -/
def afterZero (app : NativeApp) : NativeApp :=
  { app with
    pttTimerCount := 0
    sipcallTimerCount := 0
    info := if app.info.gCurrentGroup.isSome ∧ app.info.pttState = .uninit then
      closeSession (app.info.report .mByeIndicate) else app.info }

theorem multicastModOnRxRequest_zero (o : Outside) (app : NativeApp) :
    app.multicastModOnRxRequest o .zero = .ok (true, afterZero app) := by
  have hbeat : multicastHeartbeat [] app.info = .ok (afterZero app).info := by
    unfold multicastHeartbeat afterZero
    cases hgroup : app.info.gCurrentGroup with
    | none => simp [pure, Except.pure]
    | some node =>
      by_cases hstate : app.info.pttState = .uninit <;>
        simp [heartbeatFinds, hstate, ok_bind, pure, Except.pure]
  unfold NativeApp.multicastModOnRxRequest
  simp only [NativeApp.onSignal, MulticastSignal.zero, hbeat, ok_bind]
  rfl

theorem isOther_of_mem_front {ms : List (SipModule τ)} {m : SipModule τ} (h : m ∈ front ms) :
    m.name ≠ "mod-multicast-handler" := by
  have := List.all_eq_true.mp List.all_takeWhile m h
  simpa [isOther] using this

/-- The list parts at the multicast handler. -/
theorem Registered.eq_front_append {ms : List (SipModule τ)} (h : Registered ms) {o : Outside}
    (hm : modMulticastHandler τ o ∈ ms) :
    ∃ post, ms = front ms ++ modMulticastHandler τ o :: post := by
  have hsplit : front ms ++ ms.dropWhile isOther = ms := List.takeWhile_append_dropWhile
  cases hrest : ms.dropWhile isOther with
  | nil =>
    rw [hrest, List.append_nil] at hsplit
    rw [← hsplit] at hm
    exact absurd rfl (isOther_of_mem_front hm)
  | cons m post =>
    rw [hrest] at hsplit
    have hname : m.name = "mod-multicast-handler" := by
      have := List.head?_dropWhile_not isOther ms
      rw [hrest] at this
      simpa [isOther] using this
    have hmem : m ∈ ms := by
      rw [← hsplit]
      simp
    have heq : m = modMulticastHandler τ o := List.inj_on_of_nodup_map h.nodup hmem hm hname
    exact ⟨post, by rw [← heq, hsplit]⟩

/-- The call of the multicast handler for an ordinary request. -/
def zeroCall (w : World τ) : Call String (World τ) :=
  ⟨"mod-multicast-handler", w, { w with app := afterZero w.app }, true⟩

section ordinary

variable {ms : List (SipModule τ)} {o : Outside} {r : RxData} {w : World τ}
  {calls : List (Call String (World τ))}

/-- An ordinary request is offered to the modules in front and then to the multicast handler, which
takes it. -/
theorem ordinary_calls (h : Registered ms) (hm : modMulticastHandler τ o ∈ ms) (hr : r.Received)
    (hordinary : r.transport ≠ .multicast) (hcalls : endptOnRxMsg ms r w = .ok calls) :
    ∃ cs, offer r (front ms) w = .ok cs ∧
      (Taken cs ∧ calls = cs ∨ ¬Taken cs ∧ ∃ w', calls = cs ++ [zeroCall w']) := by
  obtain ⟨post, hms⟩ := h.eq_front_append hm
  rw [endptOnRxMsg, if_neg hordinary, hms] at hcalls
  obtain ⟨cs, hfront, hcases⟩ := offer_append hcalls
  obtain htaken | ⟨hpass, w', cs', hpost, hcs⟩ := hcases
  · exact ⟨cs, hfront, .inl htaken⟩
  · refine ⟨cs, hfront, .inr ⟨hpass, w', ?_⟩⟩
    rw [offer_cons] at hpost
    simp only [modMulticastHandler, hr.zero, multicastModOnRxRequest_zero, ok_bind] at hpost
    cases hpost
    exact hcs

/-- An ordinary request is left alone exactly when a module in front takes it. -/
theorem ordinary_request_undisturbed (h : Registered ms) (hm : modMulticastHandler τ o ∈ ms)
    (hr : r.Received) (hordinary : r.transport ≠ .multicast)
    (hcalls : endptOnRxMsg ms r w = .ok calls) : Undisturbed calls ↔ TakenBefore ms r w := by
  obtain ⟨cs, hfront, hcases⟩ := ordinary_calls h hm hr hordinary hcalls
  obtain ⟨htaken, rfl⟩ | ⟨hpass, w', rfl⟩ := hcases
  · have hnames : ∀ c ∈ calls, c.name ≠ "mod-multicast-handler" := by
      intro c hc
      obtain ⟨m, hm, hname⟩ := List.mem_map.mp (offer_names hfront c hc)
      rw [← hname]
      exact isOther_of_mem_front hm
    refine iff_of_true ⟨?_, ?_, ?_⟩ ⟨calls, hfront, htaken⟩
    · exact fun c hc hname => absurd hname (hnames c hc)
    · exact fun c hc hname => absurd hname (hnames c hc)
    · obtain ⟨c, hc, hhandled⟩ := htaken
      exact ⟨c, hc, hnames c hc, hhandled⟩
  · apply iff_of_false
    · intro hundisturbed
      have hfree := hundisturbed.notConsumed (zeroCall w') (by simp) rfl
      cases hfree
    · rintro ⟨cs', hfront', htaken⟩
      rw [hfront] at hfront'
      cases hfront'
      exact hpass htaken

/-- No ordinary request gets as far as the default handler. -/
theorem default_handler_unreached {created : Bool} (h : Registered ms)
    (hm : modMulticastHandler τ o ∈ ms) (hd : modDefaultHandler τ created ∈ ms) (hr : r.Received)
    (hordinary : r.transport ≠ .multicast) (hcalls : endptOnRxMsg ms r w = .ok calls) :
    ∀ c ∈ calls, c.name ≠ "mod-default-handler" := by
  obtain ⟨post, hms⟩ := h.eq_front_append hm
  have hnot : modDefaultHandler τ created ∉ front ms := by
    apply Sorted.not_mem_front (m := modMulticastHandler τ o)
    · rw [← hms]
      exact h.sorted
    · show applicationPriority < applicationPriority + 99
      omega
  obtain ⟨cs, hfront, hcases⟩ := ordinary_calls h hm hr hordinary hcalls
  have hnames : ∀ c ∈ cs, c.name ≠ "mod-default-handler" := by
    intro c hc hname
    obtain ⟨m, hmem, hm⟩ := List.mem_map.mp (offer_names hfront c hc)
    have hms' : m ∈ ms := by
      rw [hms]
      exact List.mem_append_left _ hmem
    have heq := List.inj_on_of_nodup_map h.nodup hms' hd (hm.trans hname)
    exact hnot (heq ▸ hmem)
  obtain ⟨-, rfl⟩ | ⟨-, w', rfl⟩ := hcases
  · exact hnames
  · intro c hc
    obtain hc | hc := List.mem_append.mp hc
    · exact hnames c hc
    · rw [List.mem_singleton.mp hc]
      simp [zeroCall]

end ordinary

/-! ### The endpoint of the application -/

/-- A module that takes the requests of some methods, of those that belong to no transaction and to
no dialog. -/
def takesMethods (name : String) (priority : ℕ) (methods : List SipMethod) : SipModule Unit where
  name := name
  priority := priority
  onRxRequest := some fun r w => .ok (r.method ∈ methods, w)

/-- The modules that read requests, in the order in which they are registered. Without a dialog the
layer of the user agent takes CANCEL only, and a NOTIFY is taken here when it is about waiting
messages. -/
def applicationModules (mwi : Bool) : List (SipModule Unit) := [
  takesMethods "mod-tsx-layer" 16 [],
  takesMethods "mod-ua" 32 [.other (ascii "CANCEL")],
  takesMethods "mod-pjsua-log" 7 [],
  takesMethods "mod-invite" 48 [],
  takesMethods "mod-pjsua" applicationPriority [.other (ascii "INVITE")],
  takesMethods "mod-pjsua-pres" applicationPriority [.other (ascii "SUBSCRIBE")],
  takesMethods "mod-pjsua-im" applicationPriority [.other (ascii "MESSAGE")],
  takesMethods "mod-pjsua-options" applicationPriority [.other (ascii "OPTIONS")],
  modDefaultHandler Unit true,
  takesMethods "mod-unsolicited-mwi" applicationPriority (if mwi then [.notify] else []),
  modMulticastHandler Unit {}]

/-- The list of the endpoint: the default handler stands last, and in front of the multicast handler
every other module. -/
def endpointModules (mwi : Bool) : List (SipModule Unit) := [
  takesMethods "mod-pjsua-log" 7 [],
  takesMethods "mod-tsx-layer" 16 [],
  takesMethods "mod-ua" 32 [.other (ascii "CANCEL")],
  takesMethods "mod-invite" 48 [],
  takesMethods "mod-pjsua" applicationPriority [.other (ascii "INVITE")],
  takesMethods "mod-pjsua-pres" applicationPriority [.other (ascii "SUBSCRIBE")],
  takesMethods "mod-pjsua-im" applicationPriority [.other (ascii "MESSAGE")],
  takesMethods "mod-pjsua-options" applicationPriority [.other (ascii "OPTIONS")],
  takesMethods "mod-unsolicited-mwi" applicationPriority (if mwi then [.notify] else []),
  modMulticastHandler Unit {},
  modDefaultHandler Unit true]

theorem endpointModules_registered (mwi : Bool) : Registered (endpointModules mwi) :=
  Registered.empty.foldlM (l := applicationModules mwi) rfl

def firstWorld : World Unit where
  app := { info := .initial fun _ _ => true, calls := [] }
  others := ()

/-- A text message is taken in front of the multicast handler. -/
theorem message_undisturbed : ∃ calls,
    endptOnRxMsg (endpointModules false) ⟨.udp, .zero, .other (ascii "MESSAGE")⟩ firstWorld =
      .ok calls ∧ Undisturbed calls :=
  ⟨_, rfl, (ordinary_request_undisturbed (endpointModules_registered false) (o := {})
    (by simp [endpointModules]) (.first .udp (.other (ascii "MESSAGE"))) (by decide) rfl).mpr
      ⟨_, rfl, by decide⟩⟩

/-- A registration is taken by nobody in front: the handler for multicast takes it, and it is not
answered. -/
theorem register_consumed : ∃ calls,
    endptOnRxMsg (endpointModules false) ⟨.udp, .zero, .register⟩ firstWorld = .ok calls ∧
      ¬Undisturbed calls := by
  refine ⟨_, rfl, fun h => ?_⟩
  obtain ⟨c, hc, hname, hhandled⟩ := h.answered
  revert hname hhandled
  simp only [List.mem_cons, List.not_mem_nil, or_false] at hc
  rcases hc with rfl | rfl | rfl | rfl | rfl | rfl | rfl | rfl | rfl | rfl <;> decide

end PttTerminal
