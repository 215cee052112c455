import PttTerminal.PacketText

/-!
# What a packet leaves of earlier ones

The record of the parser is not cleared between the packets. What is copied out for a packet holds
what the packet says, and where the packet says nothing about a word, what an earlier one left
there.
-/
namespace PttTerminal

open LinkedCells

/-- The handler of a heartbeat releases the pool of its list in the end. -/
def releaseHeader (p : ParserState) : Except Fault ParserState :=
  match p.info.type with
  | .heartbeat =>
    match p.info.multi.header with
    | .num 0 => .ok p
    | .node header => do
      let c ← live (p.mem.heap header)
      return { p with mem := p.mem.releasePool c.val.pool }
    | _ => .error .useAfterFree
  | _ => .ok p

def receivePacket (p : ParserState) (buf : Bytes) : Except Fault ParserState := do
  let p ← multicastParseRdata buf p
  releaseHeader p

/-- The state after the packets of a history, which all were read. -/
def afterPackets (history : List Bytes) : Except Fault ParserState :=
  history.foldlM receivePacket {}

/-- The fields of the type that a record has. -/
inductive RecordFields where
  | heartbeat (groups : List Bytes)
  | invite (r : InviteRecord)
  | bye (r : ByeRecord)
  | memberState (r : MemberStateRecord)
  | unknown
  deriving Repr, DecidableEq

def Word.ofPointer : Option ℕ → Word
  | none => .num 0
  | some i => .node i

/-- What is copied out of the state. The groups of a heartbeat are those of a list that is live. -/
def ParserState.Carries (p : ParserState) : RecordFields → Prop
  | .heartbeat groups => p.info.type = .heartbeat ∧ ∃ header xs,
      p.info.multi.header = .ofPointer header ∧ p.mem.heap.Holds header xs ∧
      xs.map (fun x => x.2.groupNum) = groups
  | .invite r => p.info.type = .invite ∧ p.info.multi.inv = r
  | .bye r => p.info.type = .bye ∧ p.info.multi.bye = r
  | .memberState r => p.info.type = .memberState ∧ p.info.multi.memberState = r
  | .unknown => p.info.type = .unknown

/-- The packet is read after any history, and what is stored for it is the same after all. -/
def StoredAlone (buf : Bytes) : Prop :=
  ∀ history history' p p', afterPackets history = .ok p → afterPackets history' = .ok p' →
    ∃ q q' fields, multicastParseRdata buf p = .ok q ∧ multicastParseRdata buf p' = .ok q' ∧
      q.Carries fields ∧ q'.Carries fields

def Said.isBye : Said → Bool
  | .bye _ _ => true
  | _ => false

/-- The fields that are filled for what is said, when the start time holds `startTime`. The groups
behind the first one come in reverse order. -/
def Said.fields (startTime : PjStr) : Said → RecordFields
  | .heartbeat [] => .heartbeat []
  | .heartbeat (g :: gs) => .heartbeat (g :: gs.reverse)
  | .invite g s i => .invite ⟨.ofText g, .ofText s, .ofText i, startTime, 0xff⟩
  | .bye g i => .bye ⟨.ofText g, .ofText i, startTime⟩
  | .memberState num name status => .memberState ⟨.ofText num, .ofText name, .num status.toNat⟩
  | .nothing => .unknown

/-- The word of the union where the start time of the record stands. -/
def Multi.startTime (m : Multi) : Said → PjStr
  | .bye _ _ => m.str2
  | _ => m.str3

section

variable {p q : ParserState} {v : Said} {buf : Bytes}

/-- What is carried of a packet is what it says, and a start time that was there before. -/
theorem Stores.carries (h : Stores p v q) : q.Carries (v.fields (p.info.multi.startTime v)) := by
  cases h with
  | noGroups => exact ⟨rfl, none, [], rfl, rfl, rfl⟩
  | @groups g gs header xs mem hring hxs =>
    refine ⟨rfl, some header, (header, ⟨g, header⟩) :: xs, rfl, ⟨rfl, hring⟩, ?_⟩
    rw [List.map_cons, hxs]
  | invite => exact ⟨rfl, rfl⟩
  | bye => exact ⟨rfl, rfl⟩
  | memberState => exact ⟨rfl, rfl⟩
  | nothing => exact rfl

/-- The last word of the union is never written. -/
theorem Stores.str3 (h : Stores p v q) : q.info.multi.str3 = p.info.multi.str3 := by
  cases h <;> rfl

theorem releaseHeader_info (h : releaseHeader p = .ok q) : q.info = p.info := by
  unfold releaseHeader at h
  split at h
  · split at h
    · cases h
      rfl
    · obtain ⟨c, -, h⟩ := bind_eq_ok.mp h
      cases h
      rfl
    · cases h
  · cases h
    rfl

theorem receivePacket_str3 (h : receivePacket p buf = .ok q) :
    q.info.multi.str3 = p.info.multi.str3 := by
  obtain ⟨p₁, hparse, hrelease⟩ := bind_eq_ok.mp h
  rw [releaseHeader_info hrelease]
  obtain ⟨-, rfl⟩ | ⟨v, -, hstores⟩ := parseRdata_cases hparse
  · rfl
  · exact hstores.str3

theorem foldlM_str3 {history : List Bytes} (h : history.foldlM receivePacket p = .ok q) :
    q.info.multi.str3 = p.info.multi.str3 := by
  induction history generalizing p with
  | nil =>
    cases h
    rfl
  | cons buf history ih =>
    rw [List.foldlM_cons] at h
    obtain ⟨p₁, hbuf, h⟩ := bind_eq_ok.mp h
    exact (ih h).trans (receivePacket_str3 hbuf)

/-- The start time of an invitation is never anything but zero. -/
theorem afterPackets_startTime {history : List Bytes} (h : afterPackets history = .ok p)
    (hv : v.isBye = false) : p.info.multi.startTime v = {} := by
  have hzero : p.info.multi.str3 = {} := foldlM_str3 h
  cases v with
  | bye g i => cases hv
  | _ => exact hzero

end

/-- Somebody speaks in a group. -/
def invitePacket : Bytes := ascii "ind:call-info\r\ngroup:1\r\nspeaker:7\r\ncall-id:c\r\n"

theorem after_invitePacket : ∃ p, afterPackets [invitePacket] = .ok p ∧
    p.info = ⟨.invite, ({} : Multi).setInv (ascii "1") (ascii "7") (ascii "c")⟩ := by
  have hinfo : (afterPackets [invitePacket]).toOption.map ParserState.info =
      some ⟨.invite, ({} : Multi).setInv (ascii "1") (ascii "7") (ascii "c")⟩ := by decide
  cases hp : afterPackets [invitePacket] with
  | error f => simp [hp, Except.toOption] at hinfo
  | ok p =>
    rw [hp] at hinfo
    exact ⟨p, rfl, by simpa [Except.toOption] using hinfo⟩

section

variable {p q : ParserState} {v : Said} {f : RecordFields} {buf : Bytes}

theorem carries_invite (h : p.Carries f) (ht : p.info.type = .invite) :
    f = .invite p.info.multi.inv := by
  cases f with
  | invite r => rw [h.2]
  | unknown => cases ht.symm.trans h
  | _ => cases ht.symm.trans h.1

theorem carries_bye (h : p.Carries f) (ht : p.info.type = .bye) : f = .bye p.info.multi.bye := by
  cases f with
  | bye r => rw [h.2]
  | unknown => cases ht.symm.trans h
  | _ => cases ht.symm.trans h.1

/-- An empty packet carries what the packet before it did. -/
theorem empty_not_alone : ¬ StoredAlone [] := by
  intro h
  obtain ⟨p, hp, hinfo⟩ := after_invitePacket
  obtain ⟨q, q', f, hq, hq', hf, hf'⟩ := h [] [invitePacket] {} p rfl hp
  cases hq
  cases hq'
  have hinv := carries_invite hf' (by rw [hinfo])
  rw [hinv] at hf
  cases hf.1

/-- The start time of a packet that ends a call holds the identifier of the call before it. -/
theorem bye_not_alone {g i : Bytes} (hv : Says buf.length buf (.bye g i)) : ¬ StoredAlone buf := by
  intro h
  obtain ⟨p, hp, hinfo⟩ := after_invitePacket
  obtain ⟨q, q', f, hq, hq', hf, hf'⟩ := h [] [invitePacket] {} p rfl hp
  obtain ⟨q₁, hq₁, hs⟩ := parseRdata_of_says (p := {}) hv
  obtain ⟨q₂, hq₂, hs'⟩ := parseRdata_of_says (p := p) hv
  cases hq.symm.trans hq₁
  cases hq'.symm.trans hq₂
  cases hs with
  | bye =>
    cases hs' with
    | bye =>
      have hbye := carries_bye hf rfl
      have hbye' := carries_bye hf' rfl
      have hstart := congrArg ByeRecord.startTime (RecordFields.bye.inj (hbye.symm.trans hbye'))
      simp only [Multi.bye, Multi.setBye, hinfo] at hstart
      revert hstart
      decide

/-- What is stored for a packet depends on the packet alone exactly when the packet says something
and does not end a call. -/
theorem packet_alone_iff (buf : Bytes) :
    StoredAlone buf ↔ ∃ v, Says buf.length buf v ∧ v.isBye = false := by
  constructor
  · intro h
    obtain ⟨q, -, -, hq, -⟩ := h [] [] {} {} rfl rfl
    obtain ⟨rfl, -⟩ | ⟨v, hv, -⟩ := parseRdata_cases hq
    · exact absurd h empty_not_alone
    · refine ⟨v, hv, ?_⟩
      cases v with
      | bye g i => exact absurd h (bye_not_alone hv)
      | _ => rfl
  · rintro ⟨v, hv, hbye⟩ history history' p p' hp hp'
    obtain ⟨q, hq, hs⟩ := parseRdata_of_says (p := p) hv
    obtain ⟨q', hq', hs'⟩ := parseRdata_of_says (p := p') hv
    have hf := hs.carries
    have hf' := hs'.carries
    rw [afterPackets_startTime hp hbye] at hf
    rw [afterPackets_startTime hp' hbye] at hf'
    exact ⟨q, q', _, hq, hq', hf, hf'⟩

end

/-- After an invitation, an empty packet carries its group, speaker and call. -/
theorem empty_packet_carries_call : ¬ ∀ buf, StoredAlone buf :=
  fun h => empty_not_alone (h [])

end PttTerminal
