import PttTerminal.GroupListText
import PttTerminal.MulticastParser

/-!
# The texts of the packets

What a packet says is told from its text alone. A packet that says something is read, whatever
was read before, and every packet that is read is empty or says something; all others end in a
syntax error. The record is filled with what the packet says and keeps its other words.
-/
namespace PttTerminal

open Loops LinkedCells

inductive Said where
  | heartbeat (groups : List Bytes)
  | invite (groupNum speaker callId : Bytes)
  | bye (groupNum callId : Bytes)
  | memberState (num name : Bytes) (status : UInt32)
  | nothing
  deriving Repr, DecidableEq

/-- The value `v` stands behind the first colon of `r`, and `m` is what comes after it. -/
def PacketValue (r v m : Bytes) : Prop :=
  ∃ name, r = name ++ 58 :: (v ++ m) ∧ Free [58] name ∧ v ++ m ≠ [] ∧ Free [CR, LF] v ∧
    ∀ c ∈ m.head?, c ∈ [CR, LF]

/-- A line whose value is followed by a line end. -/
def PacketLine (r v m : Bytes) : Prop := ∃ k, PacketValue r v k ∧ Newline k m

/-- What follows `ind:` in the packets that are known. -/
inductive Indicates : Bytes → Said → Prop
  | callInfo {t l g s i r₁ r₂ r₃ m} : ascii "call-info" <+: t → Line l t r₁ → PacketLine r₁ g r₂ →
      PacketLine r₂ s r₃ → PacketValue r₃ i m → Indicates t (.invite g s i)
  | close {t l g i r₁ r₂ m} : 9 ≤ t.length → ascii "close" <+: t → Line l t r₁ →
      PacketLine r₁ g r₂ → PacketValue r₂ i m → Indicates t (.bye g i)
  | memberState {t l num name st m} : ascii "member-statuschange" <+: t →
      Line l t (num ++ 44 :: (name ++ 44 :: (st ++ 59 :: m))) → Free [44] num → Free [44] name →
      Free [59] st → Indicates t (.memberState num name (pjStrtoul st))

/-- The groups behind the first one, and what is left of the text behind the last. -/
inductive MoreGroups : Bytes → List Bytes → Bytes → Prop
  | last {n k} : n ++ k ≠ [] → Free [44] n → (∀ c ∈ k.head?, c = 44) → k.length ≤ 2 →
      MoreGroups (n ++ k) [n] k
  | next {n m gs k} : Free [44] n → 2 ≤ m.length → MoreGroups m gs k →
      MoreGroups (n ++ 44 :: m) (n :: gs) k

/-- The groups of a heartbeat. After a single one, two bytes are not read. -/
inductive HeartGroups : Bytes → List Bytes → Prop
  | single {n k} : n ++ k ≠ [] → Free [44] n → (∀ c ∈ k.head?, c = 44) → k.length ≤ 2 →
      HeartGroups (n ++ k) [n]
  | more {n m gs} : Free [44] n → 2 ≤ m.length → MoreGroups m gs [] →
      HeartGroups (n ++ 44 :: m) (n :: gs)

/-- A line that is compared with both literals and is none of them. -/
structure UnknownLine (r : Bytes) : Prop where
  long : 10 ≤ r.length
  notInd : ¬ ascii "ind:" <+: r
  notHeartbeat : ¬ ascii "heartbeat:" <+: r

/-- What the rest of a packet of `size` bytes says. -/
inductive Says (size : ℕ) : Bytes → Said → Prop
  | indication {t v} : Indicates t v → Says size (ascii "ind:" ++ t) v
  | other {t v} : 19 ≤ t.length → ¬ ascii "call-info" <+: t → ¬ ascii "close" <+: t →
      ¬ ascii "member-statuschange" <+: t → Says size t v → Says size (ascii "ind:" ++ t) v
  | empty {t} : size = 12 → Says size (ascii "heartbeat:" ++ t) (.heartbeat [])
  | heartbeat {t gs} : size ≠ 12 → HeartGroups t gs →
      Says size (ascii "heartbeat:" ++ t) (.heartbeat gs)
  | last {r} : UnknownLine r → skipLine r = [] → Says size r .nothing
  | line {r v} : UnknownLine r → Says size (skipLine r) v → Says size r v

/-! ### Reading -/

section reading

variable {α σ ρ : Type} {body : σ → Scan (Ctl σ ρ)} {s t : σ} {x : ρ} {r m k : Bytes}

theorem round_next : Scan.round body (s, r) = .ok (.next (t, m)) ↔ body s r = .ok (.next t, m) := by
  simp only [Scan.round]
  rcases body s r with f | ⟨t' | x, k⟩ <;> simp [bind, Except.bind, pure, Except.pure]

theorem round_exit : Scan.round body (s, r) = .ok (.exit (x, m)) ↔ body s r = .ok (.exit x, m) := by
  simp only [Scan.round]
  rcases body s r with f | ⟨t' | x, k⟩ <;> simp [bind, Except.bind, pure, Except.pure]

/-- A loop whose rounds shorten the text has a result just when it is left regularly. -/
theorem whileText_eq_ok (hμ : ∀ {s r t m}, body s r = .ok (.next t, m) → m.length < r.length) :
    Scan.whileText body s r = .ok (x, m) ↔ Completes (Scan.round body) (s, r) (x, m) := by
  refine loop_eq_ok_iff (fun s : σ × Bytes => s.2.length) ?_ (Nat.lt_succ_self _)
  rintro ⟨s, r⟩ ⟨t, m⟩ h
  exact hμ (round_next.mp h)

theorem strcmp_apply {lit : Bytes} {a b : Scan α} :
    (do if ← pjScanStrcmp lit then a else b : Scan α) r =
      if r.length < lit.length then .error .syntaxError
      else if lit <+: r then a r else b r := by
  rw [Scan.bind_apply, pjScanStrcmp]
  split_ifs with hlen hpre
  · rfl
  · rw [List.isPrefixOf_iff_prefix.mpr hpre]
    rfl
  · have hfalse : lit.isPrefixOf r = false := by
      rw [Bool.eq_false_iff]
      exact fun h => hpre (List.isPrefixOf_iff_prefix.mp h)
    rw [hfalse]
    rfl

theorem ifTwoLeft_apply {a b : Scan α} :
    (do if ← atMostTwoLeft then a else b : Scan α) r = if r.length ≤ 2 then a r else b r := by
  rw [Scan.bind_apply, atMostTwoLeft]
  by_cases h : r.length ≤ 2
  · rw [decide_eq_true h, if_pos h]
    rfl
  · rw [decide_eq_false h, if_neg h]
    rfl

theorem scanLift_eq_ok {y : Except Fault α} {a : α} :
    Scan.lift y r = .ok (a, m) ↔ y = .ok a ∧ m = r := by
  rw [Scan.lift, map_eq_ok]
  constructor
  · rintro ⟨b, rfl, h⟩
    cases h
    exact ⟨rfl, rfl⟩
  · rintro ⟨rfl, rfl⟩
    exact ⟨a, rfl, rfl⟩

theorem getLine_eq_ok {l : Bytes} : getLine r = .ok (l, m) ↔ Line l r m := by
  simp only [getLine, Scan.bind_eq_ok, pjScanGetUntilChr_crlf]
  constructor
  · rintro ⟨a, k, ⟨-, rfl, hfree, -⟩, u, k', hnl, h⟩
    cases h
    exact ⟨hfree, k, rfl, pjScanGetNewline_eq_ok.mp hnl⟩
  · rintro ⟨hfree, e, rfl, hnl⟩
    obtain ⟨c, rest, rfl, -⟩ := hnl.head
    exact ⟨l, c :: rest, ⟨by simp, rfl, hfree, .inr ⟨m, hnl⟩⟩, (), m,
      pjScanGetNewline_eq_ok.mpr hnl, rfl⟩

theorem getValue_eq_ok {v : Bytes} : getValue r = .ok (v, m) ↔ PacketValue r v m := by
  simp only [getValue, Scan.bind_eq_ok, getField_eq_ok (d := 58) (by decide),
    pjScanGetUntilChr_eq_ok]
  constructor
  · rintro ⟨name, k, ⟨rfl, hname⟩, hne, rfl, hfree, hend⟩
    exact ⟨name, rfl, hname, hne, hfree, hend⟩
  · rintro ⟨name, rfl, hname, hne, hfree, hend⟩
    exact ⟨name, v ++ m, ⟨rfl, hname⟩, hne, rfl, hfree, hend⟩

theorem getValueLine_eq_ok {v : Bytes} : getValueLine r = .ok (v, m) ↔ PacketLine r v m := by
  simp only [getValueLine, Scan.bind_eq_ok, getValue_eq_ok]
  constructor
  · rintro ⟨a, k, hv, u, k', hk, h⟩
    cases h
    exact ⟨k, hv, pjScanGetNewline_eq_ok.mp hk⟩
  · rintro ⟨k, hv, hk⟩
    exact ⟨v, k, hv, (), m, pjScanGetNewline_eq_ok.mpr hk, rfl⟩

end reading

section records

variable {multi multi' : Multi} {r m : Bytes}

theorem multicastParseInvite_eq_ok : multicastParseInvite multi r = .ok (multi', m) ↔
    ∃ g s i r₂ r₃, PacketLine r g r₂ ∧ PacketLine r₂ s r₃ ∧ PacketValue r₃ i m ∧
      multi' = multi.setInv g s i := by
  simp only [multicastParseInvite, Scan.bind_eq_ok, getValueLine_eq_ok, getValue_eq_ok]
  constructor
  · rintro ⟨g, r₂, hg, s, r₃, hs, i, _, hi, h⟩
    cases h
    exact ⟨g, s, i, r₂, r₃, hg, hs, hi, rfl⟩
  · rintro ⟨g, s, i, r₂, r₃, hg, hs, hi, rfl⟩
    exact ⟨g, r₂, hg, s, r₃, hs, i, m, hi, rfl⟩

theorem multicastParseBye_eq_ok : multicastParseBye multi r = .ok (multi', m) ↔
    ∃ g i r₂, PacketLine r g r₂ ∧ PacketValue r₂ i m ∧ multi' = multi.setBye g i := by
  simp only [multicastParseBye, Scan.bind_eq_ok, getValueLine_eq_ok, getValue_eq_ok]
  constructor
  · rintro ⟨g, r₂, hg, i, _, hi, h⟩
    cases h
    exact ⟨g, i, r₂, hg, hi, rfl⟩
  · rintro ⟨g, i, r₂, hg, hi, rfl⟩
    exact ⟨g, r₂, hg, i, m, hi, rfl⟩

theorem multicastParseMemberstatus_eq_ok : multicastParseMemberstatus multi r = .ok (multi', m) ↔
    ∃ num name st, r = num ++ 44 :: (name ++ 44 :: (st ++ 59 :: m)) ∧ Free [44] num ∧
      Free [44] name ∧ Free [59] st ∧ multi' = multi.setMemberState num name (pjStrtoul st) := by
  simp only [multicastParseMemberstatus, Scan.bind_eq_ok, getField_eq_ok (d := 44) (by decide),
    getField_eq_ok (d := 59) (by decide)]
  constructor
  · rintro ⟨num, _, ⟨rfl, hnum⟩, name, _, ⟨rfl, hname⟩, st, _, ⟨rfl, hst⟩, h⟩
    cases h
    exact ⟨num, name, st, rfl, hnum, hname, hst, rfl⟩
  · rintro ⟨num, name, st, rfl, hnum, hname, hst, rfl⟩
    exact ⟨num, _, ⟨rfl, hnum⟩, name, _, ⟨rfl, hname⟩, st, m, ⟨rfl, hst⟩, rfl⟩

end records

/-- How a packet that says `v` leaves the state. -/
inductive Stores (p : ParserState) : Said → ParserState → Prop
  | noGroups : Stores p (.heartbeat [])
      { p with info := ⟨.heartbeat, p.info.multi.setHeader (.num 0)⟩ }
  | groups {g gs header xs mem} : mem.heap.Ring (header, ⟨g, header⟩) xs →
      xs.map (fun x => x.2.groupNum) = gs.reverse →
      Stores p (.heartbeat (g :: gs)) ⟨⟨.heartbeat, p.info.multi.setHeader (.node header)⟩, mem⟩
  | invite {g s i} : Stores p (.invite g s i)
      { p with info := ⟨.invite, p.info.multi.setInv g s i⟩ }
  | bye {g i} : Stores p (.bye g i) { p with info := ⟨.bye, p.info.multi.setBye g i⟩ }
  | memberState {num name status} : Stores p (.memberState num name status)
      { p with info := ⟨.memberState, p.info.multi.setMemberState num name status⟩ }
  | nothing : Stores p .nothing (p.setType .unknown)

/-- The type that was there before is no matter. -/
theorem Stores.of_setType {p q : ParserState} {v : Said} {type : MulticastType}
    (h : Stores (p.setType type) v q) : Stores p v q := by
  cases h with
  | noGroups => exact .noGroups
  | groups hring hxs => exact .groups hring hxs
  | invite => exact .invite
  | bye => exact .bye
  | memberState => exact .memberState
  | nothing => exact .nothing

section indications

variable {p q : ParserState} {v : Said} {t m : Bytes} {c : Ctl ParserState ParserState}

theorem parseIndication_eq : parseIndication p t =
    if t.length < 9 then .error .syntaxError
    else if ascii "call-info" <+: t then
      (do
        let _ ← getLine
        let multi ← multicastParseInvite p.info.multi
        return .exit { p with info := ⟨.invite, multi⟩ } : Scan _) t
    else if t.length < 5 then .error .syntaxError
    else if ascii "close" <+: t then
      (do
        let _ ← getLine
        let multi ← multicastParseBye p.info.multi
        return .exit { p with info := ⟨.bye, multi⟩ } : Scan _) t
    else if t.length < 19 then .error .syntaxError
    else if ascii "member-statuschange" <+: t then
      (do
        let _ ← getLine
        let multi ← multicastParseMemberstatus p.info.multi
        return .exit { p with info := ⟨.memberState, multi⟩ } : Scan _) t
    else .ok (.next p, t) := by
  rw [parseIndication, strcmp_apply, strcmp_apply, strcmp_apply]
  rfl

theorem parseIndication_of_indicates (h : Indicates t v) :
    ∃ q m, parseIndication p t = .ok (.exit q, m) ∧ Stores p v q := by
  cases h with
  | @callInfo l g s i r₁ r₂ r₃ m hpre hl hg hs hi =>
    have hlen : 9 ≤ t.length := hpre.length_le
    refine ⟨_, m, ?_, .invite⟩
    rw [parseIndication_eq, if_neg (by omega), if_pos hpre,
      Scan.bind_of_ok (getLine_eq_ok.mpr hl),
      Scan.bind_of_ok (multicastParseInvite_eq_ok.mpr ⟨g, s, i, r₂, r₃, hg, hs, hi, rfl⟩)]
    rfl
  | @close l g i r₁ r₂ m hlen hpre hl hg hi =>
    have hnot : ¬ ascii "call-info" <+: t := not_prefix_of_apart (by decide) hpre
    refine ⟨_, m, ?_, .bye⟩
    rw [parseIndication_eq, if_neg (by omega), if_neg hnot, if_neg (by omega), if_pos hpre,
      Scan.bind_of_ok (getLine_eq_ok.mpr hl),
      Scan.bind_of_ok (multicastParseBye_eq_ok.mpr ⟨g, i, r₂, hg, hi, rfl⟩)]
    rfl
  | @memberState l num name st m hpre hl hnum hname hst =>
    have hlen : 19 ≤ t.length := hpre.length_le
    have hnot : ¬ ascii "call-info" <+: t := not_prefix_of_apart (by decide) hpre
    have hnot' : ¬ ascii "close" <+: t := not_prefix_of_apart (by decide) hpre
    refine ⟨_, m, ?_, .memberState⟩
    rw [parseIndication_eq, if_neg (by omega), if_neg hnot, if_neg (by omega), if_neg hnot',
      if_neg (by omega), if_pos hpre, Scan.bind_of_ok (getLine_eq_ok.mpr hl),
      Scan.bind_of_ok (multicastParseMemberstatus_eq_ok.mpr
        ⟨num, name, st, rfl, hnum, hname, hst, rfl⟩)]
    rfl

theorem indicates_of_parse (h : parseIndication p t = .ok (c, m)) :
    (∃ v, Indicates t v ∧ ∃ q, c = .exit q) ∨
      c = .next p ∧ m = t ∧ 19 ≤ t.length ∧ ¬ ascii "call-info" <+: t ∧ ¬ ascii "close" <+: t ∧
        ¬ ascii "member-statuschange" <+: t := by
  rw [parseIndication_eq] at h
  split_ifs at h with h₁ hinv h₂ hclose h₃ hmember
  · simp only [Scan.bind_eq_ok, getLine_eq_ok, multicastParseInvite_eq_ok] at h
    obtain ⟨l, r₁, hl, _, _, ⟨g, s, i, r₂, r₃, hg, hs, hi, rfl⟩, h⟩ := h
    cases h
    exact .inl ⟨_, .callInfo hinv hl hg hs hi, _, rfl⟩
  · simp only [Scan.bind_eq_ok, getLine_eq_ok, multicastParseBye_eq_ok] at h
    obtain ⟨l, r₁, hl, _, _, ⟨g, i, r₂, hg, hi, rfl⟩, h⟩ := h
    cases h
    exact .inl ⟨_, .close (by omega) hclose hl hg hi, _, rfl⟩
  · simp only [Scan.bind_eq_ok, getLine_eq_ok, multicastParseMemberstatus_eq_ok] at h
    obtain ⟨l, r₁, hl, _, _, ⟨num, name, st, rfl, hnum, hname, hst, rfl⟩, h⟩ := h
    cases h
    exact .inl ⟨_, .memberState hmember hl hnum hname hst, _, rfl⟩
  · cases h
    exact .inr ⟨rfl, rfl, by omega, hinv, hclose, hmember⟩

end indications

/-! ### The groups of a heartbeat -/

section groups

variable {mem mem' : HeartMemory} {header : ℕ} {x : ℕ × HeartBeatGroupInfo}
  {xs : List (ℕ × HeartBeatGroupInfo)} {v : HeartBeatGroupInfo} {p : ParserState}
  {r m k t : Bytes} {gs : List Bytes}

/-- A new node comes behind the first one. -/
theorem pushBack_ring (h : mem.heap.Ring x xs) : ∃ mem', (mem.alloc v).pushBack x.1 mem.fresh =
    .ok mem' ∧ mem'.heap.Ring x ((mem.fresh, v) :: xs) := by
  have hnew : mem.fresh ∉ (x :: xs).map Prod.fst := by
    intro hmem
    obtain ⟨y, hy, heq⟩ := List.mem_map.mp hmem
    have hlive := h.vl_isSome hy
    rw [← Store.isSome_iff_vl, heq, mem.bounded mem.fresh le_rfl] at hlive
    cases hlive
  obtain ⟨heap, hins, hring, -⟩ := (h.alloc hnew (v := v)).insertAfter hnew (v := v)
    (by rw [Store.alloc_vl, Function.update_self])
  have hins' : (mem.alloc v).heap.insertAfter x.1 mem.fresh = some heap := hins
  unfold HeartMemory.pushBack
  split
  · next hnone =>
    rw [hins'] at hnone
    cases hnone
  · next heap' hsome =>
    rw [hins'] at hsome
    obtain rfl := Option.some.inj hsome
    exact ⟨_, rfl, hring⟩

/-- What a round reads behind a comma. -/
theorem groupRound_eq_ok {c : Ctl (HeartMemory × UInt8) (HeartMemory × UInt8)} :
    groupRound header (mem, 44) r = .ok (c, m) ↔
      ∃ n k mem', n ++ k ≠ [] ∧ r = n ++ k ∧ Free [44] n ∧ (∀ c ∈ k.head?, c = 44) ∧
        (mem.alloc ⟨n, header⟩).pushBack header mem.fresh = .ok mem' ∧
        (k.length ≤ 2 ∧ c = .exit (mem', 44) ∧ m = k ∨
          2 < k.length ∧ k = 44 :: m ∧ c = .next (mem', 44)) := by
  have hcomma : ¬ ((mem, (44 : UInt8)).2 ≠ 44) := by simp
  simp only [groupRound, if_neg hcomma, Scan.bind_eq_ok, pjScanGetUntilCh_eq_ok, scanLift_eq_ok,
    ifTwoLeft_apply]
  constructor
  · rintro ⟨n, k, ⟨hne, rfl, hfree, hhead⟩, mem', k', ⟨hpush, hk⟩, h⟩
    rw [hk] at h
    refine ⟨n, k, mem', hne, rfl, hfree, hhead, hpush, ?_⟩
    split_ifs at h with hlen
    · cases h
      exact .inl ⟨hlen, rfl, rfl⟩
    · simp only [Scan.bind_eq_ok, pjScanGetChar_eq_ok] at h
      obtain ⟨d, k₂, ⟨rfl, -⟩, h⟩ := h
      obtain rfl : d = 44 := hhead d rfl
      cases h
      exact .inr ⟨by omega, rfl, rfl⟩
  · rintro ⟨n, k, mem', hne, rfl, hfree, hhead, hpush, hend⟩
    refine ⟨n, k, ⟨hne, rfl, hfree, hhead⟩, mem', k, ⟨hpush, rfl⟩, ?_⟩
    obtain ⟨hlen, rfl, rfl⟩ | ⟨hlen, rfl, rfl⟩ := hend
    · rw [if_pos hlen]
      rfl
    · rw [if_neg (by omega), Scan.bind_of_ok (pjScanGetChar_eq_ok.mpr ⟨rfl, by decide⟩)]
      rfl

theorem groupRound_stop {s : HeartMemory × UInt8} (hs : s.2 ≠ 44) :
    groupRound header s r = .ok (.exit s, r) := by
  rw [groupRound, if_pos hs]
  rfl

theorem groupRound_shorter {s s' : HeartMemory × UInt8}
    (h : groupRound header s r = .ok (.next s', m)) : m.length < r.length := by
  obtain ⟨mem, c⟩ := s
  by_cases hc : c = 44
  · subst hc
    obtain ⟨n, k, mem', -, rfl, -, -, -, ⟨-, hexit, -⟩ | ⟨-, rfl, -⟩⟩ := groupRound_eq_ok.mp h
    · cases hexit
    · simp only [List.length_append, List.length_cons]
      omega
  · rw [groupRound_stop hc] at h
    cases h

/-- The groups are read, and the last one comes behind the first node. -/
theorem moreGroups_complete (h : MoreGroups r gs k) (hring : mem.heap.Ring (header, v) xs) :
    ∃ mem' ys, Completes (Scan.round (groupRound header)) ((mem, 44), r) ((mem', 44), k) ∧
      mem'.heap.Ring (header, v) ys ∧
      ys.map (fun x => x.2.groupNum) = gs.reverse ++ xs.map fun x => x.2.groupNum := by
  induction h generalizing mem xs with
  | @last n k hne hfree hhead hlen =>
    obtain ⟨mem', hpush, hring'⟩ := pushBack_ring (v := ⟨n, header⟩) hring
    refine ⟨mem', _, .exit (round_exit.mpr ?_), hring', by simp⟩
    exact groupRound_eq_ok.mpr ⟨n, k, mem', hne, rfl, hfree, hhead, hpush, .inl ⟨hlen, rfl, rfl⟩⟩
  | @next n m gs k hfree hlen _ ih =>
    obtain ⟨mem₁, hpush, hring₁⟩ := pushBack_ring (v := ⟨n, header⟩) hring
    obtain ⟨mem', ys, hrest, hring', hys⟩ := ih hring₁
    refine ⟨mem', ys, .next (round_next.mpr ?_) hrest, hring', by simp [hys]⟩
    refine groupRound_eq_ok.mpr ⟨n, 44 :: m, mem₁, by simp, rfl, hfree, by simp, hpush, .inr ?_⟩
    exact ⟨by simpa using hlen, rfl, rfl⟩

theorem MoreGroups.left_le (h : MoreGroups r gs k) : k.length ≤ 2 := by
  induction h with
  | last _ _ _ hlen => exact hlen
  | next _ _ _ ih => exact ih

theorem moreGroups_sound {s u : (HeartMemory × UInt8) × Bytes}
    (h : Completes (Scan.round (groupRound header)) s u) (hs : s.1.2 = 44) :
    u.1.2 = 44 ∧ ∃ gs, MoreGroups s.2 gs u.2 := by
  induction h with
  | @exit s u h =>
    obtain ⟨⟨mem, c⟩, r⟩ := s
    obtain ⟨⟨mem₂, c₂⟩, m⟩ := u
    obtain rfl : c = 44 := hs
    obtain ⟨n, k, mem', hne, rfl, hfree, hhead, -, ⟨hlen, hc, hm⟩ | ⟨-, -, hc⟩⟩ :=
      groupRound_eq_ok.mp (round_exit.mp h)
    · cases hc
      subst hm
      exact ⟨rfl, [n], .last hne hfree hhead hlen⟩
    · cases hc
  | @next s s' u h _ ih =>
    obtain ⟨⟨mem, c⟩, r⟩ := s
    obtain ⟨⟨mem₁, c₁⟩, m⟩ := s'
    obtain rfl : c = 44 := hs
    obtain ⟨n, k, mem', -, rfl, hfree, -, -, ⟨-, hc, -⟩ | ⟨hlen, rfl, hc⟩⟩ :=
      groupRound_eq_ok.mp (round_next.mp h)
    · cases hc
    · cases hc
      obtain ⟨hu, gs, hgs⟩ := ih rfl
      refine ⟨hu, n :: gs, .next hfree ?_ hgs⟩
      simpa using hlen

/-- The groups of a heartbeat are read, and after several of them nothing is left. -/
theorem parseGroups_complete (h : HeartGroups t gs) :
    ∃ q m, (parseGroups (p.setType .heartbeat) t = .ok (.exit q, m) ∨
        parseGroups (p.setType .heartbeat) t = .ok (.next q, []) ∧ m = []) ∧
      Stores p (.heartbeat gs) q := by
  have hnew : ∀ n, (p.mem.alloc ⟨n, p.mem.fresh⟩).heap.Ring (p.mem.fresh, ⟨n, p.mem.fresh⟩) [] :=
    fun n => Store.ring_alloc _ _ _
  cases h with
  | @single n k hne hfree hhead hlen =>
    refine ⟨_, k, .inl ?_, .groups (hnew n) rfl⟩
    rw [parseGroups, Scan.bind_of_ok (pjScanGetUntilCh_eq_ok.mpr ⟨hne, rfl, hfree, hhead⟩),
      ifTwoLeft_apply, if_pos hlen]
    rfl
  | @more n m gs hfree hlen hmore =>
    obtain ⟨mem', ys, hrun, hring, hys⟩ := moreGroups_complete hmore (hnew n)
    refine ⟨_, [], .inr ⟨?_, rfl⟩, .groups hring (by simpa using hys)⟩
    have hwhile : Scan.whileText (groupRound p.mem.fresh)
        (p.mem.alloc ⟨n, p.mem.fresh⟩, 44) m = .ok ((mem', 44), []) :=
      (whileText_eq_ok groupRound_shorter).mpr hrun
    have hlong : ¬ (44 :: m).length ≤ 2 := by
      simp only [List.length_cons]
      omega
    rw [parseGroups, Scan.bind_of_ok (pjScanGetUntilCh_eq_ok.mpr ⟨by simp, rfl, hfree, by simp⟩),
      ifTwoLeft_apply, if_neg hlong,
      Scan.bind_of_ok (pjScanGetChar_eq_ok.mpr ⟨rfl, by decide⟩)]
    simp only [ParserState.setType]
    rw [Scan.bind_of_ok hwhile]
    rfl

/-- What is read of a heartbeat are its groups, or up to two bytes are left over. -/
theorem parseGroups_sound {c : Ctl ParserState ParserState} (h : parseGroups p t = .ok (c, m)) :
    (∃ q, c = .exit q ∧ ∃ gs, HeartGroups t gs) ∨
      ∃ q, c = .next q ∧ m.length ≤ 2 ∧ (m = [] → ∃ gs, HeartGroups t gs) := by
  simp only [parseGroups, Scan.bind_eq_ok, pjScanGetUntilCh_eq_ok, ifTwoLeft_apply] at h
  obtain ⟨n, k, ⟨hne, rfl, hfree, hhead⟩, h⟩ := h
  split_ifs at h with hlen
  · cases h
    exact .inl ⟨_, rfl, [n], .single hne hfree hhead hlen⟩
  · simp only [Scan.bind_eq_ok, pjScanGetChar_eq_ok] at h
    obtain ⟨d, k', ⟨rfl, -⟩, ⟨mem', c'⟩, k₂, hwhile, h⟩ := h
    obtain rfl : d = 44 := hhead d rfl
    obtain ⟨hc, gs, hgs⟩ := moreGroups_sound ((whileText_eq_ok groupRound_shorter).mp hwhile) rfl
    obtain rfl : c' = 44 := hc
    cases h
    refine .inr ⟨_, rfl, ?_, ?_⟩
    · exact hgs.left_le
    · rintro rfl
      refine ⟨n :: gs, .more hfree ?_ hgs⟩
      simp only [List.length_cons] at hlen
      omega

end groups

/-! ### The packet -/

section packets

variable {size : ℕ} {p q : ParserState} {v : Said} {r m buf : Bytes}
  {c : Ctl ParserState ParserState}

theorem packetRound_eq (hr : r ≠ []) : packetRound size p r =
    if r.length < 4 then .error .syntaxError
    else if ascii "ind:" <+: r then (do let _ ← getField 58; parseIndication p : Scan _) r
    else if r.length < 10 then .error .syntaxError
    else if ascii "heartbeat:" <+: r then
      if size = 12 then
        .ok (.exit { p with info := ⟨.heartbeat, p.info.multi.setHeader (.num 0)⟩ }, r)
      else (do let _ ← getField 58; parseGroups (p.setType .heartbeat) : Scan _) r
    else .ok (.next (p.setType .unknown), skipLine r) := by
  have hempty : r.isEmpty = false := by simpa using hr
  have heof : pjScanIsEof r = .ok (false, r) := by rw [pjScanIsEof_apply, hempty]
  have hind : (ascii "ind:").length = 4 := rfl
  have hbeat : (ascii "heartbeat:").length = 10 := rfl
  rw [packetRound, Scan.bind_of_ok heof]
  simp only [Bool.false_eq_true, if_false]
  rw [strcmp_apply, strcmp_apply, hind, hbeat]
  split_ifs <;> rfl

theorem packetRound_end : packetRound size p [] = .ok (.exit p, []) := rfl

/-- The name before the colon is passed. -/
theorem ind_apply {α : Type} {f : Scan α} (t : Bytes) :
    (do let _ ← getField 58; f : Scan α) (ascii "ind:" ++ t) = f t :=
  skipName_eq (show (58 : UInt8) ∉ ascii "ind" by decide) f

theorem heartbeat_apply {α : Type} {f : Scan α} (t : Bytes) :
    (do let _ ← getField 58; f : Scan α) (ascii "heartbeat:" ++ t) = f t :=
  skipName_eq (show (58 : UInt8) ∉ ascii "heartbeat" by decide) f

theorem heartbeat_not_ind (h : ascii "heartbeat:" <+: r) : ¬ ascii "ind:" <+: r :=
  not_prefix_of_apart (by decide) h

theorem packetRound_ind (t : Bytes) :
    packetRound size p (ascii "ind:" ++ t) = parseIndication p t := by
  have hpre : ascii "ind:" <+: ascii "ind:" ++ t := List.prefix_append _ _
  have hlen : 4 ≤ (ascii "ind:" ++ t).length := hpre.length_le
  rw [packetRound_eq (by rintro h; simp [h] at hlen), if_neg (by omega), if_pos hpre, ind_apply]

theorem packetRound_heartbeat (t : Bytes) : packetRound size p (ascii "heartbeat:" ++ t) =
    if size = 12 then
      .ok (.exit { p with info := ⟨.heartbeat, p.info.multi.setHeader (.num 0)⟩ },
        ascii "heartbeat:" ++ t)
    else parseGroups (p.setType .heartbeat) t := by
  have hpre : ascii "heartbeat:" <+: ascii "heartbeat:" ++ t := List.prefix_append _ _
  have hlen : 10 ≤ (ascii "heartbeat:" ++ t).length := hpre.length_le
  rw [packetRound_eq (by rintro h; simp [h] at hlen), if_neg (by omega),
    if_neg (heartbeat_not_ind hpre), if_neg (by omega), if_pos hpre, heartbeat_apply]

theorem packetRound_unknown (h : UnknownLine r) :
    packetRound size p r = .ok (.next (p.setType .unknown), skipLine r) := by
  have hlen := h.long
  have hne : r ≠ [] := by
    rintro rfl
    simp at hlen
  rw [packetRound_eq hne, if_neg (by omega), if_neg h.notInd, if_neg (by omega),
    if_neg h.notHeartbeat]

/-- What a round does with a text that is not at its end. -/
theorem packetRound_cases (hr : r ≠ []) (h : packetRound size p r = .ok (c, m)) :
    (∃ t, r = ascii "ind:" ++ t ∧ parseIndication p t = .ok (c, m)) ∨
      (∃ t, r = ascii "heartbeat:" ++ t ∧ size = 12 ∧ ∃ q, c = .exit q) ∨
      (∃ t, r = ascii "heartbeat:" ++ t ∧ size ≠ 12 ∧
        parseGroups (p.setType .heartbeat) t = .ok (c, m)) ∨
      UnknownLine r ∧ c = .next (p.setType .unknown) ∧ m = skipLine r := by
  have heq := h
  rw [packetRound_eq hr] at h
  split_ifs at h with h₁ hind h₂ hbeat hsize
  · obtain ⟨t, rfl⟩ := hind
    rw [packetRound_ind] at heq
    exact .inl ⟨t, rfl, heq⟩
  · obtain ⟨t, rfl⟩ := hbeat
    cases h
    exact .inr (.inl ⟨t, rfl, hsize, _, rfl⟩)
  · obtain ⟨t, rfl⟩ := hbeat
    rw [packetRound_heartbeat, if_neg hsize] at heq
    exact .inr (.inr (.inl ⟨t, rfl, hsize, heq⟩))
  · cases h
    exact .inr (.inr (.inr ⟨⟨by omega, hind, hbeat⟩, rfl, rfl⟩))

theorem packetRound_shorter (h : packetRound size p r = .ok (.next q, m)) :
    m.length < r.length := by
  by_cases hr : r = []
  · subst hr
    cases h
  obtain ⟨t, rfl, h⟩ | ⟨t, rfl, -, q', h⟩ | ⟨t, rfl, -, h⟩ | ⟨hunknown, -, rfl⟩ :=
    packetRound_cases hr h
  · obtain ⟨v, -, q', hexit⟩ | ⟨-, rfl, -⟩ := indicates_of_parse h
    · cases hexit
    · rw [List.length_append]
      exact Nat.lt_add_of_pos_left (by decide)
  · cases h
  · have hbeat : (ascii "heartbeat:").length = 10 := rfl
    obtain ⟨q', hexit, -⟩ | ⟨-, -, hlen, -⟩ := parseGroups_sound h
    · cases hexit
    · rw [List.length_append]
      omega
  · exact skipLine_length_lt hr

theorem Says.long (h : Says size r v) : 4 ≤ r.length := by
  have hind : (ascii "ind:").length = 4 := rfl
  have hbeat : (ascii "heartbeat:").length = 10 := rfl
  cases h with
  | indication _ | other _ _ _ _ _ | empty _ | heartbeat _ _ =>
    rw [List.length_append]
    omega
  | last hunknown _ | line hunknown _ =>
    have := hunknown.long
    omega

/-- A packet that says something is read, whatever was there before. -/
theorem says_complete (h : Says size r v) :
    ∃ q m, Completes (Scan.round (packetRound size)) (p, r) (q, m) ∧ Stores p v q := by
  induction h generalizing p with
  | @indication t v hv =>
    obtain ⟨q, m, hrun, hq⟩ := parseIndication_of_indicates (p := p) hv
    exact ⟨q, m, .exit (round_exit.mpr ((packetRound_ind t).trans hrun)), hq⟩
  | @other t v hlen hinv hclose hmember _ ih =>
    obtain ⟨q, m, hrun, hq⟩ := ih (p := p)
    refine ⟨q, m, .next (round_next.mpr ((packetRound_ind t).trans ?_)) hrun, hq⟩
    rw [parseIndication_eq, if_neg (by omega), if_neg hinv, if_neg (by omega), if_neg hclose,
      if_neg (by omega), if_neg hmember]
  | @empty t hsize =>
    refine ⟨_, ascii "heartbeat:" ++ t, .exit (round_exit.mpr ?_), .noGroups⟩
    rw [packetRound_heartbeat, if_pos hsize]
  | @heartbeat t gs hsize hgs =>
    obtain ⟨q, m, hrun, hq⟩ := parseGroups_complete (p := p) hgs
    have hround : packetRound size p (ascii "heartbeat:" ++ t) =
        parseGroups (p.setType .heartbeat) t := by rw [packetRound_heartbeat, if_neg hsize]
    refine ⟨q, m, ?_, hq⟩
    obtain hexit | ⟨hnext, rfl⟩ := hrun
    · exact .exit (round_exit.mpr (hround.trans hexit))
    · exact .next (round_next.mpr (hround.trans hnext)) (.exit (round_exit.mpr packetRound_end))
  | @last r hunknown hskip =>
    refine ⟨_, [], .next (round_next.mpr (packetRound_unknown hunknown)) ?_, .nothing⟩
    rw [hskip]
    exact .exit (round_exit.mpr packetRound_end)
  | @line r v hunknown _ ih =>
    obtain ⟨q, m, hrun, hq⟩ := ih (p := p.setType .unknown)
    exact ⟨q, m, .next (round_next.mpr (packetRound_unknown hunknown)) hrun, hq.of_setType⟩

/-- A packet that is read is empty or says something. -/
theorem says_sound {s u : ParserState × Bytes}
    (h : Completes (Scan.round (packetRound size)) s u) :
    s.2 = [] ∧ u.1 = s.1 ∨ ∃ v, Says size s.2 v := by
  induction h with
  | @exit s u h =>
    obtain ⟨p, r⟩ := s
    obtain ⟨q, m⟩ := u
    have hround := round_exit.mp h
    by_cases hr : r = []
    · subst hr
      cases hround
      exact .inl ⟨rfl, rfl⟩
    right
    obtain ⟨t, rfl, hind⟩ | ⟨t, rfl, hsize, -⟩ | ⟨t, rfl, hsize, hgroups⟩ | ⟨-, hc, -⟩ :=
      packetRound_cases hr hround
    · obtain ⟨v, hv, -⟩ | ⟨hc, -⟩ := indicates_of_parse hind
      · exact ⟨v, .indication hv⟩
      · cases hc
    · exact ⟨_, .empty hsize⟩
    · obtain ⟨-, -, gs, hgs⟩ | ⟨q', hc, -⟩ := parseGroups_sound hgroups
      · exact ⟨_, .heartbeat hsize hgs⟩
      · cases hc
    · cases hc
  | @next s s' u h _ ih =>
    obtain ⟨p, r⟩ := s
    obtain ⟨q, m⟩ := s'
    have hround := round_next.mp h
    by_cases hr : r = []
    · subst hr
      cases hround
    right
    obtain ⟨t, rfl, hind⟩ | ⟨t, rfl, -, q', hc⟩ | ⟨t, rfl, hsize, hgroups⟩ | ⟨hunknown, -, rfl⟩ :=
      packetRound_cases hr hround
    · obtain ⟨v, -, q', hc⟩ | ⟨-, rfl, hlen, hinv, hclose, hmember⟩ := indicates_of_parse hind
      · cases hc
      · obtain ⟨rfl, -⟩ | ⟨v, hv⟩ := ih
        · simp at hlen
        · exact ⟨v, .other hlen hinv hclose hmember hv⟩
    · cases hc
    · obtain ⟨q', hc, -⟩ | ⟨-, -, hlen, hgs⟩ := parseGroups_sound hgroups
      · cases hc
      · obtain ⟨hm, -⟩ | ⟨v, hv⟩ := ih
        · obtain ⟨gs, hgs⟩ := hgs hm
          exact ⟨_, .heartbeat hsize hgs⟩
        · -- what is left is too short to say anything
          have hlong : 4 ≤ m.length := hv.long
          omega
    · obtain ⟨hm, -⟩ | ⟨v, hv⟩ := ih
      · exact ⟨_, .last hunknown hm⟩
      · exact ⟨v, .line hunknown hv⟩

theorem parseRdata_of_says (h : Says buf.length buf v) :
    ∃ q, multicastParseRdata buf p = .ok q ∧ Stores p v q := by
  obtain ⟨q, m, hrun, hq⟩ := says_complete (p := p) h
  refine ⟨q, ?_, hq⟩
  rw [multicastParseRdata, (whileText_eq_ok packetRound_shorter).mpr hrun]
  rfl

/-- A packet is read just when it is empty, and then nothing is stored, or says something. -/
theorem parseRdata_cases (h : multicastParseRdata buf p = .ok q) :
    buf = [] ∧ q = p ∨ ∃ v, Says buf.length buf v ∧ Stores p v q := by
  obtain ⟨⟨q', m⟩, hrun, rfl⟩ := map_eq_ok.mp h
  obtain ⟨rfl, hq⟩ | ⟨v, hv⟩ := says_sound ((whileText_eq_ok packetRound_shorter).mp hrun)
  · exact .inl ⟨rfl, hq⟩
  · obtain ⟨q₂, hq₂, hstores⟩ := parseRdata_of_says (p := p) hv
    rw [h] at hq₂
    cases hq₂
    exact .inr ⟨v, hv, hstores⟩

end packets

end PttTerminal
