import PttTerminal.GroupListText

/-!
# What the loader makes of a text

The loader comes to its end on exactly the texts made of its lines, and the list is then that
of the last line of groups.
-/
namespace PttTerminal

open Loops LinkedCells

theorem Record.delim_ne_zero {t : GroupText} {r m : Bytes} {d : UInt8} (h : Record t r (d :: m)) :
    d ≠ 0 := by
  have := h.stop d rfl
  rintro rfl
  revert this
  decide

theorem pjScanStrcmp_eq_ok {lit r m : Bytes} {b : Bool} :
    pjScanStrcmp lit r = .ok (b, m) ↔ m = r ∧ lit.length ≤ r.length ∧ (b = true ↔ lit <+: r) := by
  rw [pjScanStrcmp]
  split_ifs with h
  · simp only [false_iff]
    omega
  · have hle : lit.length ≤ r.length := by omega
    simp only [Except.ok.injEq, Prod.mk.injEq, hle, true_and]
    rw [and_comm, eq_comm (a := r), ← List.isPrefixOf_iff_prefix]
    refine and_congr_right fun _ => ?_
    cases b <;> simp [Bool.eq_false_iff]

/-- What holds of the list while the lines of groups still to come are `ls`: a line starts a new
list with its first group and adds the others. -/
structure LoadRule (P : List (List GroupText) → PttInfo → List (ℕ × GroupInfo) → Prop) : Prop where
  added : ∀ {ls info info' x xs y}, P ls info (x :: xs) → Added info info' y →
    P ls info' (x :: xs ++ [y])
  replaced : ∀ {ts ls info info' xs y}, P (ts :: ls) info xs → Added info info' y →
    P ls { info' with generalGroup := some y.1 } [y]
  signal : ∀ {ls info xs} addr port, P ls info xs →
    P ls { info with signalAddress := addr, signalPort := port } xs

theorem loadRule_true : LoadRule fun _ _ _ => True :=
  ⟨fun _ _ => trivial, fun _ _ => trivial, fun _ _ _ => trivial⟩

section more

variable {info : PttInfo} {x : ℕ × GroupInfo} {xs : List (ℕ × GroupInfo)}
  {P : List (List GroupText) → PttInfo → List (ℕ × GroupInfo) → Prop} {ls : List (List GroupText)}

theorem loadMoreBody_record (h : info.Groups (x :: xs)) {t : GroupText} {r m : Bytes} {d : UInt8}
    (ht : Record t r (d :: m)) :
    ∃ info' i, loadMoreBody x.1 (info, 59, r) = .ok (.next (info', d, m)) ∧
      info'.Groups (x :: xs ++ [(i, t.group)]) ∧ Added info info' (i, t.group) := by
  obtain ⟨info', hpush, hg, heap, hvl, rfl⟩ := (h.alloc t.group).pushBack (h.fresh_notMem le_rfl)
    (info.alloc_vl t.group)
  refine ⟨_, info.fresh, ?_, hg, (added_alloc info rfl).of_vl hvl⟩
  simp only [loadMoreBody, if_true, pttGroupInfoParse_eq_ok.mpr ⟨t, ht, rfl⟩, ok_bind, hpush,
    pjScanGetChar_eq_ok.mpr ⟨rfl, ht.delim_ne_zero⟩, pure, Except.pure]

theorem loadMore_records (hrule : LoadRule P) {ts : List GroupText} {c d : UInt8} {r k : Bytes}
    (ht : MoreRecords ts c r d k) {n : ℕ} (hf : r.length < n) :
    ∀ {info xs}, PttInfo.Groups info (x :: xs) → P ls info (x :: xs) →
      ∃ info' ys, loop .hang (loadMoreBody x.1) n (info, c, r) = .ok (info', d, k) ∧
        info'.Groups (x :: xs ++ ys) ∧ P ls info' (x :: xs ++ ys) ∧
        ys.map Prod.snd = ts.map GroupText.group := by
  induction ht generalizing n with
  | stop hc =>
    intro info xs h hP
    obtain ⟨n, rfl⟩ : ∃ k, n = k + 1 := ⟨n - 1, by omega⟩
    refine ⟨info, [], loop_exit ?_ n, by simpa using h, by simpa using hP, rfl⟩
    simp only [loadMoreBody, hc, if_false, pure, Except.pure]
  | @more t ts r d m c k hrec _ ih =>
    intro info xs h hP
    obtain ⟨n, rfl⟩ : ∃ k, n = k + 1 := ⟨n - 1, by omega⟩
    have hlt := hrec.length_lt
    simp only [List.length_cons] at hlt
    obtain ⟨info₁, i, hstep, hg, hadd⟩ := loadMoreBody_record h hrec
    obtain ⟨info', ys, hrun, hg', hP', hys⟩ := ih (n := n) (by omega) hg (hrule.added hP hadd)
    refine ⟨info', (i, t.group) :: ys, ?_, by simpa using hg', by simpa using hP', by simp [hys]⟩
    rw [loop_next hstep]
    exact hrun

theorem loadMore_sound {head : ℕ} {n : ℕ} {s u : PttInfo × UInt8 × Bytes}
    (h : loop .hang (loadMoreBody head) n s = .ok u) :
    ∃ ts, MoreRecords ts s.2.1 s.2.2 u.2.1 u.2.2 := by
  induction n generalizing s with
  | zero => simp [loop] at h
  | succ n ih =>
    obtain ⟨info, c, r⟩ := s
    by_cases hc : c = 59
    · subst hc
      rw [loop_succ] at h
      cases hb : loadMoreBody head (info, 59, r) with
      | error e => simp [hb] at h
      | ok ctl =>
        simp only [loadMoreBody, if_true, bind_eq_ok, Prod.exists] at hb
        obtain ⟨g, m, hparse, info₁, hpush, d, k, hchar, hctl⟩ := hb
        obtain ⟨t, ht, rfl⟩ := pttGroupInfoParse_eq_ok.mp hparse
        obtain ⟨rfl, -⟩ := pjScanGetChar_eq_ok.mp hchar
        have hstep : loadMoreBody head (info, 59, r) = .ok (.next (info₁, d, k)) := by
          simp only [loadMoreBody, if_true, hparse, ok_bind, hpush, hchar, pure, Except.pure]
        rw [← loop_succ, loop_next hstep] at h
        obtain ⟨ts, hts⟩ := ih h
        exact ⟨t :: ts, .more ht hts⟩
    · have hb : loadMoreBody head (info, c, r) = .ok (.exit (info, c, r)) := by
        simp only [loadMoreBody, hc, if_false, pure, Except.pure]
      rw [loop_exit hb] at h
      cases h
      exact ⟨[], .stop hc⟩

end more

/-! ### One line -/

section lines

variable {info info' : PttInfo} {xs : List (ℕ × GroupInfo)} {ts : List GroupText}
  {o : Option (List GroupText)} {c d : UInt8} {r x e m : Bytes}
  {P : List (List GroupText) → PttInfo → List (ℕ × GroupInfo) → Prop} {ls : List (List GroupText)}

theorem MoreRecords.stop_mem (h : MoreRecords ts c r d e) (hc : c ∈ [59, CR, LF]) :
    d = CR ∨ d = LF := by
  induction h with
  | stop hne =>
    simp only [List.mem_cons, List.not_mem_nil, or_false] at hc
    exact hc.resolve_left hne
  | more ht _ ih => exact ih (ht.stop _ rfl)

theorem Records.stop_mem (h : Records ts x c e) : c = CR ∨ c = LF := by
  cases ts with
  | nil => exact h.elim
  | cons t ts =>
    obtain ⟨d, m, ht, hm⟩ := h
    exact hm.stop_mem (ht.stop _ rfl)

theorem getField_general (x : Bytes) :
    getField 58 (generalLit ++ x) = .ok (ascii "general-group", x) :=
  (getField_eq_ok (by decide)).mpr ⟨rfl, by decide⟩

theorem loadGeneralGroup_blank (h : Blank x m) :
    loadGeneralGroup info (generalLit ++ x) = .ok (info, m) := by
  simp only [loadGeneralGroup, getField_general, ok_bind, (blank_iff.mp h).1, if_true,
    pjScanGetNewline_eq_ok.mpr h.2, pure, Except.pure]

theorem loadGeneralGroup_groups (hrule : LoadRule P) (h : info.Groups xs)
    (hP : P (ts :: ls) info xs)
    (hx : crOrSecondLf x = false) (hrec : Records ts x c e) (hnl : Newline e m)
    (hlen : emergencyLit.length ≤ m.length) :
    ∃ info' ys, loadGeneralGroup info (generalLit ++ x) = .ok (info', m) ∧ info'.Groups ys ∧
      P ls info' ys ∧ ys.map Prod.snd = ts.map GroupText.group := by
  have hc := hrec.stop_mem
  cases ts with
  | nil => exact hrec.elim
  | cons t ts =>
    obtain ⟨d, k, ht, hmore⟩ := hrec
    obtain ⟨info', ys, hrun, hg, hP', hys⟩ := loadMore_records hrule hmore (n := k.length + 1)
      (Nat.lt_succ_self _) (h.newHead t.group) (hrule.replaced hP (added_alloc info rfl))
    refine ⟨info', (info.fresh, t.group) :: ys, ?_, hg, hP', by simp [hys]⟩
    have hcmp : pjScanStrcmp (ascii "emergency-group:") m =
        .ok ((ascii "emergency-group:").isPrefixOf m, m) := pjScanStrcmp_of_le hlen
    simp only [loadGeneralGroup, getField_general, ok_bind, hx, Bool.false_eq_true, if_false,
      pttGroupInfoParse_eq_ok.mpr ⟨t, ht, rfl⟩,
        pjScanGetChar_eq_ok.mpr ⟨rfl, ht.delim_ne_zero⟩, hrun,
      hc, if_true, pjScanGetNewline_eq_ok.mpr hnl, hcmp, pure, Except.pure]

theorem loadGeneralGroup_sound (h : loadGeneralGroup info (generalLit ++ x) = .ok (info', m)) :
    ∃ o, LoadLine o (generalLit ++ x) m := by
  rw [loadGeneralGroup, getField_general, ok_bind] at h
  cases hx : crOrSecondLf x with
  | true =>
    simp only [hx, if_true, bind_eq_ok, Prod.exists] at h
    obtain ⟨⟨⟩, k, hnl, h⟩ := h
    cases h
    exact ⟨none, .blank (blank_iff.mpr ⟨hx, pjScanGetNewline_eq_ok.mp hnl⟩)⟩
  | false =>
    simp only [hx, Bool.false_eq_true, if_false, bind_eq_ok, Prod.exists] at h
    obtain ⟨g, y, hparse, d, k, hchar, info₁, c, e, hrun, h⟩ := h
    obtain ⟨t, ht, rfl⟩ := pttGroupInfoParse_eq_ok.mp hparse
    obtain ⟨rfl, -⟩ := pjScanGetChar_eq_ok.mp hchar
    obtain ⟨ts, hts⟩ := loadMore_sound hrun
    have hrec : Records (t :: ts) x c e := ⟨d, k, ht, hts⟩
    simp only [hrec.stop_mem, if_true, bind_eq_ok, Prod.exists, pjScanStrcmp_eq_ok] at h
    obtain ⟨⟨⟩, k', hnl, b, k'', ⟨rfl, hlen, -⟩, h⟩ := h
    cases h
    exact ⟨some (t :: ts), .groups hx hrec (pjScanGetNewline_eq_ok.mp hnl) hlen⟩

theorem loadSignalAddress_eq_ok :
    loadSignalAddress info (signalLit ++ x) = .ok (info', m) ↔
      ∃ addr port e, x = addr ++ 58 :: (port ++ e) ∧ Free [58] addr ∧ Free [CR, LF] port ∧
        Newline e m ∧
          info' = { info with signalAddress := addr, signalPort := pjStrtoul port } := by
  have hchar : pjScanGetChar (signalLit ++ x) = .ok (115, ascii "ignal-address:" ++ x) :=
    pjScanGetChar_eq_ok.mpr ⟨rfl, by decide⟩
  have hname : getField 58 (ascii "ignal-address:" ++ x) = .ok (ascii "ignal-address", x) :=
    (getField_eq_ok (by decide)).mpr ⟨rfl, by decide⟩
  have hcolon : (58 : UInt8) ≠ 0 := by decide
  simp only [loadSignalAddress, hchar, ok_bind, hname, bind_eq_ok, Prod.exists,
    getField_eq_ok hcolon,
    pjScanGetUntilChr_crlf]
  constructor
  · rintro ⟨addr, _, ⟨rfl, haddr⟩, port, e, ⟨-, rfl, hport, -⟩, ⟨⟩, k, hnl, h⟩
    cases h
    exact ⟨addr, port, e, rfl, haddr, hport, pjScanGetNewline_eq_ok.mp hnl, rfl⟩
  · rintro ⟨addr, port, e, rfl, haddr, hport, hnl, rfl⟩
    obtain ⟨d, rest, rfl, -⟩ := hnl.head
    exact ⟨addr, _, ⟨rfl, haddr⟩, port, d :: rest, ⟨by simp, rfl, hport, .inr ⟨m, hnl⟩⟩, (), m,
      pjScanGetNewline_eq_ok.mpr hnl, rfl⟩

/-- Two literals that differ before the end of the shorter one do not start the same text. -/
theorem not_prefix_of_apart {a b : Bytes} (hab : ¬ a <+: b ∧ ¬ b <+: a) (ha : a <+: r) :
    ¬ b <+: r := fun hb => (List.prefix_or_prefix_of_prefix ha hb).elim hab.1 hab.2

theorem emergencyLit_not_general (h : emergencyLit <+: r) : ¬ generalLit <+: r :=
  not_prefix_of_apart (by decide) h

theorem signalLit_not_general (h : signalLit <+: r) : ¬ generalLit <+: r :=
  not_prefix_of_apart (by decide) h

theorem signalLit_not_emergency (h : signalLit <+: r) : ¬ emergencyLit <+: r :=
  not_prefix_of_apart (by decide) h

/-- The tests of the loader in their order, on a text that is not at its end. -/
theorem loadBody_eq (hr : r ≠ []) : loadBody (info, r) =
    if r.length < generalLit.length then .error .syntaxError
    else if generalLit <+: r then (loadGeneralGroup info r).map .next
    else if r.length < emergencyLit.length then .error .syntaxError
    else if emergencyLit <+: r then .ok (.next (info, skipLine r))
    else if signalLit <+: r then (loadSignalAddress info r).map .next
    else .ok (.next (info, skipLine r)) := by
  have hempty : r.isEmpty = false := by simpa using hr
  have hsig : signalLit.length < emergencyLit.length := by decide
  have hskip : pjScanSkipLine r = .ok ((), skipLine r) := rfl
  have hpre : ∀ lit : Bytes, lit.isPrefixOf r = decide (lit <+: r) := by
    intro lit
    by_cases h : lit <+: r <;> simp [h, Bool.eq_false_iff]
  simp only [loadBody, hempty, Bool.false_eq_true, if_false]
  change (pjScanStrcmp generalLit r >>= _) = _
  by_cases h1 : r.length < generalLit.length
  · rw [if_pos h1, pjScanStrcmp, if_pos h1]
    rfl
  rw [if_neg h1, pjScanStrcmp, if_neg h1, ok_bind, hpre]
  by_cases hg : generalLit <+: r
  · simp only [hg, decide_true, if_true]
    cases loadGeneralGroup info r <;> rfl
  simp only [hg, decide_false, Bool.false_eq_true, if_false]
  change (pjScanStrcmp emergencyLit r >>= _) = _
  by_cases h2 : r.length < emergencyLit.length
  · rw [if_pos h2, pjScanStrcmp, if_pos h2]
    rfl
  rw [if_neg h2, pjScanStrcmp, if_neg h2, ok_bind, hpre]
  by_cases he : emergencyLit <+: r
  · simp only [he, decide_true, if_true, hskip, ok_bind]
    rfl
  simp only [he, decide_false, Bool.false_eq_true, if_false]
  change (pjScanStrcmp signalLit r >>= _) = _
  rw [pjScanStrcmp, if_neg (by omega), ok_bind, hpre]
  by_cases hs : signalLit <+: r
  · simp only [hs, decide_true, if_true]
    cases loadSignalAddress info r <;> rfl
  simp only [hs, decide_false, Bool.false_eq_true, if_false, hskip, ok_bind]
  rfl

/-- The groups of the list after a line. -/
def afterLine (o : Option (List GroupText)) (gs : List GroupInfo) : List GroupInfo :=
  (o.map (List.map GroupText.group)).getD gs

theorem loadBody_line (hrule : LoadRule P) (h : info.Groups xs) (hP : P (o.toList ++ ls) info xs)
    (hr : r ≠ []) (hl : LoadLine o r m) :
    ∃ info' ys, loadBody (info, r) = .ok (.next (info', m)) ∧ info'.Groups ys ∧ P ls info' ys ∧
      ys.map Prod.snd = afterLine o (xs.map Prod.snd) := by
  have hlit : generalLit.length < emergencyLit.length := by decide
  rw [loadBody_eq hr]
  cases hl with
  | @blank x m hb =>
    have hp : generalLit <+: generalLit ++ x := List.prefix_append _ _
    rw [if_neg (Nat.not_lt.mpr hp.length_le), if_pos hp, loadGeneralGroup_blank hb]
    exact ⟨info, xs, rfl, h, hP, rfl⟩
  | @groups ts x c e m hx hrec hnl hlen =>
    have hp : generalLit <+: generalLit ++ x := List.prefix_append _ _
    obtain ⟨info', ys, hrun, hg, hP', hys⟩ := loadGeneralGroup_groups hrule h hP hx hrec hnl hlen
    rw [if_neg (Nat.not_lt.mpr hp.length_le), if_pos hp, hrun]
    exact ⟨info', ys, rfl, hg, hP', hys⟩
  | emergency hp =>
    have hle := hp.length_le
    rw [if_neg (by omega), if_neg (emergencyLit_not_general hp), if_neg (by omega), if_pos hp]
    exact ⟨info, xs, rfl, h, hP, rfl⟩
  | @signal r m hs =>
    obtain ⟨addr, port, e, rfl, haddr, hport, hnl⟩ := hs
    have hp : signalLit <+: signalLit ++ (addr ++ 58 :: (port ++ e)) := List.prefix_append _ _
    have hrun : loadSignalAddress info _ = .ok (_, m) :=
      loadSignalAddress_eq_ok.mpr ⟨addr, port, e, rfl, haddr, hport, hnl, rfl⟩
    have hsig : signalLit.length + 1 = emergencyLit.length := by decide
    have hlen : emergencyLit.length ≤ (signalLit ++ (addr ++ 58 :: (port ++ e))).length := by
      simp only [List.length_append, List.length_cons]
      omega
    rw [if_neg (by omega), if_neg (signalLit_not_general hp), if_neg (by omega),
      if_neg (signalLit_not_emergency hp), if_pos hp, hrun]
    exact ⟨_, xs, rfl, ⟨h.holds, h.bounded⟩, hrule.signal _ _ hP, rfl⟩
  | other hlen hg he hs =>
    rw [if_neg (by omega), if_neg hg, if_neg (by omega), if_neg he, if_neg hs]
    exact ⟨info, xs, rfl, h, hP, rfl⟩

theorem loadBody_sound (hr : r ≠ []) (h : loadBody (info, r) = .ok (.next (info', m))) :
    ∃ o, LoadLine o r m := by
  rw [loadBody_eq hr] at h
  split_ifs at h with h1 hg h2 he hs
  · obtain ⟨x, rfl⟩ := hg
    cases hrun : loadGeneralGroup info (generalLit ++ x) with
    | error e => simp [hrun, Except.map] at h
    | ok p =>
      simp only [hrun, Except.map, Except.ok.injEq, Ctl.next.injEq] at h
      subst h
      exact loadGeneralGroup_sound hrun
  · cases h
    exact ⟨none, .emergency he⟩
  · obtain ⟨x, rfl⟩ := hs
    cases hrun : loadSignalAddress info (signalLit ++ x) with
    | error e => simp [hrun, Except.map] at h
    | ok p =>
      simp only [hrun, Except.map, Except.ok.injEq, Ctl.next.injEq] at h
      subst h
      obtain ⟨addr, port, e, rfl, haddr, hport, hnl, -⟩ := loadSignalAddress_eq_ok.mp hrun
      exact ⟨none, .signal ⟨addr, port, e, rfl, haddr, hport, hnl⟩⟩
  · cases h
    exact ⟨none, .other (by omega) hg he hs⟩

theorem loadBody_exit {u : PttInfo} : loadBody (info, r) = .ok (.exit u) ↔ r = [] ∧ u = info := by
  by_cases hr : r = []
  · subst hr
    have : loadBody (info, []) = .ok (.exit info) := rfl
    rw [this]
    simp [eq_comm]
  · rw [loadBody_eq hr]
    simp only [hr, false_and, iff_false]
    split_ifs
    · simp
    · cases loadGeneralGroup info r <;> simp [Except.map]
    · simp
    · simp
    · cases loadSignalAddress info r <;> simp [Except.map]
    · simp

end lines

/-! ### The whole text -/

/-- The groups of the list after all lines. -/
def afterLines (ls : List (List GroupText)) (gs : List GroupInfo) : List GroupInfo :=
  afterLine ls.getLast? gs

theorem afterLines_append (o : Option (List GroupText)) (ls : List (List GroupText))
    (gs : List GroupInfo) : afterLines ls (afterLine o gs) = afterLines (o.toList ++ ls) gs := by
  cases o with
  | none => rfl
  | some ts =>
    cases h : ls.getLast? with
    | none =>
      rw [List.getLast?_eq_none_iff] at h
      subst h
      rfl
    | some u => simp [afterLines, afterLine, List.getLast?_cons, h]

theorem loadLoop_lines {P : List (List GroupText) → PttInfo → List (ℕ × GroupInfo) → Prop}
    (hrule : LoadRule P) {ls : List (List GroupText)} {r : Bytes} (hl : Lines LoadLine ls r) {n : ℕ}
    (hf : r.length < n) : ∀ {info xs}, PttInfo.Groups info xs → P ls info xs →
      ∃ info' ys, loop .hang loadBody n (info, r) = .ok info' ∧ info'.Groups ys ∧ P [] info' ys ∧
        ys.map Prod.snd = afterLines ls (xs.map Prod.snd) := by
  induction hl generalizing n with
  | nil =>
    intro info xs h hP
    obtain ⟨n, rfl⟩ : ∃ k, n = k + 1 := ⟨n - 1, by omega⟩
    exact ⟨info, xs, loop_exit (loadBody_exit.mpr ⟨rfl, rfl⟩) n, h, hP, rfl⟩
  | @cons o ls r m hr hline _ ih =>
    intro info xs h hP
    obtain ⟨n, rfl⟩ : ∃ k, n = k + 1 := ⟨n - 1, by omega⟩
    have hlt := hline.length_lt hr
    obtain ⟨info₁, ys, hstep, hg, hP₁, hys⟩ := loadBody_line hrule h hP hr hline
    obtain ⟨info', zs, hrun, hg', hP', hzs⟩ := ih (n := n) (by omega) hg hP₁
    refine ⟨info', zs, by rw [loop_next hstep, hrun], hg', hP', ?_⟩
    rw [hzs, hys, afterLines_append]

theorem loadLoop_sound {n : ℕ} {s : PttInfo × Bytes} {info' : PttInfo}
    (h : loop .hang loadBody n s = .ok info') : ∃ ls, Lines LoadLine ls s.2 := by
  induction n generalizing s with
  | zero => simp [loop] at h
  | succ n ih =>
    obtain ⟨info, r⟩ := s
    cases hb : loadBody (info, r) with
    | error e => simp [loop_fault hb] at h
    | ok ctl =>
      cases ctl with
      | exit u =>
        obtain ⟨rfl, -⟩ := loadBody_exit.mp hb
        exact ⟨[], .nil⟩
      | next t =>
        rw [loop_next hb] at h
        obtain ⟨ls, hls⟩ := ih h
        have hr : r ≠ [] := by
          rintro rfl
          rw [loadBody_exit.mpr ⟨rfl, rfl⟩] at hb
          cases hb
        obtain ⟨o, ho⟩ := loadBody_sound hr hb
        exact ⟨o.toList ++ ls, .cons hr ho hls⟩

/-- The application is told the groups, and nothing else changes. -/
theorem receiveGroupInfo_ok {info : PttInfo} {xs : List (ℕ × GroupInfo)} (h : info.Groups xs) :
    ∃ groups,
      receiveGroupInfo info = .ok { info with effects := .receiveGroupInfo groups :: info.effects } := by
  simp only [receiveGroupInfo, groupList_eq h, ok_bind, pure, Except.pure]
  exact ⟨_, rfl⟩

/-- The loader ends with a list that holds of no more lines what held of all of them. -/
theorem loadGroupInfo_rule {P : List (List GroupText) → PttInfo → List (ℕ × GroupInfo) → Prop}
    (hrule : LoadRule P)
    (hreport : ∀ info xs groups, P [] info xs →
      P [] { info with effects := .receiveGroupInfo groups :: info.effects } xs)
    {info : PttInfo} {xs : List (ℕ × GroupInfo)} (h : info.Groups xs) (ht : info.transportId = none)
    {ls : List (List GroupText)} {content : Bytes} (hl : Lines LoadLine ls content)
    (hP : P ls info xs) :
    ∃ info' ys, loadGroupInfo info content = .ok info' ∧ info'.Groups ys ∧ P [] info' ys ∧
      ys.map Prod.snd = afterLines ls (xs.map Prod.snd) := by
  obtain ⟨info₁, ys, hrun, hg, hP₁, hys⟩ := loadLoop_lines hrule hl (Nat.lt_succ_self _) h hP
  obtain ⟨groups, he⟩ := receiveGroupInfo_ok hg
  refine ⟨{ info₁ with effects := .receiveGroupInfo groups :: info₁.effects }, ys, ?_,
    ⟨hg.holds, hg.bounded⟩, hreport _ _ groups hP₁, hys⟩
  simp only [loadGroupInfo, ht, Option.isSome_none, Bool.false_eq_true, if_false, hrun, ok_bind, he]

theorem loadGroupInfo_ok {info : PttInfo} {xs : List (ℕ × GroupInfo)} (h : info.Groups xs)
    (ht : info.transportId = none) {ls : List (List GroupText)} {content : Bytes}
    (hl : Lines LoadLine ls content) :
    ∃ info' ys, loadGroupInfo info content = .ok info' ∧ info'.Groups ys ∧
      ys.map Prod.snd = afterLines ls (xs.map Prod.snd) := by
  obtain ⟨info', ys, hrun, hg, -, hys⟩ :=
    loadGroupInfo_rule loadRule_true (fun _ _ _ _ => trivial) h
    ht hl trivial
  exact ⟨info', ys, hrun, hg, hys⟩

/-- Without a signalling transport, the loader comes to its end on the texts of its lines. -/
theorem loadGroupInfo_isOk {info : PttInfo} {xs : List (ℕ × GroupInfo)} (h : info.Groups xs)
    (ht : info.transportId = none) {content : Bytes} :
    (∃ info', loadGroupInfo info content = .ok info') ↔ ∃ ls, Lines LoadLine ls content := by
  constructor
  · rintro ⟨info', hrun⟩
    simp only [loadGroupInfo, ht, Option.isSome_none, Bool.false_eq_true, if_false,
      bind_eq_ok] at hrun
    obtain ⟨info₁, hloop, -⟩ := hrun
    exact loadLoop_sound hloop
  · rintro ⟨ls, hl⟩
    obtain ⟨info', ys, hrun, -⟩ := loadGroupInfo_ok h ht hl
    exact ⟨info', hrun⟩

/-- A list that is loaded has no more than a report to show for it, or is that of the lines. -/
theorem loadGroupInfo_keeps {P : List (List GroupText) → PttInfo → List (ℕ × GroupInfo) → Prop}
    (hrule : LoadRule P)
    (hreport : ∀ info xs groups, P [] info xs →
      P [] { info with effects := .receiveGroupInfo groups :: info.effects } xs)
    {info info' : PttInfo} {xs : List (ℕ × GroupInfo)} {content : Bytes} (h : info.Groups xs)
    (hsame : P [] info xs)
    (hP : info.transportId = none → ∃ ls, Lines LoadLine ls content ∧ P ls info xs)
    (hrun : loadGroupInfo info content = .ok info') : ∃ ys, info'.Groups ys ∧ P [] info' ys := by
  cases ht : info.transportId with
  | none =>
    obtain ⟨ls, hl, hP⟩ := hP ht
    obtain ⟨info'', ys, hrun', hg, hP', -⟩ := loadGroupInfo_rule hrule hreport h ht hl hP
    rw [hrun] at hrun'
    cases hrun'
    exact ⟨ys, hg, hP'⟩
  | some t =>
    obtain ⟨groups, he⟩ := receiveGroupInfo_ok h
    have hload : loadGroupInfo info content = receiveGroupInfo info := by simp [loadGroupInfo, ht]
    rw [hload, he] at hrun
    cases hrun
    exact ⟨xs, ⟨h.holds, h.bounded⟩, hreport _ _ groups hsame⟩

theorem loadGroupInfo_groups {info info' : PttInfo} {xs : List (ℕ × GroupInfo)} (h : info.Groups xs)
    {content : Bytes} (hrun : loadGroupInfo info content = .ok info') : ∃ ys, info'.Groups ys := by
  obtain ⟨ys, hg, -⟩ := loadGroupInfo_keeps loadRule_true (fun _ _ _ _ => trivial) h trivial
    (fun ht => ((loadGroupInfo_isOk h ht).mp ⟨info', hrun⟩).imp fun _ hl => ⟨hl, trivial⟩) hrun
  exact ⟨ys, hg⟩

end PttTerminal
