import PttTerminal.GroupStore

/-!
# The members of a group

A list of members stands in brackets behind the number of their group. The list is made anew for
each group of the message, so that the application is told about the last group only.
-/
namespace PttTerminal

open Loops

def pttMemberInfoParse : Scan MemberEntry := do
  let number ← getField 44
  let name ← getField 44
  let out ← pjScanGetUntilChr [59, 41]
  pure ⟨cString number, cString name, jint (pjStrtoul out)⟩

/-- One more member, unless the closing bracket is reached. -/
def moreMembersBody (s : List MemberEntry × Bytes) :
    Except Fault (Ctl (List MemberEntry × Bytes) (List MemberEntry × Bytes)) := do
  let (members, r) := s
  let (ichar, r) ← curChar r
  if ichar ≠ 41 then
    let (_, r) ← pjScanGetChar r
    let (m, r) ← pttMemberInfoParse r
    return .next (members ++ [m], r)
  else return .exit s

/-- The array with the number of the group, the list once it is initialised, and how many pools were
created, the last of which is `tmp_pool`. -/
structure MemberVars where
  groupNum : Bytes := List.replicate 32 0
  memberList : Option (List MemberEntry) := none
  tmpPools : ℕ := 0

def memberBody (s : MemberVars × Bytes) : Except Fault (Ctl (MemberVars × Bytes) MemberVars) := do
  let (x, r) := s
  if r.isEmpty then return .exit x
  let (out, r) ← pjScanGetUntilCh 40 r
  let (_, r) ← pjScanGetChar r
  let (m, r) ← pttMemberInfoParse r
  let (members, r) ← loop .hang moreMembersBody (r.length + 1) ([m], r)
  let (_, r) ← pjScanGetChar r
  let (ichar, r) ← pjScanGetChar r
  let x := { x with
    groupNum := strncpy x.groupNum out
    memberList := some members
    tmpPools := x.tmpPools + 1 }
  if ichar = CR ∨ ichar = LF then
    let (_, r) ← pjScanGetNewline r
    return .next (x, r)
  else return .next (x, r)

/-- Without any group the list is not initialised, and its size is asked for all the same. -/
def receiveMemberInfo (info : PttInfo) (x : MemberVars) : Except Fault PttInfo :=
  match x.memberList with
  | none => .error .nullPointer
  | some members =>
    .ok { info with effects := .receiveMemberInfo (cString x.groupNum) members :: info.effects }

/-- Of the pools, `tmp_pool` is released. -/
def doReceiveMemberInfo (info : PttInfo) (msgContent : Bytes) : Except Fault PttInfo := do
  let x ← loop .hang memberBody (msgContent.length + 1) ({}, msgContent)
  let info ← receiveMemberInfo info x
  return { info with tmpPools := info.tmpPools + (x.tmpPools - 1) }

/-! ### The texts that are read -/

/-- Number, name and state of a member, and then `m`. -/
def Member (e : MemberEntry) (r m : Bytes) : Prop :=
  ∃ number name state, r = number ++ 44 :: (name ++ 44 :: (state ++ m)) ∧ Free [44] number ∧
    Free [44] name ∧ Free [59, 41] state ∧ state ++ m ≠ [] ∧ (∀ c ∈ m.head?, c ∈ [59, 41]) ∧
    e = ⟨cString number, cString name, jint (pjStrtoul state)⟩

/-- The members up to the closing bracket; the byte in front of each is not looked at. -/
inductive Members : List MemberEntry → Bytes → Bytes → Prop
  | stop {m} : Members [] (41 :: m) (41 :: m)
  | more {e es c r m k} : c ≠ 41 → c ≠ 0 → Member e r m → Members es m k →
      Members (e :: es) (c :: r) k

/-- The members of one group. The text goes on behind the bracket with a line end, of which the
first byte is read on its own, or with any other byte. -/
def MemberLine (num : Bytes) (es : List MemberEntry) (r m : Bytes) : Prop :=
  ∃ e es' x y c k, es = e :: es' ∧ r = num ++ 40 :: x ∧ Free [40] num ∧ Member e x y ∧
    Members es' y (41 :: c :: k) ∧ c ≠ 0 ∧ if c = CR ∨ c = LF then Newline k m else m = k

inductive MemberLines : Bytes → Prop
  | nil : MemberLines []
  | cons {num es r m} : MemberLine num es r m → MemberLines m → MemberLines r

theorem pttMemberInfoParse_eq_ok {r m : Bytes} {e : MemberEntry} :
    pttMemberInfoParse r = .ok (e, m) ↔ Member e r m := by
  simp only [pttMemberInfoParse, Scan.bind_eq_ok, getField_eq_ok (show (44 : UInt8) ≠ 0 by decide),
    pjScanGetUntilChr_eq_ok]
  constructor
  · rintro ⟨number, _, ⟨rfl, hnum⟩, name, _, ⟨rfl, hname⟩, state, k, ⟨hne, rfl, hfree, hstop⟩, h⟩
    cases h
    exact ⟨number, name, state, rfl, hnum, hname, hfree, hne, hstop, rfl⟩
  · rintro ⟨number, name, state, rfl, hnum, hname, hfree, hne, hstop, rfl⟩
    exact ⟨number, _, ⟨rfl, hnum⟩, name, _, ⟨rfl, hname⟩, state, m, ⟨hne, rfl, hfree, hstop⟩, rfl⟩

theorem Member.length_lt {e : MemberEntry} {r m : Bytes} (h : Member e r m) :
    m.length < r.length := by
  obtain ⟨number, name, state, rfl, -⟩ := h
  simp only [List.length_append, List.length_cons]
  omega

/-! ### What the loops read -/

section items

variable {α : Type} {item : α → Bytes → Bytes → Prop} {parse : Scan α}

/-- One more item that `parse` reads, unless the closing bracket is reached. -/
def moreBody (parse : Scan α) (s : List α × Bytes) :
    Except Fault (Ctl (List α × Bytes) (List α × Bytes)) := do
  let (items, r) := s
  let (ichar, r) ← curChar r
  if ichar ≠ 41 then
    let (_, r) ← pjScanGetChar r
    let (a, r) ← parse r
    return .next (items ++ [a], r)
  else return .exit s

/-- The items up to the closing bracket; the byte in front of each is not looked at. -/
inductive Items (item : α → Bytes → Bytes → Prop) : List α → Bytes → Bytes → Prop
  | stop {m} : Items item [] (41 :: m) (41 :: m)
  | more {a as c r m k} : c ≠ 41 → c ≠ 0 → item a r m → Items item as m k →
      Items item (a :: as) (c :: r) k

theorem Items.length_le (hshort : ∀ {a r m}, item a r m → m.length < r.length) {as : List α}
    {r m : Bytes} (h : Items item as r m) : m.length ≤ r.length := by
  induction h with
  | stop => exact le_rfl
  | more _ _ ha _ ih =>
    have := hshort ha
    simp only [List.length_cons]
    omega

theorem Items.bracket {as : List α} {r m : Bytes} (h : Items item as r m) : ∃ k, m = 41 :: k := by
  induction h with
  | stop => exact ⟨_, rfl⟩
  | more _ _ _ _ ih => exact ih

theorem moreBody_next (hitem : ∀ {a r m}, parse r = .ok (a, m) ↔ item a r m) {as : List α}
    {r : Bytes} {t : List α × Bytes} : moreBody parse (as, r) = .ok (.next t) ↔
      ∃ c r' a m, r = c :: r' ∧ c ≠ 41 ∧ c ≠ 0 ∧ item a r' m ∧ t = (as ++ [a], m) := by
  cases r with
  | nil => simp [moreBody, curChar, pjScanGetChar, bind, Except.bind]
  | cons c r =>
    by_cases hc : c = 41
    · simp [moreBody, curChar, hc, bind, Except.bind, pure, Except.pure]
    · simp only [moreBody, curChar, List.headD_cons, ok_bind, ne_eq, hc, not_false_eq_true,
        if_true, bind_eq_ok, Prod.exists, pjScanGetChar_eq_ok, hitem, pure, Except.pure,
        Except.ok.injEq, Ctl.next.injEq, List.cons.injEq]
      constructor
      · rintro ⟨_, _, ⟨⟨rfl, rfl⟩, h0⟩, a, m, ha, rfl⟩
        exact ⟨c, r, a, m, ⟨rfl, rfl⟩, hc, h0, ha, rfl⟩
      · rintro ⟨_, _, a, m, ⟨rfl, rfl⟩, -, h0, ha, rfl⟩
        exact ⟨c, r, ⟨⟨rfl, rfl⟩, h0⟩, a, m, ha, rfl⟩

theorem moreBody_exit {as : List α} {r : Bytes} {t : List α × Bytes} :
    moreBody parse (as, r) = .ok (.exit t) ↔ r.head? = some 41 ∧ t = (as, r) := by
  cases r with
  | nil => simp [moreBody, curChar, pjScanGetChar, bind, Except.bind]
  | cons c r =>
    by_cases hc : c = 41
    · simp [moreBody, curChar, hc, bind, Except.bind, pure, Except.pure, eq_comm]
    · simp only [moreBody, curChar, List.headD_cons, ok_bind, ne_eq, hc, not_false_eq_true,
        if_true, bind_eq_ok, pure, Except.pure, Except.ok.injEq, reduceCtorEq, and_false,
        exists_false, List.head?_cons, Option.some.injEq, false_and]

theorem more_complete (hitem : ∀ {a r m}, parse r = .ok (a, m) ↔ item a r m) {r m : Bytes}
    {l l' : List α} : Completes (moreBody parse) (l, r) (l', m) ↔
      ∃ new, l' = l ++ new ∧ Items item new r m := by
  constructor
  · intro h
    generalize hs : (l, r) = s at h
    generalize ht : (l', m) = t at h
    induction h generalizing l r with
    | exit hb =>
      subst hs ht
      obtain ⟨hr, heq⟩ := moreBody_exit.mp hb
      cases heq
      obtain ⟨r', rfl⟩ : ∃ r', m = 41 :: r' := by
        cases m with
        | nil => simp at hr
        | cons c m => exact ⟨m, by rw [Option.some.inj hr]⟩
      exact ⟨[], by simp, .stop⟩
    | next hb _ ih =>
      subst hs
      obtain ⟨c, r', a, k, rfl, hc, h0, ha, rfl⟩ := (moreBody_next hitem).mp hb
      obtain ⟨new, rfl, hnew⟩ := ih rfl ht
      exact ⟨a :: new, by simp, .more hc h0 ha hnew⟩
  · rintro ⟨new, rfl, hnew⟩
    induction hnew generalizing l with
    | stop => exact .exit (moreBody_exit.mpr ⟨rfl, by simp⟩)
    | @more a _ c r m k hc h0 ha _ ih =>
      refine .next ((moreBody_next hitem).mpr ⟨c, r, a, m, rfl, hc, h0, ha, rfl⟩) ?_
      simpa using ih (l := l ++ [a])

/-- The loop reads the items up to the closing bracket. -/
theorem more_eq_ok (hitem : ∀ {a r m}, parse r = .ok (a, m) ↔ item a r m)
    (hshort : ∀ {a r m}, item a r m → m.length < r.length) {r m : Bytes} {as as' : List α} :
    loop .hang (moreBody parse) (r.length + 1) (as, r) = .ok (as', m) ↔
      ∃ new, as' = as ++ new ∧ Items item new r m := by
  have hprogress : ∀ s t, moreBody parse s = .ok (.next t) → t.2.length < s.2.length := by
    rintro ⟨as, r⟩ t h
    obtain ⟨c, r', a, m, rfl, -, -, ha, rfl⟩ := (moreBody_next hitem).mp h
    have := hshort ha
    simp only [List.length_cons]
    omega
  have hiff : loop .hang (moreBody parse) (r.length + 1) (as, r) = .ok (as', m) ↔
      Completes (moreBody parse) (as, r) (as', m) :=
    loop_eq_ok_iff (fun s : List α × Bytes => s.2.length) hprogress (Nat.lt_succ_self _)
  exact hiff.trans (more_complete hitem)

end items

theorem members_iff {es : List MemberEntry} {r m : Bytes} :
    Items Member es r m ↔ Members es r m := by
  constructor
  · intro h
    induction h with
    | stop => exact .stop
    | more hc h0 he _ ih => exact .more hc h0 he ih
  · intro h
    induction h with
    | stop => exact .stop
    | more hc h0 he _ ih => exact .more hc h0 he ih

theorem MemberLine.length_lt {num : Bytes} {es : List MemberEntry} {r m : Bytes}
    (h : MemberLine num es r m) : m.length < r.length := by
  obtain ⟨e, es', x, y, c, k, -, rfl, -, he, hes, -, hm⟩ := h
  have h₁ := he.length_lt
  have h₂ := (members_iff.mpr hes).length_le Member.length_lt
  simp only [List.length_append, List.length_cons] at *
  split_ifs at hm
  · have := hm.length_lt
    omega
  · subst hm
    omega

theorem moreMembers_eq_ok {r m : Bytes} {es es' : List MemberEntry} :
    loop .hang moreMembersBody (r.length + 1) (es, r) = .ok (es', m) ↔
      ∃ new, es' = es ++ new ∧ Members new r m := by
  simp only [← members_iff]
  exact more_eq_ok pttMemberInfoParse_eq_ok Member.length_lt

/-- The line end behind the bracket. -/
theorem memberEnd_eq_ok {σ ρ : Type} {c : UInt8} {k : Bytes} {x : σ} {t : σ × Bytes} :
    (if c = CR ∨ c = LF then do
        let (_, r) ← pjScanGetNewline k
        return .next (x, r)
      else return .next (x, k) :
        Except Fault (Ctl (σ × Bytes) ρ)) = .ok (.next t) ↔
      ∃ m, (if c = CR ∨ c = LF then Newline k m else m = k) ∧ t = (x, m) := by
  split_ifs
  · simp only [bind_eq_ok, Prod.exists, pure, Except.pure, Except.ok.injEq, Ctl.next.injEq]
    constructor
    · rintro ⟨⟨⟩, m, hm, rfl⟩
      exact ⟨m, pjScanGetNewline_eq_ok.mp hm, rfl⟩
    · rintro ⟨m, hm, rfl⟩
      exact ⟨(), m, pjScanGetNewline_eq_ok.mpr hm, rfl⟩
  · simp [pure, Except.pure, eq_comm]

theorem memberBody_next {x : MemberVars} {r : Bytes} {t : MemberVars × Bytes} :
    memberBody (x, r) = .ok (.next t) ↔ ∃ num es m, MemberLine num es r m ∧
      t = ({ x with
        groupNum := strncpy x.groupNum num
        memberList := some es
        tmpPools := x.tmpPools + 1 }, m) := by
  by_cases hr : r = []
  · subst hr
    simp only [memberBody, List.isEmpty_nil, if_true, pure, Except.pure, Except.ok.injEq,
      reduceCtorEq, false_iff, not_exists, not_and]
    rintro num es m ⟨_, _, _, _, _, _, -, h, -⟩
    simp at h
  · simp only [memberBody, List.isEmpty_iff, hr, if_false, bind_eq_ok, Prod.exists,
      pjScanGetUntilCh_eq_ok, pjScanGetChar_eq_ok, pttMemberInfoParse_eq_ok, moreMembers_eq_ok,
      memberEnd_eq_ok]
    constructor
    · rintro ⟨num, _, ⟨-, rfl, hfree, hhead⟩, a, r', ⟨rfl, -⟩, e, y, he, _, z, ⟨es, rfl, hes⟩, b, _,
        ⟨rfl, -⟩, c, k, ⟨rfl, hc⟩, m, hm, rfl⟩
      obtain rfl : a = 40 := hhead a rfl
      obtain ⟨_, hb⟩ := (members_iff.mpr hes).bracket
      cases hb
      exact ⟨num, e :: es, m, ⟨e, es, r', y, c, k, rfl, rfl, hfree, he, hes, hc, hm⟩, rfl⟩
    · rintro ⟨num, _, m, ⟨e, es, x', y, c, k, rfl, rfl, hfree, he, hes, hc, hm⟩, rfl⟩
      exact ⟨num, 40 :: x', ⟨hr, rfl, hfree, by simp⟩, 40, x', ⟨rfl, by decide⟩, e, y, he, e :: es,
        _, ⟨es, rfl, hes⟩, 41, _, ⟨rfl, by decide⟩, c, k, ⟨rfl, hc⟩, m, hm, rfl⟩

theorem memberBody_exit {x y : MemberVars} {r : Bytes} :
    memberBody (x, r) = .ok (.exit y) ↔ r = [] ∧ y = x := by
  by_cases hr : r = []
  · simp [memberBody, hr, pure, Except.pure, eq_comm]
  · simp only [memberBody, List.isEmpty_iff, hr, if_false, bind_eq_ok, false_and, iff_false]
    rintro ⟨_, -, _, -, _, -, _, -, _, -, _, -, h⟩
    split_ifs at h
    · obtain ⟨_, -, h⟩ := bind_eq_ok.mp h
      cases h
    · cases h

theorem memberBody_progress {s t : MemberVars × Bytes} (h : memberBody s = .ok (.next t)) :
    t.2.length < s.2.length := by
  obtain ⟨num, es, m, hm, rfl⟩ := memberBody_next.mp h
  exact hm.length_lt

/-- The loop comes to its end on the texts of groups of members, and has initialised the list if
there was a group. -/
theorem memberLoop_complete {x : MemberVars} {r : Bytes} :
    (∃ y, Completes memberBody (x, r) y ∧ y.memberList.isSome) ↔
      MemberLines r ∧ (r = [] → x.memberList.isSome) := by
  constructor
  · rintro ⟨y, h, hy⟩
    generalize hs : (x, r) = s at h
    induction h generalizing x r with
    | exit hb =>
      subst hs
      obtain ⟨rfl, rfl⟩ := memberBody_exit.mp hb
      exact ⟨.nil, fun _ => hy⟩
    | next hb _ ih =>
      subst hs
      obtain ⟨num, es, m, hm, rfl⟩ := memberBody_next.mp hb
      refine ⟨.cons hm (ih hy rfl).1, ?_⟩
      rintro rfl
      exact absurd hm.length_lt (by simp)
  · rintro ⟨hl, hx⟩
    induction hl generalizing x with
    | nil => exact ⟨x, .exit (memberBody_exit.mpr ⟨rfl, rfl⟩), hx rfl⟩
    | cons hm _ ih =>
      obtain ⟨y, hy, hsome⟩ := ih (x := { groupNum := _, memberList := some _, tmpPools := _ })
        fun _ => rfl
      exact ⟨y, .next (memberBody_next.mpr ⟨_, _, _, hm, rfl⟩) hy, hsome⟩

/-- The handler reads exactly the lists of at least one group, each with its line end. -/
theorem doReceiveMemberInfo_isOk {info : PttInfo} {msgContent : Bytes} :
    (∃ info', doReceiveMemberInfo info msgContent = .ok info') ↔
      msgContent ≠ [] ∧ MemberLines msgContent := by
  have hloop : ∀ y, loop .hang memberBody (msgContent.length + 1) ({}, msgContent) = .ok y ↔
      Completes memberBody ({}, msgContent) y := fun y =>
    loop_eq_ok_iff (fun s : MemberVars × Bytes => s.2.length) (fun _ _ => memberBody_progress)
      (Nat.lt_succ_self _)
  have hiff := memberLoop_complete (x := {}) (r := msgContent)
  simp only [Option.isSome_none, Bool.false_eq_true, imp_false] at hiff
  rw [and_comm, ne_eq, ← hiff]
  simp only [doReceiveMemberInfo, bind_eq_ok, hloop]
  constructor
  · rintro ⟨info', y, hy, info₁, h, -⟩
    refine ⟨y, hy, ?_⟩
    cases hm : y.memberList with
    | none => simp [receiveMemberInfo, hm] at h
    | some members => rfl
  · rintro ⟨y, hy, hsome⟩
    obtain ⟨members, hm⟩ := Option.isSome_iff_exists.mp hsome
    exact ⟨_, y, hy, _, by simp only [receiveMemberInfo, hm]; rfl, rfl⟩

/-- Only the pools of messages may be more than before. -/
theorem doReceiveMemberInfo_frame {info info' : PttInfo} {msgContent : Bytes}
    (h : doReceiveMemberInfo info msgContent = .ok info') :
    ∃ effects tmpPools, info' = { info with effects := effects, tmpPools := tmpPools } := by
  simp only [doReceiveMemberInfo, bind_eq_ok] at h
  obtain ⟨x, -, info₁, hx, h⟩ := h
  unfold receiveMemberInfo at hx
  split at hx
  · cases hx
  · cases hx
    cases h
    exact ⟨_, _, rfl⟩

end PttTerminal
