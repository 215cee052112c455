import Mathlib.Logic.Relation
import PttTerminal.Library.Checked
import PttTerminal.MemberInfo

/-!
# The members of a group, copied into arrays

The number of each group is copied when it is read, and the names and numbers of the last list of
members when it is handed over, each into an array of 32 bytes.
-/
namespace PttTerminal

open Loops
open Checked (Stop lift check InRoom inRoom_lift inRoom_ok inRoom_check inRoom_lift_bind
  inRoom_check_bind lift_eq_ok check_eq_ok)

/-- The fields of a member as they stand in the message. -/
structure MemberFields where
  number : Bytes
  name : Bytes
  state : Bytes
  deriving Repr, DecidableEq

def MemberFields.entry (f : MemberFields) : MemberEntry :=
  ⟨cString f.number, cString f.name, jint (pjStrtoul f.state)⟩

def memberFieldsParse : Scan MemberFields := do
  let number ← getField 44
  let name ← getField 44
  let state ← pjScanGetUntilChr [59, 41]
  pure ⟨number, name, state⟩

def moreFieldsBody : List MemberFields × Bytes →
    Except Fault (Ctl (List MemberFields × Bytes) (List MemberFields × Bytes)) :=
  moreBody memberFieldsParse

structure MemberCopyVars where
  groupNum : Bytes := List.replicate 32 0
  memberList : Option (List MemberFields) := none
  tmpPools : ℕ := 0

def MemberCopyVars.vars (x : MemberCopyVars) : MemberVars where
  groupNum := x.groupNum
  memberList := x.memberList.map (List.map MemberFields.entry)
  tmpPools := x.tmpPools

/-- What follows the members of a group. -/
def memberLineEnd (x : MemberCopyVars) (r : Bytes) :
    Except Fault (Ctl (MemberCopyVars × Bytes) MemberCopyVars) := do
  let (_, r) ← pjScanGetChar r
  let (ichar, r) ← pjScanGetChar r
  if ichar = CR ∨ ichar = LF then
    let (_, r) ← pjScanGetNewline r
    return .next (x, r)
  else return .next (x, r)

def memberCopyBody (s : MemberCopyVars × Bytes) :
    Except (Stop Fault) (Ctl (MemberCopyVars × Bytes) MemberCopyVars) := do
  let (x, r) := s
  if r.isEmpty then return .exit x
  let (out, r) ← lift (pjScanGetUntilCh 40 r)
  check (out.length < 32)
  let (_, r) ← lift (pjScanGetChar r)
  let (m, r) ← lift (memberFieldsParse r)
  let (members, r) ← lift (loop .hang moreFieldsBody (r.length + 1) ([m], r))
  let x := { x with
    groupNum := strncpy x.groupNum out
    memberList := some members
    tmpPools := x.tmpPools + 1 }
  lift (memberLineEnd x r)

/-- The name and the number of a member are copied into arrays of their own. -/
def MemberFields.Short (f : MemberFields) : Prop := f.name.length < 32 ∧ f.number.length < 32

instance MemberFields.decidableShort (f : MemberFields) : Decidable f.Short :=
  inferInstanceAs (Decidable (f.name.length < 32 ∧ f.number.length < 32))

def doReceiveMemberInfoCopy (info : PttInfo) (msgContent : Bytes) :
    Except (Stop Fault) PttInfo := do
  let x ← loop (.fault .hang) memberCopyBody (msgContent.length + 1) ({}, msgContent)
  check (∀ f ∈ x.memberList.getD [], f.Short)
  let info ← lift (receiveMemberInfo info x.vars)
  return { info with tmpPools := info.tmpPools + (x.tmpPools - 1) }

/-! ### The texts that are read -/

/-- The fields of a member, and then `m`. -/
structure FieldsText (f : MemberFields) (r m : Bytes) : Prop where
  eq : r = f.number ++ 44 :: (f.name ++ 44 :: (f.state ++ m))
  number : Free [44] f.number
  name : Free [44] f.name
  state : Free [59, 41] f.state
  more : f.state ++ m ≠ []
  stop : ∀ c ∈ m.head?, c ∈ [59, 41]

/-- The members of one group, behind its number. -/
def FieldsLine (num : Bytes) (fs : List MemberFields) (r m : Bytes) : Prop :=
  ∃ f fs' x y c k, fs = f :: fs' ∧ r = num ++ 40 :: x ∧ Free [40] num ∧ FieldsText f x y ∧
    Items FieldsText fs' y (41 :: c :: k) ∧ c ≠ 0 ∧ if c = CR ∨ c = LF then Newline k m else m = k

/-- One group is read from `r`, and then `m` is left. -/
def NextLine (r m : Bytes) : Prop := ∃ num fs, FieldsLine num fs r m

/-- Each number that the handler comes to fits, and the members of the last group fit. -/
structure MembersFit (r : Bytes) : Prop where
  groupNum : ∀ m, Relation.ReflTransGen NextLine r m → (m.takeWhile (· ≠ 40)).length < 32
  members : ∀ m num fs, Relation.ReflTransGen NextLine r m → FieldsLine num fs m [] →
    ∀ f ∈ fs, f.Short

theorem memberFieldsParse_eq_ok {r m : Bytes} {f : MemberFields} :
    memberFieldsParse r = .ok (f, m) ↔ FieldsText f r m := by
  simp only [memberFieldsParse, Scan.bind_eq_ok, getField_eq_ok (show (44 : UInt8) ≠ 0 by decide),
    pjScanGetUntilChr_eq_ok]
  constructor
  · rintro ⟨number, _, ⟨rfl, hnum⟩, name, _, ⟨rfl, hname⟩, state, k, ⟨hne, rfl, hfree, hstop⟩, h⟩
    cases h
    exact ⟨rfl, hnum, hname, hfree, hne, hstop⟩
  · rintro ⟨rfl, hnum, hname, hfree, hne, hstop⟩
    exact ⟨f.number, _, ⟨rfl, hnum⟩, f.name, _, ⟨rfl, hname⟩, f.state, m,
      ⟨hne, rfl, hfree, hstop⟩, rfl⟩

theorem FieldsText.member {f : MemberFields} {r m : Bytes} (h : FieldsText f r m) :
    Member f.entry r m :=
  ⟨f.number, f.name, f.state, h.eq, h.number, h.name, h.state, h.more, h.stop, rfl⟩

theorem FieldsText.length_lt {f : MemberFields} {r m : Bytes} (h : FieldsText f r m) :
    m.length < r.length :=
  h.member.length_lt

theorem Items.members {fs : List MemberFields} {r m : Bytes} (h : Items FieldsText fs r m) :
    Members (fs.map MemberFields.entry) r m := by
  induction h with
  | stop => exact .stop
  | more hc h0 hf _ ih => exact .more hc h0 hf.member ih

theorem FieldsLine.memberLine {num : Bytes} {fs : List MemberFields} {r m : Bytes}
    (h : FieldsLine num fs r m) : MemberLine num (fs.map MemberFields.entry) r m := by
  obtain ⟨f, fs', x, y, c, k, rfl, hr, hfree, hf, hfs, hc, hm⟩ := h
  exact ⟨f.entry, fs'.map MemberFields.entry, x, y, c, k, rfl, hr, hfree, hf.member, hfs.members,
    hc, hm⟩

/-! Every line of members is a line of their fields. -/

theorem Member.fields {e : MemberEntry} {r m : Bytes} (h : Member e r m) :
    ∃ f, FieldsText f r m := by
  obtain ⟨number, name, state, hr, hnumber, hname, hstate, hmore, hstop, -⟩ := h
  exact ⟨⟨number, name, state⟩, hr, hnumber, hname, hstate, hmore, hstop⟩

theorem Members.fields {es : List MemberEntry} {r m : Bytes} (h : Members es r m) :
    ∃ fs, Items FieldsText fs r m := by
  induction h with
  | stop => exact ⟨[], .stop⟩
  | more hc h0 he _ ih =>
    obtain ⟨f, hf⟩ := he.fields
    obtain ⟨fs, hfs⟩ := ih
    exact ⟨f :: fs, .more hc h0 hf hfs⟩

theorem MemberLine.nextLine {num : Bytes} {es : List MemberEntry} {r m : Bytes}
    (h : MemberLine num es r m) : NextLine r m := by
  obtain ⟨e, es', x, y, c, k, -, hr, hfree, he, hes, hc, hm⟩ := h
  obtain ⟨f, hf⟩ := he.fields
  obtain ⟨fs, hfs⟩ := hes.fields
  exact ⟨num, f :: fs, f, fs, x, y, c, k, rfl, hr, hfree, hf, hfs, hc, hm⟩

theorem MemberLines.chain {r : Bytes} (h : MemberLines r) :
    Relation.ReflTransGen NextLine r [] := by
  induction h with
  | nil => exact .refl
  | cons hline _ ih => exact .head hline.nextLine ih

theorem FieldsLine.takeWhile {num : Bytes} {fs : List MemberFields} {r m : Bytes}
    (h : FieldsLine num fs r m) : r.takeWhile (· ≠ 40) = num := by
  obtain ⟨f, fs', x, y, c, k, -, rfl, hfree, -⟩ := h
  have hnum : ∀ a ∈ num, decide (a ≠ 40) = true := fun a ha => by simpa using hfree a ha
  rw [List.takeWhile_append_of_pos hnum]
  simp

/-! ### What the loop comes to -/

section loops

variable {x y : MemberCopyVars} {r m : Bytes} {info info' : PttInfo}

theorem moreFields_eq_ok {fs fs' : List MemberFields} :
    loop .hang moreFieldsBody (r.length + 1) (fs, r) = .ok (fs', m) ↔
      ∃ new, fs' = fs ++ new ∧ Items FieldsText new r m :=
  more_eq_ok memberFieldsParse_eq_ok FieldsText.length_lt

theorem scanUntil_cons {stop : UInt8 → Bool} (hr : r ≠ []) :
    scanUntil stop r = .ok (r.takeWhile (! stop ·), r.dropWhile (! stop ·)) := if_neg hr

/-- One iteration copies the number of the group only. -/
theorem memberCopyBody_inRoom :
    InRoom (memberCopyBody (x, r)) ↔ (r.takeWhile (· ≠ 40)).length < 32 := by
  by_cases hr : r = []
  · subst hr
    simp [memberCopyBody, pure, Except.pure]
  · have hscan : pjScanGetUntilCh 40 r =
        .ok (r.takeWhile (· ≠ 40), r.dropWhile (· ≠ 40)) := by
      rw [pjScanGetUntilCh, scanUntil_cons hr]
      simp
    simp only [memberCopyBody, List.isEmpty_iff, hr, if_false, inRoom_lift_bind, hscan,
      Except.ok.injEq, forall_eq', inRoom_check_bind, inRoom_lift, implies_true, and_true]

theorem memberCopyBody_next {t : MemberCopyVars × Bytes} :
    memberCopyBody (x, r) = .ok (.next t) ↔ ∃ num fs m, FieldsLine num fs r m ∧ num.length < 32 ∧
      t = ({ x with
        groupNum := strncpy x.groupNum num
        memberList := some fs
        tmpPools := x.tmpPools + 1 }, m) := by
  by_cases hr : r = []
  · subst hr
    simp only [memberCopyBody, List.isEmpty_nil, if_true, pure, Except.pure, Except.ok.injEq,
      reduceCtorEq, false_iff, not_exists, not_and]
    rintro num fs m ⟨_, _, _, _, _, _, -, h, -⟩
    simp at h
  · simp only [memberCopyBody, List.isEmpty_iff, hr, if_false, Checked.bind_eq_ok, Prod.exists,
      lift_eq_ok, check_eq_ok, pjScanGetUntilCh_eq_ok, pjScanGetChar_eq_ok,
      memberFieldsParse_eq_ok, moreFields_eq_ok, memberLineEnd, bind_eq_ok, memberEnd_eq_ok]
    constructor
    · rintro ⟨num, _, ⟨-, rfl, hfree, hhead⟩, ⟨⟩, hlen, a, r', ⟨rfl, -⟩, f, y, hf, _, z,
        ⟨fs, rfl, hfs⟩, b, _, ⟨rfl, -⟩, c, k, ⟨rfl, hc⟩, m, hm, rfl⟩
      obtain rfl : a = 40 := hhead a rfl
      obtain ⟨_, hb⟩ := hfs.bracket
      cases hb
      exact ⟨num, f :: fs, m, ⟨f, fs, r', y, c, k, rfl, rfl, hfree, hf, hfs, hc, hm⟩, hlen, rfl⟩
    · rintro ⟨num, _, m, ⟨f, fs, x', y, c, k, rfl, rfl, hfree, hf, hfs, hc, hm⟩, hlen, rfl⟩
      exact ⟨num, 40 :: x', ⟨hr, rfl, hfree, by simp⟩, (), hlen, 40, x', ⟨rfl, by decide⟩, f, y,
        hf, f :: fs, _, ⟨fs, rfl, hfs⟩, 41, _, ⟨rfl, by decide⟩, c, k, ⟨rfl, hc⟩, m, hm, rfl⟩

theorem memberCopyBody_exit : memberCopyBody (x, r) = .ok (.exit y) ↔ r = [] ∧ y = x := by
  by_cases hr : r = []
  · simp [memberCopyBody, hr, pure, Except.pure, eq_comm]
  · simp only [memberCopyBody, List.isEmpty_iff, hr, if_false, Checked.bind_eq_ok, false_and,
      iff_false, lift_eq_ok, memberLineEnd, bind_eq_ok]
    rintro ⟨_, -, _, -, _, -, _, -, _, -, _, -, _, -, h⟩
    split_ifs at h
    · obtain ⟨_, -, h⟩ := bind_eq_ok.mp h
      cases h
    · cases h

theorem memberCopyBody_progress {s t : MemberCopyVars × Bytes}
    (h : memberCopyBody s = .ok (.next t)) : t.2.length < s.2.length := by
  obtain ⟨num, fs, m, hm, -, rfl⟩ := memberCopyBody_next.mp h
  exact hm.memberLine.length_lt

theorem reaches_nextLine {s t : MemberCopyVars × Bytes} (h : Reaches memberCopyBody s t) :
    Relation.ReflTransGen NextLine s.2 t.2 := by
  induction h with
  | refl s => exact .refl
  | @next s t u hb _ ih =>
    obtain ⟨num, fs, m, hm, -, rfl⟩ := memberCopyBody_next.mp hb
    exact .head ⟨num, fs, hm⟩ ih

/-- As long as the numbers fit, the loop comes to every line. -/
theorem nextLine_reaches (hfit : ∀ t, Reaches memberCopyBody (x, r) t → InRoom (memberCopyBody t))
    (h : Relation.ReflTransGen NextLine r m) : ∃ y, Reaches memberCopyBody (x, r) (y, m) := by
  induction h with
  | refl => exact ⟨x, .refl _⟩
  | tail _ hline ih =>
    obtain ⟨y, hy⟩ := ih
    obtain ⟨num, fs, hm⟩ := hline
    have hlen := memberCopyBody_inRoom.mp (hfit _ hy)
    rw [hm.takeWhile] at hlen
    exact ⟨_, hy.trans (.next (memberCopyBody_next.mpr ⟨num, fs, _, hm, hlen, rfl⟩) (.refl _))⟩

/-- The loop is left behind the last line, with its members, or at once. -/
theorem completes_last {s : MemberCopyVars × Bytes} (h : Completes memberCopyBody s y) :
    s.2 = [] ∧ y = s.1 ∨ ∃ m num fs, Relation.ReflTransGen NextLine s.2 m ∧
      FieldsLine num fs m [] ∧ y.memberList = some fs := by
  induction h with
  | exit hb => exact .inl (memberCopyBody_exit.mp hb)
  | next hb _ ih =>
    obtain ⟨num, fs, m, hm, -, rfl⟩ := memberCopyBody_next.mp hb
    obtain ⟨hm', rfl⟩ | ⟨k, num', fs', hk, hlast, hy⟩ := ih
    · dsimp only at hm'
      subst hm'
      exact .inr ⟨_, num, fs, .refl, hm, rfl⟩
    · exact .inr ⟨k, num', fs', .head ⟨num, fs, hm⟩ hk, hlast, hy⟩

theorem memberCopy_eq_ok : loop (.fault .hang) memberCopyBody (r.length + 1) (x, r) = .ok y ↔
    Completes memberCopyBody (x, r) y :=
  loop_eq_ok_iff (fun s : MemberCopyVars × Bytes => s.2.length) (fun _ _ => memberCopyBody_progress)
    (Nat.lt_succ_self _)

/-- A message about members is copied in bounds just when its numbers and its last members fit. -/
theorem memberInfo_inRoom : InRoom (doReceiveMemberInfoCopy info r) ↔ MembersFit r := by
  have hloop : InRoom (loop (.fault .hang) memberCopyBody (r.length + 1) ({}, r)) ↔
      ∀ t, Reaches memberCopyBody ({}, r) t → InRoom (memberCopyBody t) :=
    Checked.inRoom_loop (fun s : MemberCopyVars × Bytes => s.2.length)
      (fun _ _ => memberCopyBody_progress) (Nat.lt_succ_self _)
  simp only [doReceiveMemberInfoCopy, Checked.inRoom_bind, hloop, memberCopy_eq_ok, inRoom_check,
    inRoom_lift, pure, Except.pure, inRoom_ok, implies_true, and_true]
  constructor
  · rintro ⟨hfit, hshort⟩
    refine ⟨fun m hm => ?_, fun m num fs hm hlast => ?_⟩
    · obtain ⟨y, hy⟩ := nextLine_reaches hfit hm
      exact memberCopyBody_inRoom.mp (hfit _ hy)
    · obtain ⟨y, hy⟩ := nextLine_reaches hfit hm
      have hlen := memberCopyBody_inRoom.mp (hfit _ hy)
      rw [hlast.takeWhile] at hlen
      have hend := (memberCopyBody_next (x := y)).mpr ⟨num, fs, [], hlast, hlen, rfl⟩
      exact hshort _ (hy.completes (.next hend (.exit (memberCopyBody_exit.mpr ⟨rfl, rfl⟩))))
  · intro hfit
    refine ⟨fun t ht => ?_, fun y hy => ?_⟩
    · exact memberCopyBody_inRoom.mpr (hfit.groupNum _ (reaches_nextLine ht))
    · obtain ⟨-, rfl⟩ | ⟨m, num, fs, hm, hlast, hy⟩ := completes_last hy
      · simp
      · rw [hy]
        exact hfit.members m num fs hm hlast

theorem memberCopy_plain {s : MemberCopyVars × Bytes} (h : Completes memberCopyBody s y) :
    Completes memberBody (s.1.vars, s.2) y.vars := by
  induction h with
  | @exit s y hb =>
    obtain ⟨hr, rfl⟩ := memberCopyBody_exit.mp hb
    exact .exit (memberBody_exit.mpr ⟨hr, rfl⟩)
  | next hb _ ih =>
    obtain ⟨num, fs, m, hm, -, rfl⟩ := memberCopyBody_next.mp hb
    exact .next (memberBody_next.mpr ⟨num, _, m, hm.memberLine, rfl⟩) ih

/-- In bounds the handler does what it does with arrays that are long enough. -/
theorem memberInfo_plain (h : doReceiveMemberInfoCopy info r = .ok info') :
    doReceiveMemberInfo info r = .ok info' := by
  simp only [doReceiveMemberInfoCopy, Checked.bind_eq_ok, memberCopy_eq_ok, lift_eq_ok] at h
  obtain ⟨y, hy, -, -, info₁, hinfo, h⟩ := h
  have hplain : loop .hang memberBody (r.length + 1) ({}, r) = .ok y.vars :=
    (loop_eq_ok_iff (fun s : MemberVars × Bytes => s.2.length) (fun _ _ => memberBody_progress)
      (Nat.lt_succ_self _)).mpr (memberCopy_plain hy)
  simp only [doReceiveMemberInfo, hplain, ok_bind, hinfo]
  cases h
  rfl

/-- The handler runs to its end on the lists of at least one group that fit. -/
theorem memberInfo_isOk : (∃ info', doReceiveMemberInfoCopy info r = .ok info') ↔
    (r ≠ [] ∧ MemberLines r) ∧ MembersFit r := by
  constructor
  · rintro ⟨info', h⟩
    have hroom : InRoom (doReceiveMemberInfoCopy info r) := by rw [h]; exact inRoom_ok _
    exact ⟨doReceiveMemberInfo_isOk.mp ⟨info', memberInfo_plain h⟩, memberInfo_inRoom.mp hroom⟩
  · rintro ⟨⟨hne, hlines⟩, hfit⟩
    have hbody : ∀ t, Reaches memberCopyBody ({}, r) t → InRoom (memberCopyBody t) := fun t ht =>
      memberCopyBody_inRoom.mpr (hfit.groupNum _ (reaches_nextLine ht))
    obtain ⟨y, hy⟩ := nextLine_reaches hbody hlines.chain
    have hend := hy.completes (.exit (memberCopyBody_exit.mpr ⟨rfl, rfl⟩))
    obtain ⟨hnil, -⟩ | ⟨m, num, fs, hm, hlast, hlist⟩ := completes_last hend
    · exact absurd hnil hne
    · have hshort : ∀ f ∈ y.memberList.getD [], f.Short := by
        rw [hlist]
        exact hfit.members m num fs hm hlast
      have hcheck : (check (∀ f ∈ y.memberList.getD [], f.Short) : Except (Stop Fault) Unit) =
          .ok () := check_eq_ok.mpr hshort
      rw [doReceiveMemberInfoCopy, memberCopy_eq_ok.mpr hend, Checked.ok_bind, hcheck,
        Checked.ok_bind]
      simp only [receiveMemberInfo, MemberCopyVars.vars, hlist]
      exact ⟨_, rfl⟩

end loops

end PttTerminal
