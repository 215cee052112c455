import PttTerminal.Decimal
import PttTerminal.MemberInfo

/-!
# Lists of members that are delivered

The server sends the members of several groups in one message, a line for each group. The handler
reads all lines and tells the application once, behind its loop: of the group that was read last.
-/
namespace PttTerminal

open Loops

/-- A member as it stands in a message. -/
structure MemberText where
  number : Bytes
  name : Bytes
  state : ℕ
  deriving Repr, DecidableEq

namespace MemberText

def text (m : MemberText) : Bytes := m.number ++ 44 :: (m.name ++ 44 :: decimal m.state)

/-- What the application has to be told about the member. -/
def entry (m : MemberText) : MemberEntry := ⟨m.number, m.name, m.state⟩

/-- The texts hold no delimiter and fit, and so does the state. -/
structure WellFormed (m : MemberText) : Prop where
  numberFree : Free [40, 41, 44, 59, CR, LF, 0] m.number
  nameFree : Free [40, 41, 44, 59, CR, LF, 0] m.name
  numberFits : m.number.length ≤ 31
  nameFits : m.name.length ≤ 31
  stateFits : m.state < 2 ^ 31

instance (m : MemberText) : Decidable m.WellFormed :=
  decidable_of_iff (Free [40, 41, 44, 59, CR, LF, 0] m.number ∧
    Free [40, 41, 44, 59, CR, LF, 0] m.name ∧
      m.number.length ≤ 31 ∧ m.name.length ≤ 31 ∧ m.state < 2 ^ 31)
    ⟨fun ⟨h₁, h₂, h₃, h₄, h₅⟩ => ⟨h₁, h₂, h₃, h₄, h₅⟩,
      fun ⟨h₁, h₂, h₃, h₄, h₅⟩ => ⟨h₁, h₂, h₃, h₄, h₅⟩⟩

end MemberText

/-- A group with at least one member. -/
structure MemberGroup where
  number : Bytes
  first : MemberText
  more : List MemberText
  deriving Repr, DecidableEq

namespace MemberGroup

def members (g : MemberGroup) : List MemberText := g.first :: g.more

/-- The members behind the first one, each after a semicolon, and the closing bracket. -/
def moreText (ms : List MemberText) (m : Bytes) : Bytes :=
  ms.foldr (fun e r => 59 :: (e.text ++ r)) (41 :: m)

/-- The line of a group, and what follows. -/
def line (g : MemberGroup) (m : Bytes) : Bytes :=
  g.number ++ 40 :: (g.first.text ++ moreText g.more (CR :: LF :: m))

def entries (g : MemberGroup) : List MemberEntry := g.members.map MemberText.entry

structure WellFormed (g : MemberGroup) : Prop where
  numberFree : Free [40, 41, 44, 59, CR, LF, 0] g.number
  numberFits : g.number.length ≤ 31
  members : ∀ m ∈ g.members, m.WellFormed

instance (g : MemberGroup) : Decidable g.WellFormed :=
  decidable_of_iff (Free [40, 41, 44, 59, CR, LF, 0] g.number ∧ g.number.length ≤ 31 ∧
      ∀ m ∈ g.members, m.WellFormed)
    ⟨fun ⟨h₁, h₂, h₃⟩ => ⟨h₁, h₂, h₃⟩, fun ⟨h₁, h₂, h₃⟩ => ⟨h₁, h₂, h₃⟩⟩

end MemberGroup

/-- The lines of the groups. -/
def memberText (gs : List MemberGroup) : Bytes := gs.foldr MemberGroup.line []

/-- The application is told each group with its members, once and in their order. -/
def MembersDelivered (info : PttInfo) (gs : List MemberGroup) : Prop :=
  doReceiveMemberInfo info (memberText gs) = .ok { info with
    effects := (gs.map fun g => .receiveMemberInfo g.number g.entries).reverse ++ info.effects }

section
variable {m : MemberText} {g : MemberGroup} {r : Bytes}

theorem MemberText.WellFormed.member (h : m.WellFormed) (hr : ∀ c ∈ r.head?, c ∈ [59, 41]) :
    Member m.entry (m.text ++ r) r := by
  refine ⟨m.number, m.name, decimal m.state, ?_, h.numberFree.mono (by decide),
    h.nameFree.mono (by decide), decimal_free (by decide) _, ?_, hr, ?_⟩
  · simp [MemberText.text]
  · exact List.append_ne_nil_of_left_ne_nil (decimal_ne_nil _) _
  · rw [pjStrtoul_decimal, jint_ofNat h.stateFits, cString_eq_self (h.numberFree.notMem (by simp)),
      cString_eq_self (h.nameFree.notMem (by simp))]
    rfl

theorem moreText_head (ms : List MemberText) (r : Bytes) :
    ∀ c ∈ (MemberGroup.moreText ms r).head?, c ∈ [59, 41] := by
  cases ms <;> simp [MemberGroup.moreText]

theorem members_moreText {ms : List MemberText} (h : ∀ m ∈ ms, m.WellFormed) (r : Bytes) :
    Members (ms.map MemberText.entry) (MemberGroup.moreText ms r) (41 :: r) := by
  induction ms with
  | nil => exact .stop
  | cons m ms ih =>
    refine .more (by decide) (by decide) ((h m (by simp)).member (moreText_head ms r)) ?_
    exact ih fun m' hm' => h m' (by simp [hm'])

/-- The line is read as the group it was written for. -/
theorem MemberGroup.WellFormed.memberLine (h : g.WellFormed) (r : Bytes) :
    MemberLine g.number g.entries (g.line r) r := by
  refine ⟨g.first.entry, g.more.map MemberText.entry, _, _, CR, LF :: r, rfl, rfl,
    h.numberFree.mono (by decide), (h.members g.first (by simp [MemberGroup.members])).member
      (moreText_head _ _),
        members_moreText (fun m hm => h.members m (by simp [MemberGroup.members, hm]))
      _, by decide, ?_⟩
  simp [Newline]

/-- The variables after the line of a group. -/
def MemberVars.readGroup (x : MemberVars) (g : MemberGroup) : MemberVars :=
  { x with
    groupNum := strncpy x.groupNum g.number
    memberList := some g.entries
    tmpPools := x.tmpPools + 1 }

theorem tmpPools_readGroup (gs : List MemberGroup) (x : MemberVars) :
    (gs.foldl MemberVars.readGroup x).tmpPools = x.tmpPools + gs.length := by
  induction gs generalizing x with
  | nil => rfl
  | cons g gs ih =>
    rw [List.foldl_cons, ih, List.length_cons]
    simp only [MemberVars.readGroup]
    omega

theorem memberLoop_eq {gs : List MemberGroup} (h : ∀ g ∈ gs, g.WellFormed) (x : MemberVars) :
    Completes memberBody (x, memberText gs) (gs.foldl MemberVars.readGroup x) := by
  induction gs generalizing x with
  | nil => exact .exit (memberBody_exit.mpr ⟨rfl, rfl⟩)
  | cons g gs ih =>
    refine .next (memberBody_next.mpr ⟨g.number, g.entries, memberText gs, ?_, rfl⟩) ?_
    · exact (h g (by simp)).memberLine _
    · exact ih (fun g' hg' => h g' (by simp [hg'])) _

/-- One group is told, whose members were read last; one pool is released. -/
theorem doReceiveMemberInfo_groups (info : PttInfo) {gs : List MemberGroup} (hne : gs ≠ [])
    (h : ∀ g ∈ gs, g.WellFormed) : doReceiveMemberInfo info (memberText gs) = .ok { info with
      effects := .receiveMemberInfo (cString (gs.foldl MemberVars.readGroup {}).groupNum)
        (gs.getLast hne).entries :: info.effects
      tmpPools := info.tmpPools + (gs.length - 1) } := by
  have hloop : loop .hang memberBody ((memberText gs).length + 1) ({}, memberText gs) =
      .ok (gs.foldl MemberVars.readGroup {}) :=
    (loop_eq_ok_iff (fun s : MemberVars × Bytes => s.2.length) (fun _ _ => memberBody_progress)
      (Nat.lt_succ_self _)).mpr (memberLoop_eq h {})
  have hlast : (gs.foldl MemberVars.readGroup {}).memberList = some (gs.getLast hne).entries := by
    conv_lhs => rw [← List.dropLast_concat_getLast hne]
    rw [List.foldl_append]
    rfl
  have hpools : (gs.foldl MemberVars.readGroup {}).tmpPools = gs.length := by
    rw [tmpPools_readGroup]
    exact Nat.zero_add _
  simp only [doReceiveMemberInfo, hloop, ok_bind, receiveMemberInfo, hlast, hpools, pure,
    Except.pure]

end

/-- A message of well-formed lines is delivered exactly when it has one line. -/
theorem memberInfo_delivered_iff (info : PttInfo) (gs : List MemberGroup) (hne : gs ≠ [])
    (h : ∀ g ∈ gs, g.WellFormed) : MembersDelivered info gs ↔ gs.length = 1 := by
  unfold MembersDelivered
  rw [doReceiveMemberInfo_groups info hne h, Except.ok.injEq]
  constructor
  · intro he
    have hlen := congrArg (fun i : PttInfo => i.effects.length) he
    simp only [List.length_cons, List.length_append, List.length_reverse, List.length_map] at hlen
    omega
  · intro hlen
    obtain ⟨g, rfl⟩ := List.length_eq_one_iff.mp hlen
    have hnum : cString (strncpy (List.replicate 32 0) g.number) = g.number := by
      rw [cString_strncpy_zeros]
      exact cString_eq_self ((h g (by simp)).numberFree.notMem (by simp))
    simp only [List.foldl_cons, List.foldl_nil, MemberVars.readGroup, hnum, List.getLast_singleton,
      List.map_cons, List.map_nil, List.reverse_singleton, List.singleton_append, List.length_cons,
      List.length_nil, Nat.reduceAdd, Nat.sub_self, Nat.add_zero]

/-- A group of two members. -/
theorem memberInfo_delivered : MembersDelivered (PttInfo.initial fun _ _ => true)
    [⟨ascii "8001", ⟨ascii "101", ascii "Ann", 1⟩, [⟨ascii "102", ascii "Bob", 0⟩]⟩] :=
  (memberInfo_delivered_iff _ _ (by decide) (by decide)).mpr (by decide)

/-- Two groups of one member each: only the second is delivered. -/
theorem first_group_not_delivered :
    let gs : List MemberGroup := [⟨ascii "8001", ⟨ascii "101", ascii "Ann", 1⟩, []⟩,
      ⟨ascii "8002", ⟨ascii "102", ascii "Bob", 0⟩, []⟩]
    (∀ g ∈ gs, g.WellFormed) ∧ ¬MembersDelivered (PttInfo.initial fun _ _ => true) gs := by
  refine ⟨by decide, fun hd => ?_⟩
  unfold MembersDelivered at hd
  rw [doReceiveMemberInfo_groups _ (by decide) (by decide), Except.ok.injEq] at hd
  have hlen := congrArg (fun i : PttInfo => i.effects.length) hd
  simp [PttInfo.initial] at hlen

end PttTerminal
