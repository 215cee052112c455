import PttTerminal.Decimal
import PttTerminal.GroupView

/-!
# The order of the members

The members of a group are sorted by the difference of their states. The server may send any state of
32 bits, and a difference of two `int`s that lie far apart has the wrong sign.
-/
namespace PttTerminal

/-- A member with a state that is an `int`. -/
abbrev IntMember := {m : MemberEntry // -2 ^ 31 ≤ m.state ∧ m.state < 2 ^ 31}

namespace IntMember

def compareTo (m another : IntMember) : ℤ := m.1.compareTo another.1

/-- What `Comparable` demands, for the members of an array. -/
structure Consistent (ms : List IntMember) : Prop where
  antisymm : ∀ a ∈ ms, ∀ b ∈ ms, (compareTo a b).sign = -(compareTo b a).sign
  trans : ∀ a ∈ ms, ∀ b ∈ ms, ∀ c ∈ ms, compareTo a b ≤ 0 → compareTo b c ≤ 0 → compareTo a c ≤ 0

/-- The array is in descending order of the states. -/
def Descending (ms : List IntMember) : Prop := ms.Pairwise fun a b => b.1.state ≤ a.1.state

end IntMember

open IntMember

/-- `Arrays.sort` of objects: the array afterwards, and whether it returned. It sorts the arrays for
whose members the comparison is consistent. -/
structure ObjectSort where
  sort : List IntMember → List IntMember × Bool
  sorts : ∀ ms, Consistent ms → (sort ms).2 = true ∧ (sort ms).1.Perm ms ∧
    (sort ms).1.Pairwise fun a b => compareTo a b ≤ 0

/-- A stable sort meets the contract. -/
def ObjectSort.stable : ObjectSort where
  sort ms := ((ms.attach.mergeSort fun a b => compareTo a.1 b.1 ≤ 0).map Subtype.val, true)
  sorts ms h := by
    let le (a b : {a // a ∈ ms}) : Bool := compareTo a.1 b.1 ≤ 0
    have hsorted : (ms.attach.mergeSort le).Pairwise fun a b => le a b = true := by
      refine List.pairwise_mergeSort ?_ ?_ ms.attach
      · intro a b c hab hbc
        exact decide_eq_true (h.trans a.1 a.2 b.1 b.2 c.1 c.2 (of_decide_eq_true hab)
          (of_decide_eq_true hbc))
      · intro a b
        have hsign := h.antisymm a.1 a.2 b.1 b.2
        rw [Bool.or_eq_true, decide_eq_true_eq, decide_eq_true_eq]
        by_contra hno
        obtain ⟨hab, hba⟩ := not_or.mp hno
        rw [Int.sign_eq_one_of_pos (by omega), Int.sign_eq_one_of_pos (by omega)] at hsign
        cases hsign
    refine ⟨rfl, ?_, ?_⟩
    · have hperm := (List.mergeSort_perm ms.attach
        fun a b => decide (compareTo a.1 b.1 ≤ 0)).map Subtype.val
      rwa [List.attach_map_subtype_val] at hperm
    · exact List.pairwise_map.mpr (hsorted.imp of_decide_eq_true)

/-- The comparison is consistent, and the array is sorted in descending order. -/
structure OrdersMembers (S : ObjectSort) (ms : List IntMember) : Prop where
  consistent : Consistent ms
  returns : (S.sort ms).2 = true
  perm : (S.sort ms).1.Perm ms
  descending : Descending (S.sort ms).1

section
variable {a b : IntMember} {ms : List IntMember}

/-- The difference is an `int`, and right but for multiples of 2^32. -/
theorem compareTo_spec (a b : IntMember) :
    (-2 ^ 31 ≤ compareTo a b ∧ compareTo a b < 2 ^ 31) ∧
      compareTo a b % 2 ^ 32 = (b.1.state - a.1.state) % 2 ^ 32 := by
  have hlow : -((2 ^ 32 / 2 : ℕ) : ℤ) ≤ compareTo a b := Int.le_bmod (by decide)
  have hhigh : compareTo a b < ((2 ^ 32 + 1) / 2 : ℕ) := Int.bmod_lt (by decide)
  have hmod : compareTo a b % (2 ^ 32 : ℕ) = (b.1.state - a.1.state) % (2 ^ 32 : ℕ) := Int.bmod_emod
  omega

theorem compareTo_near (hab : b.1.state - a.1.state < 2 ^ 31)
    (hba : a.1.state - b.1.state < 2 ^ 31) :
    compareTo a b = b.1.state - a.1.state := by
  have hspec := compareTo_spec a b
  omega

/-- The members of an array whose states lie close together. -/
theorem consistent_of_near (h : ∀ a ∈ ms, ∀ b ∈ ms, b.1.state - a.1.state < 2 ^ 31) :
    Consistent ms := by
  have hnear : ∀ a ∈ ms, ∀ b ∈ ms, compareTo a b = b.1.state - a.1.state :=
    fun a ha b hb => compareTo_near (h a ha b hb) (h b hb a ha)
  constructor
  · intro a ha b hb
    rw [hnear a ha b hb, hnear b hb a ha, ← Int.sign_neg, neg_sub]
  · intro a ha b hb c hc hab hbc
    rw [hnear a ha b hb] at hab
    rw [hnear b hb c hc] at hbc
    rw [hnear a ha c hc]
    omega

/-- Of two members far apart the comparison says that the lesser one comes first, in both directions
or in one. -/
theorem not_le_of_far (hms : Consistent ms) (ha : a ∈ ms) (hb : b ∈ ms)
    (hfar : 2 ^ 31 ≤ b.1.state - a.1.state) : ¬compareTo b a ≤ 0 := by
  intro hle
  have hspec := compareTo_spec a b
  have hspec' := compareTo_spec b a
  have hrange := a.2
  have hrange' := b.2
  have hneg : compareTo a b < 0 := by omega
  have hneg' : compareTo b a < 0 := by omega
  have hsign := hms.antisymm a ha b hb
  rw [Int.sign_eq_neg_one_of_neg hneg, Int.sign_eq_neg_one_of_neg hneg'] at hsign
  cases hsign

/-- An array is ordered exactly when no two states differ by 2^31 or more. -/
theorem ordersMembers_iff (S : ObjectSort) (ms : List IntMember) :
    OrdersMembers S ms ↔ ∀ a ∈ ms, ∀ b ∈ ms, b.1.state - a.1.state < 2 ^ 31 := by
  constructor
  · intro h a ha b hb
    by_contra hfar
    rw [not_lt] at hfar
    obtain ⟨-, hperm, hsorted⟩ := S.sorts ms h.consistent
    -- the greater one comes first in the sorted array, and is compared so
    let R (a b : IntMember) : Prop := compareTo a b ≤ 0 ∧ b.1.state ≤ a.1.state
    have hpairs : (S.sort ms).1.Pairwise fun a b => R a b ∨ R b a :=
      (hsorted.and h.descending).imp fun h => .inl h
    have : Std.Symm fun a b => R a b ∨ R b a := ⟨fun _ _ => Or.symm⟩
    have hne : b ≠ a := by
      rintro rfl
      omega
    obtain ⟨hle, -⟩ | ⟨-, hle⟩ :=
      hpairs.forall (hperm.mem_iff.mpr hb) (hperm.mem_iff.mpr ha) hne
    · exact not_le_of_far h.consistent ha hb hfar hle
    · omega
  · intro h
    have hms := consistent_of_near h
    obtain ⟨hreturns, hperm, hsorted⟩ := S.sorts ms hms
    refine ⟨hms, hreturns, hperm, hsorted.imp_of_mem fun {a b} ha hb hle => ?_⟩
    have ha := hperm.mem_iff.mp ha
    have hb := hperm.mem_iff.mp hb
    rw [compareTo_near (h a ha b hb) (h b hb a ha)] at hle
    omega

/-- Every `int` is the state of a member that the server can send, and no other number is. -/
theorem received_state_iff {state : ℤ} :
    (∃ text, jint (pjStrtoul text) = state) ↔ -2 ^ 31 ≤ state ∧ state < 2 ^ 31 := by
  constructor
  · rintro ⟨text, rfl⟩
    exact ⟨Int32.le_toInt _, Int32.toInt_lt _⟩
  · rintro ⟨hlow, hhigh⟩
    refine ⟨decimal (state % 2 ^ 32).toNat, ?_⟩
    have hself : state.bmod (2 ^ 32) = state := by apply Int.bmod_eq_of_le <;> omega
    rw [pjStrtoul_decimal, jint, Int32.toInt, UInt32.toBitVec_toInt32, UInt32.toBitVec_ofNat',
      BitVec.toInt_ofNat', Int.toNat_of_nonneg (Int.emod_nonneg _ (by decide))]
    exact (Int.emod_bmod ..).trans hself

/-- The states 0 and 2147483648. -/
def farMembers : List IntMember :=
  [⟨⟨ascii "101", ascii "Ann", 0⟩, by decide⟩, ⟨⟨ascii "102", ascii "Bob", -2147483648⟩, by decide⟩]

/-- Each of the two members comes before the other one. -/
theorem far_members_not_ordered : jint (pjStrtoul (ascii "2147483648")) = -2147483648 ∧
    ¬OrdersMembers ObjectSort.stable farMembers := by
  refine ⟨by decide +kernel, fun h => ?_⟩
  have hsign := h.consistent.antisymm _ List.mem_cons_self _ (List.mem_cons_of_mem _ List.mem_cons_self)
  exact absurd hsign (by decide)

end

end PttTerminal
