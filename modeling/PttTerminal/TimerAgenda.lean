import PttTerminal.TimerHeap

/-!
# What the heap of the timers holds

Whatever the arrays look like, the heap stands for an agenda: which timers are set, and for when.
`Valid` is the invariant of the arrays under which no access fails, and each operation is given by
what it does to the agenda.
-/
namespace PttTerminal.TimerHeap

open Loops Heaps

theorem ok_bind' {α β : Type} (a : α) (f : α → Except TimerFault β) :
    (.ok a >>= f) = f a := rfl

variable {ht ht' ht'' : TimerHeap} {P : Set ℕ} {n s m e j : ℕ}

/-! ### The checked accesses -/

theorem heapAt_eq (hs : s < ht.maxSize) (he : ht.heap s = some e) : ht.heapAt s = .ok e := by
  simp [heapAt, hs, he]

theorem idAt_eq {i : ℤ} (h0 : 0 ≤ i) (hi : i < ht.maxSize) :
    ht.idAt i = .ok (ht.timerIds i.toNat) := by simp [idAt, h0, hi]

theorem setIdAt_eq (ht : TimerHeap) {i : ℤ} (h0 : 0 ≤ i) (hi : i < ht.maxSize) (v : ℤ) :
    ht.setIdAt i v = .ok { ht with timerIds := Function.update ht.timerIds i.toNat v } := by
  simp [setIdAt, h0, hi]

/-- The heap after `copy_node`. -/
def copied (ht : TimerHeap) (slot e : ℕ) : TimerHeap :=
  { ht with
    heap := Function.update ht.heap slot (some e)
    timerIds := Function.update ht.timerIds (ht.idOf e).toNat slot }

theorem copyNode_eq (hs : s < ht.maxSize) (h0 : 0 ≤ ht.idOf e) (he : ht.idOf e < ht.maxSize) :
    ht.copyNode s e = .ok (ht.copied s e) := by
  unfold copyNode setHeap
  rw [if_pos hs]
  exact setIdAt_eq { ht with heap := Function.update ht.heap s (some e) } h0 he s

theorem copied_timerIds {a : ℕ} (h : (ht.idOf a).toNat ≠ (ht.idOf e).toNat) :
    (ht.copied s e).timerIds ((ht.copied s e).idOf a).toNat = ht.timerIds (ht.idOf a).toNat :=
  Function.update_of_ne h _ _

/-- What the moves of the timers of `P` leave alone. -/
structure Kept (P : Set ℕ) (ht ht' : TimerHeap) : Prop where
  maxSize : ht'.maxSize = ht.maxSize
  curSize : ht'.curSize = ht.curSize
  perPoll : ht'.maxEntriesPerPoll = ht.maxEntriesPerPoll
  freelist : ht'.timerIdsFreelist = ht.timerIdsFreelist
  entries : ht'.entries = ht.entries
  ids : ∀ i : ℕ, (∀ e ∈ P, (ht.idOf e).toNat ≠ i) → ht'.timerIds i = ht.timerIds i

theorem Kept.refl (P : Set ℕ) (ht : TimerHeap) : Kept P ht ht :=
  ⟨rfl, rfl, rfl, rfl, rfl, fun _ _ => rfl⟩

theorem Kept.idOf (h : Kept P ht ht') (e : ℕ) : ht'.idOf e = ht.idOf e := by
  simp [TimerHeap.idOf, h.entries]

theorem Kept.valueOf (h : Kept P ht ht') (e : ℕ) : ht'.valueOf e = ht.valueOf e := by
  simp [TimerHeap.valueOf, h.entries]

theorem Kept.trans (h : Kept P ht ht') (h' : Kept P ht' ht'') : Kept P ht ht'' := by
  refine ⟨h'.maxSize.trans h.maxSize, h'.curSize.trans h.curSize, h'.perPoll.trans h.perPoll,
    h'.freelist.trans h.freelist, h'.entries.trans h.entries, fun i hi => ?_⟩
  rw [h'.ids i fun e he => by rw [h.idOf]; exact hi e he, h.ids i hi]

theorem kept_copied (he : e ∈ P) : Kept P ht (ht.copied s e) :=
  ⟨rfl, rfl, rfl, rfl, rfl, fun i hi => by simp [copied, (hi e he).symm]⟩

/-! ### Timers and slots -/

/-- The timers of `P` stand in the first `n` slots, each in one, and their identifiers lead to
them. -/
structure Holds (ht : TimerHeap) (P : Set ℕ) (n : ℕ) : Prop where
  fits : n ≤ ht.maxSize
  ids : ∀ e ∈ P, 0 < ht.idOf e ∧ ht.idOf e < ht.maxSize
  slot : ∀ i < n, ∃ e ∈ P, ht.heap i = some e ∧ ht.timerIds (ht.idOf e).toNat = i
  place : ∀ e ∈ P, ∃ i < n, ht.heap i = some e

/-- The same while the timer `m` is on its way and slot `s` is free for another one. -/
structure Sifting (ht : TimerHeap) (P : Set ℕ) (n m s : ℕ) : Prop where
  fits : n ≤ ht.maxSize
  ids : ∀ e ∈ P, 0 < ht.idOf e ∧ ht.idOf e < ht.maxSize
  distinct : ∀ e ∈ P, ∀ e' ∈ P, ht.idOf e = ht.idOf e' → e = e'
  mem : m ∈ P
  lt : s < n
  slot : ∀ i < n, i ≠ s → ∃ e ∈ P, e ≠ m ∧ ht.heap i = some e ∧
    ht.timerIds (ht.idOf e).toNat = i
  place : ∀ e ∈ P, e ≠ m → ∃ i < n, i ≠ s ∧ ht.heap i = some e

theorem Holds.distinct (h : ht.Holds P n) :
    ∀ e ∈ P, ∀ e' ∈ P, ht.idOf e = ht.idOf e' → e = e' := by
  intro e he e' he' hid
  obtain ⟨i, hi, hei⟩ := h.place e he
  obtain ⟨i', hi', hei'⟩ := h.place e' he'
  obtain ⟨a, -, ha, hai⟩ := h.slot i hi
  obtain ⟨b, -, hb, hbi⟩ := h.slot i' hi'
  obtain rfl : a = e := by simpa [hei] using ha.symm
  obtain rfl : b = e' := by simpa [hei'] using hb.symm
  rw [hid, hbi] at hai
  have : i' = i := by exact_mod_cast hai
  rw [this] at hei'
  simpa [hei] using hei'

theorem Holds.heapAt (h : ht.Holds P n) (hs : s < n) : ∃ e ∈ P, ht.heapAt s = .ok e ∧
    ht.heap s = some e := by
  obtain ⟨e, he, hse, -⟩ := h.slot s hs
  exact ⟨e, he, heapAt_eq (hs.trans_le h.fits) hse, hse⟩

/-- The time of the timer in a slot, as if `m` stood in slot `s`. -/
def keys (ht : TimerHeap) (m s i : ℕ) : TimeVal :=
  if i = s then ht.valueOf m else (ht.heap i).elim ⟨0, 0⟩ ht.valueOf

/-- The time of the timer in a slot. -/
def slotKey (ht : TimerHeap) (i : ℕ) : TimeVal := (ht.heap i).elim ⟨0, 0⟩ ht.valueOf

theorem keys_self : ht.keys m s s = ht.valueOf m := by simp [keys]

theorem keys_of_ne {i : ℕ} (hi : i ≠ s) (he : ht.heap i = some e) :
    ht.keys m s i = ht.valueOf e := by simp [keys, hi, he]

theorem slotKey_of_some {i : ℕ} (he : ht.heap i = some e) : ht.slotKey i = ht.valueOf e := by
  simp [slotKey, he]

theorem keys_copied (hj : j ≠ s) (he : ht.heap j = some e) :
    (ht.copied s e).keys m j = swapped (ht.keys m s) s j := by
  funext i
  by_cases hij : i = j
  · subst hij
    rw [keys_self, swapped_right, keys_self]
    rfl
  by_cases his : i = s
  · subst his
    rw [swapped_left, keys_of_ne hj he, keys_of_ne hij (e := e) (by simp [copied])]
    rfl
  · rw [swapped_of_ne _ _ _ his hij]
    simp only [keys, hij, his, if_false, copied, Function.update_of_ne his]
    rfl

theorem slotKey_copied (ht : TimerHeap) (s m : ℕ) : (ht.copied s m).slotKey = ht.keys m s := by
  funext i
  by_cases his : i = s
  · subst his
    simp [slotKey, keys, copied, valueOf]
  · simp only [slotKey, keys, his, if_false, copied, Function.update_of_ne his]
    rfl

namespace Sifting

/-- The timer of slot `j` goes to the free slot. -/
theorem move (h : ht.Sifting P n m s) (hj : j < n) (hjs : j ≠ s) (he : ht.heap j = some e) :
    ht.copyNode s e = .ok (ht.copied s e) ∧ (ht.copied s e).Sifting P n m j ∧
      Kept P ht (ht.copied s e) := by
  obtain ⟨e', heP, hem, he', hid⟩ := h.slot j hj hjs
  obtain rfl : e' = e := by simpa [he] using he'.symm
  have hids := h.ids e' heP
  refine ⟨copyNode_eq (h.lt.trans_le h.fits) hids.1.le hids.2, ⟨h.fits, h.ids, h.distinct, h.mem,
    hj, fun i hi hij => ?_, fun a ha ham => ?_⟩, kept_copied heP⟩
  · by_cases his : i = s
    · subst his
      exact ⟨e', heP, hem, by simp [copied], by simp [copied, idOf]⟩
    obtain ⟨a, ha, ham, hai, haid⟩ := h.slot i hi his
    refine ⟨a, ha, ham, by simp [copied, his, hai], ?_⟩
    have hne : (ht.idOf a).toNat ≠ (ht.idOf e').toNat := by
      intro heq
      rw [heq, hid] at haid
      exact hij (by exact_mod_cast haid.symm)
    exact (copied_timerIds hne).trans haid
  · by_cases hae : a = e'
    · subst hae
      exact ⟨s, h.lt, fun h => hjs h.symm, by simp [copied]⟩
    · obtain ⟨i, hi, his, hai⟩ := h.place a ha ham
      refine ⟨i, hi, fun hij => ?_, by simp [copied, his, hai]⟩
      subst hij
      exact hae (by simpa [he] using hai.symm)

/-- The timer on its way may be written to the free slot before it has come to its place. -/
theorem copy_self (h : ht.Sifting P n m s) :
    ht.copyNode s m = .ok (ht.copied s m) ∧ (ht.copied s m).Sifting P n m s ∧
      Kept P ht (ht.copied s m) := by
  have hids := h.ids m h.mem
  refine ⟨copyNode_eq (h.lt.trans_le h.fits) hids.1.le hids.2, ⟨h.fits, h.ids, h.distinct, h.mem,
    h.lt, fun i hi his => ?_, fun a ha ham => ?_⟩, kept_copied h.mem⟩
  · obtain ⟨a, ha, ham, hai, haid⟩ := h.slot i hi his
    refine ⟨a, ha, ham, by simp [copied, his, hai], ?_⟩
    have hne : (ht.idOf a).toNat ≠ (ht.idOf m).toNat := by
      intro heq
      have h1 := h.ids a ha
      exact ham (h.distinct a ha m h.mem (by omega))
    exact (copied_timerIds hne).trans haid
  · obtain ⟨i, hi, his, hai⟩ := h.place a ha ham
    exact ⟨i, hi, his, by simp [copied, his, hai]⟩

/-- The timer on its way is at its place. -/
theorem finish (h : ht.Sifting P n m s) :
    ht.copyNode s m = .ok (ht.copied s m) ∧ (ht.copied s m).Holds P n ∧
      Kept P ht (ht.copied s m) := by
  obtain ⟨hcopy, hsift, hkept⟩ := h.copy_self
  refine ⟨hcopy, ⟨h.fits, h.ids, fun i hi => ?_, fun a ha => ?_⟩, hkept⟩
  · by_cases his : i = s
    · subst his
      exact ⟨m, h.mem, by simp [copied], by simp [copied, idOf]⟩
    · obtain ⟨a, ha, -, hai, haid⟩ := hsift.slot i hi his
      exact ⟨a, ha, hai, haid⟩
  · by_cases ham : a = m
    · subst ham
      exact ⟨s, h.lt, by simp [copied]⟩
    · obtain ⟨i, hi, -, hai⟩ := hsift.place a ha ham
      exact ⟨i, hi, hai⟩

end Sifting

/-! ### Bringing a timer to its place -/

theorem heapParent_eq (x : ℕ) : heapParent x = parent x := rfl
theorem heapLeft_eq (x : ℕ) : heapLeft x = leftChild x := rfl

theorem Sifting.top (h : ht.Sifting P n m s) (hj : j < n) (hjs : j ≠ s) :
    ∃ e ∈ P, ht.heap j = some e ∧ ht.heapAt j = .ok e ∧ ht.keys m s j = ht.valueOf e := by
  obtain ⟨e, he, -, hje, -⟩ := h.slot j hj hjs
  exact ⟨e, he, hje, heapAt_eq (hj.trans_le h.fits) hje, keys_of_ne hjs hje⟩

theorem reheapUp_loop (h : ht.Sifting P n m s) (ho : UpOrdered (ht.keys m s) n s) (fuel : ℕ)
    (hf : s < fuel) : ∃ ht' s', loop .hang (reheapUpBody m) fuel (ht, s, heapParent s) =
      .ok (ht', s') ∧ ht'.Sifting P n m s' ∧ Ordered (ht'.keys m s') n ∧ Kept P ht ht' := by
  induction s using Nat.strong_induction_on generalizing ht fuel with
  | h s ih =>
    obtain ⟨fuel, rfl⟩ : ∃ k, fuel = k + 1 := ⟨fuel - 1, by omega⟩
    rcases Nat.eq_zero_or_pos s with rfl | hs
    · have hbody : reheapUpBody m (ht, 0, heapParent 0) = .ok (.exit (ht, 0)) := rfl
      exact ⟨ht, 0, loop_exit hbody fuel, h, ho.finish fun h => absurd h (by omega), .refl P ht⟩
    have hps : parent s < s := parent_lt hs
    obtain ⟨e, he, hpe, hat, hkey⟩ := h.top (hps.trans h.lt) hps.ne
    by_cases hlt : ht.valueOf m < ht.valueOf e
    · obtain ⟨hcopy, hsift, hkept⟩ := h.move (hps.trans h.lt) hps.ne hpe
      have hbody : reheapUpBody m (ht, s, heapParent s) =
          .ok (.next (ht.copied s e, parent s, heapParent (parent s))) := by
        simp only [reheapUpBody, gt_iff_lt, hs, if_true, heapParent_eq, ok_bind', hat, hcopy,
          TimeVal.lt_iff.mpr hlt]
        rfl
      have hord := ho.move hs h.lt (by rw [keys_self, hkey]; exact hlt)
      rw [← keys_copied hps.ne hpe] at hord
      obtain ⟨ht', s', hloop, hsift', hord', hkept'⟩ :=
        ih (parent s) hps hsift hord fuel (by omega)
      exact ⟨ht', s', (loop_next hbody fuel).trans hloop, hsift', hord', hkept.trans hkept'⟩
    · have hbody : reheapUpBody m (ht, s, heapParent s) = .ok (.exit (ht, s)) := by
        have : (ht.valueOf m).lt (ht.valueOf e) = false := by
          rw [Bool.eq_false_iff, ne_eq, TimeVal.lt_iff]
          exact hlt
        simp only [reheapUpBody, gt_iff_lt, hs, if_true, heapParent_eq, ok_bind', hat, this]
        rfl
      refine ⟨ht, s, loop_exit hbody fuel, h, ho.finish fun _ => ?_, .refl P ht⟩
      rw [keys_self, hkey]
      exact not_lt.mp hlt

theorem reheapUp_rule (h : ht.Sifting P n m s) (ho : UpOrdered (ht.keys m s) n s) :
    ∃ ht', ht.reheapUp m s (heapParent s) = .ok ht' ∧ ht'.Holds P n ∧ Ordered ht'.slotKey n ∧
      Kept P ht ht' := by
  obtain ⟨ht', s', hloop, hsift, hord, hkept⟩ := reheapUp_loop h ho _ (Nat.lt_succ_self s)
  obtain ⟨hcopy, hholds, hkept'⟩ := hsift.finish
  refine ⟨ht'.copied s' m, ?_, hholds, ?_, hkept.trans hkept'⟩
  · simp only [reheapUp, hloop]
    exact hcopy
  · rw [slotKey_copied]
    exact hord

/-- The child that is chosen is a smallest one. -/
theorem chooseChild_rule (h : ht.Sifting P n m s) (hn : ht.curSize = n) (hc : leftChild s < n) :
    ∃ c, ht.chooseChild (leftChild s) = .ok c ∧ 0 < c ∧ c < n ∧ parent c = s ∧
      ∀ i, 0 < i → i < n → parent i = s → ht.keys m s c ≤ ht.keys m s i := by
  have hsl := lt_leftChild s
  obtain ⟨l, -, -, hl, hkl⟩ := h.top hc hsl.ne'
  have hpl : parent (leftChild s) = s := (parent_eq_iff (by omega)).mpr (.inl rfl)
  by_cases hr : leftChild s + 1 < n
  · obtain ⟨r, -, -, hr', hkr⟩ := h.top hr (by omega)
    have hpr : parent (leftChild s + 1) = s := (parent_eq_iff (by omega)).mpr (.inr rfl)
    have hchoose : ht.chooseChild (leftChild s) =
        .ok (if (ht.valueOf r).lt (ht.valueOf l) then leftChild s + 1 else leftChild s) := by
      simp only [chooseChild, hn, hr, if_true, hr', hl]
      rfl
    by_cases hlt : ht.valueOf r < ht.valueOf l
    · refine ⟨leftChild s + 1, by rw [hchoose, if_pos (TimeVal.lt_iff.mpr hlt)], by omega, hr, hpr,
        fun i hi hin hpi => ?_⟩
      rcases (parent_eq_iff hi).mp hpi with rfl | rfl
      · rw [hkl, hkr]
        exact hlt.le
      · exact le_rfl
    · refine ⟨leftChild s, by rw [hchoose, if_neg fun h => hlt (TimeVal.lt_iff.mp h)], by omega, hc,
        hpl, fun i hi hin hpi => ?_⟩
      rcases (parent_eq_iff hi).mp hpi with rfl | rfl
      · exact le_rfl
      · rw [hkl, hkr]
        exact not_lt.mp hlt
  · have hchoose : ht.chooseChild (leftChild s) = .ok (leftChild s) := by
      simp only [chooseChild, hn, hr, if_false]
      rfl
    refine ⟨leftChild s, hchoose, by omega, hc, hpl, fun i hi hin hpi => ?_⟩
    rcases (parent_eq_iff hi).mp hpi with rfl | rfl
    · exact le_rfl
    · exact absurd hin hr

theorem reheapDown_loop (h : ht.Sifting P n m s) (ho : DownOrdered (ht.keys m s) n s)
    (hn : ht.curSize = n) (fuel : ℕ) (hf : n - s < fuel) :
    ∃ ht' s', loop .hang (reheapDownBody m) fuel (ht, s, heapLeft s) = .ok (ht', s') ∧
      ht'.Sifting P n m s' ∧ Ordered (ht'.keys m s') n ∧ Kept P ht ht' := by
  induction hd : n - s using Nat.strong_induction_on generalizing ht s fuel with
  | h d ih =>
    obtain ⟨fuel, rfl⟩ : ∃ k, fuel = k + 1 := ⟨fuel - 1, by omega⟩
    have hsl := lt_leftChild s
    by_cases hc : leftChild s < n
    · obtain ⟨c, hchoose, hc0, hcn, hpc, hmin⟩ := chooseChild_rule h hn hc
      have hsc : s < c := hpc ▸ parent_lt hc0
      obtain ⟨e, he, hce, hat, hkey⟩ := h.top hcn hsc.ne'
      by_cases hlt : ht.valueOf e < ht.valueOf m
      · obtain ⟨hcopy, hsift, hkept⟩ := h.move hcn hsc.ne' hce
        have hbody : reheapDownBody m (ht, s, heapLeft s) =
            .ok (.next (ht.copied s e, c, heapLeft c)) := by
          simp only [reheapDownBody, heapLeft_eq, hn, hc, if_true, hchoose,
            ok_bind', hat, hcopy, TimeVal.lt_iff.mpr hlt]
          rfl
        have hord := ho.move hc0 hcn hpc hmin (by rw [keys_self, hkey]; exact hlt)
        rw [← keys_copied hsc.ne' hce] at hord
        obtain ⟨ht', s', hloop, hsift', hord', hkept'⟩ :=
          ih (n - c) (by omega) hsift hord hn fuel (by omega) rfl
        exact ⟨ht', s', (loop_next hbody fuel).trans hloop, hsift', hord', hkept.trans hkept'⟩
      · have hbody : reheapDownBody m (ht, s, heapLeft s) = .ok (.exit (ht, s)) := by
          have : (ht.valueOf e).lt (ht.valueOf m) = false := by
            rw [Bool.eq_false_iff, ne_eq, TimeVal.lt_iff]
            exact hlt
          simp only [reheapDownBody, heapLeft_eq, hn, hc, if_true, hchoose,
            ok_bind', hat, this]
          rfl
        refine ⟨ht, s, loop_exit hbody fuel, h, ho.finish fun i hi hin hpi => ?_, .refl P ht⟩
        refine le_trans ?_ (hmin i hi hin hpi)
        rw [keys_self, hkey]
        exact not_lt.mp hlt
    · have hbody : reheapDownBody m (ht, s, heapLeft s) = .ok (.exit (ht, s)) := by
        simp only [reheapDownBody, heapLeft_eq, hn, hc, if_false]
        rfl
      refine ⟨ht, s, loop_exit hbody fuel, h, ho.finish fun i hi hin hpi => ?_, .refl P ht⟩
      have := (parent_eq_iff hi).mp hpi
      omega

theorem reheapDown_rule (h : ht.Sifting P n m s) (ho : DownOrdered (ht.keys m s) n s)
    (hn : ht.curSize = n) :
    ∃ ht', ht.reheapDown m s (heapLeft s) = .ok ht' ∧ ht'.Holds P n ∧ Ordered ht'.slotKey n ∧
      Kept P ht ht' := by
  obtain ⟨ht', s', hloop, hsift, hord, hkept⟩ :=
    reheapDown_loop h ho hn (ht.curSize + 1) (by omega)
  obtain ⟨hcopy, hholds, hkept'⟩ := hsift.finish
  refine ⟨ht'.copied s' m, ?_, hholds, ?_, hkept.trans hkept'⟩
  · simp only [reheapDown, hloop]
    exact hcopy
  · rw [slotKey_copied]
    exact hord

/-! ### The identifiers that are not in use -/

/-- The free identifiers from `f` on, which end behind the array. -/
def FreeFrom (ids : ℕ → ℤ) (max : ℕ) : ℤ → List ℕ → Prop
  | f, [] => f = max
  | f, i :: l => f = i ∧ 0 < i ∧ i < max ∧ ids i < 0 ∧ FreeFrom ids max (-ids i) l

section Free

variable {ids ids' : ℕ → ℤ} {max : ℕ} {f : ℤ} {l : List ℕ}

theorem FreeFrom.pos (h : FreeFrom ids max f l) (hmax : 0 < max) : 0 < f := by
  cases l with
  | nil =>
    have : f = max := h
    omega
  | cons i l =>
    obtain ⟨rfl, hi, -⟩ := h
    omega

theorem FreeFrom.mem (h : FreeFrom ids max f l) {i : ℕ} (hi : i ∈ l) :
    0 < i ∧ i < max ∧ ids i < 0 := by
  induction l generalizing f with
  | nil => simp at hi
  | cons j l ih =>
    obtain ⟨-, hj0, hjm, hneg, hrest⟩ := h
    rcases List.mem_cons.mp hi with rfl | hi
    · exact ⟨hj0, hjm, hneg⟩
    · exact ih hrest hi

theorem FreeFrom.congr (h : FreeFrom ids max f l) (hids : ∀ i ∈ l, ids' i = ids i) :
    FreeFrom ids' max f l := by
  induction l generalizing f with
  | nil => exact h
  | cons i l ih =>
    obtain ⟨hf, h0, hm, hneg, hrest⟩ := h
    have hi := hids i (by simp)
    refine ⟨hf, h0, hm, by rw [hi]; exact hneg, ?_⟩
    rw [hi]
    exact ih hrest fun j hj => hids j (by simp [hj])

/-- A fresh part of the array is free from its beginning to its end. -/
theorem freeFrom_range (k a : ℕ) (ha : 0 < a) (hids : ∀ i, a ≤ i → ids i = -((i : ℤ) + 1)) :
    FreeFrom ids (a + k) a (List.range' a k) := by
  induction k generalizing a with
  | zero => simp [FreeFrom]
  | succ k ih =>
    have hnext := ih (a + 1) (by omega) fun i hi => hids i (by omega)
    rw [List.range'_succ]
    refine ⟨rfl, ha, by omega, by rw [hids a le_rfl]; omega, ?_⟩
    rw [hids a le_rfl, neg_neg]
    rw [show a + (k + 1) = a + 1 + k by omega]
    exact_mod_cast hnext

theorem FreeFrom.append (h : FreeFrom ids max f l) {more : ℕ} {l' : List ℕ}
    (hrest : FreeFrom ids (max + more) max l') : FreeFrom ids (max + more) f (l ++ l') := by
  induction l generalizing f with
  | nil =>
    have hf : f = max := h
    rw [hf]
    exact hrest
  | cons i l ih =>
    obtain ⟨hf, h0, hm, hneg, h⟩ := h
    exact ⟨hf, h0, by omega, hneg, ih h⟩

end Free

/-- The heap is in order: nothing is lost, nothing stands twice, and there is room. -/
structure Valid (ht : TimerHeap) : Prop where
  room : ht.curSize + 2 ≤ ht.maxSize
  holds : ht.Holds {e | 0 < ht.idOf e} ht.curSize
  /-- Identifier 0 is never given away. -/
  unused : ht.timerIds 0 < 0
  free : ∃ l, FreeFrom ht.timerIds ht.maxSize ht.timerIdsFreelist l ∧ l.Nodup ∧
    l.length + ht.curSize + 1 = ht.maxSize
  ordered : Ordered ht.slotKey ht.curSize

/-- When each timer that is set expires. -/
def agenda (ht : TimerHeap) (e : ℕ) : Option TimeVal :=
  if 0 < ht.idOf e then some (ht.valueOf e) else none

theorem agenda_eq_some {t : TimeVal} :
    ht.agenda e = some t ↔ 0 < ht.idOf e ∧ ht.valueOf e = t := by
  simp [agenda]

theorem agenda_eq_none : ht.agenda e = none ↔ ht.idOf e ≤ 0 := by simp [agenda]

/-- An operation that sets or takes one timer, and leaves the heap in order. -/
structure Sets (ht ht' : TimerHeap) (e : ℕ) (o : Option TimeVal) : Prop where
  valid : ht'.Valid
  agenda : ht'.agenda = Function.update ht.agenda e o
  cb : ∀ a, (ht'.entries a).cb = (ht.entries a).cb
  perPoll : ht'.maxEntriesPerPoll = ht.maxEntriesPerPoll

theorem create_valid (size : ℕ) {entries : ℕ → TimerEntry} (h : ∀ e, (entries e).timerId ≤ 0) :
    (create size entries).Valid := by
  have hnone : ∀ e, ¬0 < (create size entries).idOf e := fun e => not_lt.mpr (h e)
  refine ⟨by simp [create], ⟨by simp [create], fun e he => absurd he (hnone e), ?_, ?_⟩, ?_, ?_, ?_⟩
  · intro i hi
    simp [create] at hi
  · exact fun e he => absurd he (hnone e)
  · simp [create]
  · refine ⟨List.range' 1 (size + 1), ?_, List.nodup_range', by simp [create]⟩
    have : FreeFrom (create size entries).timerIds (1 + (size + 1)) ((1 : ℕ) : ℤ)
        (List.range' 1 (size + 1)) := freeFrom_range (size + 1) 1 one_pos fun i _ => rfl
    simpa [create, show 1 + (size + 1) = size + 2 by omega] using this
  · intro i hi hin
    simp [create] at hin

theorem Valid.perPoll (hv : ht.Valid) (count : ℕ) :
    Valid { ht with maxEntriesPerPoll := count } :=
  ⟨hv.room, ⟨hv.holds.fits, hv.holds.ids, hv.holds.slot, hv.holds.place⟩, hv.unused, hv.free,
    hv.ordered⟩

/-- What a sift leaves is in order again when the identifiers were in order before it. -/
theorem valid_of_kept {l : List ℕ} (hk : Kept P ht ht') (hh : ht'.Holds P n)
    (ho : Ordered ht'.slotKey n) (hP : P = {e | 0 < ht.idOf e}) (hroom : n + 2 ≤ ht.maxSize)
    (hunused : ht.timerIds 0 < 0) (hfree : FreeFrom ht.timerIds ht.maxSize ht.timerIdsFreelist l)
    (hnd : l.Nodup) (hlen : l.length + n + 1 = ht.maxSize)
    (hdisj : ∀ a ∈ P, (ht.idOf a).toNat ∉ l) : Valid { ht' with curSize := n } := by
  have hids : ∀ a ∈ P, 0 < ht.idOf a := by
    rw [hP]
    exact fun a ha => ha
  have hP' : P = {e | 0 < ht'.idOf e} := by
    rw [hP]
    ext a
    simp only [Set.mem_ofPred_eq, hk.idOf]
  refine ⟨?_, hP' ▸ ⟨hh.fits, hh.ids, hh.slot, hh.place⟩, ?_, ⟨l, ?_, hnd, ?_⟩, ho⟩
  · rw [hk.maxSize]
    exact hroom
  · rw [hk.ids 0 fun a ha => by have := hids a ha; omega]
    exact hunused
  · simp only [hk.maxSize, hk.freelist]
    refine hfree.congr fun i hi => hk.ids i fun a ha hai => ?_
    rw [← hai] at hi
    exact hdisj a ha hi
  · rw [hk.maxSize]
    exact hlen

/-! ### Setting a timer -/

/-- A heap whose arrays are at least as long, and that holds the same. -/
structure Grown (ht g : TimerHeap) : Prop where
  maxSize : ht.maxSize ≤ g.maxSize
  curSize : g.curSize = ht.curSize
  perPoll : g.maxEntriesPerPoll = ht.maxEntriesPerPoll
  freelist : g.timerIdsFreelist = ht.timerIdsFreelist
  entries : g.entries = ht.entries
  heap : ∀ i < ht.maxSize, g.heap i = ht.heap i
  ids : ∀ i < ht.maxSize, g.timerIds i = ht.timerIds i

def roomy (ht : TimerHeap) : TimerHeap :=
  if ht.curSize + 2 ≥ ht.maxSize then ht.growHeap else ht

theorem grown_roomy (ht : TimerHeap) : Grown ht ht.roomy := by
  unfold roomy
  split_ifs with h
  · refine ⟨by simp only [growHeap]; omega, rfl, rfl, rfl, rfl, fun i hi => ?_, fun i hi => ?_⟩
    · simp [growHeap, hi]
    · simp [growHeap, hi]
  · exact ⟨le_rfl, rfl, rfl, rfl, rfl, fun _ _ => rfl, fun _ _ => rfl⟩

theorem roomy_room (h : ht.curSize + 2 ≤ ht.maxSize) : ht.curSize + 3 ≤ ht.roomy.maxSize := by
  unfold roomy
  split_ifs with hfull
  · simp only [growHeap]
    omega
  · omega

/-- The new identifiers of a longer array are free, behind the ones that were. -/
theorem roomy_free {l : List ℕ} {k : ℕ} (hmax : 0 < ht.maxSize)
    (hfree : FreeFrom ht.timerIds ht.maxSize ht.timerIdsFreelist l) (hnd : l.Nodup)
    (hlen : l.length + k = ht.maxSize) :
    ∃ l', FreeFrom ht.roomy.timerIds ht.roomy.maxSize ht.timerIdsFreelist l' ∧ l'.Nodup ∧
      l'.length + k = ht.roomy.maxSize ∧ ∀ i ∈ l', i ∈ l ∨ ht.maxSize ≤ i := by
  unfold roomy
  split_ifs with h
  · have hold : FreeFrom ht.growHeap.timerIds ht.maxSize ht.timerIdsFreelist l :=
      hfree.congr fun i hi => by simp [growHeap, (hfree.mem hi).2.1]
    have hnew : FreeFrom ht.growHeap.timerIds (ht.maxSize + ht.maxSize) ht.maxSize
        (List.range' ht.maxSize ht.maxSize) := by
      refine freeFrom_range ht.maxSize ht.maxSize hmax fun i hi => ?_
      simp [growHeap, not_lt.mpr hi]
    refine ⟨l ++ List.range' ht.maxSize ht.maxSize, ?_, ?_, ?_, fun i hi => ?_⟩
    · have := hold.append hnew
      simpa [growHeap, mul_two] using this
    · refine hnd.append List.nodup_range' fun i hi hi' => ?_
      have h1 := (hfree.mem hi).2.1
      have h2 := (List.mem_range'_1.mp hi').1
      omega
    · simp only [List.length_append, List.length_range', growHeap]
      omega
    · rcases List.mem_append.mp hi with hi | hi
      · exact .inl hi
      · exact .inr (List.mem_range'_1.mp hi).1
  · exact ⟨l, hfree, hnd, hlen, fun i hi => .inl hi⟩

/-- The heap in which a timer has its identifier and its time, but no slot yet. -/
def named (ht : TimerHeap) (e : ℕ) (i : ℕ) (t : TimeVal) : TimerHeap :=
  { ht with timerIdsFreelist := -ht.timerIds i }.setEntry e
    { ht.entries e with timerId := i, timerValue := t }

section Named

variable {a i : ℕ} {t : TimeVal} {g : TimerHeap}

theorem Valid.used (hv : ht.Valid) (ha : 0 < ht.idOf a) :
    ht.idOf a < ht.maxSize ∧ 0 ≤ ht.timerIds (ht.idOf a).toNat := by
  obtain ⟨j, hj, haj⟩ := hv.holds.place a ha
  obtain ⟨a', -, ha', hid⟩ := hv.holds.slot j hj
  obtain rfl : a' = a := by simpa [haj] using ha'.symm
  exact ⟨(hv.holds.ids a' ha).2, by rw [hid]; omega⟩

/-- A free identifier is not the one of a timer that is set. -/
theorem Valid.idOf_ne (hv : ht.Valid) (hneg : ht.timerIds i < 0) (ha : 0 < ht.idOf a) :
    ht.idOf a ≠ i := by
  intro hai
  have := (hv.used ha).2
  rw [hai, Int.toNat_natCast] at this
  omega

theorem Grown.idOf_self (hg : Grown (ht.named e i t) g) : g.idOf e = i := by
  simp [TimerHeap.idOf, hg.entries, named, setEntry]

theorem Grown.idOf (hg : Grown (ht.named e i t) g) (ha : a ≠ e) : g.idOf a = ht.idOf a := by
  simp [TimerHeap.idOf, hg.entries, named, setEntry, ha]

theorem Grown.valueOf (hg : Grown (ht.named e i t) g) (ha : a ≠ e) :
    g.valueOf a = ht.valueOf a := by
  simp [TimerHeap.valueOf, hg.entries, named, setEntry, ha]

theorem Grown.mem_iff (hg : Grown (ht.named e i t) g) (hi : 0 < i) :
    a ∈ {a | 0 < g.idOf a} ↔ a = e ∨ 0 < ht.idOf a := by
  rw [Set.mem_ofPred_eq]
  by_cases hae : a = e
  · subst hae
    simp only [hg.idOf_self, true_or, iff_true]
    omega
  · simp [hg.idOf hae, hae]

/-- The new timer is on its way from the slot behind the last one. -/
theorem Grown.sifting (hg : Grown (ht.named e i t) g) (hv : ht.Valid) (he : ht.idOf e ≤ 0)
    (hi : 0 < i) (him : i < ht.maxSize) (hneg : ht.timerIds i < 0)
    (hroom : ht.curSize + 3 ≤ g.maxSize) :
    g.Sifting {a | 0 < g.idOf a} (ht.curSize + 1) e ht.curSize := by
  have hmax : ht.maxSize ≤ g.maxSize := hg.maxSize
  have hcur := hv.room
  have hne : ∀ a, 0 < ht.idOf a → a ≠ e := fun a ha hae => by
    rw [hae] at ha
    omega
  refine ⟨by omega, fun a ha => ⟨ha, ?_⟩, fun a ha a' ha' hid => ?_, (hg.mem_iff hi).mpr (.inl rfl),
    by omega, fun j hj hjs => ?_, fun a ha hae => ?_⟩
  · rcases (hg.mem_iff hi).mp ha with rfl | h
    · rw [hg.idOf_self]
      omega
    · have := (hv.used h).1
      rw [hg.idOf (hne a h)]
      omega
  · rcases (hg.mem_iff hi).mp ha with rfl | h
    · rcases (hg.mem_iff hi).mp ha' with rfl | h'
      · rfl
      · rw [hg.idOf_self, hg.idOf (hne a' h')] at hid
        exact absurd hid.symm (hv.idOf_ne hneg h')
    · rcases (hg.mem_iff hi).mp ha' with rfl | h'
      · rw [hg.idOf_self, hg.idOf (hne a h)] at hid
        exact absurd hid (hv.idOf_ne hneg h)
      · rw [hg.idOf (hne a h), hg.idOf (hne a' h')] at hid
        exact hv.holds.distinct a h a' h' hid
  · obtain ⟨a, ha, hja, haid⟩ := hv.holds.slot j (by omega)
    have hid := (hv.used ha).1
    refine ⟨a, (hg.mem_iff hi).mpr (.inr ha), hne a ha, ?_, ?_⟩
    · rw [hg.heap j (by change j < ht.maxSize; omega)]
      exact hja
    · rw [hg.idOf (hne a ha), hg.ids _ (by change (ht.idOf a).toNat < ht.maxSize; omega)]
      exact haid
  · obtain ⟨j, hj, hja⟩ := hv.holds.place a (((hg.mem_iff hi).mp ha).resolve_left hae)
    refine ⟨j, by omega, by omega, ?_⟩
    rw [hg.heap j (by change j < ht.maxSize; omega)]
    exact hja

theorem Grown.upOrdered (hg : Grown (ht.named e i t) g) (hv : ht.Valid) (he : ht.idOf e ≤ 0) :
    UpOrdered (g.keys e ht.curSize) (ht.curSize + 1) ht.curSize := by
  refine hv.ordered.append fun j hj => ?_
  have hcur := hv.room
  obtain ⟨a, ha, hja, -⟩ := hv.holds.slot j hj
  have hga : g.heap j = some a := by
    rw [hg.heap j (by change j < ht.maxSize; omega)]
    exact hja
  have hae : a ≠ e := by
    rintro rfl
    have : 0 < ht.idOf a := ha
    omega
  rw [keys_of_ne hj.ne hga, slotKey_of_some hja, hg.valueOf hae]

theorem entries_named (h : ht'.entries = (ht.named e i t).entries) (ha : a ≠ e) :
    ht'.entries a = ht.entries a := by
  rw [h]
  simp [named, setEntry, ha]

theorem agenda_named (hi : 0 < i) (h : ht'.entries = (ht.named e i t).entries) :
    ht'.agenda = Function.update ht.agenda e (some t) := by
  funext a
  by_cases hae : a = e
  · subst hae
    simp [agenda, idOf, valueOf, h, named, setEntry, hi]
  · rw [Function.update_of_ne hae, agenda, agenda, idOf, valueOf, entries_named h hae]
    rfl

theorem cb_named (h : ht'.entries = (ht.named e i t).entries) (a : ℕ) :
    (ht'.entries a).cb = (ht.entries a).cb := by
  by_cases hae : a = e
  · subst hae
    simp [h, named, setEntry]
  · rw [entries_named h hae]

end Named

/-- A timer that is not set gets the first free identifier and its place in the heap. -/
theorem Valid.schedule_rule (hv : ht.Valid) (he : ht.idOf e ≤ 0) (t : TimeVal) :
    ∃ ht', ht.scheduleEntry e t = .ok (.success, ht') ∧ Sets ht ht' e (some t) := by
  obtain ⟨l, hfree, hnd, hlen⟩ := hv.free
  have hcur := hv.room
  cases l with
  | nil =>
    simp only [List.length_nil] at hlen
    omega
  | cons i l =>
    obtain ⟨hf, hi, him, hneg, hrest⟩ := hfree
    obtain ⟨hil, hnd⟩ := List.nodup_cons.mp hnd
    simp only [List.length_cons] at hlen
    set b := ht.named e i t with hb
    have hg : Grown b b.roomy := grown_roomy b
    have hroom : ht.curSize + 3 ≤ b.roomy.maxSize := roomy_room (show b.curSize + 2 ≤ b.maxSize from hcur)
    obtain ⟨l', hfree', hnd', hlen', hsub⟩ := roomy_free (k := ht.curSize + 2)
      (show 0 < b.maxSize by change 0 < ht.maxSize; omega) hrest hnd
      (by change _ = ht.maxSize; omega)
    obtain ⟨r, hr, hholds, hordered, hkept⟩ :=
      reheapUp_rule (hg.sifting hv he hi him hneg hroom) (hg.upOrdered hv he)
    have hent : r.entries = b.entries := hkept.entries.trans hg.entries
    refine ⟨{ r with curSize := ht.curSize + 1 }, ?_,
      ⟨?_, agenda_named hi hent, cb_named hent, hkept.perPoll.trans hg.perPoll⟩⟩
    · have hpop : ht.popFreelist = .ok ((i : ℤ), { ht with timerIdsFreelist := -ht.timerIds i }) := by
        simp only [popFreelist, hf]
        rw [idAt_eq (by omega) (by omega), ok_bind', Int.toNat_natCast]
        rfl
      have hinsert : b.insertNode e = .ok { r with curSize := ht.curSize + 1 } := by
        have hgc : b.roomy.curSize = ht.curSize := hg.curSize
        have hrc : r.curSize = ht.curSize := hkept.curSize.trans hgc
        change b.roomy.reheapUp e b.roomy.curSize (heapParent b.roomy.curSize) >>= _ = _
        rw [hgc, hr, ok_bind', hrc]
        rfl
      rw [scheduleEntry, if_pos (by omega), hpop, ok_bind']
      change b.insertNode e >>= _ = _
      rw [hinsert]
      rfl
    · refine valid_of_kept hkept hholds hordered rfl (by omega) ?_ ?_ hnd' (by omega) ?_
      · rw [hg.ids 0 (by change 0 < ht.maxSize; omega)]
        exact hv.unused
      · rw [hg.freelist]
        exact hfree'
      · intro a ha hal
        -- The free identifiers are the old ones without `i`, and those of the longer array.
        have hold := hsub _ hal
        rcases (hg.mem_iff hi).mp ha with rfl | h
        · rw [hg.idOf_self, Int.toNat_natCast] at hold
          rcases hold with h | h
          · exact hil h
          · exact absurd h (not_le.mpr him)
        · have hae : a ≠ e := fun hae => by
            rw [hae] at h
            omega
          have hused := hv.used h
          rw [hg.idOf hae] at hold
          rcases hold with h | h
          · have := (hrest.mem h).2.2
            omega
          · have : ht.maxSize ≤ (ht.idOf a).toNat := h
            omega

/-! ### Taking a timer -/

/-- The heap in which the identifier of a timer is free, before its slot is filled. -/
def taken (ht : TimerHeap) (e : ℕ) : TimerHeap :=
  { ht with
    timerIds := Function.update ht.timerIds (ht.idOf e).toNat (-ht.timerIdsFreelist)
    timerIdsFreelist := ht.idOf e
    curSize := ht.curSize - 1 }.setEntry e { ht.entries e with timerId := -1 }

section Taken

variable {a i : ℕ} {l : List ℕ}

theorem taken_idOf (ha : a ≠ e) : (ht.taken e).idOf a = ht.idOf a := by
  simp [taken, setEntry, idOf, ha]

theorem taken_valueOf (ht : TimerHeap) (e a : ℕ) : (ht.taken e).valueOf a = ht.valueOf a := by
  by_cases ha : a = e
  · subst ha
    simp [taken, setEntry, valueOf]
  · simp [taken, setEntry, valueOf, ha]

theorem taken_timerIds (hi : i ≠ (ht.idOf e).toNat) :
    (ht.taken e).timerIds i = ht.timerIds i := by
  simp [taken, setEntry, hi]

theorem mem_taken : a ∈ {a | 0 < (ht.taken e).idOf a} ↔ a ≠ e ∧ 0 < ht.idOf a := by
  rw [Set.mem_ofPred_eq]
  by_cases hae : a = e
  · subst hae
    simp [taken, setEntry, idOf]
  · simp [taken_idOf hae, hae]

theorem agenda_taken (h : ht'.entries = (ht.taken e).entries) :
    ht'.agenda = Function.update ht.agenda e none := by
  funext a
  by_cases hae : a = e
  · subst hae
    simp [agenda, idOf, h, taken, setEntry]
  · have hent : ht'.entries a = ht.entries a := by
      rw [h]
      simp [taken, setEntry, hae]
    rw [Function.update_of_ne hae, agenda, agenda, idOf, valueOf, hent]
    rfl

theorem cb_taken (h : ht'.entries = (ht.taken e).entries) (a : ℕ) :
    (ht'.entries a).cb = (ht.entries a).cb := by
  rw [h]
  by_cases hae : a = e
  · subst hae
    simp [taken, setEntry]
  · simp [taken, setEntry, hae]

/-- Another timer that is set keeps its identifier and the slot it leads to. -/
theorem Valid.taken_other (hv : ht.Valid) (he : 0 < ht.idOf e) (hae : a ≠ e)
    (ha : 0 < ht.idOf a) : (ht.taken e).timerIds ((ht.taken e).idOf a).toNat =
      ht.timerIds (ht.idOf a).toNat := by
  rw [taken_idOf hae]
  refine taken_timerIds fun heq => hae (hv.holds.distinct a ha e he ?_)
  omega

/-- Without the timer that is taken, the last one is on its way from the free slot. -/
theorem Valid.taken_sifting (hv : ht.Valid) (hs : s < ht.curSize - 1) (hse : ht.heap s = some e)
    (hm : ht.heap (ht.curSize - 1) = some m) (he : 0 < ht.idOf e) (hm0 : 0 < ht.idOf m) :
    (ht.taken e).Sifting {a | 0 < (ht.taken e).idOf a} (ht.curSize - 1) m s := by
  have hcur := hv.room
  have hslot : ∀ j < ht.curSize, ∃ a, 0 < ht.idOf a ∧ ht.heap j = some a ∧
      ht.timerIds (ht.idOf a).toNat = j := fun j hj => by
    obtain ⟨a, ha, hja, hid⟩ := hv.holds.slot j hj
    exact ⟨a, ha, hja, hid⟩
  -- Two slots hold different timers, since the identifiers lead back.
  have hinj : ∀ j j' a, j < ht.curSize → j' < ht.curSize → ht.heap j = some a →
      ht.heap j' = some a → j = j' := by
    intro j j' a hj hj' hja hja'
    obtain ⟨b, -, hjb, hid⟩ := hslot j hj
    obtain ⟨b', -, hjb', hid'⟩ := hslot j' hj'
    obtain rfl : b = a := by simpa [hja] using hjb.symm
    obtain rfl : b' = b := by simpa [hja'] using hjb'.symm
    exact_mod_cast hid.symm.trans hid'
  have hme : m ≠ e := by
    rintro rfl
    have := hinj _ _ m (by omega) (by omega) hse hm
    omega
  refine ⟨by change ht.curSize - 1 ≤ ht.maxSize; omega, fun a ha => ⟨ha, ?_⟩,
    fun a ha a' ha' hid => ?_, mem_taken.mpr ⟨hme, hm0⟩, hs, fun j hj hjs => ?_,
    fun a ha ham => ?_⟩
  · obtain ⟨hae, h⟩ := mem_taken.mp ha
    rw [taken_idOf hae]
    exact (hv.used h).1
  · obtain ⟨hae, h⟩ := mem_taken.mp ha
    obtain ⟨hae', h'⟩ := mem_taken.mp ha'
    rw [taken_idOf hae, taken_idOf hae'] at hid
    exact hv.holds.distinct a h a' h' hid
  · obtain ⟨a, ha, hja, hid⟩ := hslot j (by omega)
    have hae : a ≠ e := by
      rintro rfl
      exact hjs (hinj j s a (by omega) (by omega) hja hse)
    have ham : a ≠ m := by
      rintro rfl
      have := hinj j _ a (by omega) (by omega) hja hm
      omega
    exact ⟨a, mem_taken.mpr ⟨hae, ha⟩, ham, hja, (hv.taken_other he hae ha).trans hid⟩
  · obtain ⟨hae, h⟩ := mem_taken.mp ha
    obtain ⟨j, hj, hja⟩ := hv.holds.place a h
    refine ⟨j, ?_, ?_, hja⟩
    · by_contra hlast
      obtain rfl : j = ht.curSize - 1 := by omega
      exact ham (by simpa [hm] using hja.symm)
    · rintro rfl
      exact hae (by simpa [hse] using hja.symm)

/-- Without the timer of the last slot, the others stand where they stood. -/
theorem Valid.taken_holds (hv : ht.Valid) (hs : s = ht.curSize - 1) (hpos : 0 < ht.curSize)
    (hse : ht.heap s = some e) (he : 0 < ht.idOf e) :
    (ht.taken e).Holds {a | 0 < (ht.taken e).idOf a} (ht.curSize - 1) := by
  have hcur := hv.room
  refine ⟨by change ht.curSize - 1 ≤ ht.maxSize; omega, fun a ha => ⟨ha, ?_⟩, fun j hj => ?_,
    fun a ha => ?_⟩
  · obtain ⟨hae, h⟩ := mem_taken.mp ha
    rw [taken_idOf hae]
    exact (hv.used h).1
  · obtain ⟨a, ha, hja, hid⟩ := hv.holds.slot j (by omega)
    have hae : a ≠ e := by
      rintro rfl
      obtain ⟨b, -, hb, hbid⟩ := hv.holds.slot s (by omega)
      obtain rfl : b = a := by simpa [hse] using hb.symm
      rw [hid] at hbid
      omega
    exact ⟨a, mem_taken.mpr ⟨hae, ha⟩, hja, (hv.taken_other he hae ha).trans hid⟩
  · obtain ⟨hae, h⟩ := mem_taken.mp ha
    obtain ⟨j, hj, hja⟩ := hv.holds.place a h
    refine ⟨j, ?_, hja⟩
    by_contra hlast
    obtain rfl : j = s := by omega
    exact hae (by simpa [hse] using hja.symm)

/-- The identifier that was taken back is the first free one. -/
theorem Valid.taken_free (hv : ht.Valid) (he : 0 < ht.idOf e) (hpos : 0 < ht.curSize) :
    ∃ l, FreeFrom (ht.taken e).timerIds ht.maxSize (ht.idOf e) l ∧ l.Nodup ∧
      l.length + (ht.curSize - 1) + 1 = ht.maxSize ∧
      ∀ a ∈ {a | 0 < (ht.taken e).idOf a}, ((ht.taken e).idOf a).toNat ∉ l := by
  obtain ⟨l, hfree, hnd, hlen⟩ := hv.free
  have hcur := hv.room
  have hused := hv.used he
  have hnew : (ht.idOf e).toNat ∉ l := fun h => by
    have := (hfree.mem h).2.2
    omega
  have hf := hfree.pos (by omega)
  have hself : (ht.taken e).timerIds (ht.idOf e).toNat = -ht.timerIdsFreelist := by
    simp [taken, setEntry]
  refine ⟨(ht.idOf e).toNat :: l, ⟨by omega, by omega, by omega, ?_, ?_⟩,
    List.nodup_cons.mpr ⟨hnew, hnd⟩, ?_, fun a ha => ?_⟩
  · rw [hself]
    omega
  · rw [hself, neg_neg]
    exact hfree.congr fun i hi => taken_timerIds fun h => hnew (h ▸ hi)
  · simp only [List.length_cons]
    omega
  · obtain ⟨hae, h⟩ := mem_taken.mp ha
    have hau := hv.used h
    rw [taken_idOf hae, List.mem_cons, not_or]
    refine ⟨fun heq => hae (hv.holds.distinct a h e he (by omega)), fun hal => ?_⟩
    have := (hfree.mem hal).2.2
    omega

/-- What is left after a timer was taken is in order, once it is a heap again. -/
theorem Valid.taken_valid (hv : ht.Valid) (he : 0 < ht.idOf e) (hpos : 0 < ht.curSize)
    (hk : Kept {a | 0 < (ht.taken e).idOf a} (ht.taken e) ht')
    (hh : ht'.Holds {a | 0 < (ht.taken e).idOf a} (ht.curSize - 1))
    (ho : Ordered ht'.slotKey (ht.curSize - 1)) : Sets ht ht' e none := by
  obtain ⟨l, hfree, hnd, hlen, hdisj⟩ := hv.taken_free he hpos
  have hcur := hv.room
  have hn : ht'.curSize = ht.curSize - 1 := hk.curSize
  refine ⟨?_, agenda_taken hk.entries, cb_taken hk.entries, hk.perPoll⟩
  have hvalid := valid_of_kept hk hh ho rfl (by change _ ≤ ht.maxSize; omega)
    (by rw [taken_timerIds (by omega)]; exact hv.unused) hfree hnd hlen hdisj
  rw [← hn] at hvalid
  exact hvalid

end Taken

theorem keys_copied_self (ht : TimerHeap) (s m : ℕ) :
    (ht.copied s m).keys m s = ht.keys m s := by
  funext i
  by_cases his : i = s
  · simp [keys, his, copied, valueOf]
  · simp only [keys, his, if_false, copied, Function.update_of_ne his]
    rfl

theorem Valid.remove_rule (hv : ht.Valid) (hs : s < ht.curSize) (hse : ht.heap s = some e) :
    ∃ ht', ht.removeNode s = .ok (e, ht') ∧ Sets ht ht' e none := by
  have hcur := hv.room
  have he : 0 < ht.idOf e := by
    obtain ⟨a, ha, hsa, -⟩ := hv.holds.slot s hs
    obtain rfl : a = e := by simpa [hse] using hsa.symm
    exact ha
  have hpush : ht.pushFreelist (ht.idOf e) = .ok { ht with
      timerIds := Function.update ht.timerIds (ht.idOf e).toNat (-ht.timerIdsFreelist)
      timerIdsFreelist := ht.idOf e } := by
    rw [pushFreelist, setIdAt_eq ht he.le (hv.used he).1, ok_bind']
    rfl
  have hstart : ht.removeNode s = if s < ht.curSize - 1 then do
      let movedNode ← (ht.taken e).heapAt (ht.curSize - 1)
      let ht' ← (ht.taken e).copyNode s movedNode
      let p ← ht'.heapAt (heapParent s)
      let ht' ← if (ht'.valueOf movedNode).gte (ht'.valueOf p) then
          ht'.reheapDown movedNode s (heapLeft s)
        else ht'.reheapUp movedNode s (heapParent s)
      return (e, ht') else .ok (e, ht.taken e) := by
    rw [removeNode, heapAt_eq (by omega) hse, ok_bind', hpush, ok_bind']
    rfl
  rw [hstart]
  split_ifs with hlast
  · obtain ⟨m, hm0, hm, -⟩ := hv.holds.slot (ht.curSize - 1) (by omega)
    have hsift := hv.taken_sifting hlast hse hm he hm0
    obtain ⟨hcopy, hsift', hkept⟩ := hsift.copy_self
    set b := (ht.taken e).copied s m with hb
    have hmat : (ht.taken e).heapAt (ht.curSize - 1) = .ok m :=
      heapAt_eq (by change _ < ht.maxSize; omega) hm
    have hkeys : ∀ i, i < ht.curSize - 1 → i ≠ s → b.keys m s i = ht.slotKey i := by
      intro i hi his
      obtain ⟨a, ha, hia, -⟩ := hv.holds.slot i (by omega)
      have hia' : (ht.taken e).heap i = some a := hia
      rw [hb, keys_copied_self, keys_of_ne his hia', taken_valueOf, slotKey_of_some hia]
    -- The topmost timer is compared with itself.
    obtain ⟨p, hp, hpm, hpk⟩ : ∃ p, b.heapAt (heapParent s) = .ok p ∧ (s = 0 → p = m) ∧
        (0 < s → b.keys m s (parent s) = b.valueOf p) := by
      rcases Nat.eq_zero_or_pos s with rfl | hpos
      · refine ⟨m, heapAt_eq (by change 0 < ht.maxSize; omega) ?_, fun _ => rfl, fun h => ?_⟩
        · simp [hb, copied, heapParent]
        · exact absurd h (lt_irrefl 0)
      · have hps := parent_lt hpos
        obtain ⟨p, -, -, hat, hkey⟩ := hsift'.top (hps.trans hlast) hps.ne
        exact ⟨p, hat, fun h => absurd h hpos.ne', fun _ => hkey⟩
    rw [hmat, ok_bind', hcopy, ok_bind', hp, ok_bind']
    by_cases hge : b.valueOf p ≤ b.valueOf m
    · have hdown := hv.ordered.replace_down (by omega) hs hkeys hlast fun hpos => by
        rw [hpk hpos, keys_self]
        exact hge
      obtain ⟨r, hr, hholds, hord, hkept'⟩ := reheapDown_rule hsift' hdown rfl
      refine ⟨r, ?_, hv.taken_valid he (by omega) (hkept.trans hkept') hholds hord⟩
      rw [if_pos (TimeVal.gte_iff.mpr hge), hr]
      rfl
    · have hpos : 0 < s := by
        by_contra h
        rw [hpm (by omega)] at hge
        exact hge le_rfl
      have hup := hv.ordered.replace_up (by omega) hs hkeys hlast hpos (by
        rw [hpk hpos, keys_self]
        exact not_le.mp hge)
      obtain ⟨r, hr, hholds, hord, hkept'⟩ := reheapUp_rule hsift' hup
      refine ⟨r, ?_, hv.taken_valid he (by omega) (hkept.trans hkept') hholds hord⟩
      rw [if_neg fun h => hge (TimeVal.gte_iff.mp h), hr]
      rfl
  · refine ⟨ht.taken e, rfl, hv.taken_valid he (by omega) (.refl _ _)
      (hv.taken_holds (by omega) (by omega) hse he) fun i hi hin => ?_⟩
    have hslot : (ht.taken e).slotKey = ht.slotKey := by
      funext j
      simp only [slotKey, show (ht.taken e).valueOf = ht.valueOf from
        funext (taken_valueOf ht e)]
      rfl
    rw [hslot]
    exact hv.ordered i hi (by omega)

/-! ### The operations as their callers see them -/

theorem Valid.sets_none (hv : ht.Valid) (he : ht.idOf e ≤ 0) : Sets ht ht e none := by
  refine ⟨hv, ?_, fun _ => rfl, rfl⟩
  rw [← agenda_eq_none.mpr he, Function.update_eq_self]

/-- Cancelling takes a timer that is set, and says whether it was. -/
theorem Valid.cancel_rule (hv : ht.Valid) (e : ℕ) :
    ∃ ht', ht.cancel e = .ok (if (ht.agenda e).isSome then 1 else 0, ht') ∧ Sets ht ht' e none := by
  rcases lt_trichotomy (ht.idOf e) 0 with hneg | hzero | hpos
  · refine ⟨ht, ?_, hv.sets_none hneg.le⟩
    rw [cancel, if_pos (.inl hneg), agenda_eq_none.mpr hneg.le]
    rfl
  · refine ⟨ht, ?_, hv.sets_none hzero.le⟩
    have hroom := hv.room
    have hid : ht.idAt (ht.idOf e) = .ok (ht.timerIds 0) := by
      rw [hzero]
      exact idAt_eq le_rfl (by omega)
    rw [cancel, if_neg (by omega), agenda_eq_none.mpr hzero.le, hid, ok_bind', if_pos hv.unused]
    rfl
  · obtain ⟨s, hs, hse⟩ := hv.holds.place e hpos
    have hroom := hv.room
    have hused := hv.used hpos
    have hslot : ht.timerIds (ht.idOf e).toNat = s := by
      obtain ⟨a, -, hsa, hid⟩ := hv.holds.slot s hs
      obtain rfl : a = e := by simpa [hse] using hsa.symm
      exact hid
    obtain ⟨ht', hremove, hsets⟩ := hv.remove_rule hs hse
    refine ⟨ht', ?_, hsets⟩
    have hid : ht.idAt (ht.idOf e) = .ok (s : ℤ) := by
      rw [idAt_eq hpos.le hused.1, hslot]
    have hsome : (ht.agenda e).isSome = true := by simp [agenda, hpos]
    rw [cancel, if_neg (by omega), hid, hsome, ok_bind', if_neg (by omega), Int.toNat_natCast,
      heapAt_eq (by omega) hse, ok_bind', if_neg (by simp), hremove]
    rfl

/-- A timer that is not set may be initialized again. -/
theorem Valid.init_rule (hv : ht.Valid) (he : ht.idOf e ≤ 0) :
    (ht.entryInit e).Valid ∧ (ht.entryInit e).agenda = ht.agenda := by
  have hval : (ht.entryInit e).valueOf = ht.valueOf := by
    funext a
    by_cases hae : a = e
    · subst hae
      simp [entryInit, setEntry, valueOf]
    · simp [entryInit, setEntry, valueOf, hae]
  have hid : ∀ a, a ≠ e → (ht.entryInit e).idOf a = ht.idOf a := fun a ha => by
    simp [entryInit, setEntry, idOf, ha]
  have hself : (ht.entryInit e).idOf e = -1 := by simp [entryInit, setEntry, idOf]
  have hmem : ∀ a, 0 < (ht.entryInit e).idOf a ↔ 0 < ht.idOf a := by
    intro a
    by_cases hae : a = e
    · subst hae
      rw [hself]
      omega
    · rw [hid a hae]
  have hsame : ∀ a, 0 < ht.idOf a → (ht.entryInit e).idOf a = ht.idOf a := fun a ha =>
    hid a (by rintro rfl; omega)
  refine ⟨⟨hv.room, ⟨hv.holds.fits, fun a ha => ⟨ha, ?_⟩, fun i hi => ?_, fun a ha => ?_⟩,
    hv.unused, hv.free, ?_⟩, ?_⟩
  · rw [hsame a ((hmem a).mp ha)]
    exact (hv.used ((hmem a).mp ha)).1
  · obtain ⟨a, ha, hia, hida⟩ := hv.holds.slot i hi
    refine ⟨a, (hmem a).mpr ha, hia, ?_⟩
    rw [hsame a ha]
    exact hida
  · exact hv.holds.place a ((hmem a).mp ha)
  · intro i hi hin
    simp only [slotKey, hval]
    exact hv.ordered i hi hin
  · funext a
    by_cases ha : 0 < ht.idOf a
    · rw [agenda, agenda, if_pos ha, if_pos ((hmem a).mpr ha), hval]
    · rw [agenda, agenda, if_neg ha, if_neg fun h => ha ((hmem a).mp h)]

/-- A timer that is set and that no other one comes before. -/
def Earliest (agenda : ℕ → Option TimeVal) (e : ℕ) (t : TimeVal) : Prop :=
  agenda e = some t ∧ ∀ a u, agenda a = some u → t ≤ u

theorem Valid.top_earliest (hv : ht.Valid) (hpos : 0 < ht.curSize) :
    ∃ e, ht.heap 0 = some e ∧ ht.heapAt 0 = .ok e ∧ Earliest ht.agenda e (ht.valueOf e) := by
  obtain ⟨e, he, h0, hat⟩ := hv.holds.heapAt hpos
  refine ⟨e, hat, h0, agenda_eq_some.mpr ⟨he, rfl⟩, fun a u ha => ?_⟩
  obtain ⟨ha0, rfl⟩ := agenda_eq_some.mp ha
  obtain ⟨i, hi, hia⟩ := hv.holds.place a ha0
  have := hv.ordered.top_le hi
  rwa [slotKey_of_some hat, slotKey_of_some hia] at this

theorem Valid.empty (hv : ht.Valid) (hzero : ht.curSize = 0) (e : ℕ) : ht.agenda e = none := by
  rw [agenda_eq_none]
  by_contra hpos
  obtain ⟨i, hi, -⟩ := hv.holds.place e (not_le.mp hpos)
  omega

/-- What a poll that began at `now` says about the time until the next timer. -/
def Awaits (agenda : ℕ → Option TimeVal) (now delay : TimeVal) : Prop :=
  (∀ e, agenda e = none) ∧ delay = forever ∨
    ∃ e t, Earliest agenda e t ∧ delay.inMsec = max 0 (t.inMsec - now.inMsec)

theorem Valid.nextDelay_rule (hv : ht.Valid) (now : TimeVal) :
    ∃ d, ht.nextDelay now = .ok d ∧ Awaits ht.agenda now d := by
  by_cases hcur : ht.curSize = 0
  · refine ⟨forever, ?_, .inl ⟨hv.empty hcur, rfl⟩⟩
    rw [nextDelay, if_neg (by simp [hcur])]
    rfl
  · obtain ⟨e, -, h0, hearly⟩ := hv.top_earliest (by omega)
    set d := (ht.valueOf e).sub now with hd
    refine ⟨if d.sec < 0 ∨ d.msec < 0 then ⟨0, 0⟩ else d, ?_, .inr ⟨e, _, hearly, ?_⟩⟩
    · rw [nextDelay, if_pos hcur, h0]
      rfl
    · have hm : d.inMsec = (ht.valueOf e).inMsec - now.inMsec := TimeVal.inMsec_sub _ _
      obtain ⟨h1, h2, h3, h4⟩ : d.Normalized := TimeVal.normalized_sub _ _
      rw [← hm]
      simp only [TimeVal.inMsec]
      split_ifs with hneg
      · simp only
        omega
      · omega

/-- One look of a poll at the heap: it takes the earliest timer while there is one that is due and
it may take more, and else ends with the time until the next one. -/
theorem Valid.pollRound_rule (hv : ht.Valid) (p : Poll) :
    (∃ e t ht', ht.pollRound p = .ok (.took e { p with count := p.count + 1 }, ht') ∧
      p.count < ht.maxEntriesPerPoll ∧ Earliest ht.agenda e t ∧ t ≤ p.now ∧ Sets ht ht' e none) ∨
    ∃ d, ht.pollRound p = .ok (.ended p.count d, ht) ∧
      (p.count < ht.maxEntriesPerPoll → ∀ e t, ht.agenda e = some t → p.now < t) ∧
      Awaits ht.agenda p.now d := by
  obtain ⟨d, hd, hawaits⟩ := hv.nextDelay_rule p.now
  by_cases hcur : ht.curSize = 0
  · refine .inr ⟨d, ?_, fun _ e t he => ?_, hawaits⟩
    · rw [pollRound, pollTakes, if_neg (by simp [hcur])]
      change ht.nextDelay p.now >>= _ = _
      rw [hd]
      rfl
    · rw [hv.empty hcur] at he
      exact absurd he (by simp)
  obtain ⟨e, hheap, h0, hearly⟩ := hv.top_earliest (by omega)
  have htakes : ht.pollTakes p =
      .ok ((ht.valueOf e).lte p.now && p.count < ht.maxEntriesPerPoll) := by
    rw [pollTakes, if_pos hcur, h0]
    rfl
  by_cases hdue : ht.valueOf e ≤ p.now ∧ p.count < ht.maxEntriesPerPoll
  · obtain ⟨ht', hremove, hsets⟩ := hv.remove_rule (by omega) hheap
    refine .inl ⟨e, _, ht', ?_, hdue.2, hearly, hdue.1, hsets⟩
    rw [pollRound, htakes, TimeVal.lte_iff.mpr hdue.1, decide_eq_true hdue.2]
    change ht.removeNode 0 >>= _ = _
    rw [hremove]
    rfl
  · refine .inr ⟨d, ?_, fun hmore a t ha => ?_, hawaits⟩
    · have hfalse : ((ht.valueOf e).lte p.now && decide (p.count < ht.maxEntriesPerPoll)) = false := by
        rw [Bool.eq_false_iff, ne_eq, Bool.and_eq_true, TimeVal.lte_iff, decide_eq_true_eq]
        exact hdue
      rw [pollRound, htakes, hfalse]
      change ht.nextDelay p.now >>= _ = _
      rw [hd]
      rfl
    · have hlt : p.now < ht.valueOf e := lt_of_not_ge fun h => hdue ⟨h, hmore⟩
      exact hlt.trans_le (hearly.2 a t ha)

/-! ### A whole poll -/

/-- What callers do with the heap: they set timers that are not set, cancel timers, and initialise
timers that are not set. -/
inductive Op : TimerHeap → TimerHeap → Prop
  | schedule {r r' : TimerHeap} {e delay now} : r.schedule e delay now = .ok (.success, r') → Op r r'
  | cancel {r r' : TimerHeap} {e count} : r.cancel e = .ok (count, r') → Op r r'
  | init {r : TimerHeap} {e} : r.agenda e = none → Op r (r.entryInit e)

/-- Between two looks of a poll, while a callback runs, it and the other threads work with the
heap. -/
abbrev Works : TimerHeap → TimerHeap → Prop := Relation.ReflTransGen Op

theorem schedule_eq {delay now : TimeVal} (hcb : (ht.entries e).cb = true) (he : ht.idOf e ≤ 0) :
    ht.schedule e delay now = ht.scheduleEntry e (now.add delay) := by
  rw [schedule, hcb, if_neg (by simp), if_neg (by omega)]

theorem schedule_eq_ok {delay now : TimeVal} {r : TimerStatus × TimerHeap}
    (h : ht.schedule e delay now = .ok r) : (ht.entries e).cb = true ∧ ht.idOf e ≤ 0 := by
  unfold schedule at h
  split_ifs at h with hcb hset
  · exact ⟨by simpa using hcb, by omega⟩

theorem Op.keeps (h : Op ht ht') (hv : ht.Valid) :
    ht'.Valid ∧ ht'.maxEntriesPerPoll = ht.maxEntriesPerPoll := by
  cases h with
  | @schedule _ e delay now hrun =>
    obtain ⟨hcb, he⟩ := schedule_eq_ok hrun
    obtain ⟨r, hop, hsets⟩ := hv.schedule_rule he (now.add delay)
    rw [schedule_eq hcb he, hop] at hrun
    cases hrun
    exact ⟨hsets.valid, hsets.perPoll⟩
  | @cancel _ e count hrun =>
    obtain ⟨r, hop, hsets⟩ := hv.cancel_rule e
    rw [hop] at hrun
    cases hrun
    exact ⟨hsets.valid, hsets.perPoll⟩
  | init he => exact ⟨(hv.init_rule (agenda_eq_none.mp he)).1, rfl⟩

theorem Works.keeps (h : Works ht ht') (hv : ht.Valid) :
    ht'.Valid ∧ ht'.maxEntriesPerPoll = ht.maxEntriesPerPoll := by
  induction h with
  | refl => exact ⟨hv, rfl⟩
  | tail _ hop ih =>
    obtain ⟨hvalid, hper⟩ := hop.keeps ih.1
    exact ⟨hvalid, hper.trans ih.2⟩

/-- `work` is what becomes of the heap while the callback of the timer that was taken last runs. -/
def pollBody (work : List ℕ → TimerHeap → TimerHeap) (s : TimerHeap × Poll × List ℕ) :
    Except TimerFault (Ctl (TimerHeap × Poll × List ℕ) (List ℕ × TimeVal × TimerHeap)) := do
  let (ht, poll, taken) := s
  match ← ht.pollRound poll with
  | (.took e poll, ht) => return .next (work (taken ++ [e]) ht, poll, taken ++ [e])
  | (.ended _ delay, ht) => return .exit (taken, delay, ht)

/-- The timers that `pj_timer_heap_poll` takes, the time it tells and what it leaves. -/
def poll (work : List ℕ → TimerHeap → TimerHeap) (ht : TimerHeap) (now : TimeVal) :
    Except TimerFault (List ℕ × TimeVal × TimerHeap) :=
  if ht.curSize = 0 then .ok ([], forever, ht)
  else loop .hang (pollBody work) (ht.maxEntriesPerPoll + 1) (ht, { now := now }, [])

/-- A poll takes one timer after the other, each of them due and the earliest one of those that are
set then, and takes nothing else; after each the heap is worked with. -/
inductive Polled (now : TimeVal) : TimerHeap → List ℕ → TimerHeap → Prop
  | nil (ht : TimerHeap) : Polled now ht [] ht
  | snoc {ht es ht₁ e t ht₂ ht₃} : Polled now ht es ht₁ → Earliest ht₁.agenda e t → t ≤ now →
      Sets ht₁ ht₂ e none → Works ht₂ ht₃ → Polled now ht (es ++ [e]) ht₃

theorem Polled.keeps {now : TimeVal} {es : List ℕ} (h : Polled now ht es ht') (hv : ht.Valid) :
    ht'.Valid ∧ ht'.maxEntriesPerPoll = ht.maxEntriesPerPoll := by
  induction h with
  | nil => exact ⟨hv, rfl⟩
  | snoc _ _ _ hsets hworks ih =>
    obtain ⟨hvalid, hper⟩ := hworks.keeps hsets.valid
    exact ⟨hvalid, hper.trans (hsets.perPoll.trans ih.2)⟩

section polls

variable {work : List ℕ → TimerHeap → TimerHeap}

theorem pollBody_rule (hwork : ∀ es r, r.Valid → Works r (work es r)) {p : Poll} {es : List ℕ}
    (hv : ht.Valid) (h : Polled p.now ht es ht') (hcount : p.count = es.length) {fuel : ℕ}
    (hfuel : ht.maxEntriesPerPoll < fuel + p.count) (hle : p.count ≤ ht.maxEntriesPerPoll) :
    ∃ es' d r, loop .hang (pollBody work) fuel (ht', p, es) = .ok (es', d, r) ∧
      Polled p.now ht es' r ∧ es'.length ≤ ht.maxEntriesPerPoll ∧
      (es'.length < ht.maxEntriesPerPoll → ∀ e t, r.agenda e = some t → p.now < t) ∧
      Awaits r.agenda p.now d := by
  induction fuel generalizing p es ht' with
  | zero => omega
  | succ fuel ih =>
    obtain ⟨hvalid, hper⟩ := h.keeps hv
    rcases hvalid.pollRound_rule p with ⟨e, t, r, hop, hmore, hearly, hdue, hsets⟩ | ⟨d, hop, hd, ha⟩
    · have hbody : pollBody work (ht', p, es) =
          .ok (.next (work (es ++ [e]) r, { p with count := p.count + 1 }, es ++ [e])) := by
        simp only [pollBody, hop]
        rfl
      rw [hper] at hmore
      rw [loop_next hbody]
      exact ih (p := { p with count := p.count + 1 })
        (h.snoc hearly hdue hsets (hwork _ r hsets.valid)) (by simp [hcount])
        (by simp only; omega) hmore
    · have hbody : pollBody work (ht', p, es) = .ok (.exit (es, d, ht')) := by
        simp only [pollBody, hop]
        rfl
      refine ⟨es, d, ht', loop_exit hbody fuel, h, hcount ▸ hle, fun hlt => hd ?_, ha⟩
      rw [hper, hcount]
      exact hlt

/-- Whatever the callbacks and other threads do with the heap meanwhile, a poll takes what is due in
the order of the times, as much as it may, and says how long the earliest timer that is left has to
wait. -/
theorem poll_takes_due (hwork : ∀ es r, r.Valid → Works r (work es r)) (hv : ht.Valid)
    (now : TimeVal) : ∃ es d ht', ht.poll work now = .ok (es, d, ht') ∧ Polled now ht es ht' ∧
      es.length ≤ ht.maxEntriesPerPoll ∧ (es.length < ht.maxEntriesPerPoll →
        ∀ e t, ht'.agenda e = some t → now < t) ∧ Awaits ht'.agenda now d := by
  unfold poll
  split_ifs with hempty
  · have hnone := hv.empty hempty
    refine ⟨[], forever, ht, rfl, .nil ht, Nat.zero_le _, fun _ e t he => ?_,
      .inl ⟨hnone, rfl⟩⟩
    rw [hnone] at he
    cases he
  · exact pollBody_rule hwork (p := { now := now }) hv (.nil ht) rfl (by simp) (Nat.zero_le _)

end polls

/-- A callback that sets the timer again that it was called for. -/
def setAgain (delay now : TimeVal) (es : List ℕ) (ht : TimerHeap) : TimerHeap :=
  match es.getLast? with
  | some e => match ht.schedule e delay now with
    | .ok (.success, ht') => ht'
    | _ => ht
  | none => ht

theorem setAgain_works (delay now : TimeVal) (es : List ℕ) (ht : TimerHeap) :
    Works ht (setAgain delay now es ht) := by
  unfold setAgain
  split
  · split
    · next hrun => exact .single (.schedule hrun)
    · exact .refl
  · exact .refl

/-- Two timers in a heap that had room for one. -/
def twoTimers : Except TimerFault TimerHeap := do
  let (_, ht) ← (create 0 fun _ => {}).schedule 4 ⟨3, 0⟩ ⟨0, 0⟩
  let (_, ht) ← ht.schedule 9 ⟨1, 5⟩ ⟨0, 0⟩
  return ht

/-- The timers that a poll at 7 s takes, each of which is set again, and the time it tells. -/
theorem twoTimers_poll : ∃ ht es d ht', twoTimers = .ok ht ∧
    ht.poll (setAgain ⟨4, 0⟩ ⟨7, 100⟩) ⟨7, 0⟩ = .ok (es, d, ht') ∧ Polled ⟨7, 0⟩ ht es ht' ∧
    es.length ≤ ht.maxEntriesPerPoll ∧
    (es.length < ht.maxEntriesPerPoll → ∀ e t, ht'.agenda e = some t → ⟨7, 0⟩ < t) ∧
    Awaits ht'.agenda ⟨7, 0⟩ d := by
  obtain ⟨a, ha, hsa⟩ := (create_valid 0 (fun _ => by decide : ∀ _ : ℕ,
    (({} : TimerEntry).timerId ≤ 0))).schedule_rule (e := 4) (by decide) (TimeVal.add ⟨0, 0⟩ ⟨3, 0⟩)
  have hfree : a.idOf 9 ≤ 0 := by
    have : a.agenda 9 = none := by
      rw [hsa.agenda]
      rfl
    exact agenda_eq_none.mp this
  have hcb : (a.entries 9).cb = true := by rw [hsa.cb]; rfl
  obtain ⟨b, hb, hsb⟩ := hsa.valid.schedule_rule hfree (TimeVal.add ⟨0, 0⟩ ⟨1, 5⟩)
  have hwork : ∀ es r, r.Valid → Works r (setAgain ⟨4, 0⟩ ⟨7, 100⟩ es r) :=
    fun es r _ => setAgain_works _ _ es r
  obtain ⟨es, d, ht', hpoll, hpolled⟩ := poll_takes_due hwork hsb.valid ⟨7, 0⟩
  refine ⟨b, es, d, ht', ?_, hpoll, hpolled⟩
  rw [twoTimers, schedule_eq rfl (by decide), ha, ok_bind']
  dsimp only
  rw [schedule_eq hcb hfree, hb]
  rfl

example : (do
    let ht ← twoTimers
    let (es, d, _) ← ht.poll (setAgain ⟨4, 0⟩ ⟨7, 100⟩) ⟨7, 0⟩
    return (es, d) : Except TimerFault (List ℕ × TimeVal)) = .ok ([9, 4], ⟨4, 100⟩) := by
  decide +kernel

end PttTerminal.TimerHeap
