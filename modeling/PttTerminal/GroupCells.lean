import PttTerminal.RegroupLaw
import PttTerminal.SessionFrame

/-!
# The cells of the groups

Whatever the messages do to the list, its groups lie in cells of their own, which hold them and were
used before.
-/
namespace PttTerminal

open Loops LinkedCells

/-- The pools that were released, the latest first. -/
def released (effects : List Effect) : List ℕ :=
  effects.filterMap fun e => match e with
    | .poolRelease i => some i
    | _ => none

/-- The groups `xs` lie in cells of their own. -/
structure Tracked (info : PttInfo) (xs : List (ℕ × GroupInfo)) : Prop where
  nodup : (xs.map Prod.fst).Nodup
  lt_fresh : ∀ p ∈ xs, p.1 < info.fresh
  vl : ∀ p ∈ xs, info.heap.vl p.1 = some p.2

section

variable {info info' : PttInfo} {xs ys l rs : List (ℕ × GroupInfo)} {y : ℕ × GroupInfo}
  {g : GroupInfo}

theorem PttInfo.Groups.tracked (h : info.Groups xs) : Tracked info xs where
  nodup := h.nodup
  lt_fresh _ hp := h.lt_fresh hp
  vl := by
    cases xs with
    | nil => simp
    | cons x xs => exact h.holds.2.vals

theorem Tracked.of_frame (h : Tracked info xs) (hvl : info'.heap.vl = info.heap.vl)
    (hfresh : info.fresh ≤ info'.fresh) : Tracked info' xs where
  nodup := h.nodup
  lt_fresh p hp := (h.lt_fresh p hp).trans_le hfresh
  vl p hp := by rw [hvl, h.vl p hp]

theorem Tracked.sublist (h : Tracked info xs) (hs : ys.Sublist xs) : Tracked info ys where
  nodup := h.nodup.sublist (hs.map Prod.fst)
  lt_fresh p hp := h.lt_fresh p (hs.subset hp)
  vl p hp := h.vl p (hs.subset hp)

/-- What a group that was added changed. -/
theorem Added.frame (h : Added info info' y) :
    y.1 = info.fresh ∧ info.fresh < info'.fresh ∧
      info'.heap.vl = Function.update info.heap.vl y.1 (some y.2) ∧ info'.session = info.session ∧
      info'.effects = info.effects ∧ info'.tmpPools = info.tmpPools ∧
      info'.transports = y.2.transport.toList ++ info.transports ∧
      ∀ t ∈ y.2.transport, t = info.fresh + 1 ∧ t < info'.fresh := by
  obtain ⟨hy, heap, hvl, ⟨ht, rfl⟩ | ⟨ht, rfl⟩⟩ := h
  · exact ⟨hy, by simp, hvl, rfl, rfl, rfl, by simp [ht], by simp [ht]⟩
  · exact ⟨hy, by simp, hvl, rfl, rfl, rfl, by simp [ht], by simp [ht]⟩

/-- What a group that was taken away changed. -/
theorem Freed.frame (h : Freed info info' y) :
    info'.fresh = info.fresh ∧ info'.heap.vl = Function.update info.heap.vl y.1 none ∧
      info'.session = info.session ∧ info'.tmpPools = info.tmpPools ∧
      released info'.effects = y.1 :: released info.effects ∧
      info'.transports.Sublist info.transports ∧
      ∀ ts, info.transports.Perm (y.2.transport.toList ++ ts) → info'.transports.Perm ts := by
  obtain ⟨heap, hvl, rfl⟩ := h
  unfold pjmediaTransportClose
  split
  · next t ht =>
    refine ⟨rfl, hvl, rfl, rfl, rfl, List.erase_sublist, fun ts hts => ?_⟩
    rw [ht] at hts
    simpa using hts.erase t
  · next ht =>
    refine ⟨rfl, hvl, rfl, rfl, rfl, .refl _, fun ts hts => ?_⟩
    rwa [ht] at hts

theorem Tracked.added (h : Tracked info xs) (ha : Added info info' y) :
    Tracked info' (xs ++ [y]) := by
  obtain ⟨hy, hlt, hvl, -⟩ := ha.frame
  have hne : ∀ p ∈ xs, p.1 ≠ y.1 := fun p hp heq => by
    have := h.lt_fresh p hp
    omega
  refine ⟨?_, ?_, ?_⟩
  · rw [List.map_append, List.nodup_append]
    refine ⟨h.nodup, by simp, ?_⟩
    simp only [List.mem_map, List.map_cons, List.map_nil, List.mem_singleton]
    rintro _ ⟨p, hp, rfl⟩ _ rfl
    exact hne p hp
  · intro p hp
    rcases List.mem_append.mp hp with hp | hp
    · exact (h.lt_fresh p hp).trans hlt
    · rw [List.mem_singleton.mp hp, hy]
      exact hlt
  · intro p hp
    rw [hvl]
    rcases List.mem_append.mp hp with hp | hp
    · rw [Function.update_of_ne (hne p hp), h.vl p hp]
    · rw [List.mem_singleton.mp hp, Function.update_self]

theorem Tracked.notMem (h : Tracked info (l ++ y :: rs)) : ∀ p ∈ l ++ rs, p.1 ≠ y.1 := by
  have hperm : ((l ++ y :: rs).map Prod.fst).Perm (y.1 :: (l ++ rs).map Prod.fst) :=
    List.perm_middle.map Prod.fst
  have hnd := List.nodup_cons.mp (hperm.nodup_iff.mp h.nodup)
  exact fun p hp heq => hnd.1 (heq ▸ List.mem_map_of_mem hp)

theorem Tracked.freed (h : Tracked info (l ++ y :: rs)) (hf : Freed info info' y) :
    Tracked info' (l ++ rs) := by
  obtain ⟨hfresh, hvl, -⟩ := hf.frame
  have hsub := h.sublist (List.Sublist.append_left (List.sublist_cons_self y rs) l)
  refine ⟨hsub.nodup, fun p hp => hfresh ▸ hsub.lt_fresh p hp, fun p hp => ?_⟩
  rw [hvl, Function.update_of_ne (h.notMem p hp), hsub.vl p hp]

/-- The cell of a record that is dropped is used, and free again. -/
theorem dropped_vl (hb : ∀ i, info.fresh ≤ i → info.heap i = none) :
    ((info.alloc g).poolRelease info.fresh).heap.vl = info.heap.vl := by
  rw [show ((info.alloc g).poolRelease info.fresh).heap =
    (info.heap.alloc info.fresh g).release info.fresh from rfl, Store.release_vl, Store.alloc_vl,
    Function.update_idem]
  refine Function.update_eq_self_iff.mpr ?_
  rw [Eq.comm, ← Store.eq_none_iff_vl]
  exact hb _ le_rfl

/-- Destroying the list takes its groups away one after the other. -/
theorem groupInfoDestroy_rule {P : PttInfo → List (ℕ × GroupInfo) → Prop}
    (hfreed : ∀ info info' y rs, P info (y :: rs) → Freed info info' y → P info' rs)
    (hmedia : ∀ info xs, P info xs → P (multicastCallEnding info) xs)
    (h : info.Groups xs) (hP : P info xs) (hrun : groupInfoDestroy info = .ok info') :
    ∃ info₁, P info₁ [] ∧ (∀ i, info₁.fresh ≤ i → info₁.heap i = none) ∧
      info' = { info₁ with generalGroup := none, transportId := none } := by
  obtain ⟨info₁, hdestroy, hrun⟩ := bind_eq_ok.mp hrun
  cases hrun
  suffices hok : P info₁ [] ∧ ∀ i, info₁.fresh ≤ i → info₁.heap i = none from
    ⟨info₁, hok.1, hok.2, rfl⟩
  cases xs with
  | nil =>
    have hg : info.generalGroup = none := h.holds
    rw [hg] at hdestroy
    cases hdestroy
    exact ⟨hP, h.bounded⟩
  | cons x xs =>
    have hlen := h.length_le
    rw [h.holds.1] at hdestroy
    have hring : (multicastCallEnding info).heap.Ring x xs := h.holds.2
    have hloop := destroyLoop_rule (P := fun info xs => P info xs ∧
        ∀ i, info.fresh ≤ i → info.heap i = none) ?_
      (show xs.length < info.fresh + 1 by simp only [List.length_cons] at hlen; omega) hring
      ⟨hmedia _ _ hP, h.bounded⟩
    · obtain ⟨info₂, hloop, hok⟩ := hloop
      simp only [pttMediaTransportDestroy, if_true] at hdestroy
      rw [show PttInfo.mk .. = multicastCallEnding info from rfl, hloop] at hdestroy
      cases hdestroy
      exact hok
    · rintro info info' y rs ⟨hP, hb⟩ hf
      refine ⟨hfreed _ _ _ _ hP hf, fun i hi => ?_⟩
      obtain ⟨hfresh, hvl, -⟩ := hf.frame
      rw [Store.eq_none_iff_vl, hvl]
      by_cases hy : i = y.1
      · rw [hy, Function.update_self]
      · rw [Function.update_of_ne hy, ← Store.eq_none_iff_vl]
        exact hb i (hfresh ▸ hi)

end

end PttTerminal
