import PttTerminal.GroupLedger

/-!
# The groups that are released

Each group that goes has its transport closed and then its pool released, whether the whole list is
destroyed or a message makes the list shorter, and no other group loses its pool.
-/
namespace PttTerminal

open LinkedCells

/-- What is closed and released with a group. -/
def destruction (y : ℕ × GroupInfo) : List Effect :=
  y.2.transport.toList.map .transportClose ++ [.poolRelease y.1]

/-- The transports that were closed, the latest first. -/
def closed (effects : List Effect) : List ℕ :=
  effects.filterMap fun e => match e with
    | .transportClose t => some t
    | _ => none

/-- The groups `xs` were destroyed, one after the other, and nothing else was reported, closed or
released. -/
structure Destroyed (xs : List (ℕ × GroupInfo)) (info info' : PttInfo) : Prop where
  effects : info'.effects = (xs.flatMap destruction).reverse ++ info.effects
  vl : ∀ i, info'.heap.vl i = if i ∈ xs.map Prod.fst then none else info.heap.vl i
  transports : ∀ ts, info.transports.Perm (groupTransports xs ++ ts) → info'.transports.Perm ts

/-- Each of the numbers `new` was added once to a record, and no other number. -/
def Once (new old record : List ℕ) : Prop :=
  ∀ i, record.count i = old.count i + if i ∈ new then 1 else 0

theorem once_reverse {new : List ℕ} (h : new.Nodup) (old : List ℕ) :
    Once new old (new.reverse ++ old) := by
  intro i
  rw [List.count_append, List.count_reverse, h.count, Nat.add_comm]

section

variable {info info₁ info' : PttInfo} {xs done : List (ℕ × GroupInfo)} {y : ℕ × GroupInfo}

theorem Destroyed.refl (info : PttInfo) : Destroyed [] info info where
  effects := rfl
  vl := by simp
  transports _ h := h

theorem Freed.effects (h : Freed info info' y) :
    info'.effects = (destruction y).reverse ++ info.effects := by
  obtain ⟨heap, -, rfl⟩ := h
  unfold pjmediaTransportClose destruction
  cases y.2.transport <;> rfl

theorem Destroyed.freed (h : Destroyed done info info₁) (hf : Freed info₁ info' y) :
    Destroyed (done ++ [y]) info info' := by
  obtain ⟨-, hvl, -, -, -, -, htransports⟩ := hf.frame
  refine ⟨?_, fun i => ?_, fun ts hts => ?_⟩
  · rw [hf.effects, h.effects]
    simp
  · rw [hvl]
    by_cases hi : i = y.1
    · have hmem : i ∈ (done ++ [y]).map Prod.fst := by simp [hi]
      rw [hi, Function.update_self, if_pos (hi ▸ hmem)]
    · have hmem : i ∈ (done ++ [y]).map Prod.fst ↔ i ∈ done.map Prod.fst := by simp [hi]
      rw [Function.update_of_ne hi, h.vl i]
      simp only [hmem]
  · rw [groupTransports_concat, List.append_assoc] at hts
    exact htransports ts (h.transports _ hts)

/-- What is read off the effects comes from the groups, one after the other. -/
theorem Destroyed.filterMap {α : Type} (h : Destroyed xs info info') (f : Effect → Option α) :
    info'.effects.filterMap f =
      (xs.flatMap fun y => (destruction y).filterMap f).reverse ++ info.effects.filterMap f := by
  rw [h.effects, List.filterMap_append, List.filterMap_reverse, List.filterMap_flatMap]

theorem Destroyed.released (h : Destroyed xs info info') :
    PttTerminal.released info'.effects =
      (xs.map Prod.fst).reverse ++ PttTerminal.released info.effects := by
  have hpool : ∀ y, PttTerminal.released (destruction y) = [y.1] := by
    intro y
    unfold destruction
    cases y.2.transport <;> rfl
  have hlog : (xs.flatMap fun y => PttTerminal.released (destruction y)) = xs.map Prod.fst := by
    simp only [hpool, List.map_eq_flatMap]
  rw [← hlog]
  exact h.filterMap _

/-- A transport is closed for each group that has one. -/
theorem Destroyed.closed (h : Destroyed xs info info') :
    PttTerminal.closed info'.effects =
      (groupTransports xs).reverse ++ PttTerminal.closed info.effects := by
  have htransport : ∀ y, PttTerminal.closed (destruction y) = y.2.transport.toList := by
    intro y
    unfold destruction
    cases y.2.transport <;> rfl
  rw [groupTransports, List.filterMap_eq_flatMap_toList]
  simp only [← htransport]
  exact h.filterMap _

theorem Destroyed.released_once (h : Destroyed xs info info') (hnd : (xs.map Prod.fst).Nodup) :
    Once (xs.map Prod.fst) (PttTerminal.released info.effects)
      (PttTerminal.released info'.effects) := by
  rw [h.released]
  exact once_reverse hnd _

end

/-! ### The whole list -/

section destruction

variable {info : PttInfo} {head : Option ℕ} {xs : List (ℕ × GroupInfo)}

/-- Destroying a list takes its groups away in their order. -/
theorem destroy_list (bforce : Bool) (hb : ∀ i, info.fresh ≤ i → info.heap i = none)
    (h : info.heap.Holds head xs) :
    ∃ info', pttMediaTransportDestroy info head bforce = .ok info' ∧ Destroyed xs info info' := by
  cases xs with
  | nil =>
    obtain rfl : head = none := h
    exact ⟨info, rfl, .refl info⟩
  | cons x xs =>
    obtain rfl : head = some x.1 := h.1
    set info₀ := if bforce then { info with sndPort := false, sndPool := false, stream := false }
      else info with hinfo₀
    have hsame : info₀.heap = info.heap ∧ info₀.fresh = info.fresh ∧
        info₀.effects = info.effects ∧ info₀.transports = info.transports := by
      rw [hinfo₀]
      split_ifs <;> exact ⟨rfl, rfl, rfl, rfl⟩
    obtain ⟨hheap, hfresh, heffects, htransports⟩ := hsame
    have hlen : xs.length < info₀.fresh + 1 := by
      have := Store.Ring.length_lt h.2 hb
      omega
    -- the groups destroyed so far and those still in the list make up the whole list
    let P (info₁ : PttInfo) (rs : List (ℕ × GroupInfo)) : Prop :=
      ∃ done, x :: xs = done ++ rs ∧ Destroyed done info info₁
    have hstart : P info₀ (x :: xs) :=
      ⟨[], rfl, heffects, by simp [hheap], fun ts hts => htransports ▸ hts⟩
    have hstep : ∀ info₁ info₂ y rs, P info₁ (y :: rs) → Freed info₁ info₂ y → P info₂ rs := by
      rintro info₁ info₂ y rs ⟨done, hdone, hdestroyed⟩ hf
      exact ⟨done ++ [y], by simpa using hdone, hdestroyed.freed hf⟩
    obtain ⟨info', hloop, done, hdone, hdestroyed⟩ :=
      destroyLoop_rule hstep hlen (hheap ▸ h.2) hstart
    rw [List.append_nil] at hdone
    exact ⟨info', hloop, hdone ▸ hdestroyed⟩

/-- The loop ends, closes the transport of each group that has one and releases the pool of each
group, once and in this order, and reads no group whose pool is released. -/
theorem media_transport_destroy_releases (info : PttInfo) (head : Option ℕ)
    (xs : List (ℕ × GroupInfo)) (bforce : Bool)
    (hb : ∀ i, info.fresh ≤ i → info.heap i = none) (h : info.heap.Holds head xs) :
    ∃ info', pttMediaTransportDestroy info head bforce = .ok info' ∧ Destroyed xs info info' ∧
      Once (xs.map Prod.fst) (released info.effects) (released info'.effects) ∧
      ((groupTransports xs).Nodup →
        Once (groupTransports xs) (closed info.effects) (closed info'.effects)) := by
  obtain ⟨info', hrun, hdestroyed⟩ := destroy_list bforce hb h
  have hnd : (xs.map Prod.fst).Nodup := by
    cases xs with
    | nil => simp
    | cons x xs => exact h.2.nodup
  refine ⟨info', hrun, hdestroyed, hdestroyed.released_once hnd, fun hdistinct => ?_⟩
  rw [hdestroyed.closed]
  exact once_reverse hdistinct _

/-- Three groups, of which the second one has no transport. -/
def threeGroups : List (ℕ × GroupInfo) :=
  [(0, (GroupText.sample "A" "1").group.setTransport (some 3)),
    (1, (GroupText.sample "B" "2").group),
    (2, (GroupText.sample "C" "3").group.setTransport (some 4))]

/-- The terminal with these groups in a session of the second one. -/
def PttInfo.withThree : PttInfo where
  __ := PttInfo.initial fun _ _ => true
  heap i :=
    if i = 0 then some ⟨2, 1, (GroupText.sample "A" "1").group.setTransport (some 3)⟩
    else if i = 1 then some ⟨0, 2, (GroupText.sample "B" "2").group⟩
    else if i = 2 then some ⟨1, 0, (GroupText.sample "C" "3").group.setTransport (some 4)⟩
    else none
  fresh := 5
  generalGroup := some 0
  pttState := .busy
  gCurrentGroup := some 1
  transports := [4, 3]

theorem PttInfo.withThree_groups : PttInfo.withThree.Groups threeGroups where
  holds := ⟨rfl, by decide, ⟨⟨rfl, rfl⟩, ⟨rfl, rfl⟩, rfl, rfl⟩,
    by simp [PttInfo.withThree, Store.vl]⟩
  bounded i hi := by
    have hi' : 5 ≤ i := hi
    simp only [PttInfo.withThree]
    rw [if_neg (by omega), if_neg (by omega), if_neg (by omega)]

theorem three_groups_destroyed : ∃ info',
    pttMediaTransportDestroy PttInfo.withThree (some 0) true = .ok info' ∧
      Destroyed threeGroups PttInfo.withThree info' ∧
      Once [0, 1, 2] (released PttInfo.withThree.effects) (released info'.effects) ∧
      ((groupTransports threeGroups).Nodup →
        Once [3, 4] (closed PttInfo.withThree.effects) (closed info'.effects)) :=
  media_transport_destroy_releases PttInfo.withThree (some 0) threeGroups true
    PttInfo.withThree_groups.bounded PttInfo.withThree_groups.holds

end destruction

/-! ### The two passes -/

section passes

variable {info info₁ info' : PttInfo} {cur done : List (ℕ × GroupInfo)} {y : ℕ × GroupInfo}

/-- `group_num` has 32 bytes, and what is searched for ends with a zero in it. -/
def Pass.Fits (pass : Pass) (g : GroupInfo) : Prop := (pass.num g.number).length < 32

instance (pass : Pass) : DecidablePred pass.Fits :=
  fun g => inferInstanceAs (Decidable ((pass.num g.number).length < 32))

/-- The list is left with the groups that are kept, in their order, and the others were destroyed,
each of their pools once. -/
structure Cleans (keeps : GroupInfo → Bool) (cur : List (ℕ × GroupInfo))
    (info info' : PttInfo) : Prop where
  groups : info'.Groups (cur.filter fun p => keeps p.2)
  destroyed : Destroyed (cur.filter fun p => !keeps p.2) info info'
  once : Once ((cur.filter fun p => !keeps p.2).map Prod.fst) (released info.effects)
    (released info'.effects)

theorem Destroyed.removed {pass : Pass} (h : Destroyed done info info₁)
    (hr : pass.Removed info₁ info' y) : Destroyed (done ++ [y]) info info' := by
  obtain ⟨info₂, head, hend, hf⟩ := hr
  have hkept := Pass.endSession_kept hend
  have hdone : Destroyed done info { info₂ with generalGroup := head } := by
    refine ⟨?_, fun i => ?_, fun ts hts => ?_⟩
    · rw [← h.effects]
      exact hkept.effects
    · rw [← h.vl i]
      exact congrFun (congrArg Store.vl hkept.heap) i
    · have hperm := h.transports ts hts
      rwa [← hkept.transports] at hperm
  exact hdone.freed hf

/-- A pass destroys the groups that are not kept, in their order. -/
theorem Pass.cleans (pass : Pass) (content : Bytes) (h : info.Groups cur)
    (hr : info.SessionReadable) :
    ∃ info', pass.deleteGroups content info = .ok info' ∧
      Cleans (pass.keeps content) cur info info' := by
  let drop (xs : List (ℕ × GroupInfo)) := xs.filter fun p => !pass.keeps content p.2
  -- the groups destroyed so far and those of the list still to be destroyed are all that go
  let P (info₁ : PttInfo) (xs : List (ℕ × GroupInfo)) : Prop :=
    ∃ done, drop cur = done ++ drop xs ∧ Destroyed done info info₁
  have hremoved : ∀ info₁ info₂ y l rs, (∀ p ∈ l, pass.keeps content p.2 = true) →
      pass.keeps content y.2 = false → P info₁ (l ++ y :: rs) → pass.Removed info₁ info₂ y →
      P info₂ (l ++ rs) := by
    rintro info₁ info₂ y l rs hl hy ⟨done, hdone, hdestroyed⟩ hrem
    have hkept : drop l = [] := by
      rw [List.filter_eq_nil_iff]
      intro p hp
      simp [hl p hp]
    refine ⟨done ++ [y], ?_, hdestroyed.removed hrem⟩
    have hleft : drop (l ++ y :: rs) = y :: drop (l ++ rs) := by
      simp only [drop, List.filter_append] at hkept ⊢
      rw [hkept]
      simp [hy]
    rw [hdone, hleft, List.append_assoc, List.singleton_append]
  have hhead : ∀ info₁ xs head, P info₁ xs → P { info₁ with generalGroup := head } xs := by
    rintro info₁ xs head ⟨done, hdone, hdestroyed⟩
    exact ⟨done, hdone, hdestroyed.effects, hdestroyed.vl, hdestroyed.transports⟩
  obtain ⟨info', hrun, hgroups, done, hdone, hdestroyed⟩ :=
    pass.deleteGroups_rule hremoved hhead h ⟨[], rfl, .refl info⟩ (.inr hr)
  have hnone : drop (cur.filter fun p => pass.keeps content p.2) = [] := by
    simp [drop, List.filter_filter]
  rw [hnone, List.append_nil] at hdone
  have hnd : ((drop cur).map Prod.fst).Nodup := h.nodup.sublist (List.filter_sublist.map Prod.fst)
  rw [← hdone] at hdestroyed
  exact ⟨info', hrun, hgroups, hdestroyed, hdestroyed.released_once hnd⟩

/-- Both passes end, without an access to a group that was released, when the numbers fit and the
session, if there is one, is that of a group of the list. -/
theorem deletion_passes_clean (info : PttInfo) (cur : List (ℕ × GroupInfo)) (content : Bytes)
    (h : info.Groups cur) (hn : ∀ p ∈ cur, p.2.number.length ≤ 30)
    (hs : info.pttState = .uninit ∨ ∃ p ∈ cur, info.gCurrentGroup = some p.1) :
    (∃ info', regroupPass.copyGroups regroupPass.Fits content info = .ok info' ∧
      deleteGroups content info = .ok info' ∧ Cleans (mentions content) cur info info') ∧
    ∃ info', messagePass.copyGroups messagePass.Fits content info = .ok info' ∧
      messageDeleteGroups content info = .ok info' ∧
      Cleans (messageMentions content) cur info info' := by
  have hr : info.SessionReadable := by
    refine hs.imp id ?_
    rintro ⟨p, hp, hcur⟩
    exact ⟨p.1, hcur, by rw [h.tracked.vl p hp]; rfl⟩
  have hpass : ∀ pass : Pass, (∀ p ∈ cur, pass.Fits p.2) →
      ∃ info', pass.copyGroups pass.Fits content info = .ok info' ∧
        pass.deleteGroups content info = .ok info' ∧
        Cleans (pass.keeps content) cur info info' := by
    intro pass hfits
    obtain ⟨info', hrun, hclean⟩ := pass.cleans content h hr
    refine ⟨info', ?_, hrun, hclean⟩
    rw [pass.copyGroups_eq pass.Fits content h hfits, hrun, Checked.lift_ok]
  refine ⟨hpass regroupPass fun p hp => ?_, hpass messagePass fun p hp => ?_⟩
  · have := hn p hp
    simp only [Pass.Fits, regroupPass, List.length_append, List.length_singleton]
    omega
  · have := hn p hp
    simp only [Pass.Fits, messagePass]
    omega

/-- Around the second group, which the session is of, the others are deleted. -/
theorem three_groups_cleaned :
    (∃ info', regroupPass.copyGroups regroupPass.Fits (ascii "B,2,") PttInfo.withThree = .ok info' ∧
      deleteGroups (ascii "B,2,") PttInfo.withThree = .ok info' ∧
      Cleans (mentions (ascii "B,2,")) threeGroups PttInfo.withThree info') ∧
    ∃ info', messagePass.copyGroups messagePass.Fits (ascii "B,2,") PttInfo.withThree = .ok info' ∧
      messageDeleteGroups (ascii "B,2,") PttInfo.withThree = .ok info' ∧
      Cleans (messageMentions (ascii "B,2,")) threeGroups PttInfo.withThree info' :=
  deletion_passes_clean PttInfo.withThree threeGroups (ascii "B,2,") PttInfo.withThree_groups
    (by decide) (.inr ⟨(1, (GroupText.sample "B" "2").group), by simp [threeGroups], rfl⟩)

end passes

end PttTerminal
