import PttTerminal.GroupCells
import PttTerminal.MemberDelivery
import PttTerminal.MulticastSession
import PttTerminal.RegroupMessage

/-!
# Who owns the memory of the groups

A pool is created for each group that is read, and a transport is opened for a group that is added
later on. Both go with their group. They are followed through the three readers, of which the loader
starts a new list and leaves the old one behind.
-/
namespace PttTerminal

open Loops LinkedCells Runs

/-- The transports of the groups. -/
def groupTransports (xs : List (ℕ × GroupInfo)) : List ℕ := xs.filterMap fun p => p.2.transport

theorem groupTransports_concat (xs : List (ℕ × GroupInfo)) (y : ℕ × GroupInfo) :
    groupTransports (xs ++ [y]) = groupTransports xs ++ y.2.transport.toList := by
  have hlast : [y].filterMap (fun p => p.2.transport) = y.2.transport.toList := by
    cases hy : y.2.transport <;> simp [hy]
  rw [groupTransports, List.filterMap_append, hlast, groupTransports]

/-- The pools and transports in use are those of the groups `xs`, and no pool was released twice. -/
structure Ledger (info : PttInfo) (xs : List (ℕ × GroupInfo)) : Prop extends Tracked info xs where
  live : ∀ i g, info.heap.vl i = some g → (i, g) ∈ xs
  transports : info.transports.Perm (groupTransports xs)
  transports_lt : ∀ t ∈ info.transports, t < info.fresh
  transports_nodup : info.transports.Nodup
  tmpPools : info.tmpPools = 0
  released_nodup : (released info.effects).Nodup
  released_free : ∀ i ∈ released info.effects, i < info.fresh ∧ info.heap.vl i = none

section ledger

variable {info info' : PttInfo} {xs l rs : List (ℕ × GroupInfo)} {y : ℕ × GroupInfo} {g : GroupInfo}

theorem Ledger.of_frame (h : Ledger info xs) (hvl : info'.heap.vl = info.heap.vl)
    (hfresh : info'.fresh = info.fresh) (htransports : info'.transports = info.transports)
    (htmp : info'.tmpPools = info.tmpPools)
      (hreleased : released info'.effects = released info.effects) :
    Ledger info' xs where
  toTracked := h.toTracked.of_frame hvl hfresh.ge
  live i g hg := h.live i g (hvl ▸ hg)
  transports := htransports ▸ h.transports
  transports_lt t ht := hfresh ▸ h.transports_lt t (htransports ▸ ht)
  transports_nodup := htransports ▸ h.transports_nodup
  tmpPools := htmp.trans h.tmpPools
  released_nodup := hreleased ▸ h.released_nodup
  released_free i hi := by
    rw [hfresh, hvl]
    exact h.released_free i (hreleased ▸ hi)

theorem Ledger.added (h : Ledger info xs) (ha : Added info info' y) : Ledger info' (xs ++ [y]) := by
  obtain ⟨hy, hlt, hvl, -, heffects, htmp, htransports, ht⟩ := ha.frame
  refine ⟨h.toTracked.added ha, ?_, ?_, ?_, ?_, htmp.trans h.tmpPools,
    heffects ▸ h.released_nodup, ?_⟩
  · intro i g hg
    rw [hvl] at hg
    by_cases hi : i = y.1
    · rw [hi, Function.update_self] at hg
      rw [hi, ← Option.some.inj hg]
      simp
    · rw [Function.update_of_ne hi] at hg
      exact List.mem_append_left _ (h.live i g hg)
  · rw [htransports, groupTransports_concat]
    exact List.perm_append_comm.trans (h.transports.append_right _)
  · intro t hmem
    rw [htransports] at hmem
    rcases List.mem_append.mp hmem with hnew | hold
    · exact (ht t (Option.mem_toList.mp hnew)).2
    · exact (h.transports_lt t hold).trans hlt
  · rw [htransports, List.nodup_append]
    refine ⟨by cases y.2.transport <;> simp, h.transports_nodup, ?_⟩
    rintro t hnew _ hold rfl
    have := (ht t (Option.mem_toList.mp hnew)).1
    have := h.transports_lt t hold
    omega
  · intro i hi
    rw [heffects] at hi
    obtain ⟨hi, hfree⟩ := h.released_free i hi
    refine ⟨hi.trans hlt, ?_⟩
    rw [hvl, Function.update_of_ne (by omega), hfree]

theorem Ledger.freed (h : Ledger info (l ++ y :: rs)) (hf : Freed info info' y) :
    Ledger info' (l ++ rs) := by
  obtain ⟨hfresh, hvl, -, htmp, hreleased, hsub, hperm⟩ := hf.frame
  have hy : y ∈ l ++ y :: rs := by simp
  refine ⟨h.toTracked.freed hf, ?_, ?_, ?_, ?_, htmp.trans h.tmpPools, ?_, ?_⟩
  · intro i g hg
    rw [hvl] at hg
    by_cases hi : i = y.1
    · simp [hi] at hg
    · rw [Function.update_of_ne hi] at hg
      have hmem := h.live i g hg
      simp only [List.mem_append, List.mem_cons] at hmem ⊢
      rcases hmem with hmem | rfl | hmem
      · exact .inl hmem
      · exact absurd rfl hi
      · exact .inr hmem
  · refine hperm _ (h.transports.trans ?_)
    rw [groupTransports, groupTransports, List.filterMap_append, List.filterMap_append]
    cases hy : y.2.transport with
    | none => rw [List.filterMap_cons_none (by simpa using hy)]; exact .refl _
    | some t =>
      rw [List.filterMap_cons_some (by simpa using hy)]
      exact List.perm_middle
  · exact fun t ht => hfresh ▸ h.transports_lt t (hsub.subset ht)
  · exact h.transports_nodup.sublist hsub
  · rw [hreleased]
    refine List.nodup_cons.mpr ⟨fun hmem => ?_, h.released_nodup⟩
    have := (h.released_free _ hmem).2
    rw [h.vl y hy] at this
    cases this
  · intro i hi
    rw [hreleased] at hi
    rw [hfresh, hvl]
    rcases List.mem_cons.mp hi with rfl | hi
    · exact ⟨h.lt_fresh y hy, Function.update_self ..⟩
    · obtain ⟨hi, hfree⟩ := h.released_free i hi
      refine ⟨hi, ?_⟩
      by_cases hne : i = y.1
      · rw [hne, Function.update_self]
      · rw [Function.update_of_ne hne, hfree]

theorem Ledger.dropped (h : Ledger info xs) (hb : ∀ i, info.fresh ≤ i → info.heap i = none) :
    Ledger ((info.alloc g).poolRelease info.fresh) xs where
  toTracked := h.toTracked.of_frame (dropped_vl hb) (Nat.le_succ _)
  live i g hg := h.live i g (dropped_vl hb ▸ hg)
  transports := h.transports
  transports_lt t ht := (h.transports_lt t ht).trans (Nat.lt_succ_self _)
  transports_nodup := h.transports_nodup
  tmpPools := h.tmpPools
  released_nodup :=
    List.nodup_cons.mpr ⟨fun hmem => absurd (h.released_free _ hmem).1 (lt_irrefl _),
      h.released_nodup⟩
  released_free i hi := by
    rw [dropped_vl hb]
    rcases List.mem_cons.mp hi with rfl | hi
    · exact ⟨Nat.lt_succ_self _, (Store.eq_none_iff_vl _ _).mp (hb _ le_rfl)⟩
    · exact ⟨(h.released_free i hi).1.trans (Nat.lt_succ_self _), (h.released_free i hi).2⟩

theorem Ledger.endSession {number : Bytes} (h : Ledger info xs)
    (hend : PttTerminal.endSession info number = .ok info') : Ledger info' xs := by
  obtain ⟨hheap, hfresh, heffects, htransports, htmp⟩ := endSession_memory hend
  exact h.of_frame (by rw [hheap]) hfresh htransports htmp (by rw [heffects])

theorem ledger_rule : RegroupRule Ledger where
  added h ha := h.added ha
  dropped hg _ h := h.dropped hg.bounded
  removed h hr := by
    obtain ⟨info₁, head, hend, hfreed⟩ := hr
    have hhead : Ledger { info₁ with generalGroup := head } _ :=
      (h.endSession hend).of_frame rfl rfl rfl rfl rfl
    exact hhead.freed hfreed
  head _ h := h.of_frame rfl rfl rfl rfl rfl
  report _ h := h.of_frame rfl rfl rfl rfl rfl
  reset h := h.of_frame rfl rfl rfl rfl rfl

/-- The loader starts a list once, when there is none. -/
def LedgerOnce (ls : List (List GroupText)) (info : PttInfo) (xs : List (ℕ × GroupInfo)) : Prop :=
  Ledger info xs ∧ ls.length ≤ 1 ∧ (ls ≠ [] → xs = [])

theorem ledgerOnce_rule : LoadRule LedgerOnce where
  added h ha := ⟨h.1.added ha, h.2.1, fun hne => absurd (h.2.2 hne) (by simp)⟩
  replaced := by
    rintro ts ls info info' xs y ⟨h, hlen, hnil⟩ ha
    have hls : ls = [] := by simpa using hlen
    have hy : Ledger info' [y] := by
      rw [hnil (by simp)] at h
      exact h.added ha
    exact ⟨hy.of_frame rfl rfl rfl rfl rfl, by simp [hls], fun hne => absurd hls hne⟩
  signal _ _ h := ⟨h.1.of_frame rfl rfl rfl rfl rfl, h.2⟩

theorem loadGroupInfo_ledger {content : Bytes} (hg : info.Groups xs) (h : Ledger info xs)
    (hload : ∃ ls, Lines LoadLine ls content ∧ ls.length ≤ 1 ∧ (ls ≠ [] → xs = []))
    (hrun : loadGroupInfo info content = .ok info') : ∃ ys, info'.Groups ys ∧ Ledger info' ys := by
  obtain ⟨ls, hl, hlen, hnil⟩ := hload
  obtain ⟨ys, hg', hP, -⟩ := loadGroupInfo_keeps ledgerOnce_rule
    (fun _ _ _ h => ⟨h.1.of_frame rfl rfl rfl rfl rfl, h.2⟩) hg ⟨h, by simp, by simp⟩
    (fun _ => ⟨ls, hl, h, hlen, hnil⟩) hrun
  exact ⟨ys, hg', hP⟩

end ledger

/-! ### Runs of the messages -/

/-- The messages about groups and members, and the destruction of the list. -/
def isGroupEvent : NativeEvent → Bool
  | .groupInfo _ | .regroup _ | .memberInfo _ | .destroy => true
  | _ => false

/-- A list is loaded only while there is none, from a text with one line of groups at most, and so
is the text of a regroup message that no group is kept of; a list of members is that of one
group. -/
def StartsOneList (info : PttInfo) : NativeEvent → Prop
  | .groupInfo content => ∃ ls, Lines LoadLine ls content ∧ ls.length ≤ 1 ∧
    (ls ≠ [] → info.generalGroup = none)
  | .regroup content => ∀ xs, info.Groups xs → kept content xs = [] →
    ∃ ls, Lines LoadLine ls content ∧ ls.length ≤ 1
  | .memberInfo content => ∃ num es, MemberLine num es content []
  | _ => True

/-- The pools and transports in use are those of the groups of the list, each once, and no pool was
released twice. -/
structure Owned (info : PttInfo) (xs : List (ℕ × GroupInfo)) : Prop where
  holds : info.heap.Holds info.generalGroup xs
  pools_nodup : (xs.map Prod.fst).Nodup
  pools : ∀ i, (info.heap.vl i).isSome ↔ i ∈ xs.map Prod.fst
  tmpPools : info.tmpPools = 0
  transports_nodup : info.transports.Nodup
  transports : info.transports.Perm (groupTransports xs)
  released_nodup : (released info.effects).Nodup
  released_free : ∀ i ∈ released info.effects, info.heap i = none

def MemoryOwned (info : PttInfo) : Prop := ∃ xs, Owned info xs

section runs

variable {info info' : PttInfo} {xs : List (ℕ × GroupInfo)} {content : Bytes}

theorem Ledger.owned (hg : info.Groups xs) (h : Ledger info xs) : Owned info xs where
  holds := hg.holds
  pools_nodup := h.nodup
  pools i := by
    rw [Option.isSome_iff_exists, List.mem_map]
    constructor
    · rintro ⟨g, hi⟩
      exact ⟨(i, g), h.live i g hi, rfl⟩
    · rintro ⟨p, hp, rfl⟩
      exact ⟨p.2, h.vl p hp⟩
  tmpPools := h.tmpPools
  transports_nodup := h.transports_nodup
  transports := h.transports
  released_nodup := h.released_nodup
  released_free i hi := (Store.eq_none_iff_vl _ _).mpr (h.released_free i hi).2

/-- The pool of the one group of members is the one that is released. -/
theorem memberInfo_tmpPools {num : Bytes} {es : List MemberEntry}
    (hm : MemberLine num es content [])
    (h : doReceiveMemberInfo info content = .ok info') :
    ∃ effects, info' = { info with effects := effects } ∧
      released effects = released info.effects := by
  have hpos := hm.length_lt
  obtain ⟨k, hk⟩ : ∃ k, content.length = k + 1 := ⟨content.length - 1, by omega⟩
  have hnext := (memberBody_next (x := {})).mpr ⟨num, es, [], hm, rfl⟩
  have hloop : loop .hang memberBody (content.length + 1) ({}, content) = .ok
      { groupNum := strncpy (List.replicate 32 0) num, memberList := some es, tmpPools := 1 } := by
    rw [hk, loop_next hnext]
    exact loop_exit (memberBody_exit.mpr ⟨rfl, rfl⟩) k
  simp only [doReceiveMemberInfo, hloop, ok_bind, receiveMemberInfo] at h
  cases h
  exact ⟨_, rfl, rfl⟩

theorem memberInfo_ledger (hg : info.Groups xs) (h : Ledger info xs)
    (hm : ∃ num es, MemberLine num es content [])
      (hrun : doReceiveMemberInfo info content = .ok info') :
    info'.Groups xs ∧ Ledger info' xs := by
  obtain ⟨num, es, hm⟩ := hm
  obtain ⟨effects, rfl, hreleased⟩ := memberInfo_tmpPools hm hrun
  exact ⟨⟨hg.holds, hg.bounded⟩, h.of_frame rfl rfl rfl rfl hreleased⟩

theorem regroup_ledger (hg : info.Groups xs) (h : Ledger info xs)
    (hload : kept content xs = [] → ∃ ls, Lines LoadLine ls content ∧ ls.length ≤ 1)
    (hrun : cleanupOnRegroup info content = .ok info') :
      ∃ ys, info'.Groups ys ∧ Ledger info' ys := by
  obtain hok | ⟨hk, info₁, hg₁, h₁, -, hrun⟩ := cleanup_rule ledger_rule hg h hrun
  · exact hok
  · obtain ⟨ls, hl, hlen⟩ := hload hk
    exact loadGroupInfo_ledger hg₁ h₁ ⟨ls, hl, hlen, fun _ => rfl⟩ hrun

theorem destroy_ledger (hg : info.Groups xs) (h : Ledger info xs)
    (hrun : pttDestroy info = .ok info') :
    info'.Groups [] ∧ Ledger info' [] := by
  obtain ⟨info₁, hdestroy, hrun⟩ := bind_eq_ok.mp hrun
  cases hrun
  obtain ⟨info₂, h₂, hb, rfl⟩ := groupInfoDestroy_rule (fun info info' y rs h hf =>
      (show Ledger info ([] ++ y :: rs) from h).freed hf)
    (fun _ _ h => h.of_frame rfl rfl rfl rfl rfl) hg h hdestroy
  exact ⟨⟨rfl, hb⟩, h₂.of_frame rfl rfl rfl rfl rfl⟩

theorem group_step (hP : ∃ xs, info.Groups xs ∧ Ledger info xs) {e : NativeEvent}
    (he : isGroupEvent e = true) (hok : StartsOneList info e) (hs : e.step info = .ok info') :
    ∃ xs, info'.Groups xs ∧ Ledger info' xs := by
  obtain ⟨xs, hg, h⟩ := hP
  cases e with
  | groupInfo content =>
    obtain ⟨ls, hl, hlen, hnone⟩ := hok
    refine loadGroupInfo_ledger hg h ⟨ls, hl, hlen, fun hne => ?_⟩ hs
    have hnil := hg.holds
    cases xs with
    | nil => rfl
    | cons x xs => rw [hnone hne] at hnil; cases hnil.1
  | regroup content =>
    have hg' : (info.report .receiveRegroup).Groups xs := ⟨hg.holds, hg.bounded⟩
    have h' : Ledger (info.report .receiveRegroup) xs := h.of_frame rfl rfl rfl rfl rfl
    exact regroup_ledger hg' h' (hok xs hg) hs
  | memberInfo content => exact ⟨xs, memberInfo_ledger hg h hok hs⟩
  | destroy => exact ⟨[], destroy_ledger hg h hs⟩
  | _ => cases he

theorem initial_ledger (udpCreate : Bytes → UInt32 → Bool) :
    Ledger (PttInfo.initial udpCreate) [] where
  nodup := by simp
  lt_fresh := by simp
  vl := by simp
  live i g hg := by simp [PttInfo.initial, Store.vl] at hg
  transports := .refl _
  transports_lt := by simp [PttInfo.initial]
  transports_nodup := by simp [PttInfo.initial]
  tmpPools := rfl
  released_nodup := by simp [PttInfo.initial, released]
  released_free := by simp [PttInfo.initial, released]

/-- In every run of the messages that starts one list at a time, the memory of the groups is owned
by the list. -/
theorem runs_memoryOwned (h : (native isGroupEvent).Reached StartsOneList info) :
    MemoryOwned info := by
  have hledger : ∃ xs, info.Groups xs ∧ Ledger info xs :=
    native_invariant (fun udpCreate => ⟨[], PttInfo.initial_groups udpCreate,
      initial_ledger udpCreate⟩)
      (fun _ _ _ hP he hok hs => group_step hP he hok hs) h
  obtain ⟨xs, hg, h⟩ := hledger
  exact ⟨xs, h.owned hg⟩

end runs

/-- A list of one group. -/
def listA : RegroupText :=
  .one (.sample "A" "1")
    ⟨by decide, by decide, by decide, by decide, by decide, by decide, by decide⟩

def listB : RegroupText :=
  .one (.sample "B" "2")
    ⟨by decide, by decide, by decide, by decide, by decide, by decide, by decide⟩

def membersB : MemberGroup := ⟨ascii "2", ⟨ascii "101", ascii "Ann", 1⟩, []⟩

/-- The group B takes the place of the group A. -/
def exchangeRun : List NativeEvent :=
  [.groupInfo listA.text, .regroup listB.text, .memberInfo (membersB.line [])]

theorem exchange_owned :
    MemoryOwned ((native isGroupEvent).run (.initial fun _ _ => true) exchangeRun) := by
  refine runs_memoryOwned (System.reached_run (native_init _) ?_)
  have hmembers : membersB.WellFormed := by decide
  exact ⟨by decide, ⟨_, listA.load_text, by decide, fun _ => rfl⟩, by decide,
    fun _ _ _ => ⟨_, listB.load_text, by decide⟩, by decide +kernel,
      ⟨_, _, hmembers.memberLine []⟩, trivial⟩

/-- A list that takes the place of another leaves its groups behind. -/
def reloadRun : List NativeEvent := [.groupInfo listA.text, .groupInfo listB.text]

theorem reload_loses_groups :
    ¬ ∀ info, (native isGroupEvent).Reached (fun _ _ => True) info → MemoryOwned info := by
  intro h
  have hrun : (native isGroupEvent).Reached (fun _ _ => True)
    ((native isGroupEvent).run (.initial fun _ _ => true) reloadRun) :=
    System.reached_run (native_init _) (by decide)
  obtain ⟨xs, howned⟩ := h _ hrun
  have hlist : xs.map Prod.fst = [1] := Store.Holds.eq_single howned.holds (by decide)
  have hfirst := (howned.pools 0).mp (by decide)
  rw [hlist] at hfirst
  simp at hfirst

end PttTerminal
