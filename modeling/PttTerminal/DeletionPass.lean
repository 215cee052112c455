import PttTerminal.GroupMessage
import PttTerminal.Library.Checked

/-!
# A pass that deletes groups

The groups whose number the content does not contain are taken out of the list while it is walked.
The groups already kept stand before the current one and the groups still to be looked at behind
it. A group is deleted from the middle of a circle, so that the walk may come to its start with
everything done and go round once more; then nothing is deleted. The native code has this loop
twice, for the regroup message and for the older one.
-/
namespace PttTerminal

open Loops LinkedCells
open Checked (Stop lift check)

/-- No session, or one whose group can be read. -/
def PttInfo.SessionReadable (info : PttInfo) : Prop :=
  info.pttState = .uninit ∨ ∃ i, info.gCurrentGroup = some i ∧ (info.heap.vl i).isSome

/-- The list of groups, and what was reported, closed and released, are as they were. -/
structure ListKept (info info' : PttInfo) : Prop where
  heap : info'.heap = info.heap
  fresh : info'.fresh = info.fresh
  generalGroup : info'.generalGroup = info.generalGroup
  effects : info'.effects = info.effects
  transports : info'.transports = info.transports

theorem ListKept.refl (info : PttInfo) : ListKept info info := ⟨rfl, rfl, rfl, rfl, rfl⟩

theorem pttCloseMedia_kept (info : PttInfo) : ListKept info (pttCloseMedia info) := by
  unfold pttCloseMedia
  dsimp only
  split_ifs <;> exact ⟨rfl, rfl, rfl, rfl, rfl⟩

/-- The text that the content is searched for, as it stands in `group_num`, and how the session
is ended. -/
structure Pass where
  num : Bytes → Bytes
  quit : PttInfo → PttInfo
  quit_list : ∀ info, ListKept info (quit info)
  quit_state : ∀ info, (quit info).pttState = .uninit

namespace Pass

def keeps (pass : Pass) (content : Bytes) (g : GroupInfo) : Bool :=
  cString (pass.num g.number) <:+: cString content

/-- A session ends when the group that is deleted has the number of its group. -/
def endSession (pass : Pass) (info : PttInfo) (number : Bytes) : Except Fault PttInfo := do
  if info.pttState ≠ .uninit then
    let (_, cur) ← info.deref info.gCurrentGroup
    if cur.val.number = number then return { pass.quit info with gCurrentGroup := none }
    else return info
  else return info

def deleteGroup (pass : Pass) (info : PttInfo) (nodeErase node : ℕ) (number : Bytes) :
    Except Fault PttInfo := do
  let info ← pass.endSession info number
  let info := if info.generalGroup = some nodeErase then { info with generalGroup := some node }
    else info
  let heap ← live (info.heap.erase nodeErase)
  pttMediaTransportDestroy { info with heap := heap } (some nodeErase) false

def deleteBody (pass : Pass) (content : Bytes) (s : PttInfo × ℕ) :
    Except Fault (Ctl (PttInfo × ℕ) (PttInfo × ℕ × Option ℕ)) := do
  let (info, nodeErase) := s
  let c ← live (info.heap nodeErase)
  let node := c.next
  if pass.keeps content c.val then
    if info.generalGroup ≠ some node then return .next (info, node)
    else return .exit (info, node, none)
  else
    let info ← pass.deleteGroup info nodeErase node c.val.number
    let bContinue := info.generalGroup = some node ∧ node ≠ nodeErase
    if info.generalGroup ≠ some node ∨ bContinue then return .next (info, node)
    else return .exit (info, node, some nodeErase)

/-- Every group is looked at twice at most. -/
def deleteGroups (pass : Pass) (content : Bytes) (info : PttInfo) : Except Fault PttInfo :=
  match info.generalGroup with
  | none => .ok info
  | some head => do
    let (info, node, nodeErase) ←
      loop .hang (pass.deleteBody content) (2 * info.fresh + 1) (info, head)
    if nodeErase = some node then return { info with generalGroup := none } else return info

section copies

variable (pass : Pass) (room : GroupInfo → Prop) [DecidablePred room]

/-- One round in which the group has to have room where it is copied to. -/
def copyBody (content : Bytes) (s : PttInfo × ℕ) :
    Except (Stop Fault) (Ctl (PttInfo × ℕ) (PttInfo × ℕ × Option ℕ)) := do
  let c ← lift (live (s.1.heap s.2))
  check (room c.val)
  lift (pass.deleteBody content s)

def copyGroups (content : Bytes) (info : PttInfo) : Except (Stop Fault) PttInfo :=
  match info.generalGroup with
  | none => .ok info
  | some head => do
    let (info, node, nodeErase) ←
      loop (.fault .hang) (pass.copyBody room content) (2 * info.fresh + 1) (info, head)
    if nodeErase = some node then return { info with generalGroup := none } else return info

end copies

end Pass

section rotations

variable {heap : Store ℕ GroupInfo} {head : Option ℕ} {y : ℕ × GroupInfo}
  {l rs : List (ℕ × GroupInfo)}

/-- The list seen from one of its cells. -/
theorem ring_at (h : heap.Holds head (l ++ y :: rs)) : heap.Ring y (rs ++ l) := by
  cases l with
  | nil => simpa using h.2
  | cons p l => exact h.2.rotate

/-- The list seen from its head again. -/
theorem holds_of_ring_at {p : ℕ × GroupInfo} (h : heap.Ring y (rs ++ p :: l)) :
    heap.Holds (some p.1) (p :: l ++ y :: rs) := ⟨rfl, h.rotate⟩

/-- After the cell `y` the list goes on with `rs`, or starts again. -/
theorem cell_at (h : heap.Holds head (l ++ y :: rs)) :
    ∃ c, heap y.1 = some c ∧ c.next = ((rs ++ l).head?.getD y).1 ∧ c.val = y.2 :=
  (ring_at h).cell_of_split (l := []) rfl

end rotations

/-! ### One round -/

namespace Pass

theorem endSession_error (pass : Pass) {info : PttInfo} (h : ¬ info.SessionReadable)
    (number : Bytes) : ∃ e, pass.endSession info number = .error e := by
  simp only [PttInfo.SessionReadable, not_or, not_exists, not_and] at h
  cases hg : info.gCurrentGroup with
  | none =>
    exact ⟨.nullPointer, by simp [Pass.endSession, h.1, hg, PttInfo.deref, bind, Except.bind]⟩
  | some i =>
    have hnone : info.heap i = none := by
      rw [Store.eq_none_iff_vl]
      simpa using h.2 i hg
    exact ⟨.useAfterFree,
      by simp [Pass.endSession, h.1, hg, PttInfo.deref, hnone, live, bind, Except.bind]⟩

/-- Whatever becomes of the session, the groups stay as they are, and a session that goes on is
not the one of the group with this number. -/
theorem endSession_ok (pass : Pass) {info : PttInfo} (h : info.SessionReadable) (number : Bytes) :
    ∃ info', pass.endSession info number = .ok info' ∧ ListKept info info' ∧
      (info'.pttState = .uninit ∨ ∃ i g, info'.gCurrentGroup = some i ∧ info'.heap.vl i = some g ∧
        g.number ≠ number) := by
  by_cases hu : info.pttState = .uninit
  · exact ⟨info, by simp [Pass.endSession, hu, pure, Except.pure], .refl info, .inl hu⟩
  · obtain ⟨i, hi, hlive⟩ := h.resolve_left hu
    obtain ⟨c, hc, -, -, hcv⟩ := Store.exists_cell hlive
    by_cases hnum : c.val.number = number
    · refine ⟨{ pass.quit info with gCurrentGroup := none }, ?_, ?_,
        .inl (pass.quit_state info)⟩
      · simp [Pass.endSession, hu, hi, PttInfo.deref, hc, hnum, bind, Except.bind, pure,
          Except.pure]
      · obtain ⟨hheap, hfresh, hgeneral, heffects, htransports⟩ := pass.quit_list info
        exact ⟨hheap, hfresh, hgeneral, heffects, htransports⟩
    · refine ⟨info, ?_, .refl info, .inr ⟨i, c.val, hi, hcv, hnum⟩⟩
      simp [Pass.endSession, hu, hi, PttInfo.deref, hc, hnum, bind, Except.bind, pure, Except.pure]

theorem endSession_kept {pass : Pass} {info info' : PttInfo} {number : Bytes}
    (h : pass.endSession info number = .ok info') :
    ListKept info info' := by
  by_cases hr : info.SessionReadable
  · obtain ⟨info₁, hrun, hkept, -⟩ := pass.endSession_ok hr number
    rw [hrun] at h
    cases h
    exact hkept
  · obtain ⟨e, he⟩ := pass.endSession_error hr number
    simp [he] at h

section rounds

variable {pass : Pass} {info : PttInfo} {content : Bytes} {p y z : ℕ × GroupInfo}
  {l rs xs : List (ℕ × GroupInfo)}

theorem head_ne_of_holds {heap : Store ℕ GroupInfo} {head : Option ℕ}
    (h : heap.Holds head (l ++ y :: z :: rs)) : head ≠ some z.1 := by
  cases l with
  | nil =>
    rw [h.1]
    exact fun he => h.2.notMem (by simp) (Option.some.inj he).symm
  | cons p l =>
    rw [h.1]
    exact fun he => h.2.notMem (p := z) (by simp) (Option.some.inj he).symm

theorem kept_next (h : info.Groups (l ++ y :: z :: rs)) (hy : pass.keeps content y.2 = true) :
    pass.deleteBody content (info, y.1) = .ok (.next (info, z.1)) := by
  obtain ⟨c, hc, hn, hv⟩ := cell_at h.holds
  have hn' : c.next = z.1 := by simpa using hn
  have hne := head_ne_of_holds h.holds
  simp [Pass.deleteBody, hc, hv, hy, hn', hne, bind, Except.bind, pure, Except.pure]

theorem kept_last (h : info.Groups (l ++ [y])) (hy : pass.keeps content y.2 = true) :
    ∃ node, pass.deleteBody content (info, y.1) = .ok (.exit (info, node, none)) := by
  obtain ⟨c, hc, hn, hv⟩ := cell_at h.holds
  have hhead : info.generalGroup = some c.next := by
    cases l with
    | nil => simpa [hn] using h.holds.1
    | cons p l => simpa [hn] using h.holds.1
  exact ⟨c.next, by simp [Pass.deleteBody, hc, hv, hy, hhead, bind, Except.bind, pure, Except.pure]⟩

/-- The group `y` was taken away, and the session ended if it was the one of its number. -/
def Removed (pass : Pass) (info info' : PttInfo) (y : ℕ × GroupInfo) : Prop :=
  ∃ info₁ head, pass.endSession info y.2.number = .ok info₁ ∧
    Freed { info₁ with generalGroup := head } info' y

/-- The variables after a group was deleted. -/
structure Deleted (pass : Pass) (info : PttInfo) (y : ℕ × GroupInfo) (head : Option ℕ)
    (info' : PttInfo) : Prop where
  readable : info'.SessionReadable
  bounded : ∀ i, info'.fresh ≤ i → info'.heap i = none
  fresh : info'.fresh = info.fresh
  general : info'.generalGroup = head
  removed : pass.Removed info info' y

theorem deleteGroup_ok (pass : Pass) {heap : Store ℕ GroupInfo} (node : ℕ)
    (hr : info.SessionReadable)
    (hb : ∀ i, info.fresh ≤ i → info.heap i = none) (hy : info.heap.vl y.1 = some y.2)
    (he : info.heap.erase y.1 = some heap) (hself : heap.Linked y.1 y.1)
    (hvl : heap.vl = info.heap.vl) :
    ∃ info', pass.deleteGroup info y.1 node y.2.number = .ok info' ∧
      pass.Deleted info y
        (if info.generalGroup = some y.1 then some node else info.generalGroup) info' ∧
      ∀ head xs, heap.Holds head xs → y.1 ∉ xs.map Prod.fst → info'.heap.Holds head xs := by
  obtain ⟨info₁, h₁, ⟨hheap, hfresh, hgen, -, -⟩, hses⟩ := pass.endSession_ok hr y.2.number
  set head := if info.generalGroup = some y.1 then some node else info.generalGroup
  have hhead : (if info₁.generalGroup = some y.1 then { info₁ with generalGroup := some node } else
      info₁) = { info₁ with generalGroup := head } := by
    simp only [head, hgen]
    split_ifs
    · rfl
    · rw [← hgen]
  set info₂ : PttInfo := { info₁ with generalGroup := head, heap := heap } with hinfo₂
  obtain ⟨info', h', hfreed, hholds⟩ := info₂.destroy (g := y.2) hself (hvl ▸ hy)
  obtain ⟨heap', hvl', hframe⟩ := hfreed
  obtain ⟨e, o, hclose⟩ := pjmediaTransportClose_eq info₂ y.2
  rw [hclose] at hframe
  have hvl₂ : heap'.vl = Function.update info.heap.vl y.1 none := by
    rw [hvl', show info₂.heap = heap from rfl, hvl]
  refine ⟨info', ?_, ⟨?_, fun i hi => ?_, ?_, ?_, info₁, head, h₁, ?_⟩, hholds⟩
  · have herase : ({ info₁ with generalGroup := head } : PttInfo).heap.erase y.1 = some heap := by
      simpa [hheap] using he
    simp only [Pass.deleteGroup, h₁, bind, Except.bind, hhead, herase, live_some]
    exact h'
  · rw [PttInfo.SessionReadable, hframe]
    refine hses.imp id ?_
    rintro ⟨i, g, hi, hg, hnum⟩
    refine ⟨i, hi, ?_⟩
    have hne : i ≠ y.1 := by
      rintro rfl
      rw [hheap, hy] at hg
      exact hnum (congrArg GroupInfo.number (Option.some.inj hg).symm)
    have : heap'.vl i = some g := by
      rw [hvl₂, Function.update_of_ne hne, ← hheap, hg]
    simp [this]
  · have hi' : info.fresh ≤ i := by rw [hframe] at hi; simpa [hinfo₂, hfresh] using hi
    have := hb i hi'
    rw [Store.eq_none_iff_vl] at this ⊢
    rw [hframe]
    change heap'.vl i = none
    rw [hvl₂]
    by_cases hiy : i = y.1
    · simp [hiy]
    · rwa [Function.update_of_ne hiy]
  · rw [hframe]; exact hfresh
  · rw [hframe]
  · have hfreed : Freed { { info₁ with generalGroup := head } with heap := heap } info' y :=
      ⟨heap', hvl', by rw [hframe, hclose]⟩
    exact hfreed.of_vl (hvl.trans (congrArg Store.vl hheap).symm)

theorem notMem_at (h : info.Groups (l ++ y :: rs)) : y.1 ∉ (l ++ rs).map Prod.fst := by
  have hnd := (ring_at h.holds).nodup
  rw [List.map_cons, List.nodup_cons] at hnd
  intro hmem
  apply hnd.1
  simp only [List.map_append, List.mem_append] at hmem ⊢
  exact hmem.symm

/-- A group that stands behind a kept one is deleted and the walk goes on behind it, at the head
again if it was the last one. -/
theorem delete_behind (h : info.Groups (p :: l ++ y :: rs)) (hy : pass.keeps content y.2 = false)
    (hr : info.SessionReadable) :
    ∃ info', pass.deleteBody content (info, y.1) = .ok (.next (info', (rs.head?.getD p).1)) ∧
      info'.Groups (p :: l ++ rs) ∧ info'.SessionReadable ∧ pass.Removed info info' y := by
  obtain ⟨c, hc, hn, hv⟩ := cell_at h.holds
  have hring := ring_at h.holds
  have hyp : p.1 ≠ y.1 := by
    rintro he
    exact notMem_at h (by simp [he])
  have hgen : info.generalGroup = some p.1 := h.holds.1
  have hnode : c.next = (rs.head?.getD p).1 := by rw [hn]; cases rs <;> simp
  have hvl : info.heap.vl y.1 = some y.2 := hring.vals y (by simp)
  obtain ⟨heap, he, hself, hvl', hholds⟩ : ∃ heap, info.heap.erase y.1 = some heap ∧
      heap.Linked y.1 y.1 ∧ heap.vl = info.heap.vl ∧ heap.Holds (some p.1) (p :: l ++ rs) := by
    cases rs with
    | nil =>
      obtain ⟨t, ht, hr', hl, hv'⟩ := Store.Ring.erase (by simpa using hring)
      exact ⟨t, ht, hl, hv', rfl, by simpa using hr'⟩
    | cons z rs =>
      obtain ⟨t, ht, hr', hl, hv'⟩ := Store.Ring.erase (by simpa using hring)
      exact ⟨t, ht, hl, hv', holds_of_ring_at hr'⟩
  obtain ⟨info', h', hdel, hkeep⟩ := deleteGroup_ok pass c.next hr h.bounded hvl he hself hvl'
  have hgen' : info'.generalGroup = some p.1 := by
    rw [hdel.general, hgen, if_neg (by simpa using hyp)]
  refine ⟨info', ?_, ⟨?_, hdel.bounded⟩, hdel.readable, hdel.removed⟩
  · have hcont : info'.generalGroup ≠ some c.next ∨
        info'.generalGroup = some c.next ∧ c.next ≠ y.1 := by
      by_cases hg : info'.generalGroup = some c.next
      · refine .inr ⟨hg, ?_⟩
        rw [hgen'] at hg
        rw [← Option.some.inj hg]
        exact hyp
      · exact .inl hg
    simp only [Pass.deleteBody, hc, live_some, bind, Except.bind, hv, hy, Bool.false_eq_true,
      if_false, h',
      hcont, if_true, pure, Except.pure, ← hnode]
  · rw [hgen']
    exact hkeep _ _ hholds (notMem_at h)

/-- The first group is deleted and the next one becomes the head. -/
theorem delete_first (h : info.Groups (y :: z :: rs)) (hy : pass.keeps content y.2 = false)
    (hr : info.SessionReadable) :
    ∃ info', pass.deleteBody content (info, y.1) = .ok (.next (info', z.1)) ∧
      info'.Groups (z :: rs) ∧ info'.SessionReadable ∧ pass.Removed info info' y := by
  obtain ⟨c, hc, hn, hv⟩ := cell_at (l := []) h.holds
  have hnode : c.next = z.1 := by simpa using hn
  have hgen : info.generalGroup = some y.1 := h.holds.1
  have hyz : z.1 ≠ y.1 := h.holds.2.notMem (by simp)
  obtain ⟨heap, he, hring, hself, hvl'⟩ := h.holds.2.erase
  obtain ⟨info', h', hdel, hkeep⟩ := deleteGroup_ok pass c.next hr h.bounded
    (h.holds.2.vals y (by simp)) he hself hvl'
  have hgen' : info'.generalGroup = some z.1 := by rw [hdel.general, hgen, if_pos rfl, hnode]
  rw [hnode] at h'
  refine ⟨info', ?_, ⟨?_, hdel.bounded⟩, hdel.readable, hdel.removed⟩
  · simp only [Pass.deleteBody, hc, live_some, bind, Except.bind, hv, hy, Bool.false_eq_true,
      if_false, h',
      hnode, hgen', ne_eq, hyz, not_false_eq_true, and_self, or_true, if_true, pure, Except.pure]
  · rw [hgen']
    exact hkeep _ _ ⟨rfl, hring⟩ (notMem_at (l := []) h)

/-- The only group is deleted, and the walk ends at its address. -/
theorem delete_only (h : info.Groups [y]) (hy : pass.keeps content y.2 = false)
    (hr : info.SessionReadable) :
    ∃ info', pass.deleteBody content (info, y.1) = .ok (.exit (info', y.1, some y.1)) ∧
      (∀ i, info'.fresh ≤ i → info'.heap i = none) ∧ pass.Removed info info' y := by
  obtain ⟨c, hc, hn, hv⟩ := cell_at (l := []) h.holds
  have hnode : c.next = y.1 := by simpa using hn
  have hgen : info.generalGroup = some y.1 := h.holds.1
  obtain ⟨heap, he, hring, hvl'⟩ := h.holds.2.erase_single
  obtain ⟨info', h', hdel, -⟩ := deleteGroup_ok pass c.next hr h.bounded
    (h.holds.2.vals y (by simp)) he hring.path hvl'
  have hgen' : info'.generalGroup = some y.1 := by rw [hdel.general, hgen, if_pos rfl, hnode]
  rw [hnode] at h'
  refine ⟨info', ?_, hdel.bounded, hdel.removed⟩
  simp only [Pass.deleteBody, hc, live_some, bind, Except.bind, hv, hy, Bool.false_eq_true,
    if_false, h', hnode, hgen', ne_eq, not_true_eq_false, and_false, or_self, if_false, pure, Except.pure]

theorem delete_error (h : info.Groups (l ++ y :: rs)) (hy : pass.keeps content y.2 = false)
    (hr : ¬ info.SessionReadable) : ∃ e, pass.deleteBody content (info, y.1) = .error e := by
  obtain ⟨c, hc, -, hv⟩ := cell_at h.holds
  obtain ⟨e, he⟩ := pass.endSession_error hr y.2.number
  exact ⟨e, by simp [Pass.deleteBody, hc, hv, hy, Pass.deleteGroup, he, bind, Except.bind]⟩

end rounds

/-! ### The whole pass -/

section pass

variable {pass : Pass} {info : PttInfo} {content : Bytes} {y : ℕ × GroupInfo}
  {l rs cur : List (ℕ × GroupInfo)}

/-- A walk over groups that are all kept ends with nothing changed. -/
theorem keep_all {n : ℕ} (h : info.Groups (l ++ y :: rs))
    (hy : ∀ p ∈ y :: rs, pass.keeps content p.2 = true) (hf : rs.length < n) :
    ∃ node, loop .hang (pass.deleteBody content) n (info, y.1) = .ok (info, node, none) := by
  induction rs generalizing l y n with
  | nil =>
    obtain ⟨n, rfl⟩ : ∃ k, n = k + 1 := ⟨n - 1, by simp at hf; omega⟩
    obtain ⟨node, hnode⟩ := kept_last h (hy y (by simp))
    exact ⟨node, loop_exit hnode n⟩
  | cons z rs ih =>
    obtain ⟨n, rfl⟩ : ∃ k, n = k + 1 := ⟨n - 1, by simp at hf; omega⟩
    rw [loop_next (kept_next h (hy y (by simp)))]
    exact ih (l := l ++ [y]) (by simpa using h) (fun p hp => hy p (List.mem_cons_of_mem _ hp))
      (by simpa using hf)

/-- From the group `y` on, with `l` kept so far, the walk keeps just the groups mentioned, and what
is kept when a group is removed. -/
theorem delete_run {P : PttInfo → List (ℕ × GroupInfo) → Prop}
    (hremoved : ∀ info info' y l rs, (∀ p ∈ l, pass.keeps content p.2 = true) →
      pass.keeps content y.2 = false → P info (l ++ y :: rs) → pass.Removed info info' y →
      P info' (l ++ rs))
    {n : ℕ} (h : info.Groups (l ++ y :: rs)) (hP : P info (l ++ y :: rs))
    (hps : ∀ p ∈ l, pass.keeps content p.2 = true) (hr : info.SessionReadable)
    (hf : l.length + 2 * rs.length + 1 < n) :
    ∃ info' node nodeErase,
      loop .hang (pass.deleteBody content) n (info, y.1) = .ok (info', node, nodeErase) ∧
      (∀ i, info'.fresh ≤ i → info'.heap i = none) ∧
      P info' (l ++ (y :: rs).filter fun p => pass.keeps content p.2) ∧
      if l ++ (y :: rs).filter (fun p => pass.keeps content p.2) = [] then nodeErase = some node
      else nodeErase = none ∧
        info'.Groups (l ++ (y :: rs).filter fun p => pass.keeps content p.2) := by
  induction rs generalizing info l y n with
  | nil =>
    obtain ⟨n, rfl⟩ : ∃ k, n = k + 1 := ⟨n - 1, by simp at hf; omega⟩
    cases hy : pass.keeps content y.2 with
    | true =>
      obtain ⟨node, hnode⟩ := kept_last h hy
      refine ⟨info, node, none, loop_exit hnode n, h.bounded, by simpa [hy] using hP, ?_⟩
      simpa [hy] using h
    | false =>
      cases l with
      | nil =>
        obtain ⟨info', h', hb, hrem⟩ := delete_only h hy hr
        have hP' := hremoved _ _ _ _ _ hps hy hP hrem
        exact ⟨info', y.1, some y.1, loop_exit h' n, hb, by simpa [hy] using hP', by simp [hy]⟩
      | cons p l =>
        obtain ⟨info', h', hg, hr', hrem⟩ := delete_behind h hy hr
        have hP' := hremoved _ _ _ _ _ hps hy hP hrem
        rw [List.append_nil] at hg hP'
        obtain ⟨node, hnode⟩ := keep_all (l := []) (n := n) hg hps (by simp at hf; omega)
        refine ⟨info', node, none, ?_, hg.bounded, by simpa [hy] using hP', ?_⟩
        · rw [loop_next h']
          exact hnode
        · simpa [hy] using hg
  | cons z rs ih =>
    obtain ⟨n, rfl⟩ : ∃ k, n = k + 1 := ⟨n - 1, by omega⟩
    simp only [List.length_cons] at hf
    cases hy : pass.keeps content y.2 with
    | true =>
      rw [loop_next (kept_next h hy)]
      have hps' : ∀ p ∈ l ++ [y], pass.keeps content p.2 = true := by
        intro p hp
        rcases List.mem_append.mp hp with hp | hp
        · exact hps p hp
        · rw [List.mem_singleton.mp hp]; exact hy
      have := ih (l := l ++ [y]) (y := z) (n := n) (by simpa using h) (by simpa using hP) hps' hr
        (by simp only [List.length_append, List.length_singleton]; omega)
      simpa [List.filter_cons, hy] using this
    | false =>
      cases l with
      | nil =>
        obtain ⟨info', h', hg, hr', hrem⟩ := delete_first h hy hr
        rw [loop_next h']
        have := ih (l := []) (y := z) (n := n) hg (hremoved _ _ _ [] _ hps hy hP hrem) (by simp) hr'
          (by simp only [List.length_nil] at hf ⊢; omega)
        simpa [List.filter_cons, hy] using this
      | cons p l =>
        obtain ⟨info', h', hg, hr', hrem⟩ := delete_behind h hy hr
        rw [loop_next h']
        have := ih (l := p :: l) (y := z)
          (n := n) hg (hremoved _ _ _ _ _ hps hy hP hrem) hps hr' (by omega)
        simpa [List.filter_cons, hy] using this

/-- The pass keeps the groups the content mentions, in their order, and what is kept when a group is
removed and when the head is set. -/
theorem deleteGroups_rule (pass : Pass) {P : PttInfo → List (ℕ × GroupInfo) → Prop}
    (hremoved : ∀ info info' y l rs, (∀ p ∈ l, pass.keeps content p.2 = true) →
      pass.keeps content y.2 = false → P info (l ++ y :: rs) → pass.Removed info info' y →
      P info' (l ++ rs))
    (hhead : ∀ info xs head, P info xs → P { info with generalGroup := head } xs)
    (h : info.Groups cur) (hP : P info cur)
    (hr : (∀ p ∈ cur, pass.keeps content p.2 = true) ∨ info.SessionReadable) :
    ∃ info', pass.deleteGroups content info = .ok info' ∧
      info'.Groups (cur.filter fun p => pass.keeps content p.2) ∧
      P info' (cur.filter fun p => pass.keeps content p.2) := by
  cases cur with
  | nil =>
    have hg : info.generalGroup = none := h.holds
    exact ⟨info, by simp [Pass.deleteGroups, hg], h, hP⟩
  | cons y rs =>
    have hgen : info.generalGroup = some y.1 := h.holds.1
    have hlen := h.length_le
    simp only [List.length_cons] at hlen
    by_cases hall : ∀ p ∈ y :: rs, pass.keeps content p.2 = true
    · obtain ⟨node, hnode⟩ := keep_all (l := []) (n := 2 * info.fresh + 1) h hall (by omega)
      refine ⟨info, by simp [Pass.deleteGroups, hgen, hnode, bind, Except.bind, pure,
        Except.pure], ?_⟩
      rw [List.filter_eq_self.mpr hall]
      exact ⟨h, hP⟩
    · obtain ⟨info', node, nodeErase, hrun, hb, hP', hres⟩ := delete_run (l := [])
        (n := 2 * info.fresh + 1) hremoved h hP (by simp) (hr.resolve_left hall)
        (by simp only [List.length_nil]; omega)
      rw [List.nil_append] at hres hP'
      have hdel : pass.deleteGroups content info =
          if nodeErase = some node then .ok { info' with generalGroup := none } else .ok info' := by
        rw [Pass.deleteGroups, hgen]
        change (loop .hang (pass.deleteBody content) (2 * info.fresh + 1) (info, y.1) >>= _) = _
        rw [hrun]
        rfl
      rw [hdel]
      split_ifs at hres with hnil
      · refine ⟨{ info' with generalGroup := none }, by simp [hres], ?_, hhead _ _ _ hP'⟩
        rw [hnil]
        exact ⟨rfl, hb⟩
      · exact ⟨info', by simp [hres.1], hres.2, hP'⟩

/-- A session whose group cannot be read ends the pass at the first group that is deleted. -/
theorem deleteGroups_error (pass : Pass) (h : info.Groups cur)
    (hall : ¬ ∀ p ∈ cur, pass.keeps content p.2 = true) (hr : ¬ info.SessionReadable) :
    ∃ e, pass.deleteGroups content info = .error e := by
  have hrun : ∀ rs l y n, info.Groups (l ++ y :: rs) → rs.length < n →
      (¬ ∀ p ∈ y :: rs, pass.keeps content p.2 = true) →
      ∃ e, loop .hang (pass.deleteBody content) n (info, y.1) = .error e := by
    intro rs
    induction rs with
    | nil =>
      intro l y n hg hf hno
      obtain ⟨n, rfl⟩ : ∃ k, n = k + 1 := ⟨n - 1, by simp at hf; omega⟩
      obtain ⟨e, he⟩ := delete_error hg (by simpa using hno) hr
      exact ⟨e, loop_fault he n⟩
    | cons z rs ih =>
      intro l y n hg hf hno
      obtain ⟨n, rfl⟩ : ∃ k, n = k + 1 := ⟨n - 1, by simp at hf; omega⟩
      cases hy : pass.keeps content y.2 with
      | true =>
        rw [loop_next (kept_next hg hy)]
        refine ih (l ++ [y]) z n (by simpa using hg) (by simpa using hf) ?_
        simpa [hy] using hno
      | false =>
        obtain ⟨e, he⟩ := delete_error hg hy hr
        exact ⟨e, loop_fault he n⟩
  cases cur with
  | nil => simp at hall
  | cons y rs =>
    have hgen : info.generalGroup = some y.1 := h.holds.1
    have hlen := h.length_le
    simp only [List.length_cons] at hlen
    obtain ⟨e, he⟩ := hrun rs [] y (2 * info.fresh + 1) h (by omega) hall
    exact ⟨e, by simp [Pass.deleteGroups, hgen, he, bind, Except.bind]⟩

end pass

/-! ### The copies -/

section rooms

variable {pass : Pass} {room : GroupInfo → Prop} {info : PttInfo} {content : Bytes}
  {y : ℕ × GroupInfo}
  {l rs cur : List (ℕ × GroupInfo)}

/-- The walk stands at a group of a list whose groups all have room. -/
def AtRoom (room : GroupInfo → Prop) (s : PttInfo × ℕ) : Prop :=
  ∃ l y rs, s.1.Groups (l ++ y :: rs) ∧ s.2 = y.1 ∧ ∀ p ∈ l ++ y :: rs, room p.2

theorem room_of_removed (hs : ∀ p ∈ l ++ y :: rs, room p.2) : ∀ p ∈ l ++ rs, room p.2 := by
  intro p hp
  rw [List.mem_append] at hp
  exact hs p (by simp only [List.mem_append, List.mem_cons]; tauto)

theorem deleteBody_next {s t : PttInfo × ℕ} (h : AtRoom room s)
    (hb : pass.deleteBody content s = .ok (.next t)) : AtRoom room t := by
  obtain ⟨info, node⟩ := s
  obtain ⟨l, y, rs, hg, rfl, hs⟩ := h
  cases hy : pass.keeps content y.2 with
  | true =>
    cases rs with
    | nil =>
      obtain ⟨_, hexit⟩ := kept_last hg hy
      simp [hb] at hexit
    | cons z rs =>
      rw [kept_next hg hy] at hb
      cases hb
      exact ⟨l ++ [y], z, rs, by simpa using hg, rfl, by simpa using hs⟩
  | false =>
    by_cases hr : info.SessionReadable
    swap
    · obtain ⟨e, he⟩ := delete_error hg hy hr
      simp [hb] at he
    match l, rs with
    | [], [] =>
      obtain ⟨_, hexit, -⟩ := delete_only hg hy hr
      simp [hb] at hexit
    | [], z :: rs =>
      obtain ⟨info', hnext, hg', -⟩ := delete_first hg hy hr
      rw [hnext] at hb
      cases hb
      exact ⟨[], z, rs, hg', rfl, room_of_removed hs⟩
    | p :: l, [] =>
      obtain ⟨info', hnext, hg', -⟩ := delete_behind hg hy hr
      rw [hnext] at hb
      cases hb
      exact ⟨[], p, l, by simpa using hg', rfl, by simpa using room_of_removed hs⟩
    | p :: l, z :: rs =>
      obtain ⟨info', hnext, hg', -⟩ := delete_behind hg hy hr
      rw [hnext] at hb
      cases hb
      exact ⟨p :: l, z, rs, hg', rfl, room_of_removed hs⟩

theorem copyBody_eq [DecidablePred room] {s : PttInfo × ℕ} (h : AtRoom room s) :
    pass.copyBody room content s = lift (pass.deleteBody content s) := by
  obtain ⟨info, node⟩ := s
  obtain ⟨l, y, rs, hg, rfl, hs⟩ := h
  dsimp only at hg
  obtain ⟨c, hc, -, hv⟩ := cell_at hg.holds
  have hroom : room c.val := hv ▸ hs y (by simp)
  simp only [copyBody, hc, live_some, Checked.lift_ok, Checked.ok_bind, check, hroom, if_true]

/-- Where every group of the list has room, the pass does what it does without its copies. -/
theorem copyGroups_eq (pass : Pass) (room : GroupInfo → Prop) [DecidablePred room]
    (content : Bytes) (h : info.Groups cur)
    (hs : ∀ p ∈ cur, room p.2) :
    pass.copyGroups room content info = lift (pass.deleteGroups content info) := by
  cases cur with
  | nil =>
    have hgen : info.generalGroup = none := h.holds
    simp [copyGroups, Pass.deleteGroups, hgen]
  | cons y rs =>
    have hgen : info.generalGroup = some y.1 := h.holds.1
    have hloop : loop (.fault .hang) (pass.copyBody room content) (2 * info.fresh + 1)
        (info, y.1) = lift (loop .hang (pass.deleteBody content) (2 * info.fresh + 1)
          (info, y.1)) :=
      Checked.loop_lift (AtRoom room) (fun _ => copyBody_eq) (fun _ _ => deleteBody_next)
        ⟨[], y, rs, h, rfl, hs⟩
    simp only [copyGroups, Pass.deleteGroups, hgen, hloop, Checked.lift_bind]
    congr 1
    funext a
    split_ifs <;> rfl

end rooms

end Pass

/-! ### The two passes -/

/-- The number and a comma are searched for. -/
def regroupPass : Pass where
  num number := number ++ [44]
  quit info := pttEnterState { pttCloseMedia info with currentCallId := [], gSpeaker := [] } .uninit
  quit_list info :=
    have h := pttCloseMedia_kept info
    ⟨h.heap, h.fresh, h.generalGroup, h.effects, h.transports⟩
  quit_state _ := rfl

theorem deleteGroups_pass (content : Bytes) :
    deleteGroups content = regroupPass.deleteGroups content := rfl

/-- The number alone is searched for. -/
def messagePass : Pass where
  num number := number
  quit info := pttEnterState (pttCloseMedia info) .uninit
  quit_list info :=
    have h := pttCloseMedia_kept info
    ⟨h.heap, h.fresh, h.generalGroup, h.effects, h.transports⟩
  quit_state _ := rfl

theorem messageDeleteGroups_pass (content : Bytes) :
    messageDeleteGroups content = messagePass.deleteGroups content := rfl

end PttTerminal
