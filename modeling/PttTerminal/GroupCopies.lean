import PttTerminal.Library.Checked
import PttTerminal.RegroupLaw

/-!
# Groups copied into arrays

The texts of the groups are copied when the application is told about them, and their numbers when
the text of a regroup message is searched for them. The records keep their length, so that a list
that was reported once can be copied again.
-/
namespace PttTerminal

open Loops LinkedCells
open Checked (Stop lift check InRoom Follows inRoom_lift inRoom_ok inRoom_check inRoom_lift_bind
  inRoom_check_bind follows_lift follows_check_bind lift_eq_ok check_eq_ok)

/-- The number and the name of a group fit into arrays of 32 bytes. -/
def GroupInfo.Short (g : GroupInfo) : Prop := g.number.length < 32 ∧ g.name.length < 32

instance GroupInfo.decidableShort (g : GroupInfo) : Decidable g.Short :=
  inferInstanceAs (Decidable (g.number.length < 32 ∧ g.name.length < 32))

/-- The size of the list is asked for first; then the number and the name of each group are
copied. -/
def receiveGroupInfoCopy (info : PttInfo) : Except (Stop Fault) PttInfo := do
  let groups ← lift (groupList info)
  check (∀ g ∈ groups.getD [], g.Short)
  lift (receiveGroupInfo info)

def loadGroupInfoCopy (info : PttInfo) (content : Bytes) : Except (Stop Fault) PttInfo := do
  if info.transportId.isSome then receiveGroupInfoCopy info
  else
    let info ← lift (loop .hang loadBody (content.length + 1) (info, content))
    receiveGroupInfoCopy info

/-- The number is copied into 32 bytes, and the comma is written at the index of its length. -/
def deleteCopyBody (content : Bytes) (s : PttInfo × ℕ) :
    Except (Stop Fault) (Ctl (PttInfo × ℕ) (PttInfo × ℕ × Option ℕ)) := do
  let c ← lift (live (s.1.heap s.2))
  check (c.val.number.length < 32)
  lift (deleteBody content s)

def deleteGroupsCopy (content : Bytes) (info : PttInfo) : Except (Stop Fault) PttInfo :=
  match info.generalGroup with
  | none => .ok info
  | some head => do
    let (info, node, nodeErase) ←
      loop (.fault .hang) (deleteCopyBody content) (2 * info.fresh + 1) (info, head)
    if nodeErase = some node then return { info with generalGroup := none } else return info

def cleanupOnRegroupCopy (info : PttInfo) (content : Bytes) : Except (Stop Fault) PttInfo := do
  let info ← deleteGroupsCopy content info
  match info.generalGroup with
  | none =>
    let info ← lift (groupInfoDestroy info)
    loadGroupInfoCopy (groupInfoInit (bzeroPttInfo info)) content
  | some head =>
    let info ← lift (loop .hang (mergeBody head) (content.length + 1) (info, head, content))
    receiveGroupInfoCopy info

/-! ### The groups that are reported -/

def AllShort (xs : List (ℕ × GroupInfo)) : Prop := ∀ p ∈ xs, p.2.Short

section reports

variable {info info' : PttInfo} {xs ys cur l rs : List (ℕ × GroupInfo)} {y : ℕ × GroupInfo}
  {content : Bytes} {rows : List (List GroupText)}

theorem allShort_map : AllShort xs ↔ ∀ g ∈ xs.map Prod.snd, g.Short := by
  simp only [AllShort, List.mem_map, forall_exists_index, and_imp, forall_apply_eq_imp_iff₂]

theorem AllShort.unique (h : info.Groups xs) (h' : info.Groups ys) (hs : AllShort xs) :
    AllShort ys := by
  rw [allShort_map] at hs ⊢
  rwa [← h.unique h']

/-- A report has room when the groups of the list are short. -/
theorem receiveGroupInfoCopy_inRoom (h : info.Groups xs) :
    InRoom (receiveGroupInfoCopy info) ↔ AllShort xs := by
  have hlist : (if xs = [] then none else some (xs.map Prod.snd)).getD [] = xs.map Prod.snd := by
    split_ifs with hnil
    · simp [hnil]
    · rfl
  simp only [receiveGroupInfoCopy, groupList_eq h, inRoom_lift_bind, Except.ok.injEq, forall_eq',
    inRoom_check_bind, inRoom_lift, and_true, hlist, allShort_map]

theorem receiveGroupInfoCopy_follows :
    Follows (receiveGroupInfoCopy info) (receiveGroupInfo info) := by
  have hplain : receiveGroupInfo info = groupList info >>= fun _ => receiveGroupInfo info := by
    unfold receiveGroupInfo
    cases groupList info <;> rfl
  rw [hplain]
  exact (follows_lift _).bind fun groups => follows_check_bind (follows_lift _)

/-- After a report the list is short. -/
theorem receiveGroupInfoCopy_short (h : receiveGroupInfoCopy info = .ok info') :
    ∀ xs, info'.Groups xs → AllShort xs := by
  intro xs hxs
  have hroom : InRoom (receiveGroupInfoCopy info) := by rw [h]; exact inRoom_ok _
  obtain ⟨groups, -, hreport⟩ := bind_eq_ok.mp (receiveGroupInfoCopy_follows.eq_ok h)
  cases hreport
  have hxs' : info.Groups xs := ⟨hxs.holds, hxs.bounded⟩
  exact (receiveGroupInfoCopy_inRoom hxs').mp hroom

/-! ### The first list -/

/-- The last line of groups is the list then. -/
def LoadFits (content : Bytes) : Prop :=
  ∀ rows, Lines LoadLine rows content → ∀ g ∈ afterLines rows [], g.Short

theorem afterLines_short (hs : AllShort xs) :
    (∀ g ∈ afterLines rows (xs.map Prod.snd), g.Short) ↔ ∀ g ∈ afterLines rows [], g.Short := by
  cases hlast : rows.getLast? with
  | none => simpa [afterLines, afterLine, hlast] using allShort_map.mp hs
  | some row => simp [afterLines, afterLine, hlast]

theorem loadGroupInfoCopy_inRoom (h : info.Groups xs) (hs : AllShort xs) :
    InRoom (loadGroupInfoCopy info content) ↔ (info.transportId = none → LoadFits content) := by
  cases ht : info.transportId with
  | some t =>
    have hload : loadGroupInfoCopy info content = receiveGroupInfoCopy info := by
      simp [loadGroupInfoCopy, ht]
    simp [hload, receiveGroupInfoCopy_inRoom h, hs]
  | none =>
    have hload : loadGroupInfoCopy info content =
        lift (loop .hang loadBody (content.length + 1) (info, content)) >>=
          receiveGroupInfoCopy := by
      simp [loadGroupInfoCopy, ht]
    rw [hload, inRoom_lift_bind]
    constructor
    · intro hroom _ rows hrows
      obtain ⟨info₁, ys, hrun, hg, -, hys⟩ :=
        loadLoop_lines loadRule_true hrows (Nat.lt_succ_self _) h trivial
      have hshort := (receiveGroupInfoCopy_inRoom hg).mp (hroom info₁ hrun)
      rwa [allShort_map, hys, afterLines_short hs] at hshort
    · intro hfit info₁ hrun
      obtain ⟨rows, hrows⟩ := loadLoop_sound hrun
      obtain ⟨info₂, ys, hrun', hg, -, hys⟩ :=
        loadLoop_lines loadRule_true hrows (Nat.lt_succ_self _) h trivial
      obtain rfl : info₂ = info₁ := by
        rw [hrun] at hrun'
        exact (Except.ok.inj hrun').symm
      rw [receiveGroupInfoCopy_inRoom hg, allShort_map, hys, afterLines_short hs]
      exact hfit rfl rows hrows

theorem loadGroupInfoCopy_follows :
    Follows (loadGroupInfoCopy info content) (loadGroupInfo info content) := by
  unfold loadGroupInfoCopy loadGroupInfo
  split_ifs
  · exact receiveGroupInfoCopy_follows
  · exact (follows_lift _).bind fun info₁ => receiveGroupInfoCopy_follows

theorem loadGroupInfoCopy_short (h : loadGroupInfoCopy info content = .ok info') :
    ∀ xs, info'.Groups xs → AllShort xs := by
  unfold loadGroupInfoCopy at h
  split_ifs at h
  · exact receiveGroupInfoCopy_short h
  · obtain ⟨info₁, -, hreport⟩ := Checked.bind_eq_ok.mp h
    exact receiveGroupInfoCopy_short hreport

/-! ### Deleting groups -/

/-- In a list that is short, the numbers are copied in bounds. -/
theorem deleteGroupsCopy_eq (h : info.Groups cur) (hs : AllShort cur) :
    deleteGroupsCopy content info = lift (deleteGroups content info) :=
  regroupPass.copyGroups_eq (fun g => g.number.length < 32) content h fun p hp => (hs p hp).1

/-! ### Adding groups -/

/-- The groups of the rows that are not found in the list, which are added to it. -/
def addedGroups (s : List GroupInfo × ℕ) (rows : List (List GroupInfo)) : List GroupInfo :=
  (mergeRows s rows).1.drop s.1.length

/-- The groups of the text that the list takes over fit: those of the last line when no group is
kept, and those that are added otherwise. -/
def RegroupFits (info : PttInfo) (content : Bytes) : Prop :=
  ∀ cur, info.Groups cur → Deletable info content cur →
    if kept content cur = [] then LoadFits content
    else ∀ rows, Lines MergeLine rows content →
      ∀ g ∈ addedGroups ((kept content cur).map fun p => p.2.attributes, 0)
        (rows.map (List.map GroupText.group)), g.Short

theorem mergeOne_appends (s : List GroupInfo × ℕ) (g : GroupInfo) : s.1 <+: (mergeOne s g).1 := by
  unfold mergeOne
  dsimp only
  split_ifs
  · exact List.prefix_rfl
  · exact List.prefix_append _ _

theorem mergeRest_appends (s : List GroupInfo × ℕ) (row : List GroupInfo) :
    s.1 <+: (mergeRest s row).1 := by
  unfold mergeRest
  induction row generalizing s with
  | nil => exact List.prefix_rfl
  | cons g row ih => exact (mergeOne_appends (s.1, 0) g).trans (ih _)

theorem mergeRows_prefix (s : List GroupInfo × ℕ) (rows : List (List GroupInfo)) :
    s.1 <+: (mergeRows s rows).1 := by
  unfold mergeRows
  induction rows generalizing s with
  | nil => exact List.prefix_rfl
  | cons row rows ih =>
    refine List.IsPrefix.trans ?_ (ih (mergeRow s row))
    cases row with
    | nil => exact List.prefix_rfl
    | cons g row => exact (mergeOne_appends s g).trans (mergeRest_appends _ row)

theorem mergeRows_short {s : List GroupInfo × ℕ} {rows : List (List GroupInfo)}
    (hs : ∀ g ∈ s.1, g.Short) :
    (∀ g ∈ (mergeRows s rows).1, g.Short) ↔ ∀ g ∈ addedGroups s rows, g.Short := by
  obtain ⟨added, hadded⟩ := mergeRows_prefix s rows
  rw [addedGroups, ← hadded, List.drop_left]
  simp only [List.mem_append]
  constructor
  · intro h g hg
    exact h g (.inr hg)
  · rintro h g (hg | hg)
    · exact hs g hg
    · exact h g hg

/-- The lists that a merger can come to, and what is reported then. -/
theorem mergeCopy_inRoom {head : ℕ} {s : List GroupInfo × ℕ}
    (h : Merging (fun _ _ => True) info head head s) (hs : ∀ g ∈ s.1, g.Short) :
    InRoom (lift (loop .hang (mergeBody head) (content.length + 1) (info, head, content)) >>=
      receiveGroupInfoCopy) ↔ ∀ rows, Lines MergeLine rows content →
        ∀ g ∈ addedGroups s (rows.map (List.map GroupText.group)), g.Short := by
  have hmerged : ∀ rows, Lines MergeLine rows content → ∃ info' xs,
      loop .hang (mergeBody head) (content.length + 1) (info, head, content) = .ok info' ∧
      info'.Groups xs ∧ (AllShort xs ↔
        ∀ g ∈ addedGroups s (rows.map (List.map GroupText.group)), g.Short) := by
    intro rows hrows
    obtain ⟨info', node, hrun, h'⟩ :=
      mergeLoop_lines regroupRule_true.toMergeRule hrows (Nat.lt_succ_self _) h
    obtain ⟨xs, hg, -, hxs⟩ := merging_attributes h'
    refine ⟨info', xs, hrun, hg, ?_⟩
    rw [← mergeRows_short hs, ← hxs]
    simp only [AllShort, List.mem_map, forall_exists_index, and_imp, forall_apply_eq_imp_iff₂]
    rfl
  rw [inRoom_lift_bind]
  constructor
  · intro hroom rows hrows
    obtain ⟨info', xs, hrun, hg, hiff⟩ := hmerged rows hrows
    exact hiff.mp ((receiveGroupInfoCopy_inRoom hg).mp (hroom info' hrun))
  · intro hfit info₁ hrun
    obtain ⟨rows, hrows⟩ := mergeLoop_sound hrun
    obtain ⟨info', xs, hrun', hg, hiff⟩ := hmerged rows hrows
    rw [hrun] at hrun'
    cases hrun'
    exact (receiveGroupInfoCopy_inRoom hg).mpr (hiff.mpr (hfit rows hrows))

theorem kept_short (hs : AllShort cur) :
    ∀ g ∈ (kept content cur).map fun p => p.2.attributes, g.Short := by
  intro g hg
  obtain ⟨p, hp, rfl⟩ := List.mem_map.mp hg
  exact hs p (List.mem_of_mem_filter hp)

/-- Without its copies the pass goes on as follows. -/
theorem cleanupCopy_eq (h : info.Groups cur) (hs : AllShort cur)
    (hd : Deletable info content cur) :
    if kept content cur = [] then ∃ info₁, info₁.Groups [] ∧ info₁.transportId = none ∧
      cleanupOnRegroupCopy info content = loadGroupInfoCopy info₁ content
    else ∃ info₁ head, Merging (fun _ _ => True) info₁ head head
        ((kept content cur).map fun p => p.2.attributes, 0) ∧
      cleanupOnRegroupCopy info content =
        lift (loop .hang (mergeBody head) (content.length + 1) (info₁, head, content)) >>=
          receiveGroupInfoCopy := by
  obtain ⟨info₁, hdel, hg, -⟩ := deleteGroups_rule (P := fun _ _ => True)
    (fun _ _ _ _ _ _ _ => trivial) (fun _ _ _ _ => trivial) h trivial hd
  have hcopy : cleanupOnRegroupCopy info content = (match info₁.generalGroup with
      | none => lift (groupInfoDestroy info₁) >>= fun info₂ =>
        loadGroupInfoCopy (groupInfoInit (bzeroPttInfo info₂)) content
      | some head =>
        lift (loop .hang (mergeBody head) (content.length + 1) (info₁, head, content)) >>=
          receiveGroupInfoCopy) := by
    rw [cleanupOnRegroupCopy, deleteGroupsCopy_eq h hs, hdel]
    rfl
  rw [hcopy]
  change info₁.Groups (kept content cur) at hg
  split_ifs with hk
  · rw [hk] at hg
    have hgen : info₁.generalGroup = none := hg.holds
    refine ⟨groupInfoInit (bzeroPttInfo { info₁ with generalGroup := none, transportId := none }),
      ⟨rfl, hg.bounded⟩, rfl, ?_⟩
    simp only [hgen, groupInfoDestroy, pttMediaTransportDestroy]
    rfl
  · obtain ⟨x, xs, hx⟩ := List.exists_cons_of_ne_nil hk
    rw [hx] at hg
    have hgen : info₁.generalGroup = some x.1 := hg.holds.1
    refine ⟨info₁, x.1, ⟨x, xs, x, hg, trivial, rfl, rfl, rfl, by rw [hx]⟩, ?_⟩
    rw [hgen]

/-- A regroup message is copied in bounds just when the groups that it brings fit. -/
theorem cleanupCopy_inRoom (h : info.Groups cur) (hs : AllShort cur) :
    InRoom (cleanupOnRegroupCopy info content) ↔ RegroupFits info content := by
  have hiff : ∀ xs, info.Groups xs → Deletable info content xs →
      (InRoom (cleanupOnRegroupCopy info content) ↔ if kept content xs = [] then LoadFits content
        else ∀ rows, Lines MergeLine rows content →
          ∀ g ∈ addedGroups ((kept content xs).map fun p => p.2.attributes, 0)
            (rows.map (List.map GroupText.group)), g.Short) := by
    intro xs hxs hd
    have hshort := AllShort.unique h hxs hs
    have heq := cleanupCopy_eq hxs hshort hd
    split_ifs at heq ⊢ with hk
    · obtain ⟨info₁, hg, ht, hrun⟩ := heq
      rw [hrun, loadGroupInfoCopy_inRoom hg (by simp [AllShort])]
      simp [ht]
    · obtain ⟨info₁, head, hmerge, hrun⟩ := heq
      rw [hrun, mergeCopy_inRoom hmerge (kept_short hshort)]
  constructor
  · exact fun hroom xs hxs hd => (hiff xs hxs hd).mp hroom
  · intro hfit
    by_cases hd : Deletable info content cur
    · exact (hiff cur h hd).mpr (hfit cur h hd)
    · obtain ⟨e, he⟩ : ∃ e, deleteGroups content info = .error e := by
        rw [Deletable, not_or] at hd
        exact deleteGroups_error h hd.1 hd.2
      rw [cleanupOnRegroupCopy, deleteGroupsCopy_eq h hs, he, inRoom_lift_bind]
      simp

theorem cleanupCopy_follows (h : info.Groups cur) (hs : AllShort cur) :
    Follows (cleanupOnRegroupCopy info content) (cleanupOnRegroup info content) := by
  unfold cleanupOnRegroupCopy cleanupOnRegroup
  rw [deleteGroupsCopy_eq h hs]
  refine (follows_lift _).bind fun info₁ => ?_
  cases info₁.generalGroup with
  | none => exact (follows_lift _).bind fun info₂ => loadGroupInfoCopy_follows
  | some head => exact (follows_lift _).bind fun info₂ => receiveGroupInfoCopy_follows

theorem cleanupCopy_short (h : info.Groups cur) (hs : AllShort cur)
    (hrun : cleanupOnRegroupCopy info content = .ok info') :
    ∀ xs, info'.Groups xs → AllShort xs := by
  simp only [cleanupOnRegroupCopy, deleteGroupsCopy_eq h hs, Checked.bind_eq_ok, lift_eq_ok] at hrun
  obtain ⟨info₁, -, hrun⟩ := hrun
  cases hgen : info₁.generalGroup with
  | none =>
    simp only [hgen, Checked.bind_eq_ok] at hrun
    obtain ⟨info₂, -, hload⟩ := hrun
    exact loadGroupInfoCopy_short hload
  | some head =>
    simp only [hgen, Checked.bind_eq_ok] at hrun
    obtain ⟨info₂, -, hreport⟩ := hrun
    exact receiveGroupInfoCopy_short hreport

end reports

end PttTerminal
