import PttTerminal.Decimal
import PttTerminal.GroupLines
import PttTerminal.GroupListFrame

/-!
# Group lists that are delivered

What the server prints is loaded into the list, and the list is handed to the application as an
array of objects. `RoundTrips` says that the list, the array and the call are those of the groups
that were printed. The heartbeats are the only fields that may be negative; they are read without
their sign.
-/
namespace PttTerminal

open Loops LinkedCells Walks

/-! ### The array -/

/-- `pj_list_size`: the cells up to the head, which is not counted. -/
def sizeBody (heap : Store ℕ GroupInfo) (head : ℕ) (s : ℕ × ℕ) :
    Except Fault (Ctl (ℕ × ℕ) ℕ) := do
  let (node, count) := s
  if node = head then return .exit count
  else
    let c ← live (heap node)
    return .next (c.next, count + 1)

def pjListSize (info : PttInfo) (list : ℕ) : Except Fault ℕ := do
  let c ← live (info.heap list)
  loop .hang (sizeBody info.heap list) (info.fresh + 1) (c.next, 0)

/-- The object that stands for a group. -/
def GroupInfo.entry (g : GroupInfo) : GroupEntry := ⟨cString g.name, cString g.number, g.level⟩

/-- One round of the loop that fills the array; an index behind its end would leave it as it is. -/
def fillBody (heap : Store ℕ GroupInfo) (head : ℕ) (s : ℕ × ℕ × List (Option GroupEntry)) :
    Except Fault (Ctl (ℕ × ℕ × List (Option GroupEntry)) (List (Option GroupEntry))) := do
  let (node, i, groupInfos) := s
  let c ← live (heap node)
  let groupInfos := groupInfos.set i (some c.val.entry)
  if c.next = head then return .exit groupInfos
  else return .next (c.next, i + 1, groupInfos)

/-- The array that `receive_group_info` hands over, with a null pointer where no object was set. -/
def groupInfoArray (info : PttInfo) : Except Fault (Option (List (Option GroupEntry))) :=
  match info.generalGroup with
  | none => .ok none
  | some head => do
    let size ← pjListSize info head
    let groupInfos ← loop .hang (fillBody info.heap head) (info.fresh + 1)
      (head, 0, List.replicate (size + 1) none)
    return some groupInfos

section
variable {heap : Store ℕ GroupInfo} {info : PttInfo} {x y : ℕ × GroupInfo}
  {xs l vs : List (ℕ × GroupInfo)}

theorem size_eq (h : heap.Ring x xs) (hs : x :: xs = l ++ y :: vs) {c : Cell ℕ GroupInfo}
    (hc : heap y.1 = some c) {n : ℕ} (hf : vs.length < n) (k : ℕ) :
    loop .hang (sizeBody heap x.1) n (c.next, k) = .ok (k + vs.length) := by
  induction vs generalizing l y c n k with
  | nil =>
    obtain ⟨n, rfl⟩ : ∃ k, n = k + 1 := ⟨n - 1, by simp at hf; omega⟩
    obtain ⟨c', hc', hn, -⟩ := h.cell_of_split hs
    obtain rfl : c = c' := Option.some.inj (hc.symm.trans hc')
    have hn' : c.next = x.1 := by simpa using hn
    refine loop_exit ?_ n
    simp [sizeBody, hn', pure, Except.pure]
  | cons z vs ih =>
    obtain ⟨n, rfl⟩ : ∃ k, n = k + 1 := ⟨n - 1, by simp at hf; omega⟩
    obtain ⟨c', hc', hn, -⟩ := h.cell_of_split hs
    obtain rfl : c = c' := Option.some.inj (hc.symm.trans hc')
    have hn' : c.next = z.1 := by simpa using hn
    have hsz : x :: xs = (l ++ [y]) ++ z :: vs := by simpa using hs
    obtain ⟨d, hd, -, -⟩ := h.cell_of_split hsz
    have hstep : sizeBody heap x.1 (c.next, k) = .ok (.next (d.next, k + 1)) := by
      have hne := next_ne_head h hs List.mem_cons_self
      simp [sizeBody, hn', hne, hd, bind, Except.bind, pure, Except.pure]
    rw [loop_next hstep, ih hsz hd (by simpa using hf)]
    congr 1
    simp only [List.length_cons]
    omega

theorem fill_eq (h : heap.Ring x xs) (hs : x :: xs = l ++ y :: vs) {n : ℕ} (hf : vs.length < n) :
    loop .hang (fillBody heap x.1) n (y.1, l.length, l.map (fun p => some p.2.entry) ++
      List.replicate (vs.length + 1) none) = .ok ((x :: xs).map fun p => some p.2.entry) := by
  induction vs generalizing l y n with
  | nil =>
    obtain ⟨n, rfl⟩ : ∃ k, n = k + 1 := ⟨n - 1, by simp at hf; omega⟩
    obtain ⟨c, hc, hn, hv⟩ := h.cell_of_split hs
    have hn' : c.next = x.1 := by simpa using hn
    refine loop_exit ?_ n
    simp [fillBody, hc, hn', hv, hs, bind, Except.bind, pure, Except.pure]
  | cons z vs ih =>
    obtain ⟨n, rfl⟩ : ∃ k, n = k + 1 := ⟨n - 1, by simp at hf; omega⟩
    obtain ⟨c, hc, hn, hv⟩ := h.cell_of_split hs
    have hn' : c.next = z.1 := by simpa using hn
    have hsz : x :: xs = (l ++ [y]) ++ z :: vs := by simpa using hs
    have hstep : fillBody heap x.1 (y.1, l.length, l.map (fun p => some p.2.entry) ++
        List.replicate ((z :: vs).length + 1) none) = .ok (.next (z.1, (l ++ [y]).length,
          (l ++ [y]).map (fun p => some p.2.entry) ++ List.replicate (vs.length + 1) none)) := by
      have hne := next_ne_head h hs List.mem_cons_self
      simp [fillBody, hc, hn', hv, hne, List.replicate_succ, bind, Except.bind, pure, Except.pure]
    rw [loop_next hstep]
    exact ih hsz (by simpa using hf)

/-- The array of a list that is in order has one object for each group, and no other element. -/
theorem groupInfoArray_eq (h : info.Groups (x :: xs)) :
    groupInfoArray info = .ok (some ((x :: xs).map fun p => some p.2.entry)) := by
  have hle := h.length_le
  simp only [List.length_cons] at hle
  obtain ⟨c, hc, -, -⟩ := h.holds.2.cell_of_split (l := []) rfl
  have hsize : pjListSize info x.1 = .ok xs.length := by
    simp only [pjListSize, hc, live_some, ok_bind]
    rw [size_eq h.holds.2 (l := []) rfl hc (by omega) 0, Nat.zero_add]
  have hfill := fill_eq h.holds.2 (l := []) rfl (n := info.fresh + 1) (by omega)
  simp only [List.length_nil, List.map_nil, List.nil_append] at hfill
  simp only [groupInfoArray, h.holds.1, hsize, ok_bind, hfill, pure, Except.pure]

end

/-! ### Printed groups -/

namespace GroupInfo

/-- The fields of a group as the server prints them. -/
def toText (g : GroupInfo) : GroupText where
  name := g.name
  number := g.number
  level := decimal g.level.toNat
  report := decimalInt g.reportHeartbeat
  update := decimalInt g.updateHeartbeat
  address := g.mcastAddress
  port := decimal g.port.toNat

/-- The texts hold no delimiter and fit, the numbers fit, and no transport is open. -/
structure WellFormed (g : GroupInfo) : Prop where
  nameFree : Free [44, 58, 59, CR, LF, 0] g.name
  numberFree : Free [44, 58, 59, CR, LF, 0] g.number
  addressFree : Free [44, 58, 59, CR, LF, 0] g.mcastAddress
  nameFits : g.name.length ≤ 31
  numberFits : g.number.length ≤ 31
  reportFits : -2 ^ 31 ≤ g.reportHeartbeat ∧ g.reportHeartbeat < 2 ^ 31
  updateFits : -2 ^ 31 ≤ g.updateHeartbeat ∧ g.updateHeartbeat < 2 ^ 31
  closed : g.transport = none

instance (g : GroupInfo) : Decidable g.WellFormed :=
  decidable_of_iff (Free [44, 58, 59, CR, LF, 0] g.name ∧ Free [44, 58, 59, CR, LF, 0] g.number ∧
      Free [44, 58, 59, CR, LF, 0] g.mcastAddress ∧ g.name.length ≤ 31 ∧ g.number.length ≤ 31 ∧
      (-2 ^ 31 ≤ g.reportHeartbeat ∧ g.reportHeartbeat < 2 ^ 31) ∧
      (-2 ^ 31 ≤ g.updateHeartbeat ∧ g.updateHeartbeat < 2 ^ 31) ∧ g.transport = none)
    ⟨fun ⟨h₁, h₂, h₃, h₄, h₅, h₆, h₇, h₈⟩ => ⟨h₁, h₂, h₃, h₄, h₅, h₆, h₇, h₈⟩,
      fun ⟨h₁, h₂, h₃, h₄, h₅, h₆, h₇, h₈⟩ => ⟨h₁, h₂, h₃, h₄, h₅, h₆, h₇, h₈⟩⟩

/-- The group that is read back: a negative heartbeat is read as zero. -/
def unsigned (g : GroupInfo) : GroupInfo :=
  { g with
    reportHeartbeat := if g.reportHeartbeat < 0 then 0 else g.reportHeartbeat
    updateHeartbeat := if g.updateHeartbeat < 0 then 0 else g.updateHeartbeat }

theorem unsigned_eq_self_iff {g : GroupInfo} :
    g.unsigned = g ↔ 0 ≤ g.reportHeartbeat ∧ 0 ≤ g.updateHeartbeat := by
  constructor
  · intro h
    have hr := congrArg GroupInfo.reportHeartbeat h
    have hu := congrArg GroupInfo.updateHeartbeat h
    simp only [unsigned] at hr hu
    split at hr <;> split at hu <;> omega
  · rintro ⟨hr, hu⟩
    simp only [unsigned, if_neg (not_lt.mpr hr), if_neg (not_lt.mpr hu)]

theorem WellFormed.group_toText {g : GroupInfo} (h : g.WellFormed) :
    g.toText.group = g.unsigned := by
  have hl : (UInt32.ofNat g.level.toNat).toUInt8 = g.level := by
    apply UInt8.toNat_inj.mp
    simp
  have hp : UInt32.ofNat g.port.toNat = g.port := UInt32.ofNat_toNat
  obtain ⟨name, number, level, report, update, address, port, transport⟩ := g
  obtain rfl : transport = none := h.closed
  simp only [GroupText.group, toText, unsigned, pjStrtoul_decimal, jint_decimalInt h.reportFits.2,
    jint_decimalInt h.updateFits.2] at *
  rw [hl, hp]

theorem WellFormed.clean {g : GroupInfo} (h : g.WellFormed) : g.toText.Clean where
  name := h.nameFree.mono (by decide)
  number := h.numberFree.mono (by decide)
  level := decimal_free (by decide) _
  report := decimalInt_free (by decide) (by decide) _
  update := decimalInt_free (by decide) (by decide) _
  address := h.addressFree.mono (by decide)
  port := decimal_free (by decide) _

end GroupInfo

/-- The groups behind the first one, each after a semicolon, and what follows. -/
def moreGroupsText (gs : List GroupInfo) (m : Bytes) : Bytes :=
  gs.foldr (fun g r => 59 :: (g.toText.text ++ r)) m

/-- The text of a list of groups. -/
def groupListText : List GroupInfo → Bytes
  | [] => []
  | g :: gs => generalLit ++ (g.toText.text ++ moreGroupsText gs
      (CR :: LF :: (emergencyLit ++ [CR, LF])))

/-- The list, the array and the call are those of the groups that were printed. -/
def RoundTrips (udpCreate : Bytes → UInt32 → Bool) (gs : List GroupInfo) : Prop :=
  ∃ info ys, pttReceiveGroupInfoParse (PttInfo.initial udpCreate)
    (groupListText gs) false = .ok info ∧
    info.Groups ys ∧ ys.map Prod.snd = gs ∧
    groupInfoArray info = .ok (some (gs.map fun g => some ⟨g.name, g.number, g.level⟩)) ∧
    info.effects = [.receiveGroupInfo (some (gs.map fun g => ⟨g.name, g.number, g.level⟩))]

section
variable {gs : List GroupInfo}

theorem rowText_cons (g : GroupInfo) (gs : List GroupInfo) (m : Bytes) :
    rowText ((g :: gs).map GroupInfo.toText) ++ m = g.toText.text ++ moreGroupsText gs m := by
  induction gs generalizing g with
  | nil => rfl
  | cons u gs ih =>
    have hu : rowText ((u :: gs).map GroupInfo.toText) ++ m =
      u.toText.text ++ moreGroupsText gs m :=
      ih u
    simp only [List.map_cons] at hu ⊢
    rw [rowText, List.append_assoc, List.cons_append, hu]
    rfl

/-- The text of a list is one line of groups, and the line of the emergency group. -/
theorem groupListText_eq (hne : gs ≠ []) :
    groupListText gs = lineText (gs.map GroupInfo.toText) ++ (emergencyLit ++ [CR, LF]) := by
  cases gs with
  | nil => exact absurd rfl hne
  | cons g gs =>
    rw [lineText, List.append_assoc, List.append_assoc, rowText_cons]
    rfl

theorem lines_groupListText (h : ∀ g ∈ gs, g.WellFormed) (hne : gs ≠ []) :
    Lines LoadLine [gs.map GroupInfo.toText] (groupListText gs) := by
  have hclean : ∀ t ∈ gs.map GroupInfo.toText, t.Clean := by
    intro t ht
    obtain ⟨g, hg, rfl⟩ := List.mem_map.mp ht
    exact (h g hg).clean
  have hemergency : LoadLine none (emergencyLit ++ [CR, LF]) [] :=
    .emergency (List.prefix_append _ _)
  have hlast : Lines LoadLine [] (emergencyLit ++ [CR, LF]) := .cons (by decide) hemergency .nil
  rw [groupListText_eq hne]
  exact .cons (List.append_ne_nil_of_right_ne_nil _ (by decide))
    (loadLine_lineText (by simpa using hne) hclean (by decide)) hlast

end

/-! ### The round trip -/

section
variable {udpCreate : Bytes → UInt32 → Bool} {g : GroupInfo} {gs : List GroupInfo}

theorem GroupInfo.WellFormed.entry_eq (h : g.WellFormed) :
    g.entry = ⟨g.name, g.number, g.level⟩ := by
  rw [GroupInfo.entry, cString_eq_self (h.nameFree.notMem (by decide)),
    cString_eq_self (h.numberFree.notMem (by decide))]

/-- The objects that are reported are those of the list. -/
theorem receiveGroupInfo_effects {info info' : PttInfo} {ys : List (ℕ × GroupInfo)}
    (hrun : receiveGroupInfo info = .ok info') (hg : info'.Groups ys) (hne : ys ≠ []) :
    info'.effects = .receiveGroupInfo (some (ys.map fun p => p.2.entry)) :: info.effects := by
  obtain ⟨groups, rfl⟩ := receiveGroupInfo_frame hrun
  have hlist := groupList_eq (show info.Groups ys from ⟨hg.holds, hg.bounded⟩)
  simp only [receiveGroupInfo, hlist, hne, if_false, ok_bind, Option.map_some, List.map_map, pure,
    Except.pure, Except.ok.injEq] at hrun
  exact (congrArg PttInfo.effects hrun).symm

variable (udpCreate) in
/-- What is loaded are the groups that were printed, with the heartbeats unsigned. -/
theorem parse_groupListText (h : ∀ g ∈ gs, g.WellFormed) (hne : gs ≠ []) :
    ∃ info ys, pttReceiveGroupInfoParse (PttInfo.initial udpCreate)
      (groupListText gs) false = .ok info ∧
      info.Groups ys ∧ ys.map Prod.snd = gs.map GroupInfo.unsigned ∧
      info.effects = [.receiveGroupInfo (some (ys.map fun p => p.2.entry))] := by
  obtain ⟨info, ys, hrun, hg, hys⟩ := loadGroupInfo_ok (PttInfo.initial_groups udpCreate) rfl
    (lines_groupListText h hne)
  have hlist : ys.map Prod.snd = gs.map GroupInfo.unsigned := by
    rw [hys]
    simp only [afterLines, afterLine, List.getLast?_singleton, Option.map_some, Option.getD_some,
      List.map_map]
    exact List.map_congr_left fun g hg => (h g hg).group_toText
  have hys : ys ≠ [] := by
    rintro rfl
    exact hne (List.map_eq_nil_iff.mp hlist.symm)
  obtain ⟨info₁, hquiet, hrec⟩ := loadGroupInfo_frame hrun
  exact ⟨info, ys, hrun, hg, hlist, by rw [receiveGroupInfo_effects hrec hg hys, hquiet.2]; rfl⟩

theorem map_unsigned_eq_self_iff : gs.map GroupInfo.unsigned = gs ↔
    ∀ g ∈ gs, 0 ≤ g.reportHeartbeat ∧ 0 ≤ g.updateHeartbeat := by
  have h : gs.map GroupInfo.unsigned = gs.map id ↔ ∀ g ∈ gs, g.unsigned = id g := List.map_inj_left
  simpa only [List.map_id, id_eq, GroupInfo.unsigned_eq_self_iff] using h

/-- A list of well-formed groups comes back as it was printed exactly when no heartbeat is
negative. -/
theorem groupList_roundTrips_iff (udpCreate : Bytes → UInt32 → Bool) (gs : List GroupInfo)
    (hne : gs ≠ []) (h : ∀ g ∈ gs, g.WellFormed) :
    RoundTrips udpCreate gs ↔ ∀ g ∈ gs, 0 ≤ g.reportHeartbeat ∧ 0 ≤ g.updateHeartbeat := by
  obtain ⟨info, ys, hrun, hg, hlist, heff⟩ := parse_groupListText udpCreate h hne
  rw [← map_unsigned_eq_self_iff]
  constructor
  · rintro ⟨info', ys', hrun', hg', hlist', -⟩
    obtain rfl : info = info' := by simpa [hrun] using hrun'
    rw [← hlist, hg.unique hg', hlist']
  · intro hself
    rw [hself] at hlist
    have hentry : ys.map (fun p => p.2.entry) = gs.map fun g => ⟨g.name, g.number, g.level⟩ := by
      rw [← hlist, List.map_map]
      refine List.map_congr_left fun p hp => (h p.2 ?_).entry_eq
      rw [← hlist]
      exact List.mem_map_of_mem hp
    have harray : groupInfoArray info = .ok (some (ys.map fun p => some p.2.entry)) := by
      cases ys with
      | nil => exact absurd (by simpa using hlist.symm) hne
      | cons y ys => exact groupInfoArray_eq hg
    refine ⟨info, ys, hrun, hg, hlist, ?_, by rw [heff, hentry]⟩
    rw [harray]
    have := congrArg (List.map some) hentry
    simp only [List.map_map] at this
    exact congrArg (fun l => Except.ok (some l)) this

/-- Two groups. -/
theorem groupList_roundTrips : RoundTrips (fun _ _ => true)
    [⟨ascii "day", ascii "8001", 1, 30, 60, ascii "224.1.1.1", 5004, none⟩,
      ⟨ascii "night", ascii "8002", 2, 0, 3600, ascii "224.1.1.2", 5006, none⟩] :=
  (groupList_roundTrips_iff _ _ (by decide) (by decide)).mpr (by decide)

/-- A client that does not report has the heartbeat -1, which is read as zero. -/
theorem disabled_heartbeat_not_read :
    let g : GroupInfo := ⟨ascii "day", ascii "8001", 1, -1, 60, ascii "224.1.1.1", 5004, none⟩
    g.WellFormed ∧ ¬RoundTrips (fun _ _ => true) [g] := by
  intro g
  have hg : g.WellFormed := by decide
  refine ⟨hg, ?_⟩
  rintro ⟨info', ys', hrun', hg', hlist', -⟩
  have hone : ∀ g' ∈ [g], g'.WellFormed := by simpa using hg
  obtain ⟨info, ys, hrun, hg, hlist, -⟩ :=
    parse_groupListText (fun _ _ => true) hone (by decide)
  obtain rfl : info = info' := by simpa [hrun] using hrun'
  have hself : [g].map GroupInfo.unsigned = [g] := by rw [← hlist, hg.unique hg', hlist']
  revert hself
  decide

end

end PttTerminal
