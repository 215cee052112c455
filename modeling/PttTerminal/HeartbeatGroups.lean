import PttTerminal.MulticastSession
import PttTerminal.PacketHistory

/-!
# The groups of a heartbeat

A heartbeat lists the groups that are open. The session is closed when its group is not found among
them. The last number of the packet is read with the line end, and a number is compared as far as
that of the session goes.
-/
namespace PttTerminal

open Loops LinkedCells Walks

/-- `pj_strncmp` finds no difference. -/
def pjStrncmpEq (str1 str2 : Bytes) (len : ℕ) : Bool := str1.take len = str2.take len

/-- One round of the search for the number of the session. -/
def findBody (heap : Store ℕ HeartBeatGroupInfo) (header : ℕ) (number : Bytes) (node : ℕ) :
    Except Fault (Ctl ℕ Bool) := do
  let c ← live (heap node)
  if pjStrncmpEq c.val.groupNum number number.length then return .exit true
  else if c.next = header then return .exit false
  else return .next c.next

/-- Whether the group of the session is found. -/
def findGroup (p : ParserState) (info : PttInfo) : Except Fault Bool :=
  match p.info.multi.header with
  | .num 0 => .ok (info.pttState ≠ .uninit)
  | .node header => do
    let (_, cur) ← info.deref info.gCurrentGroup
    loop .hang (findBody p.mem.heap header cur.val.number) (p.mem.fresh + 1) header
  | _ => .error .useAfterFree

/-- The case of the heartbeat in `multicast_mod_on_rx_request`. -/
def handleHeartbeat (p : ParserState) (info : PttInfo) : Except Fault (ParserState × PttInfo) := do
  let info ← (if info.gCurrentGroup.isNone then .ok info
    else do
      let bfind ← findGroup p info
      return if bfind then info else closeSession (info.report .mByeIndicate))
  let p ← releaseHeader p
  return (p, info)

def receiveHeartbeat (buf : Bytes) (p : ParserState) (info : PttInfo) :
    Except Fault (ParserState × PttInfo) := do
  let p ← multicastParseRdata buf p
  handleHeartbeat p info

/-! ### The handler and the list -/

section

variable {p : ParserState} {info : PttInfo} {gs : List Bytes} {number : Bytes}

/-- A text is compared as far as the number goes. -/
theorem pjStrncmpEq_eq (str : Bytes) :
    pjStrncmpEq str number number.length = number.isPrefixOf str := by
  rw [pjStrncmpEq, List.take_length, Bool.eq_iff_iff, decide_eq_true_iff,
    List.isPrefixOf_iff_prefix, List.prefix_iff_eq_take, eq_comm]

theorem findBody_seeks (heap : Store ℕ HeartBeatGroupInfo) (header : ℕ) (number : Bytes) :
    Seeks (findBody heap header number) heap header (fun x => number.isPrefixOf x.2.groupNum)
      (fun _ => true) false := by
  intro i c hc
  simp only [findBody, hc, live_some, ok_bind, pjStrncmpEq_eq]
  refine ⟨fun h => by rw [if_pos h]; rfl, fun h hnext => ?_, fun h hnext => ?_⟩
  · rw [if_neg (by simp [h]), if_pos hnext]
    rfl
  · rw [if_neg (by simp [h]), if_neg hnext]
    rfl

/-- The list that the parser left is searched as a list of numbers is. -/
theorem findGroup_eq (h : p.Carries (.heartbeat gs)) :
    findGroup p info = heartbeatFinds gs info := by
  obtain ⟨-, header, xs, hheader, hlist, rfl⟩ := h
  cases xs with
  | nil =>
    obtain rfl : header = none := hlist
    simp [findGroup, heartbeatFinds, hheader, Word.ofPointer]
  | cons x xs =>
    obtain ⟨rfl, hring⟩ := hlist
    have hn : xs.length < p.mem.fresh + 1 := by
      have := hring.length_lt p.mem.bounded
      omega
    simp only [findGroup, hheader, Word.ofPointer, heartbeatFinds, List.map_cons, List.isEmpty_cons,
      Bool.false_eq_true, if_false]
    cases hcur : info.deref info.gCurrentGroup with
    | error f => rfl
    | ok cur =>
      simp only [ok_bind]
      rw [loop_seek (l := []) (findBody_seeks p.mem.heap x.1 cur.2.val.number) hring rfl hn]
      have hany : ((x :: xs).find? fun y => cur.2.val.number.isPrefixOf y.2.groupNum).isSome =
          ((x :: xs).map fun y => y.2.groupNum).any fun g => cur.2.val.number.isPrefixOf g := by
        rw [Bool.eq_iff_iff, List.find?_isSome, List.any_map, List.any_eq_true]
        rfl
      rw [List.map_cons] at hany
      rw [← hany]
      cases (x :: xs).find? fun y => cur.2.val.number.isPrefixOf y.2.groupNum <;> rfl

/-- A live list is released, and nothing is where there is none. -/
theorem releaseHeader_isOk (h : p.Carries (.heartbeat gs)) : ∃ p', releaseHeader p = .ok p' := by
  obtain ⟨htype, header, xs, hheader, hlist, -⟩ := h
  cases xs with
  | nil =>
    obtain rfl : header = none := hlist
    exact ⟨p, by simp [releaseHeader, htype, hheader, Word.ofPointer]⟩
  | cons x xs =>
    obtain ⟨rfl, hring⟩ := hlist
    obtain ⟨c, hc, -, -⟩ := hring.cell_of_split (l := []) rfl
    refine ⟨{ p with mem := p.mem.releasePool c.val.pool }, ?_⟩
    simp only [releaseHeader, htype, hheader, Word.ofPointer, hc, live_some, ok_bind]
    rfl

/-- The handler does with the list what is done with its numbers, and releases it. -/
theorem handleHeartbeat_eq (h : p.Carries (.heartbeat gs)) :
    ∃ p', handleHeartbeat p info = (multicastHeartbeat gs info).map (p', ·) := by
  obtain ⟨p', hp'⟩ := releaseHeader_isOk h
  refine ⟨p', ?_⟩
  unfold handleHeartbeat multicastHeartbeat
  by_cases hnone : info.gCurrentGroup.isNone = true
  · simp only [if_pos hnone, ok_bind, hp']
    rfl
  · simp only [if_neg hnone, findGroup_eq h]
    cases hfind : heartbeatFinds gs info with
    | error f => rfl
    | ok bfind =>
      cases bfind <;> simp only [hp', ok_bind, pure, Except.pure, Except.map] <;> rfl

end

/-! ### Printed heartbeats -/

/-- Numbers with commas between them. -/
def commaText : List Bytes → Bytes
  | [] => []
  | [n] => n
  | n :: ns => n ++ 44 :: commaText ns

def heartbeatText (ns : List Bytes) : Bytes := ascii "heartbeat:" ++ (commaText ns ++ [CR, LF])

/-- The numbers as they are read: the last one has the line end. -/
def readNumbers : List Bytes → List Bytes
  | [] => []
  | [n] => [n ++ [CR, LF]]
  | n :: ns => n :: readNumbers ns

section

variable {p : ParserState} {info : PttInfo} {ns : List Bytes} {n : Bytes}

theorem moreGroups_printed (hne : ns ≠ []) (hns : ∀ n ∈ ns, n ≠ [] ∧ Free [44, CR, LF] n) :
    MoreGroups (commaText ns ++ [CR, LF]) (readNumbers ns) [] := by
  have hcomma : ∀ n ∈ ns, Free [44] n := fun n hn => (hns n hn).2.mono (by simp)
  induction ns with
  | nil => exact absurd rfl hne
  | cons n ns ih =>
    cases ns with
    | nil =>
      have hfree : Free [44] (n ++ [CR, LF]) := (hcomma n (by simp)).append (by decide)
      have hlast : MoreGroups (n ++ [CR, LF] ++ []) [n ++ [CR, LF]] [] :=
        .last (by simp) hfree (by simp) (by simp)
      rw [List.append_nil] at hlast
      exact hlast
    | cons m ns =>
      have hrest := ih (by simp) (fun k hk => hns k (List.mem_cons_of_mem _ hk))
        (fun k hk => hcomma k (List.mem_cons_of_mem _ hk))
      have htext : commaText (n :: m :: ns) ++ [CR, LF] =
          n ++ 44 :: (commaText (m :: ns) ++ [CR, LF]) := by simp [commaText]
      rw [htext]
      exact .next (hcomma n (by simp)) (by simp) hrest

/-- Groups that are read to the end of the text are those of a heartbeat. -/
theorem MoreGroups.heartGroups {t : Bytes} {gs : List Bytes} (h : MoreGroups t gs []) :
    HeartGroups t gs := by
  cases h with
  | last hne hfree hhead hlen => exact .single hne hfree hhead hlen
  | next hfree hlen hmore => exact .more hfree hlen hmore

theorem commaText_ne_nil (hne : ns ≠ []) (hns : ∀ n ∈ ns, n ≠ []) : commaText ns ≠ [] := by
  cases ns with
  | nil => exact absurd rfl hne
  | cons n ns =>
    have hn := hns n (by simp)
    cases ns <;> simp [commaText, hn]

theorem says_printed (hne : ns ≠ []) (hns : ∀ n ∈ ns, n ≠ [] ∧ Free [44, CR, LF] n) :
    Says (heartbeatText ns).length (heartbeatText ns) (.heartbeat (readNumbers ns)) := by
  have hpos := List.length_pos_iff.mpr (commaText_ne_nil hne fun n hn => (hns n hn).1)
  have hbeat : (ascii "heartbeat:").length = 10 := rfl
  refine .heartbeat ?_ (moreGroups_printed hne hns).heartGroups
  simp only [heartbeatText, List.length_append, List.length_cons, List.length_nil]
  omega

/-- The order of the list is no matter, as its first group stays the first. -/
theorem any_ringOrder {q : Bytes → Bool} {g : Bytes} {gs : List Bytes} :
    (g :: gs.reverse).any q = (g :: gs).any q := by
  rw [List.any_cons, List.any_cons, List.any_reverse]

theorem heartbeat_handled {gs : List Bytes} {i : ℕ} {c : Cell ℕ GroupInfo} (hgs : gs ≠ [])
    (hcur : info.deref info.gCurrentGroup = .ok (i, c)) :
    multicastHeartbeat gs info = .ok (if gs.any fun g => c.val.number.isPrefixOf g then info
      else closeSession (info.report .mByeIndicate)) := by
  have hsome : info.gCurrentGroup.isNone = false := by
    cases hg : info.gCurrentGroup with
    | none => simp [hg, PttInfo.deref] at hcur
    | some j => rfl
  have hempty : gs.isEmpty = false := by simpa using hgs
  simp only [multicastHeartbeat, hsome, heartbeatFinds, hempty, Bool.false_eq_true, if_false, hcur,
    ok_bind, pure, Except.pure]
  split_ifs <;> rfl

/-- Handling the packet closes the session exactly when the number is not listed. -/
def ClosesUnlisted (p : ParserState) (info : PttInfo) (ns : List Bytes) (number : Bytes) : Prop :=
  ∃ p' info', receiveHeartbeat (heartbeatText ns) p info = .ok (p', info') ∧
    (info'.gCurrentGroup = none ↔ number ∉ ns)

theorem receiveHeartbeat_eq {i : ℕ} {c : Cell ℕ GroupInfo} (hne : ns ≠ [])
    (hns : ∀ n ∈ ns, n ≠ [] ∧ Free [44, CR, LF] n)
    (hcur : info.deref info.gCurrentGroup = .ok (i, c)) :
    ∃ p', receiveHeartbeat (heartbeatText ns) p info =
      .ok (p', if (readNumbers ns).any fun g => c.val.number.isPrefixOf g then info
        else closeSession (info.report .mByeIndicate)) := by
  obtain ⟨q, hparse, hstores⟩ := parseRdata_of_says (p := p) (says_printed hne hns)
  have hcarries := hstores.carries
  cases hread : readNumbers ns with
  | nil => cases ns with
    | nil => exact absurd rfl hne
    | cons n ns => cases ns <;> simp [readNumbers] at hread
  | cons g gs =>
    rw [hread] at hcarries
    obtain ⟨p', hhandle⟩ := handleHeartbeat_eq hcarries
    refine ⟨p', ?_⟩
    rw [receiveHeartbeat, hparse, ok_bind, hhandle, heartbeat_handled (by simp) hcur, any_ringOrder]
    rfl

/-- A listed number starts the text that is read for it. -/
theorem prefix_of_listed (hn : n ∈ ns) : ∃ t ∈ readNumbers ns, n <+: t := by
  induction ns with
  | nil => cases hn
  | cons m ns ih =>
    cases ns with
    | nil =>
      obtain rfl : n = m := List.mem_singleton.mp hn
      exact ⟨n ++ [CR, LF], List.mem_singleton_self _, List.prefix_append _ _⟩
    | cons k ns =>
      obtain rfl | hn := List.mem_cons.mp hn
      · exact ⟨n, List.mem_cons_self, List.prefix_refl _⟩
      · obtain ⟨t, ht, hpre⟩ := ih hn
        exact ⟨t, List.mem_cons_of_mem _ ht, hpre⟩

/-- A heartbeat closes the session as it has to exactly when the number of the session is listed or
starts no number of the packet, the last one with its line end. -/
theorem heartbeat_closes_iff {i : ℕ} {c : Cell ℕ GroupInfo} (p : ParserState) (hne : ns ≠ [])
    (hns : ∀ n ∈ ns, n ≠ [] ∧ Free [44, CR, LF] n)
    (hcur : info.deref info.gCurrentGroup = .ok (i, c)) :
    ClosesUnlisted p info ns c.val.number ↔
      c.val.number ∈ ns ∨ ∀ t ∈ readNumbers ns, ¬ c.val.number <+: t := by
  obtain ⟨p', hrun⟩ := receiveHeartbeat_eq (p := p) hne hns hcur
  have hopen : info.gCurrentGroup ≠ none := by
    intro hnone
    simp [hnone, PttInfo.deref] at hcur
  have hfound : ((readNumbers ns).any fun g => c.val.number.isPrefixOf g) = true ↔
      ∃ t ∈ readNumbers ns, c.val.number <+: t := by simp
  have hcloses : ClosesUnlisted p info ns c.val.number ↔
      ((¬ ∃ t ∈ readNumbers ns, c.val.number <+: t) ↔ c.val.number ∉ ns) := by
    rw [← hfound]
    constructor
    · rintro ⟨q, info', h, hiff⟩
      obtain ⟨-, rfl⟩ := Prod.mk.inj (Except.ok.inj (hrun.symm.trans h))
      rw [← hiff]
      split_ifs with hany
      · simp [hany, hopen]
      · simp [hany, closeSession]
    · intro h
      refine ⟨p', _, hrun, ?_⟩
      rw [← h]
      split_ifs with hany
      · simp [hany, hopen]
      · simp [hany, closeSession]
  rw [hcloses]
  constructor
  · intro h
    by_cases hlisted : c.val.number ∈ ns
    · exact .inl hlisted
    · right
      intro t ht hpre
      exact h.mpr hlisted ⟨t, ht, hpre⟩
  · rintro (hlisted | hnone)
    · simp [hlisted, prefix_of_listed hlisted]
    · have hunlisted : c.val.number ∉ ns := by
        intro hlisted
        obtain ⟨t, ht, hpre⟩ := prefix_of_listed hlisted
        exact hnone t ht hpre
      simp only [hunlisted, not_false_eq_true, iff_true, not_exists, not_and]
      exact hnone

end

/-- The session of a call in the group 1. -/
def sessionOfOne : PttInfo :=
  (native fun _ => true).run (.initial fun _ _ => true)
    [.groupInfo listOfOne, .invite { callCount := 1 } ⟨ascii "1", ascii "7", ascii "c"⟩]

theorem sessionOfOne_current : ∃ i c,
    sessionOfOne.deref sessionOfOne.gCurrentGroup = .ok (i, c) ∧ c.val.number = ascii "1" := by
  have hcur : (sessionOfOne.deref sessionOfOne.gCurrentGroup).toOption.map
      (fun x => x.2.val.number) = some (ascii "1") := by decide
  cases hc : sessionOfOne.deref sessionOfOne.gCurrentGroup with
  | error f => simp [hc, Except.toOption] at hcur
  | ok cur =>
    rw [hc] at hcur
    exact ⟨cur.1, cur.2, rfl, by simpa [Except.toOption] using hcur⟩

theorem heartbeat_keeps_listed :
    ClosesUnlisted {} sessionOfOne [ascii "2", ascii "1"] (ascii "1") := by
  obtain ⟨i, c, hcur, hnumber⟩ := sessionOfOne_current
  have hne : [ascii "2", ascii "1"] ≠ [] := by decide
  have hns : ∀ n ∈ [ascii "2", ascii "1"], n ≠ [] ∧ Free [44, CR, LF] n := by decide
  have hlisted : c.val.number ∈ [ascii "2", ascii "1"] := by
    rw [hnumber]
    decide
  have hcloses := (heartbeat_closes_iff {} hne hns hcur).mpr (.inl hlisted)
  rwa [hnumber] at hcloses

/-- The group 1 is taken for the listed group 12. -/
theorem longer_number_keeps_session :
    ¬ ∀ (p : ParserState) (info : PttInfo) (i : ℕ) (c : Cell ℕ GroupInfo) (ns : List Bytes),
      ns ≠ [] → (∀ n ∈ ns, n ≠ [] ∧ Free [44, CR, LF] n) →
      info.deref info.gCurrentGroup = .ok (i, c) → ClosesUnlisted p info ns c.val.number := by
  intro h
  obtain ⟨i, c, hcur, hnumber⟩ := sessionOfOne_current
  have hne : [ascii "12"] ≠ [] := by decide
  have hns : ∀ n ∈ [ascii "12"], n ≠ [] ∧ Free [44, CR, LF] n := by decide
  obtain ⟨q, info', hrun, hiff⟩ := h {} sessionOfOne i c _ hne hns hcur
  obtain ⟨p', hrun'⟩ := receiveHeartbeat_eq (p := {}) hne hns hcur
  have hfound : ((readNumbers [ascii "12"]).any fun g => c.val.number.isPrefixOf g) = true := by
    rw [hnumber]
    decide
  rw [if_pos hfound] at hrun'
  obtain ⟨-, rfl⟩ := Prod.mk.inj (Except.ok.inj (hrun.symm.trans hrun'))
  have hclosed : sessionOfOne.gCurrentGroup = none := by
    rw [hiff, hnumber]
    decide
  revert hclosed
  decide

end PttTerminal
