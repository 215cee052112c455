import PttTerminal.FieldLengths

/-!
# Messages from the server

A message of the type `application/zzy-ptt` is told by how its body starts. The handler that is
called reads the rest of the body, or the whole of it, with a scanner whose faults nobody catches,
and copies what it reads into arrays.
-/
namespace PttTerminal

open Loops Runs
open Checked (Stop lift)

/-- The start of a body, and what the bodies that start so are handed over as: nothing when the
message is only logged. -/
structure PagerCase where
  lit : Bytes
  arrival : Bytes → Except Fault (Option Arrival)

/-- What is left behind the start and the byte that follows it. The length is unsigned, and the body
may end before that byte. -/
def regroupContent (body : Bytes) : Except Fault Bytes :=
  if body.length < 17 then .error .badLength else .ok (body.drop 17)

/-- The comparisons, one after the other: none is skipped when an earlier one succeeded. -/
def pagerCases : List PagerCase := [
  ⟨ascii "ind:groupInfo\r\n", fun body => .ok (some (.native (.groupInfo (body.drop 15))))⟩,
  ⟨ascii "rsp:memberInfo\r\n", fun body => .ok (some (.native (.memberInfo (body.drop 16))))⟩,
  ⟨ascii "ind:re-groupInfo", fun body => do
    let content ← regroupContent body
    return some (.native (.regroup content))⟩,
  ⟨ascii "rsp:ptt-accept", fun body => .ok (some (.response .busy body))⟩,
  ⟨ascii "rsp:ptt-waiting", fun body => .ok (some (.response .waiting body))⟩,
  ⟨ascii "rsp:ptt-reject", fun body => .ok (some (.response .rejected body))⟩,
  ⟨ascii "ind:ptt-forceCancel", fun body => .ok (some (.response .canceled body))⟩,
  ⟨ascii "ind:ptt-forceRelease", fun _ => .ok none⟩,
  ⟨ascii "ind:call-info", fun body => .ok (some (.callInfo body))⟩]

/-- The handler, with the lengths of its arrays. -/
def PagerCase.handle (c : PagerCase) (info : PttInfo) (body : Bytes) :
    Except (Stop Fault) PttInfo := do
  match ← lift (c.arrival body) with
  | some a => a.step info
  | none => return info

def PagerCase.run (body : Bytes) (info : PttInfo) (c : PagerCase) : Except (Stop Fault) PttInfo :=
  if c.lit.isPrefixOf body then c.handle info body else .ok info

/-- A message of the type `application/zzy-ptt`. -/
def onPager2 (info : PttInfo) (body : Bytes) : Except (Stop Fault) PttInfo :=
  pagerCases.foldlM (PagerCase.run body) info

/-- The handlers run to their ends. -/
def RunsToEnd (info : PttInfo) (body : Bytes) : Prop := ∃ info', onPager2 info body = .ok info'

instance (info : PttInfo) (body : Bytes) : Decidable (RunsToEnd info body) :=
  decidable_of_iff ((onPager2 info body).toBool = true) (by
    unfold RunsToEnd
    cases onPager2 info body <;> simp [Except.toBool])

/-! ### One handler for each body -/

theorem pagerCases_apart :
    pagerCases.Pairwise fun a b => ¬ a.lit <+: b.lit ∧ ¬ b.lit <+: a.lit := by
  have h : (pagerCases.map PagerCase.lit).Pairwise fun a b => ¬ a <+: b ∧ ¬ b <+: a := by decide
  exact List.pairwise_map.mp h

theorem foldlM_pass {body : Bytes} {cs : List PagerCase} (h : ∀ c ∈ cs, ¬ c.lit <+: body)
    (info : PttInfo) : cs.foldlM (PagerCase.run body) info = .ok info := by
  induction cs with
  | nil => rfl
  | cons c cs ih =>
    have hc : c.lit.isPrefixOf body = false := by simpa [Bool.eq_false_iff] using h c (by simp)
    rw [List.foldlM_cons, PagerCase.run, if_neg (by simp [hc]), Checked.ok_bind]
    exact ih fun d hd => h d (List.mem_cons_of_mem _ hd)

/-- The comparisons exclude each other, so that the message is what the one handler makes of it. -/
theorem foldlM_case {body : Bytes} {cs : List PagerCase}
    (hap : cs.Pairwise fun a b => ¬ a.lit <+: b.lit ∧ ¬ b.lit <+: a.lit) {c : PagerCase}
    (hc : c ∈ cs) (hlit : c.lit <+: body) (info : PttInfo) :
    cs.foldlM (PagerCase.run body) info = c.handle info body := by
  induction cs with
  | nil => simp at hc
  | cons d cs ih =>
    rw [List.pairwise_cons] at hap
    have hother : ∀ e f : PagerCase, ¬ e.lit <+: f.lit ∧ ¬ f.lit <+: e.lit → e.lit <+: body →
        ¬ f.lit <+: body := fun e f h he hf => (List.prefix_or_prefix_of_prefix he hf).elim h.1 h.2
    rw [List.foldlM_cons, PagerCase.run]
    rcases List.mem_cons.mp hc with rfl | hc
    · rw [if_pos (by simpa using hlit)]
      rcases hrun : c.handle info body with e | info'
      · rfl
      · exact foldlM_pass (fun e he => hother _ _ (hap.1 e he) hlit) info'
    · rw [if_neg (by simpa using hother _ _ (hap.1 c hc).symm hlit)]
      exact ih hap.2 hc

theorem runsToEnd_iff {info : PttInfo} {body : Bytes} : RunsToEnd info body ↔
    ∀ c ∈ pagerCases, c.lit <+: body → ∃ info', c.handle info body = .ok info' := by
  constructor
  · rintro ⟨info', h⟩ c hc hlit
    exact ⟨info', by rw [← h, onPager2, foldlM_case pagerCases_apart hc hlit]⟩
  · intro h
    by_cases hlit : ∃ c ∈ pagerCases, c.lit <+: body
    · obtain ⟨c, hc, hlit⟩ := hlit
      obtain ⟨info', hrun⟩ := h c hc hlit
      exact ⟨info', by rw [onPager2, foldlM_case pagerCases_apart hc hlit, hrun]⟩
    · exact ⟨info, foldlM_pass (fun c hc hp => hlit ⟨c, hc, hp⟩) info⟩

/-! ### The texts that each handler reads -/

/-- The rest of a regroup message, read by the loader if no group is kept and else by the merger. -/
def RegroupReadable (info : PttInfo) (cur : List (ℕ × GroupInfo)) (content : Bytes) : Prop :=
  Deletable info content cur ∧
    if kept content cur = [] then ∃ rows, Lines LoadLine rows content
    else ∃ rows, Lines MergeLine rows content

/-- The bodies on which no call of the scanner fails and every copy fits, by the handler they are
for. -/
structure Readable (info : PttInfo) (body : Bytes) : Prop where
  groupInfo : ascii "ind:groupInfo\r\n" <+: body → info.transportId = none →
    (∃ rows, Lines LoadLine rows (body.drop 15)) ∧ LoadFits (body.drop 15)
  memberInfo : ascii "rsp:memberInfo\r\n" <+: body →
    (body.drop 16 ≠ [] ∧ MemberLines (body.drop 16)) ∧ MembersFit (body.drop 16)
  regroup : ascii "ind:re-groupInfo" <+: body → 17 ≤ body.length ∧
    (∀ cur, info.Groups cur → RegroupReadable info cur (body.drop 17)) ∧
      RegroupFits info (body.drop 17)
  waiting : ascii "rsp:ptt-waiting" <+: body →
    (∃ x, Reads waitingRules [] {} body x) ∧ Avoids waitingRules (longField waitingFields) [] body
  reject : ascii "rsp:ptt-reject" <+: body → ∃ y,
    Reads rejectRules [] { status := .rejected } body y
  callInfo : ascii "ind:call-info" <+: body →
    (∃ x, Reads inviteRules [] {} body x) ∧ CallInfoFits body

section readable

variable {info info' : PttInfo} {cur : List (ℕ × GroupInfo)} {body content : Bytes} {a : Arrival}

theorem groupInfoStep_isOk (h : ListShort info) :
    (∃ info', Arrival.step info (.native (.groupInfo content)) = .ok info') ↔
      (info.transportId = none → (∃ rows, Lines LoadLine rows content) ∧ LoadFits content) := by
  have hroom := step_inRoom (a := .native (.groupInfo content)) h
  obtain ⟨xs, hg, -⟩ := h
  rw [Arrival.step] at hroom ⊢
  rw [loadGroupInfoCopy_follows.isOk_iff, hroom, groupInfo_isOk hg]
  exact imp_and.symm

theorem regroupStep_isOk (h : ListShort info) :
    (∃ info', Arrival.step info (.native (.regroup content)) = .ok info') ↔
      (∀ cur, info.Groups cur → RegroupReadable info cur content) ∧ RegroupFits info content := by
  have hroom := step_inRoom (a := .native (.regroup content)) h
  obtain ⟨xs, hg, hs⟩ := h
  have hreport : ∀ {cur}, info.Groups cur → (info.report .receiveRegroup).Groups cur := fun hg =>
    hg.of_sameList (report_sameList _ _)
  rw [Arrival.step] at hroom ⊢
  rw [(cleanupCopy_follows (hreport hg) hs).isOk_iff, hroom]
  refine and_congr_left fun _ => ?_
  constructor
  · intro hok cur hcur
    exact (cleanup_isOk (hreport hcur)).mp hok
  · intro hread
    exact (cleanup_isOk (hreport hg)).mpr (hread xs hg)

theorem memberInfoStep_isOk :
    (∃ info', Arrival.step info (.native (.memberInfo content)) = .ok info') ↔
      (content ≠ [] ∧ MemberLines content) ∧ MembersFit content := memberInfo_isOk

theorem waitingStep_isOk : (∃ info', Arrival.step info (.response .waiting body) = .ok info') ↔
    (∃ x, Reads waitingRules [] {} body x) ∧
      Avoids waitingRules (longField waitingFields) [] body := by
  rw [Arrival.step, response_follows.isOk_iff, waiting_isOk, response_inRoom]
  simp

theorem rejectStep_isOk : (∃ info', Arrival.step info (.response .rejected body) = .ok info') ↔
    ∃ y, Reads rejectRules [] { status := .rejected } body y := by
  rw [Arrival.step, response_follows.isOk_iff, reject_isOk, response_inRoom]
  simp

theorem callInfoStep_isOk : (∃ info', Arrival.step info (.callInfo body) = .ok info') ↔
    (∃ x, Reads inviteRules [] {} body x) ∧ CallInfoFits body := by
  rw [Arrival.step, callInfo_follows.isOk_iff, minvite_isOk, callInfo_inRoom]

end readable

/-! ### The list stays in order -/

section lists

variable {info info' : PttInfo} {body : Bytes}

theorem pagerCases_isRead : ∀ c ∈ pagerCases, ∀ body a, c.arrival body = .ok (some a) →
    a.isRead = true := by
  simp only [pagerCases, List.forall_mem_cons, List.not_mem_nil, false_imp_iff, implies_true,
    and_true]
  refine ⟨?_, ?_, ?_, ?_, ?_, ?_, ?_, ?_, ?_⟩ <;> intro body a h
  case refine_3 =>
    obtain ⟨content, -, h⟩ := bind_eq_ok.mp h
    cases h
    rfl
  all_goals
    cases h
    try rfl

/-- Every handler that runs to its end leaves a list in order, of groups that were copied. -/
theorem onPager2_listShort (h : ListShort info) (hrun : onPager2 info body = .ok info') :
    ListShort info' := by
  by_cases hlit : ∃ c ∈ pagerCases, c.lit <+: body
  · obtain ⟨c, hc, hlit⟩ := hlit
    rw [onPager2, foldlM_case pagerCases_apart hc hlit] at hrun
    obtain ⟨a, ha, hrun⟩ := Checked.bind_eq_ok.mp hrun
    cases a with
    | none =>
      cases hrun
      exact h
    | some a => exact step_listShort h (pagerCases_isRead c hc body a (Checked.lift_eq_ok.mp ha)) hrun
  · rw [onPager2, foldlM_pass fun c hc hp => hlit ⟨c, hc, hp⟩] at hrun
    cases hrun
    exact h

/-- So does every sequence of messages. -/
theorem onPager2s_listShort {bodies : List Bytes} (h : ListShort info)
    (hrun : bodies.foldlM onPager2 info = .ok info') : ListShort info' := by
  induction bodies generalizing info with
  | nil =>
    cases hrun
    exact h
  | cons body bodies ih =>
    rw [List.foldlM_cons] at hrun
    obtain ⟨info₁, h₁, hrest⟩ := Checked.bind_eq_ok.mp hrun
    exact ih (onPager2_listShort h h₁) hrest

end lists

/-! ### No body makes a call of the scanner fail, as far as it is readable -/

theorem handle_some {c : PagerCase} {info : PttInfo} {body : Bytes} {a : Arrival}
    (h : c.arrival body = .ok (some a)) : c.handle info body = a.step info := by
  rw [PagerCase.handle, h]
  rfl

theorem regroup_isOk {info : PttInfo} {body : Bytes} (h : ListShort info) :
    (∃ info', PagerCase.handle ⟨ascii "ind:re-groupInfo", fun body => do
        let content ← regroupContent body
        return some (.native (.regroup content))⟩ info body = .ok info') ↔
      17 ≤ body.length ∧ (∀ cur, info.Groups cur → RegroupReadable info cur (body.drop 17)) ∧
        RegroupFits info (body.drop 17) := by
  by_cases hlen : body.length < 17
  · simp only [PagerCase.handle, regroupContent, if_pos hlen]
    simp [bind, Except.bind, show ¬ 17 ≤ body.length by omega]
  · have hcontent : regroupContent body = .ok (body.drop 17) := if_neg hlen
    rw [handle_some (by dsimp only; rw [hcontent]; rfl), regroupStep_isOk h]
    simp [show 17 ≤ body.length by omega]

/-- A regroup message that keeps one group of the list `A`, `B` and brings another. -/
def regroupToBC : Bytes :=
  ascii "ind:re-groupInfo\r\ngeneral-group:B,2,0,0,2,b:2;C,3,0,0,3,c:3\r\nemergency-group:\r\n"

/-- The name of a speaker that is as long as its array. -/
example : ¬ RunsToEnd (PttInfo.initial fun _ _ => true)
    (ascii "rsp:ptt-waiting\r\nspeaker:" ++ List.replicate 64 49) := by
  decide +kernel

end PttTerminal
