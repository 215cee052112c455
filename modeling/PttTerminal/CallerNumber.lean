import Mathlib.Data.List.DropRight
import PttTerminal.TextMessages

/-!
# The number of the caller

Four places cut the number of the other party out of its address. They look for the first colon and
for the first `@` of the whole text, each by itself, so that those in a display name count, and print
what stands between them into 32 bytes. The number is the user part exactly when the user part fits
there and the display name does not come in between.
-/
namespace PttTerminal

/-! ### The two searches -/

theorem strchr_append {c : UInt8} {p : Bytes} (hp : c ∉ p) (r : Bytes) :
    strchr c (p ++ c :: r) = some (c :: r) := by
  unfold strchr
  rw [List.dropWhile_append_of_pos fun b hb => by simpa using fun hc : b = c => hp (hc ▸ hb),
    List.dropWhile_cons_of_neg (by simp)]

/-- `while(*p1 == ' ') p1++`. -/
def skipBlanks (s : Bytes) : Bytes := s.dropWhile (· = 32)

theorem skipBlanks_idem (s : Bytes) : skipBlanks (skipBlanks s) = skipBlanks s :=
  List.dropWhile_idempotent _ _

theorem skipBlanks_length_le (s : Bytes) : (skipBlanks s).length ≤ s.length :=
  (List.dropWhile_suffix _).length_le

theorem skipBlanks_eq_self {s : Bytes} : skipBlanks s = s ↔ s.head? ≠ some 32 := by
  cases s with
  | nil => simp [skipBlanks]
  | cons c s =>
    rw [skipBlanks, List.dropWhile_eq_self_iff]
    simp

/-- Blanks are not looked for in a text that does not begin with one. -/
theorem skipBlanks_append {s : Bytes} (h : s.head? ≠ some 32) (r : Bytes) :
    skipBlanks (r ++ s) = skipBlanks r ++ s := by
  unfold skipBlanks
  rw [List.dropWhile_append]
  split_ifs with he
  · rw [List.isEmpty_iff.mp he]
    exact skipBlanks_eq_self.mpr h
  · rfl

theorem blanks_append_skipBlanks (s : Bytes) :
    ∃ n, s = List.replicate n 32 ++ skipBlanks s := by
  refine ⟨(s.takeWhile (· = 32)).length, ?_⟩
  have hblanks : s.takeWhile (· = 32) = List.replicate (s.takeWhile (· = 32)).length 32 := by
    refine List.eq_replicate_iff.mpr ⟨rfl, fun b hb => ?_⟩
    simpa using List.mem_takeWhile_imp hb
  rw [← hblanks]
  exact (List.takeWhile_append_dropWhile).symm

theorem skipBlanks_blanks_append (n : ℕ) (s : Bytes) :
    skipBlanks (List.replicate n 32 ++ s) = skipBlanks s :=
  List.dropWhile_append_of_pos fun b hb => by simp [List.eq_of_mem_replicate hb]

section Searches

variable {text p m r : Bytes}

/-- With the colon in front, the text in between. -/
theorem uriNumber_between (hnul : 0 ∉ text) (htext : text = p ++ 58 :: (m ++ 64 :: r))
    (hp : 58 ∉ p ∧ 64 ∉ p) (hm : 64 ∉ m) : uriNumber text = some (skipBlanks m) := by
  have hcolon : strchr 58 text = some (58 :: (m ++ 64 :: r)) := htext ▸ strchr_append hp.1 _
  have hat : strchr 64 text = some (64 :: r) := by
    rw [htext, show p ++ 58 :: (m ++ 64 :: r) = (p ++ 58 :: m) ++ 64 :: r by simp]
    exact strchr_append (by simp [hp.2, hm]) r
  have hskip : skipBlanks (m ++ 64 :: r) = skipBlanks m ++ 64 :: r :=
    skipBlanks_append (by simp) m
  simp only [skipBlanks] at hskip
  simp only [uriNumber, cString_eq_self hnul, hcolon, hat, List.tail_cons, hskip]
  rw [printPrecision, if_neg (by simp)]
  simp [skipBlanks]

/-- With the `@` in front, everything behind the colon. -/
theorem uriNumber_behind (hnul : 0 ∉ text) (htext : text = p ++ 64 :: (m ++ 58 :: r))
    (hp : 58 ∉ p ∧ 64 ∉ p) (hm : 58 ∉ m) : uriNumber text = some (skipBlanks r) := by
  have hat : strchr 64 text = some (64 :: (m ++ 58 :: r)) := htext ▸ strchr_append hp.2 _
  have hcolon : strchr 58 text = some (58 :: r) := by
    rw [htext, show p ++ 64 :: (m ++ 58 :: r) = (p ++ 64 :: m) ++ 58 :: r by simp]
    exact strchr_append (by simp [hp.1, hm]) r
  have hlen := skipBlanks_length_le r
  simp only [skipBlanks] at hlen
  simp only [uriNumber, cString_eq_self hnul, hcolon, hat, List.tail_cons]
  rw [printPrecision, if_pos (by simp; omega)]
  rfl

end Searches

/-! ### The addresses -/

/-- An address `scheme:user@host`, by itself or in brackets behind a display name, which may be
empty. The host goes on with the port and the parameters. -/
structure NameAddr where
  display : Option Bytes
  scheme : Bytes
  user : Bytes
  host : Bytes
  displayText : 0 ∉ display.getD []
  schemeText : 0 ∉ scheme ∧ 58 ∉ scheme ∧ 64 ∉ scheme
  userText : 0 ∉ user
  hostText : 0 ∉ host

namespace NameAddr

def uri (a : NameAddr) : Bytes := a.scheme ++ 58 :: (a.user ++ 64 :: a.host)

def text (a : NameAddr) : Bytes :=
  match a.display with
  | none => a.uri
  | some d => d ++ 60 :: (a.uri ++ [62])

variable {a : NameAddr} {d p q r : Bytes}

theorem zero_notMem_text (a : NameAddr) : 0 ∉ a.text := by
  have huri : 0 ∉ a.uri := by simp [uri, a.schemeText.1, a.userText, a.hostText]
  have hdisplay := a.displayText
  unfold text
  cases hd : a.display with
  | none => exact huri
  | some d =>
    rw [hd, Option.getD_some] at hdisplay
    simp [hdisplay, huri]

/-- The display name has neither of the two. -/
def Unmarked (d : Bytes) : Prop := 58 ∉ d ∧ 64 ∉ d

/-- The display name has the user part itself between its first colon and its first `@`. -/
def Names (d user : Bytes) : Prop :=
  ∃ p n q, d = p ++ 58 :: (List.replicate n 32 ++ user ++ 64 :: q) ∧ Unmarked p

/-- The user part begins with no blank, and nothing is taken for its end. -/
def UserClear (a : NameAddr) : Prop := 64 ∉ a.user ∧ a.user.head? ≠ some 32

def DisplayClear (a : NameAddr) : Prop := ∀ d ∈ a.display, Unmarked d ∨ Names d a.user

/-- An unmarked text in front of the user part changes nothing. -/
theorem number_unmarked (htext : a.text = p ++ 58 :: (a.user ++ 64 :: q)) (hp : Unmarked p) :
    uriNumber a.text = some a.user ↔ a.UserClear := by
  constructor
  · intro h
    have hat : 64 ∉ a.user := by
      intro hmem
      obtain ⟨u, v, huser, hu⟩ := List.eq_append_cons_of_mem hmem
      rw [uriNumber_between (r := v ++ 64 :: q) a.zero_notMem_text (by rw [htext, huser]; simp) hp hu,
        Option.some_inj] at h
      exact hu ((List.dropWhile_suffix _).subset (show 64 ∈ skipBlanks u from h ▸ hmem))
    rw [uriNumber_between a.zero_notMem_text htext hp hat, Option.some_inj] at h
    exact ⟨hat, skipBlanks_eq_self.mp h⟩
  · rintro ⟨hat, hblank⟩
    rw [uriNumber_between a.zero_notMem_text htext hp hat, skipBlanks_eq_self.mpr hblank]

theorem user_blank (h : skipBlanks p = a.user) : a.user.head? ≠ some 32 := by
  rw [← skipBlanks_eq_self, ← h, skipBlanks_idem]

/-- More than the user part, and the `@` behind it, is not the user part. -/
theorem skipBlanks_user_ne (p q : Bytes) : skipBlanks (p ++ a.user ++ 64 :: q) ≠ a.user := by
  intro h
  have hblank := user_blank h
  rw [skipBlanks_append (by simp), skipBlanks_append hblank] at h
  have hlen := congrArg List.length h
  simp only [List.length_append, List.length_cons] at hlen
  omega

/-- The display name has the `@` in front: the rest of the address is taken. -/
theorem number_at_first (hd : a.display = some (p ++ 64 :: q)) (hp : Unmarked p) :
    uriNumber a.text ≠ some a.user := by
  have htext : a.text = p ++ 64 :: (q ++ 60 :: (a.scheme ++ 58 :: (a.user ++ 64 ::
      (a.host ++ [62])))) := by
    simp [text, uri, hd]
  by_cases hq : 58 ∈ q
  · obtain ⟨m, r, hmr, hm⟩ := List.eq_append_cons_of_mem hq
    rw [uriNumber_behind (m := m) (r := r ++ 60 :: (a.scheme ++ 58 :: (a.user ++ 64 ::
      (a.host ++ [62])))) a.zero_notMem_text (by rw [htext, hmr]; simp) hp hm, ne_eq, Option.some_inj]
    rw [show r ++ 60 :: (a.scheme ++ 58 :: (a.user ++ 64 :: (a.host ++ [62]))) =
      (r ++ 60 :: (a.scheme ++ [58])) ++ a.user ++ 64 :: (a.host ++ [62]) by simp]
    exact skipBlanks_user_ne _ _
  · have hm : 58 ∉ q ++ 60 :: a.scheme := by simp [hq, a.schemeText.2.1]
    rw [uriNumber_behind (m := q ++ 60 :: a.scheme) (r := a.user ++ 64 :: (a.host ++ [62]))
      a.zero_notMem_text (by rw [htext]; simp) hp hm, ne_eq, Option.some_inj]
    exact skipBlanks_user_ne [] (a.host ++ [62])

/-- The display name has a colon and no `@`: the scheme is taken with the number. -/
theorem number_colon_alone (hd : a.display = some (p ++ 58 :: q)) (hp : Unmarked p)
    (hq : 64 ∉ q) : uriNumber a.text ≠ some a.user := by
  have htext : a.text = p ++ 58 :: (q ++ 60 :: (a.scheme ++ 58 :: (a.user ++ 64 ::
      (a.host ++ [62])))) := by
    simp [text, uri, hd]
  obtain ⟨u, r, hur, hu⟩ := List.eq_append_cons_of_mem
    (show 64 ∈ a.user ++ 64 :: (a.host ++ [62]) by simp)
  have hm : 64 ∉ q ++ 60 :: (a.scheme ++ 58 :: u) := by simp [hq, a.schemeText.2.2, hu]
  rw [uriNumber_between (r := r) a.zero_notMem_text (by rw [htext, hur]; simp) hp hm, ne_eq,
    Option.some_inj, skipBlanks_append (by simp)]
  intro huser
  -- what is taken has no `@`, so that it goes on to the end of the user part
  have hat : 64 ∉ a.user := by
    rw [← huser]
    have hblanks : 64 ∉ skipBlanks q := fun h => hq ((List.dropWhile_suffix _).subset h)
    simp [hblanks, a.schemeText.2.2, hu]
  have hlen : a.user.length ≤ u.length := by
    by_contra hlt
    have hget := congrArg (fun l => l[u.length]?) hur
    simp only [List.getElem?_append_left (Nat.lt_of_not_le hlt), List.getElem?_append_right le_rfl,
      Nat.sub_self, List.getElem?_cons_zero] at hget
    exact hat (List.mem_of_getElem? hget)
  have hlen' := congrArg List.length huser
  simp at hlen'
  omega

/-- The display name has both, the colon in front: what stands between them is taken. -/
theorem number_named (hd : a.display = some (p ++ 58 :: (q ++ 64 :: r))) (hp : Unmarked p)
    (hq : 64 ∉ q) : uriNumber a.text = some (skipBlanks q) :=
  uriNumber_between (r := r ++ 60 :: (a.uri ++ [62])) a.zero_notMem_text
    (by simp [text, hd]) hp hq

theorem number_display (hd : a.display = some d) (hmarked : ¬ Unmarked d) :
    uriNumber a.text = some a.user ↔ a.UserClear ∧ Names d a.user := by
  constructor
  · intro h
    by_cases hcolon : 58 ∈ d
    · obtain ⟨p, q, rfl, hp⟩ := List.eq_append_cons_of_mem hcolon
      by_cases hat : 64 ∈ p
      · obtain ⟨p, m, rfl, hp'⟩ := List.eq_append_cons_of_mem hat
        have hp : 58 ∉ p := fun hmem => hp (by simp [hmem])
        exact absurd h (number_at_first (p := p) (q := m ++ 58 :: q) (by simp [hd]) ⟨hp, hp'⟩)
      · by_cases hq : 64 ∈ q
        · obtain ⟨m, r, rfl, hm⟩ := List.eq_append_cons_of_mem hq
          rw [number_named hd ⟨hp, hat⟩ hm, Option.some_inj] at h
          obtain ⟨n, hn⟩ := blanks_append_skipBlanks m
          have huser : 64 ∉ a.user := fun hmem => hm ((List.dropWhile_suffix _).subset
            (show 64 ∈ skipBlanks m from h ▸ hmem))
          refine ⟨⟨huser, user_blank h⟩, p, n, r, ?_, hp, hat⟩
          rw [← h, ← hn]
        · exact absurd h (number_colon_alone hd ⟨hp, hat⟩ hq)
    · have hat : 64 ∈ d := by
        by_contra hat
        exact hmarked ⟨hcolon, hat⟩
      obtain ⟨p, q, rfl, hp⟩ := List.eq_append_cons_of_mem hat
      exact absurd h (number_at_first hd ⟨fun hmem => hcolon (by simp [hmem]), hp⟩)
  · rintro ⟨huser, p, n, q, rfl, hp⟩
    have hq : 64 ∉ List.replicate n 32 ++ a.user := by simp [huser.1]
    rw [number_named (by rw [hd]) hp hq, skipBlanks_blanks_append, skipBlanks_eq_self.mpr huser.2]

/-- What is cut out of an address is its user part exactly when the user part is clear and no mark of
the display name stands in the way. -/
theorem number_eq_user (a : NameAddr) :
    uriNumber a.text = some a.user ↔ a.UserClear ∧ a.DisplayClear := by
  cases hd : a.display with
  | none =>
    rw [number_unmarked (p := a.scheme) (q := a.host) (by simp [text, hd, uri]) a.schemeText.2]
    simp [DisplayClear, hd]
  | some d =>
    by_cases hmarked : Unmarked d
    · rw [number_unmarked (p := d ++ 60 :: a.scheme) (q := a.host ++ [62]) (by simp [text, hd, uri])
        ⟨by simp [hmarked.1, a.schemeText.2.1], by simp [hmarked.2, a.schemeText.2.2]⟩]
      simp [DisplayClear, hd, hmarked]
    · rw [number_display hd hmarked]
      simp [DisplayClear, hd, hmarked]

end NameAddr

/-! ### The places where the number is read -/

/-- The functions that cut a number out of an address. -/
inductive NumberSite where
  | onCallState
  | onIncomingCall
  | callTimeoutCallback
  | doReceiveSms
  deriving Repr, DecidableEq

namespace NumberSite

/-- The number in the report that is shown, if one is. -/
def shownNumber : Except Fault (Option CallReport × NativeApp) → Option Bytes
  | .ok (some report, _) => some report.number
  | _ => none

/-- With the address `text` the application may be told this number: in some state of the calls and
for some arguments the function shows a report with it, or hands a message over with it. -/
def Reports (text number : Bytes) : NumberSite → Prop
  | .onCallState => ∃ (app : NativeApp) (callId : ℕ) (state : InvState) (lastStatus : ℤ),
      shownNumber (app.onCallState callId state text lastStatus) = some number
  | .onIncomingCall => ∃ (app : NativeApp) (callId : ℕ) (lastStatus : ℤ),
      shownNumber (app.onIncomingCall callId text lastStatus) = some number
  | .callTimeoutCallback => ∃ (app : NativeApp) (callId : ℕ),
      shownNumber (app.callTimeoutCallback callId text) = some number
  | .doReceiveSms => ∃ body message : Bytes,
      PttTerminal.doReceiveSms text body = .ok ⟨some number, some message⟩

variable {text number : Bytes}

theorem shownNumber_eq_some {r : Except Fault (Option CallReport × NativeApp)}
    (h : shownNumber r = some number) :
    ∃ report app, r = .ok (some report, app) ∧ report.number = number := by
  cases r with
  | error fault => exact absurd h.symm (Option.some_ne_none number)
  | ok shown =>
    obtain ⟨_ | report, app⟩ := shown
    · exact absurd h.symm (Option.some_ne_none number)
    · exact ⟨report, app, rfl, Option.some_inj.mp h⟩

/-- Where the number is read before the report is shown, the one that is shown was read. -/
theorem read_of_shownNumber {read : Except Fault Bytes}
    {shown : Bytes → Except Fault (Option CallReport × NativeApp)}
    (hshow : ∀ n report app, shown n = .ok (some report, app) → report.number = n)
    (h : shownNumber (read >>= shown) = some number) : read = .ok number := by
  obtain ⟨report, app, hrun, hnumber⟩ := shownNumber_eq_some h
  obtain ⟨n, hn, hrun⟩ := bind_eq_ok.mp hrun
  rw [hn, ← hnumber, hshow n report app hrun]

theorem showCallState_number {app app' : NativeApp} {callId : ℕ} {state : InvState} {errorCode : ℤ}
    {report : CallReport}
    (h : app.showCallState callId number state errorCode = .ok (some report, app')) :
    report.number = number := by
  cases state with
  | null | calling | incoming | confirmed => cases h; rfl
  | early | connecting => cases h
  | disconnected =>
    simp only [NativeApp.showCallState, NativeApp.showEnding] at h
    split_ifs at h with hother hbusy
    · cases h
    · obtain ⟨⟨i, cur⟩, -, h⟩ := bind_eq_ok.mp h
      dsimp only at h
      split_ifs at h
      · cases h
        rfl
      · cases h
    · cases h
      rfl

/-- A terminal without groups, of which one call is nine seconds old. -/
def aging : NativeApp := { info := .initial fun _ _ => true, calls := [{}], sipcallTimerCount := 8 }

/-- All four print what the two searches find into 32 bytes. -/
theorem reports_iff {found : Bytes} (h : uriNumber text = some found) (site : NumberSite) :
    site.Reports text number ↔ sprintf 32 found = .ok number := by
  have hin : inNumber text = sprintf 32 found := by simp [inNumber, h]
  constructor
  · intro hreports
    cases site with
    | onCallState =>
      obtain ⟨app, callId, state, lastStatus, hshown⟩ := hreports
      rw [← hin]
      refine read_of_shownNumber (fun n report app' hrun => ?_) hshown
      by_cases hincoming : state = .incoming
      · rw [if_pos hincoming] at hrun
        cases hrun
      · rw [if_neg hincoming] at hrun
        exact showCallState_number hrun
    | onIncomingCall =>
      obtain ⟨app, callId, lastStatus, hshown⟩ := hreports
      rw [← hin]
      exact read_of_shownNumber (fun n report app' => showCallState_number) hshown
    | callTimeoutCallback =>
      obtain ⟨app, callId, hshown⟩ := hreports
      simp only [NativeApp.callTimeoutCallback] at hshown
      split_ifs at hshown
      · cases hshown
      · rw [← hin]
        exact read_of_shownNumber (fun n report app' => showCallState_number) hshown
    | doReceiveSms =>
      obtain ⟨body, message, hrun⟩ := hreports
      simp only [PttTerminal.doReceiveSms, h] at hrun
      obtain ⟨n, hn, hrun⟩ := bind_eq_ok.mp hrun
      cases hrun
      exact hn
  · intro hprint
    rw [← hin] at hprint
    cases site with
    | onCallState =>
      refine ⟨aging, 0, .calling, 0, ?_⟩
      simp only [NativeApp.onCallState, hprint]
      rfl
    | onIncomingCall =>
      refine ⟨aging, 0, 0, ?_⟩
      simp only [NativeApp.onIncomingCall, hprint]
      rfl
    | callTimeoutCallback =>
      refine ⟨aging, 0, ?_⟩
      simp only [NativeApp.callTimeoutCallback, hprint]
      rfl
    | doReceiveSms =>
      refine ⟨[], [], ?_⟩
      rw [hin] at hprint
      simp only [PttTerminal.doReceiveSms, h, hprint]
      rfl

/-- Whatever is found, all four report the same numbers. -/
theorem reports_agree {found : Bytes} (h : uriNumber text = some found) (site other : NumberSite) :
    site.Reports text number ↔ other.Reports text number := by
  rw [reports_iff h site, reports_iff h other]

end NumberSite

namespace NameAddr

/-- Each of the four reports the user part and nothing else, and it fits its buffer. -/
def ReadsUser (a : NameAddr) : Prop :=
  a.user.length ≤ 31 ∧ ∀ (site : NumberSite) (number : Bytes),
    site.Reports a.text number ↔ number = a.user

/-- The user part is clear and short, and the display name does not come in between. -/
def Readable (a : NameAddr) : Prop := a.user.length ≤ 31 ∧ a.UserClear ∧ a.DisplayClear

theorem uriNumber_isSome (a : NameAddr) : ∃ found, uriNumber a.text = some found := by
  have hcolon : 58 ∈ a.text := by cases hd : a.display <;> simp [text, uri, hd]
  have hat : 64 ∈ a.text := by cases hd : a.display <;> simp [text, uri, hd]
  obtain ⟨p, q, hpq, hp⟩ := List.eq_append_cons_of_mem hcolon
  obtain ⟨r, s, hrs, hr⟩ := List.eq_append_cons_of_mem hat
  have hcolon : strchr 58 a.text = some (58 :: q) := hpq ▸ strchr_append hp q
  have hat : strchr 64 a.text = some (64 :: s) := hrs ▸ strchr_append hr s
  simp only [uriNumber, cString_eq_self a.zero_notMem_text, hcolon, hat]
  exact ⟨_, rfl⟩

/-- The number is the user part exactly for the addresses that are readable. The text is what the
four are handed: `pjsua_call_get_info` keeps the first 128 bytes of a `remote_info`. -/
theorem readsUser_iff (a : NameAddr) : a.ReadsUser ↔ a.Readable := by
  obtain ⟨found, hfound⟩ := a.uriNumber_isSome
  rw [ReadsUser, Readable, ← number_eq_user, hfound, Option.some_inj]
  simp only [NumberSite.reports_iff hfound, sprintf]
  constructor
  · rintro ⟨hshort, h⟩
    have huser := (h .doReceiveSms a.user).mpr rfl
    split_ifs at huser
    cases huser
    exact ⟨hshort, rfl⟩
  · rintro ⟨hshort, rfl⟩
    refine ⟨hshort, fun _ number => ?_⟩
    rw [if_pos (Nat.lt_succ_of_le hshort), Except.ok.injEq, eq_comm]

/-- `"Desk: 2" <sip:1001@host>`: the scheme is taken for a part of the number. -/
def deskTwo : NameAddr where
  display := some (ascii "\"Desk: 2\" ")
  scheme := ascii "sip"
  user := ascii "1001"
  host := ascii "host"
  displayText := by decide
  schemeText := by decide
  userText := by decide
  hostText := by decide

/-- The number that is reported is `2" <sip:1001`. -/
theorem deskTwo_not_read : NumberSite.onIncomingCall.Reports deskTwo.text
      (ascii "2\" <sip:1001") ∧ ¬ deskTwo.ReadsUser := by
  have hfound : uriNumber deskTwo.text = some (ascii "2\" <sip:1001") := by decide
  have hreports : NumberSite.onIncomingCall.Reports deskTwo.text (ascii "2\" <sip:1001") := by
    rw [NumberSite.reports_iff hfound]
    decide
  exact ⟨hreports, fun h => absurd ((h.2 _ _).mp hreports) (by decide)⟩

end NameAddr

end PttTerminal
