import Mathlib.Tactic

/-!
# The text scanner

A scanner stands somewhere in a NUL-terminated buffer; all that its users see is the
rest of the text between the current position and the end. Whitespace skipping is
never switched on by the handlers modelled here, and the line counter is not read.
A call that the text does not satisfy raises `SYNTAX_ERROR`, which nobody catches.
-/
namespace PttTerminal

abbrev Bytes := List UInt8

/-- What holds of every byte of a text is decided along the text, not over all 256 bytes. -/
instance (priority := 2000) decidableForallBytes (t : Bytes) (p : UInt8 → Prop)
    [DecidablePred p] : Decidable (∀ c ∈ t, p c) :=
  List.decidableBAll p t

/-- The bytes of a C string literal. -/
def ascii (s : String) : Bytes := s.toList.map fun c => c.toNat.toUInt8

abbrev CR : UInt8 := 13
abbrev LF : UInt8 := 10

/-- What ends a handler before its last statement. `badLength` is a negative text length,
`overflow` a text that is written behind the end of its buffer, `hang` a loop that goes round for
ever, and the others are uses of a null pointer and of a released node. -/
inductive Fault where
  | syntaxError
  | badLength
  | overflow
  | nullPointer
  | useAfterFree
  | uninitialized
  | hang
  /-- A failed `PJ_ASSERT_RETURN`, which ends the process or is passed over. -/
  | assertion
  deriving Repr, DecidableEq

theorem bind_eq_ok {α β : Type} {x : Except Fault α} {f : α → Except Fault β} {b : β} :
    (x >>= f) = .ok b ↔ ∃ a, x = .ok a ∧ f a = .ok b := by
  cases x with
  | error e => simp [bind, Except.bind]
  | ok a => simp [bind, Except.bind]

theorem map_eq_ok {α β : Type} {x : Except Fault α} {f : α → β} {b : β} :
    x.map f = .ok b ↔ ∃ a, x = .ok a ∧ f a = b := by
  cases x <;> simp [Except.map]

theorem ok_bind {α β : Type} (a : α) (f : α → Except Fault β) : (.ok a >>= f) = f a := rfl

/-- A piece of a handler that reads the text with the scanner. -/
def Scan (α : Type) := Bytes → Except Fault (α × Bytes)

namespace Scan

def pure {α : Type} (a : α) : Scan α := fun r => .ok (a, r)

def bind {α β : Type} (x : Scan α) (f : α → Scan β) : Scan β := fun r =>
  match x r with
  | .error e => .error e
  | .ok (a, r') => f a r'

instance : Monad Scan where
  pure := pure
  bind := bind

@[simp] theorem pure_apply {α : Type} (a : α) (r : Bytes) :
    (Pure.pure a : Scan α) r = .ok (a, r) := rfl

theorem bind_apply {α β : Type} (x : Scan α) (f : α → Scan β) (r : Bytes) :
    (x >>= f) r = match x r with
      | .error e => .error e
      | .ok (a, r') => f a r' := rfl

@[simp] theorem bind_eq_ok {α β : Type} {x : Scan α} {f : α → Scan β} {r r' : Bytes} {b : β} :
    (x >>= f) r = .ok (b, r') ↔ ∃ a m, x r = .ok (a, m) ∧ f a m = .ok (b, r') := by
  rw [bind_apply]
  cases x r with
  | error e => simp
  | ok p => obtain ⟨a, m⟩ := p; simp

theorem bind_of_ok {α β : Type} {x : Scan α} {f : α → Scan β} {r m : Bytes} {a : α}
    (h : x r = .ok (a, m)) : (x >>= f) r = f a m := by rw [bind_apply, h]

theorem bind_of_error {α β : Type} {x : Scan α} {f : α → Scan β} {r : Bytes} {e : Fault}
    (h : x r = .error e) : (x >>= f) r = .error e := by rw [bind_apply, h]

end Scan

def pjScanIsEof : Scan Bool := fun r => .ok (r.isEmpty, r)

/-- The byte at the current position; the terminating NUL at the end of the text. -/
def curChar : Scan UInt8 := fun r => .ok (r.headD 0, r)

def pjScanGetChar : Scan UInt8
  | [] => .error .syntaxError
  | c :: r => if c = 0 then .error .syntaxError else .ok (c, r)

def pjScanGetNewline : Scan Unit
  | [] => .error .syntaxError
  | c :: r =>
    if c = CR then .ok ((), if r.head? = some LF then r.tail else r)
    else if c = LF then .ok ((), r)
    else .error .syntaxError

/-- The text up to the first byte that satisfies `stop`, or to the end. -/
def scanUntil (stop : UInt8 → Bool) : Scan Bytes := fun r =>
  if r = [] then .error .syntaxError else .ok (r.takeWhile (! stop ·), r.dropWhile (! stop ·))

def pjScanGetUntilCh (c : UInt8) : Scan Bytes := scanUntil (· = c)

def pjScanGetUntilChr (spec : Bytes) : Scan Bytes := scanUntil (spec.contains ·)

/-- Compare the text at the current position with a literal: `true` when they agree. -/
def pjScanStrcmp (s : Bytes) : Scan Bool := fun r =>
  if r.length < s.length then .error .syntaxError else .ok (s.isPrefixOf r, r)

/-- What follows the first line feed, which `strchr` looks for no further than the next NUL. -/
def skipLine (r : Bytes) : Bytes :=
  match r.dropWhile (fun c => c ≠ LF && c ≠ 0) with
  | c :: rest => if c = LF then rest else []
  | [] => []

def pjScanSkipLine : Scan Unit := fun r => .ok ((), skipLine r)

/-- `*(tmp++) == '\r' || *(tmp++) == '\n'` from the current position: the second test looks
at the second byte. The byte after the terminating NUL is taken to be no line feed; every
caller raises an error there either way. -/
def crOrSecondLf (r : Bytes) : Bool := r[0]? = some CR || r[1]? = some LF

def looksBlank : Scan Bool := fun r => .ok (crOrSecondLf r, r)

/-- `pj_strtoul`: the value of the leading decimal digits in 32 bits. -/
def pjStrtoul (s : Bytes) : UInt32 :=
  (s.takeWhile fun c => 48 ≤ c && c ≤ 57).foldl (fun v c => v * 10 + (c - 48).toUInt32) 0

/-- `jint` from an unsigned number. -/
def jint (v : UInt32) : ℤ := v.toInt32.toInt

/-- The text in a `char` array. -/
def cString (b : Bytes) : Bytes := b.takeWhile (· ≠ 0)

/-- `pj_ansi_strncpy(buf, src.ptr, src.slen)`: no more than the text of `src`, filled up with NULs;
what stands behind in the array stays. -/
def strncpy (buf src : Bytes) : Bytes :=
  cString src ++ List.replicate (src.length - (cString src).length) 0 ++ buf.drop src.length

/-- `pj_bzero(buf, pj_ansi_strlen(buf))`. -/
def bzeroText (buf : Bytes) : Bytes :=
  List.replicate (cString buf).length 0 ++ buf.drop (cString buf).length

/-- A text without a NUL is copied whole. -/
theorem cString_eq_self {b : Bytes} (h : 0 ∉ b) : cString b = b := by
  unfold cString
  induction b with
  | nil => rfl
  | cons c b ih =>
    have hc : c ≠ 0 := fun hc => h (by simp [hc])
    rw [List.takeWhile_cons_of_pos (by simpa using hc), ih fun hb => h (List.mem_cons_of_mem _ hb)]

theorem zero_notMem_cString (b : Bytes) : 0 ∉ cString b := by
  intro h
  have hall := List.all_takeWhile (p := fun c : UInt8 => decide (c ≠ 0)) (l := b)
  simpa using List.all_eq_true.mp hall 0 h

theorem cString_eq_self_iff {b : Bytes} : cString b = b ↔ 0 ∉ b :=
  ⟨fun h => h ▸ zero_notMem_cString b, cString_eq_self⟩

theorem cString_take_cString (b : Bytes) : cString (b.take (cString b).length) = cString b := by
  have hp : cString b = b.take (cString b).length :=
    List.prefix_iff_eq_take.mp (List.takeWhile_prefix _)
  rw [← hp]
  exact cString_eq_self (zero_notMem_cString b)

theorem cString_append_zeros {b : Bytes} (h : 0 ∉ b) (n : ℕ) :
    cString (b ++ List.replicate n 0) = b := by
  unfold cString
  rw [List.takeWhile_append_of_pos fun c hc => by
    simpa using fun h0 : c = 0 => h (h0 ▸ hc)]
  cases n <;> simp [List.replicate_succ]

/-- What is copied into an array that holds NULs. -/
theorem cString_strncpy_zeros (n : ℕ) (src : Bytes) :
    cString (strncpy (List.replicate n 0) src) = cString src := by
  rw [strncpy, List.drop_replicate, List.append_assoc, List.replicate_append_replicate]
  exact cString_append_zeros (zero_notMem_cString src) _

theorem cString_eq_nil {b : Bytes} : cString b = [] ↔ ∀ c ∈ b.head?, c = 0 := by
  cases b with
  | nil => simp [cString]
  | cons c b =>
    by_cases hc : c = 0 <;> simp [cString, hc]

/-- Into an array that starts with a NUL a text is copied, if there is any. -/
theorem cString_strncpy_eq_nil {buf src : Bytes} (h : cString buf = []) :
    cString (strncpy buf src) = [] ↔ cString src = [] := by
  cases hs : cString src with
  | cons c t =>
    have hc : c ≠ 0 := fun h0 => zero_notMem_cString src (by simp [hs, h0])
    simp [strncpy, hs, cString_eq_nil, hc]
  | nil =>
    cases src with
    | nil => simpa [strncpy, hs] using h
    | cons c src => simp [strncpy, hs, cString_eq_nil, List.replicate_succ]

/-! ### What each call accepts and what it leaves -/

/-- `t` holds none of the bytes in `spec`. -/
def Free (spec t : Bytes) : Prop := ∀ c ∈ t, c ∉ spec

/-- `r` starts with a line end, and `m` is what follows it. -/
def Newline (r m : Bytes) : Prop :=
  r = CR :: LF :: m ∨ (r = CR :: m ∧ m.head? ≠ some LF) ∨ r = LF :: m

/-- `r` is the line `t`, its line end, and then `m`. -/
def Line (t r m : Bytes) : Prop := Free [CR, LF] t ∧ ∃ e, r = t ++ e ∧ Newline e m

instance (spec t : Bytes) : Decidable (Free spec t) :=
    inferInstanceAs (Decidable (∀ c ∈ t, c ∉ spec))

theorem Free.mono {spec spec' t : Bytes} (h : Free spec t) (hs : spec' ⊆ spec) : Free spec' t :=
  fun c hc hmem => h c hc (hs hmem)

theorem Free.notMem {spec t : Bytes} {c : UInt8} (h : Free spec t) (hc : c ∈ spec) : c ∉ t :=
  fun hmem => h c hmem hc

theorem Free.append {spec a b : Bytes} (ha : Free spec a) (hb : Free spec b) : Free spec (a ++ b) :=
  fun c hc => (List.mem_append.mp hc).elim (ha c) (hb c)

theorem Free.cons {spec a : Bytes} {c : UInt8} (hc : c ∉ spec) (ha : Free spec a) :
    Free spec (c :: a) := fun d hd => (List.mem_cons.mp hd).elim (fun h => h ▸ hc) (ha d)

/-- Two bytes that end no line are enough for a text not to look blank. -/
theorem crOrSecondLf_append {t : Bytes} (h : Free [CR, LF] t) (hlen : 2 ≤ t.length) (m : Bytes) :
    crOrSecondLf (t ++ m) = false := by
  cases t with
  | nil => simp at hlen
  | cons a t =>
    cases t with
    | nil => simp at hlen
    | cons b t =>
      have ha : a ∉ [CR, LF] := h a (by simp)
      have hb : b ∉ [CR, LF] := h b (by simp)
      simp only [List.mem_cons, List.not_mem_nil, or_false, not_or] at ha hb
      simp [crOrSecondLf, ha.1, hb.2]

theorem pjScanGetChar_eq_ok {r m : Bytes} {c : UInt8} :
    pjScanGetChar r = .ok (c, m) ↔ r = c :: m ∧ c ≠ 0 := by
  cases r with
  | nil => simp [pjScanGetChar]
  | cons d r =>
    by_cases hd : d = 0
    · simp only [pjScanGetChar, hd, if_true, reduceCtorEq, List.cons.injEq, false_iff]
      rintro ⟨⟨rfl, -⟩, h⟩
      exact h rfl
    · simp only [pjScanGetChar, hd, if_false, Except.ok.injEq, Prod.mk.injEq, List.cons.injEq]
      constructor
      · rintro ⟨rfl, rfl⟩
        exact ⟨⟨rfl, rfl⟩, hd⟩
      · exact fun h => h.1

theorem pjScanGetNewline_eq_ok {r m : Bytes} :
    pjScanGetNewline r = .ok ((), m) ↔ Newline r m := by
  rcases r with _ | ⟨c, _ | ⟨d, r⟩⟩
  · simp [pjScanGetNewline, Newline]
  all_goals
    simp only [pjScanGetNewline, Newline]
    split_ifs <;> simp_all <;> grind

theorem Newline.length_lt {r m : Bytes} (h : Newline r m) : m.length < r.length := by
  rcases h with rfl | ⟨rfl, -⟩ | rfl <;> simp

theorem Newline.head {r m : Bytes} (h : Newline r m) : ∃ c rest, r = c :: rest ∧ c ∈ [CR, LF] := by
  rcases h with rfl | ⟨rfl, -⟩ | rfl <;> exact ⟨_, _, rfl, by simp⟩

/-- A text that begins with CR or LF begins with a line end. -/
theorem exists_newline {c : UInt8} {r : Bytes} (h : c ∈ [CR, LF]) : ∃ m, Newline (c :: r) m := by
  rcases List.mem_cons.mp h with rfl | h
  · rcases r with _ | ⟨d, r⟩
    · exact ⟨[], .inr (.inl ⟨rfl, by simp⟩)⟩
    · by_cases hd : d = LF
      · exact ⟨r, .inl (by rw [hd])⟩
      · exact ⟨d :: r, .inr (.inl ⟨rfl, by simpa using hd⟩)⟩
  · obtain rfl : c = LF := by simpa using h
    exact ⟨r, .inr (.inr rfl)⟩

/-- Reading up to a stop byte splits the text at the first such byte or at the end. -/
theorem scanUntil_eq_ok {stop : UInt8 → Bool} {r out m : Bytes} :
    scanUntil stop r = .ok (out, m) ↔
      r ≠ [] ∧ r = out ++ m ∧ (∀ c ∈ out, stop c = false) ∧ ∀ c ∈ m.head?, stop c = true := by
  unfold scanUntil
  by_cases hr : r = []
  · simp [hr]
  · simp only [hr, if_false, Except.ok.injEq, Prod.mk.injEq, ne_eq, not_false_eq_true, true_and]
    constructor
    · rintro ⟨rfl, rfl⟩
      refine ⟨(List.takeWhile_append_dropWhile).symm, fun c hc => ?_, fun c hc => ?_⟩
      · have := List.all_eq_true.mp (List.all_takeWhile (p := (! stop ·)) (l := r)) c hc
        simpa using this
      · have := List.head?_dropWhile_not (fun c => ! stop c) r
        grind
    · rintro ⟨rfl, hout, hm⟩
      have ht : ∀ c ∈ out, (! stop c) = true := fun c hc => by simp [hout c hc]
      rw [List.takeWhile_append_of_pos ht, List.dropWhile_append_of_pos ht]
      cases m with
      | nil => simp
      | cons d m => simp [hm d (by simp)]

theorem pjScanGetUntilCh_eq_ok {d : UInt8} {r out m : Bytes} :
    pjScanGetUntilCh d r = .ok (out, m) ↔
      r ≠ [] ∧ r = out ++ m ∧ Free [d] out ∧ ∀ c ∈ m.head?, c = d := by
  rw [pjScanGetUntilCh, scanUntil_eq_ok]
  simp [Free]

theorem pjScanGetUntilChr_eq_ok {spec r out m : Bytes} :
    pjScanGetUntilChr spec r = .ok (out, m) ↔
      r ≠ [] ∧ r = out ++ m ∧ Free spec out ∧ ∀ c ∈ m.head?, c ∈ spec := by
  rw [pjScanGetUntilChr, scanUntil_eq_ok]
  simp [Free]

/-- Read a field and the delimiter behind it. -/
def getField (d : UInt8) : Scan Bytes := do
  let out ← pjScanGetUntilCh d
  let _ ← pjScanGetChar
  pure out

theorem getField_eq_ok {d : UInt8} (hd : d ≠ 0) {r out m : Bytes} :
    getField d r = .ok (out, m) ↔ r = out ++ d :: m ∧ Free [d] out := by
  simp only [getField, Scan.bind_eq_ok, pjScanGetUntilCh_eq_ok, pjScanGetChar_eq_ok]
  constructor
  · rintro ⟨t, k, ⟨-, rfl, hfree, hhead⟩, c, k', ⟨rfl, -⟩, h⟩
    obtain rfl : c = d := hhead c rfl
    cases h
    exact ⟨rfl, hfree⟩
  · rintro ⟨rfl, hfree⟩
    exact ⟨out, d :: m, ⟨by simp, rfl, hfree, by simp⟩, d, m, ⟨rfl, hd⟩, rfl⟩

end PttTerminal
