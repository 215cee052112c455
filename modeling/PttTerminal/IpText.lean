import Mathlib.Data.List.DropRight
import PttTerminal.Library.Patterns
import PttTerminal.MessageScreens

/-!
# Addresses as texts

The address of the server is checked by a pattern when it is saved. Two other functions turn such a
text into a number and back; they do not use the pattern.
-/
namespace PttTerminal

open Patterns Pattern

namespace PTTUtil

def isStrBlank (str : String) : Bool := javaTrim str = ""

/-! ### The pattern -/

/-- `\d`, of the ASCII digits. -/
def digit : Pattern := one Char.isDigit

def literal (c : Char) : Pattern := one (· = c)

/-- `[a-b]`. -/
def range (a b : Char) : Pattern := one fun c => a ≤ c ∧ c ≤ b

/-- `(?!\d\d\d)\d+|1\d\d|2[0-4]\d|25[0-5]`. -/
def octet : Pattern :=
  .alt (.seq (.notAhead (.seq digit (.seq digit digit))) (.many Char.isDigit))
    (.alt (.seq (literal '1') (.seq digit digit))
      (.alt (.seq (literal '2') (.seq (range '0' '4') digit))
        (.seq (literal '2') (.seq (literal '5') (range '0' '5')))))

/-- `\b`. -/
def wordBoundary : Pattern := .boundary fun c => c.isAlphanum || c = '_'

def regular : Pattern :=
  .seq wordBoundary (.seq octet (.seq (literal '.') (.seq octet (.seq (literal '.') (.seq octet
    (.seq (literal '.') (.seq octet wordBoundary)))))))

def checkIP (ipAddr : String) : Bool :=
  if isStrBlank ipAddr then false else regular.matchesAll ipAddr.toList

/-! ### Numbers -/

/-- `Long.parseLong`; a number that is no `long` is an exception. -/
def parseDigits (sign : ℤ) (cs : List Char) : Option (BitVec 64) :=
  if cs ≠ [] ∧ cs.all Char.isDigit = true then
    let n := sign * Nat.ofDigitChars 10 cs 0
    if -2 ^ 63 ≤ n ∧ n < 2 ^ 63 then some (BitVec.ofInt 64 n) else none
  else none

def parseLong : List Char → Option (BitVec 64)
  | '-' :: cs => parseDigits (-1) cs
  | '+' :: cs => parseDigits 1 cs
  | cs => parseDigits 1 cs

/-- `String.split` at a character: a text without it is left as it is, and empty parts at the end are
dropped. -/
def javaSplit (c : Char) (cs : List Char) : List (List Char) :=
  if c ∈ cs then (cs.splitOn c).rdropWhile List.isEmpty else [cs]

def ipToLong (ip : String) : BitVec 64 :=
  if ip = "" then 0
  else
    let temp := javaSplit '.' (javaTrim ip).toList
    if temp.length ≠ 4 then 0
    else
      let add (ret : BitVec 64) (part : List Char × ℕ) : Option (BitVec 64) :=
        (parseLong part.1).map fun (value : BitVec 64) => ret + value <<< ((3 - part.2) * 8)
      (temp.zipIdx.foldlM add 0).getD 0

/-- What is appended for one byte of the address. -/
def byteText (ip : BitVec 64) (shift : ℕ) : String := toString (ip.sshiftRight shift &&& 0xff).toInt

def longToIp (ip : BitVec 64) : String :=
  byteText ip 24 ++ "." ++ byteText ip 16 ++ "." ++ byteText ip 8 ++ "." ++ byteText ip 0

end PTTUtil

open PTTUtil

/-! ### What an address is -/

def octetValue (o : List Char) : ℕ := Nat.ofDigitChars 10 o 0

/-- One or two digits, or three that are worth 100 to 255. -/
def IsOctet (o : List Char) : Prop :=
  (∀ c ∈ o, c.isDigit = true) ∧
    (o.length = 1 ∨ o.length = 2 ∨ o.length = 3 ∧ 100 ≤ octetValue o ∧ octetValue o ≤ 255)

instance (o : List Char) : Decidable (IsOctet o) := inferInstanceAs (Decidable (_ ∧ _))

/-- Four octets with single dots between them. -/
structure DottedQuad where
  octets : List (List Char)
  four : octets.length = 4
  valid : ∀ o ∈ octets, IsOctet o

namespace DottedQuad

def text (q : DottedQuad) : String := String.ofList (['.'].intercalate q.octets)

/-- The octets as the bytes of a number, the first one highest. -/
def bigEndian (q : DottedQuad) : ℕ := q.octets.foldl (fun n o => 256 * n + octetValue o) 0

/-- No octet of more than one digit begins with a zero. -/
def NoLeadingZero (q : DottedQuad) : Prop := ∀ o ∈ q.octets, o.head? = some '0' → o.length = 1

end DottedQuad

/-! ### Octets of a pattern -/

section octets
variable {x y : Place} {p q r : Char → Bool} {o : List Char} {c : Char}

theorem mem_ends_three : y ∈ (seq (one p) (seq (one q) (one r))).ends x ↔
    ∃ a b c, (p a = true ∧ q b = true ∧ r c = true) ∧ x.Moved [a, b, c] y := by
  rw [((reads_one p).seq ((reads_one q).seq (reads_one r)))]
  constructor
  · rintro ⟨_, hmem, hmoved⟩
    obtain ⟨_, ⟨a, ha, rfl⟩, rest, hrest, rfl⟩ := Language.mem_mul.mp hmem
    obtain ⟨_, ⟨b, hb, rfl⟩, _, ⟨c, hc, rfl⟩, rfl⟩ := Language.mem_mul.mp hrest
    exact ⟨a, b, c, ⟨ha, hb, hc⟩, hmoved⟩
  · rintro ⟨a, b, c, ⟨ha, hb, hc⟩, hmoved⟩
    exact ⟨_, Language.append_mem_mul ⟨a, ha, rfl⟩
      (Language.append_mem_mul ⟨b, hb, rfl⟩ ⟨c, hc, rfl⟩), hmoved⟩

theorem isDigit_iff : c.isDigit = true ↔ 48 ≤ c.toNat ∧ c.toNat ≤ 57 := by
  unfold Char.isDigit
  rw [Bool.and_eq_true, decide_eq_true_eq, decide_eq_true_eq]
  exact Iff.rfl

theorem char_eq_iff {d : Char} : c = d ↔ c.toNat = d.toNat := Char.toNat_inj.symm

theorem octetValue_three {a b c : Char} :
    octetValue [a, b, c] = 100 * (a.toNat - 48) + 10 * (b.toNat - 48) + (c.toNat - 48) := by
  simp only [octetValue, Nat.ofDigitChars_cons, Nat.ofDigitChars_nil]
  change 10 * (10 * (10 * 0 + (a.toNat - 48)) + (b.toNat - 48)) + (c.toNat - 48) = _
  ring

/-- The alternatives for three digits are those that are worth 100 to 255. -/
theorem isOctet_three {a b c : Char} : IsOctet [a, b, c] ↔
    (a = '1' ∧ b.isDigit = true ∧ c.isDigit = true) ∨
      (a = '2' ∧ ('0' ≤ b ∧ b ≤ '4') ∧ c.isDigit = true) ∨
        (a = '2' ∧ b = '5' ∧ '0' ≤ c ∧ c ≤ '5') := by
  have hle : ∀ d e : Char, d ≤ e ↔ d.toNat ≤ e.toNat := fun _ _ => Iff.rfl
  simp only [IsOctet, List.forall_mem_cons, octetValue_three, isDigit_iff, char_eq_iff, hle]
  have h0 : '0'.toNat = 48 := rfl
  have h1 : '1'.toNat = 49 := rfl
  have h2 : '2'.toNat = 50 := rfl
  have h4 : '4'.toNat = 52 := rfl
  have h5 : '5'.toNat = 53 := rfl
  simp only [h0, h1, h2, h4, h5, List.length_cons, List.length_nil]
  constructor
  · rintro ⟨⟨ha, hb, hc, -⟩, hlen⟩
    omega
  · intro h
    exact ⟨⟨by omega, by omega, by omega, by simp⟩, .inr (.inr ⟨trivial, by omega, by omega⟩)⟩

/-- The first alternative, before a place where no digit follows. -/
theorem mem_ends_short (hy : ∀ c ∈ y.behind.head?, c.isDigit = false) :
    y ∈ (seq (notAhead (seq digit (seq digit digit))) (many Char.isDigit)).ends x ↔
      ∃ o, (∀ c ∈ o, c.isDigit = true) ∧ (o.length = 1 ∨ o.length = 2) ∧ x.Moved o y := by
  rw [mem_ends_seq]
  constructor
  · rintro ⟨z, hz, hmany⟩
    obtain ⟨rfl, hahead⟩ := mem_ends_notAhead.mp hz
    obtain ⟨o, ⟨hne, hdigits⟩, hmoved⟩ := (reads_many _ z y).mp hmany
    refine ⟨o, hdigits, ?_, hmoved⟩
    match o, hne with
    | [_], _ => exact .inl rfl
    | [_, _], _ => exact .inr rfl
    | a :: b :: c :: o, _ =>
      simp only [List.forall_mem_cons] at hdigits
      obtain ⟨ha, hb, hc, -⟩ := hdigits
      have hthree : z.Moved [a, b, c] ⟨c :: b :: a :: z.before, o ++ y.behind⟩ := ⟨hmoved.1, rfl⟩
      exact absurd (mem_ends_three.mpr ⟨a, b, c, ⟨ha, hb, hc⟩, hthree⟩) (hahead _)
  · rintro ⟨o, hdigits, hlen, hmoved⟩
    have hne : o ≠ [] := by
      rintro rfl
      simp at hlen
    refine ⟨x, mem_ends_notAhead.mpr ⟨rfl, fun z hz => ?_⟩,
      (reads_many _ x y).mpr ⟨o, ⟨hne, hdigits⟩, hmoved⟩⟩
    -- the third digit would stand right behind the octet
    obtain ⟨a, b, c, ⟨-, hb, hc⟩, hthree⟩ := mem_ends_three.mp hz
    have hbehind : o ++ y.behind = [a, b, c] ++ z.behind := hmoved.1.symm.trans hthree.1
    match o, hlen with
    | [_], _ =>
      have hrest : y.behind = b :: c :: z.behind := (List.cons.inj hbehind).2
      rw [hy b (by rw [hrest]; rfl)] at hb
      cases hb
    | [_, _], _ =>
      have hrest : y.behind = c :: z.behind := (List.cons.inj (List.cons.inj hbehind).2).2
      rw [hy c (by rw [hrest]; rfl)] at hc
      cases hc

/-- Before a place where no digit follows, an octet is read as a whole. -/
theorem mem_ends_octet (hy : ∀ c ∈ y.behind.head?, c.isDigit = false) :
    y ∈ octet.ends x ↔ ∃ o, IsOctet o ∧ x.Moved o y := by
  rw [octet, mem_ends_alt, mem_ends_alt, mem_ends_alt, mem_ends_short hy, literal, literal, literal,
    digit, range, range, mem_ends_three, mem_ends_three, mem_ends_three]
  simp only [decide_eq_true_eq]
  constructor
  · rintro (⟨o, hdigits, hlen, hmoved⟩ | ⟨a, b, c, h, hmoved⟩ | ⟨a, b, c, h, hmoved⟩ |
      ⟨a, b, c, h, hmoved⟩)
    · exact ⟨o, ⟨hdigits, hlen.imp_right .inl⟩, hmoved⟩
    · exact ⟨_, isOctet_three.mpr (.inl h), hmoved⟩
    · exact ⟨_, isOctet_three.mpr (.inr (.inl h)), hmoved⟩
    · exact ⟨_, isOctet_three.mpr (.inr (.inr h)), hmoved⟩
  · rintro ⟨o, hoctet, hmoved⟩
    obtain hlen | hlen | ⟨hlen, -⟩ := hoctet.2
    · exact .inl ⟨o, hoctet.1, .inl hlen, hmoved⟩
    · exact .inl ⟨o, hoctet.1, .inr hlen, hmoved⟩
    · obtain ⟨a, b, c, rfl⟩ := List.length_eq_three.mp hlen
      obtain h | h | h := isOctet_three.mp hoctet
      · exact .inr (.inl ⟨a, b, c, h, hmoved⟩)
      · exact .inr (.inr (.inl ⟨a, b, c, h, hmoved⟩))
      · exact .inr (.inr (.inr ⟨a, b, c, h, hmoved⟩))

theorem mem_ends_dot : y ∈ (literal '.').ends x ↔ x.Moved ['.'] y := by
  rw [literal, reads_one]
  constructor
  · rintro ⟨_, ⟨c, hc, rfl⟩, hmoved⟩
    rwa [of_decide_eq_true hc] at hmoved
  · intro hmoved
    exact ⟨_, ⟨'.', rfl, rfl⟩, hmoved⟩

theorem mem_ends_octetDot {a : Pattern} : y ∈ (seq octet (seq (literal '.') a)).ends x ↔
    ∃ o z, IsOctet o ∧ x.Moved (o ++ ['.']) z ∧ y ∈ a.ends z := by
  rw [mem_ends_seq]
  constructor
  · rintro ⟨w, hw, hrest⟩
    obtain ⟨z, hz, hy⟩ := mem_ends_seq.mp hrest
    have hdot := mem_ends_dot.mp hz
    obtain ⟨o, hoctet, hmoved⟩ := (mem_ends_octet (by rw [hdot.1]; simp)).mp hw
    exact ⟨o, z, hoctet, hmoved.trans hdot, hy⟩
  · rintro ⟨o, z, hoctet, hmoved, hy⟩
    obtain ⟨hleft, hright⟩ := hmoved.split
    exact ⟨_, (mem_ends_octet (by simp)).mpr ⟨o, hoctet, hleft⟩,
      mem_ends_seq.mpr ⟨z, mem_ends_dot.mpr hright, hy⟩⟩

theorem isWord_of_isDigit (h : c.isDigit = true) : (c.isAlphanum || c = '_') = true := by
  simp [Char.isAlphanum, h]

/-- A place behind an octet at the end of the text is a boundary. -/
theorem mem_ends_lastOctet (hend : y.behind = []) : y ∈ (seq octet wordBoundary).ends x ↔
    ∃ o, IsOctet o ∧ x.Moved o y := by
  have hoctet := mem_ends_octet (x := x) (y := y) (by rw [hend]; simp)
  rw [mem_ends_seq]
  constructor
  · rintro ⟨z, hz, hboundary⟩
    obtain ⟨rfl, -⟩ := mem_ends_boundary.mp hboundary
    exact hoctet.mp hz
  · rintro ⟨o, ho, hmoved⟩
    refine ⟨y, hoctet.mpr ⟨o, ho, hmoved⟩, mem_ends_boundary.mpr ⟨rfl, ?_⟩⟩
    have hne : o ≠ [] := by
      rintro rfl
      simp [IsOctet] at ho
    obtain ⟨c, hc⟩ := List.getLast?_isSome.mpr hne |> Option.isSome_iff_exists.mp
    have hdigit := ho.1 c (List.mem_of_getLast? hc)
    have hbefore : y.before.head? = some c := by
      rw [hmoved.2, List.head?_append, List.head?_reverse, hc, Option.some_or]
    rw [Place.atBoundary, hbefore, hend]
    simp [isWord_of_isDigit hdigit]

theorem atBoundary_start (h : IsOctet o) (cs : List Char) :
    Place.atBoundary (fun c => c.isAlphanum || c = '_') ⟨[], o ++ cs⟩ = true := by
  cases o with
  | nil => simp [IsOctet] at h
  | cons c o => simp [Place.atBoundary, isWord_of_isDigit (h.1 c List.mem_cons_self)]

/-- The texts that the pattern matches. -/
theorem regular_iff {cs : List Char} : regular.matchesAll cs = true ↔
    ∃ q : DottedQuad, cs = ['.'].intercalate q.octets := by
  rw [matchesAll_iff]
  constructor
  · rintro ⟨y, hy, hend⟩
    obtain ⟨x, hx, hy⟩ := mem_ends_seq.mp hy
    obtain ⟨rfl, -⟩ := mem_ends_boundary.mp hx
    obtain ⟨o₁, z₁, h₁, hm₁, hy⟩ := mem_ends_octetDot.mp hy
    obtain ⟨o₂, z₂, h₂, hm₂, hy⟩ := mem_ends_octetDot.mp hy
    obtain ⟨o₃, z₃, h₃, hm₃, hy⟩ := mem_ends_octetDot.mp hy
    obtain ⟨o₄, h₄, hm₄⟩ := (mem_ends_lastOctet hend).mp hy
    refine ⟨⟨[o₁, o₂, o₃, o₄], rfl, by simp [h₁, h₂, h₃, h₄]⟩, ?_⟩
    have hall := (((hm₁.trans hm₂).trans hm₃).trans hm₄).1
    rw [hend] at hall
    simpa [List.intercalate] using hall
  · rintro ⟨⟨octets, four, valid⟩, rfl⟩
    obtain ⟨o₁, o₂, o₃, o₄, rfl⟩ := List.length_eq_four.mp four
    simp only [List.forall_mem_cons] at valid
    obtain ⟨h₁, h₂, h₃, h₄, -⟩ := valid
    let x : Place := ⟨[], ['.'].intercalate [o₁, o₂, o₃, o₄]⟩
    let z₁ : Place := ⟨(o₁ ++ ['.']).reverse, ['.'].intercalate [o₂, o₃, o₄]⟩
    let z₂ : Place := ⟨(o₂ ++ ['.']).reverse ++ z₁.before, ['.'].intercalate [o₃, o₄]⟩
    let z₃ : Place := ⟨(o₃ ++ ['.']).reverse ++ z₂.before, o₄⟩
    let y : Place := ⟨o₄.reverse ++ z₃.before, []⟩
    have hm₁ : x.Moved (o₁ ++ ['.']) z₁ := ⟨by simp [x, z₁, List.intercalate], by simp [x, z₁]⟩
    have hm₂ : z₁.Moved (o₂ ++ ['.']) z₂ := ⟨by simp [z₁, z₂, List.intercalate], rfl⟩
    have hm₃ : z₂.Moved (o₃ ++ ['.']) z₃ := ⟨by simp [z₂, z₃, List.intercalate], rfl⟩
    have hm₄ : z₃.Moved o₄ y := ⟨by simp [z₃, y], rfl⟩
    have hstart : x.atBoundary (fun c => c.isAlphanum || c = '_') = true := atBoundary_start h₁ _
    refine ⟨y, mem_ends_seq.mpr ⟨x, mem_ends_boundary.mpr ⟨rfl, hstart⟩, ?_⟩, rfl⟩
    refine mem_ends_octetDot.mpr ⟨o₁, z₁, h₁, hm₁, mem_ends_octetDot.mpr ⟨o₂, z₂, h₂, hm₂, ?_⟩⟩
    exact mem_ends_octetDot.mpr ⟨o₃, z₃, h₃, hm₃, (mem_ends_lastOctet rfl).mpr ⟨o₄, h₄, hm₄⟩⟩

end octets

/-! ### The texts of addresses -/

section texts
variable {o : List Char} {q : DottedQuad} {s : String}

theorem javaTrim_eq_self (h : ∀ c ∈ s.toList, ¬c ≤ ' ') : javaTrim s = s := by
  have hdrop : ∀ cs : List Char, (∀ c ∈ cs, ¬c ≤ ' ') → cs.dropWhile (· ≤ ' ') = cs := by
    intro cs hcs
    cases cs with
    | nil => rfl
    | cons c cs => exact List.dropWhile_cons_of_neg (by simpa using hcs c List.mem_cons_self)
  rw [javaTrim, hdrop _ h, hdrop _ fun c hc => h c (List.mem_reverse.mp hc), List.reverse_reverse,
    String.ofList_toList]

theorem IsOctet.ne_nil (h : IsOctet o) : o ≠ [] := by
  rintro rfl
  simp [IsOctet] at h

theorem IsOctet.notMem_dot (h : IsOctet o) : '.' ∉ o :=
  fun hmem => absurd (h.1 '.' hmem) (by decide)

theorem DottedQuad.text_toList (q : DottedQuad) : q.text.toList = ['.'].intercalate q.octets :=
  String.toList_ofList

theorem DottedQuad.exists_octets (q : DottedQuad) : ∃ o₁ o₂ o₃ o₄,
    (IsOctet o₁ ∧ IsOctet o₂ ∧ IsOctet o₃ ∧ IsOctet o₄) ∧ q.octets = [o₁, o₂, o₃, o₄] ∧
      q.text.toList = o₁ ++ '.' :: (o₂ ++ '.' :: (o₃ ++ '.' :: o₄)) := by
  obtain ⟨o₁, o₂, o₃, o₄, hoctets⟩ := List.length_eq_four.mp q.four
  have hvalid := q.valid
  rw [hoctets] at hvalid
  refine ⟨o₁, o₂, o₃, o₄, by simpa using hvalid, hoctets, ?_⟩
  rw [q.text_toList, hoctets]
  simp [List.intercalate]

theorem DottedQuad.splitOn_text (q : DottedQuad) : q.text.toList.splitOn '.' = q.octets := by
  rw [q.text_toList, List.splitOn_intercalate]
  · intro o ho
    exact (q.valid o ho).notMem_dot
  · intro hnil
    have hfour := q.four
    rw [hnil] at hfour
    cases hfour

theorem DottedQuad.text_chars (q : DottedQuad) : ∀ c ∈ q.text.toList, c.isDigit = true ∨ c = '.' := by
  obtain ⟨o₁, o₂, o₃, o₄, ⟨h₁, h₂, h₃, h₄⟩, -, htext⟩ := q.exists_octets
  rw [htext]
  intro c hc
  simp only [List.mem_append, List.mem_cons] at hc
  obtain hc | rfl | hc | rfl | hc | rfl | hc := hc
  · exact .inl (h₁.1 c hc)
  · exact .inr rfl
  · exact .inl (h₂.1 c hc)
  · exact .inr rfl
  · exact .inl (h₃.1 c hc)
  · exact .inr rfl
  · exact .inl (h₄.1 c hc)

theorem DottedQuad.trim_text (q : DottedQuad) : javaTrim q.text = q.text := by
  refine javaTrim_eq_self fun c hc hle => ?_
  obtain hdigit | rfl := q.text_chars c hc
  · have hlow := (isDigit_iff.mp hdigit).1
    have hspace : c.toNat ≤ 32 := hle
    omega
  · exact absurd hle (by decide)

theorem DottedQuad.text_ne_empty (q : DottedQuad) : q.text ≠ "" := by
  intro hempty
  have hsplit := q.splitOn_text
  have hfour := q.four
  rw [hempty] at hsplit
  rw [← hsplit] at hfour
  cases hfour

theorem checkIP_iff : checkIP s = true ↔ ∃ q : DottedQuad, s = q.text := by
  unfold checkIP
  constructor
  · intro h
    split_ifs at h with hblank
    obtain ⟨q, hq⟩ := regular_iff.mp h
    exact ⟨q, by rw [DottedQuad.text, ← hq, String.ofList_toList]⟩
  · rintro ⟨q, rfl⟩
    have hblank : ¬isStrBlank q.text = true := by
      rw [isStrBlank, q.trim_text, decide_eq_true_eq]
      exact q.text_ne_empty
    rw [if_neg hblank]
    exact regular_iff.mpr ⟨q, q.text_toList⟩

theorem javaSplit_text (q : DottedQuad) : javaSplit '.' q.text.toList = q.octets := by
  have hdot : '.' ∈ q.text.toList := by
    obtain ⟨o₁, o₂, o₃, o₄, -, -, htext⟩ := q.exists_octets
    rw [htext]
    exact List.mem_append_right _ List.mem_cons_self
  have hlast : q.octets.rdropWhile List.isEmpty = q.octets := by
    rw [List.rdropWhile_eq_self_iff]
    intro hne hempty
    exact (q.valid _ (List.getLast_mem hne)).ne_nil (List.isEmpty_iff.mp hempty)
  rw [javaSplit, if_pos hdot, q.splitOn_text, hlast]

theorem IsOctet.value_le (h : IsOctet o) : octetValue o ≤ 255 := by
  obtain ⟨hdigits, hlen⟩ := h
  match o, hlen with
  | [a], _ =>
    have ha := (isDigit_iff.mp (hdigits a (by simp))).2
    have hvalue : octetValue [a] = 10 * 0 + (a.toNat - 48) := rfl
    omega
  | [a, b], _ =>
    have ha := (isDigit_iff.mp (hdigits a (by simp))).2
    have hb := (isDigit_iff.mp (hdigits b (by simp))).2
    have hvalue : octetValue [a, b] = 10 * (10 * 0 + (a.toNat - 48)) + (b.toNat - 48) := rfl
    omega
  | [_, _, _], hlen =>
    simp only [List.length_cons, List.length_nil] at hlen
    omega

theorem parseLong_octet (h : IsOctet o) : parseLong o = some (BitVec.ofNat 64 (octetValue o)) := by
  have hdigits : parseDigits 1 o = some (BitVec.ofNat 64 (octetValue o)) := by
    have hle := h.value_le
    have hvalue : octetValue o = Nat.ofDigitChars 10 o 0 := rfl
    rw [parseDigits, if_pos ⟨h.ne_nil, List.all_eq_true.mpr h.1⟩, ← hvalue, one_mul,
      if_pos (by omega)]
    rw [BitVec.ofInt_natCast]
  unfold parseLong
  split
  · exact absurd (h.1 '-' List.mem_cons_self) (by decide)
  · exact absurd (h.1 '+' List.mem_cons_self) (by decide)
  · exact hdigits

/-- The number of an address is made of its octets. -/
theorem ipToLong_text (q : DottedQuad) : ipToLong q.text = BitVec.ofNat 64 q.bigEndian := by
  obtain ⟨o₁, o₂, o₃, o₄, ⟨h₁, h₂, h₃, h₄⟩, hoctets, -⟩ := q.exists_octets
  rw [ipToLong, if_neg q.text_ne_empty, q.trim_text, javaSplit_text]
  dsimp only
  rw [if_neg (not_not.mpr q.four), DottedQuad.bigEndian, hoctets]
  simp only [List.zipIdx_cons, List.zipIdx_nil, List.foldlM_cons, List.foldlM_nil,
    parseLong_octet h₁, parseLong_octet h₂, parseLong_octet h₃, parseLong_octet h₄,
    Option.map_some, Option.bind_eq_bind, Option.bind_some, Option.pure_def, Option.getD_some,
    List.foldl_cons, List.foldl_nil]
  have hv₁ := h₁.value_le
  have hv₂ := h₂.value_le
  have hv₃ := h₃.value_le
  have hv₄ := h₄.value_le
  have hzero : (0 : BitVec 64).toNat = 0 := rfl
  apply BitVec.eq_of_toNat_eq
  simp only [BitVec.toNat_add, BitVec.toNat_shiftLeft, BitVec.toNat_ofNat, Nat.shiftLeft_eq, hzero]
  omega

theorem byteText_ofNat {n : ℕ} (h : n < 2 ^ 32) (shift : ℕ) :
    byteText (BitVec.ofNat 64 n) shift = Nat.repr (n / 2 ^ shift % 256) := by
  have hnat : (BitVec.ofNat 64 n).toNat = n := by
    rw [BitVec.toNat_ofNat]
    omega
  have hmsb : (BitVec.ofNat 64 n).msb = false := by
    rw [BitVec.msb_eq_false_iff_two_mul_lt, hnat]
    omega
  have hbyte : ((BitVec.ofNat 64 n).sshiftRight shift &&& 0xff).toNat = n / 2 ^ shift % 256 := by
    rw [BitVec.sshiftRight_eq_of_msb_false hmsb, BitVec.toNat_and, BitVec.toNat_ushiftRight, hnat,
      Nat.shiftRight_eq_div_pow]
    exact Nat.and_two_pow_sub_one_eq_mod _ 8
  rw [byteText, BitVec.toInt_eq_toNat_of_lt, hbyte]
  · rfl
  · rw [hbyte]
    omega

theorem isOctet_repr {n : ℕ} (h : n < 256) : IsOctet (Nat.repr n).toList := by
  rw [Nat.toList_repr]
  have hvalue : octetValue (Nat.toDigits 10 n) = n := Nat.ofDigitChars_ten_toDigits
  have hpos := Nat.length_toDigits_pos (b := 10) (n := n)
  have hthree : (Nat.toDigits 10 n).length ≤ 3 :=
    (Nat.length_toDigits_le_iff (by decide) (by decide)).mpr (by omega)
  have htwo : (Nat.toDigits 10 n).length ≤ 2 ↔ n < 10 ^ 2 :=
    Nat.length_toDigits_le_iff (by decide) (by decide)
  refine ⟨fun c hc => Nat.isDigit_of_mem_toDigits (by decide) (by decide) hc, ?_⟩
  rw [hvalue]
  omega

/-- The address that is printed for a number. -/
def printed (n : ℕ) : DottedQuad where
  octets := [24, 16, 8, 0].map fun shift => (Nat.repr (n / 2 ^ shift % 256)).toList
  four := rfl
  valid := by
    intro o ho
    obtain ⟨shift, -, rfl⟩ := List.mem_map.mp ho
    exact isOctet_repr (Nat.mod_lt _ (by decide))

theorem longToIp_ofNat {n : ℕ} (h : n < 2 ^ 32) :
    longToIp (BitVec.ofNat 64 n) = (printed n).text := by
  apply String.toList_injective
  simp only [longToIp, byteText_ofNat h, String.toList_append, DottedQuad.text_toList, printed]
  simp [List.intercalate]

theorem octetValue_repr (n : ℕ) : octetValue (Nat.repr n).toList = n := by
  rw [Nat.toList_repr]
  exact Nat.ofDigitChars_ten_toDigits

theorem printed_bigEndian {n : ℕ} (h : n < 2 ^ 32) : (printed n).bigEndian = n := by
  simp only [DottedQuad.bigEndian, printed, List.map_cons, List.map_nil, List.foldl_cons,
    List.foldl_nil, octetValue_repr]
  omega

theorem digitChar_sub {c : Char} (h : c.isDigit = true) : Nat.digitChar (c.toNat - 48) = c := by
  obtain ⟨hlow, hhigh⟩ := isDigit_iff.mp h
  apply Char.toNat_inj.mp
  rw [Nat.toNat_digitChar_of_lt_ten (by omega)]
  omega

/-- Digits without a leading zero are those of their number. -/
theorem toDigits_octetValue {cs : List Char} (hdigits : ∀ c ∈ cs, c.isDigit = true) (hne : cs ≠ [])
    (hzero : cs.head? = some '0' → cs.length = 1) : Nat.toDigits 10 (octetValue cs) = cs := by
  induction cs using List.reverseRecOn with
  | nil => exact absurd rfl hne
  | append_singleton cs c ih =>
    have hc := hdigits c (List.mem_append_right _ List.mem_cons_self)
    obtain ⟨hlow, hhigh⟩ := isDigit_iff.mp hc
    have hvalue : octetValue (cs ++ [c]) = 10 * octetValue cs + (c.toNat - 48) := by
      rw [octetValue, Nat.ofDigitChars_append]
      rfl
    have hlast : Nat.toDigits 10 (c.toNat - 48) = [c] := by
      rw [Nat.toDigits_of_lt_base (by omega), digitChar_sub hc]
    rw [hvalue]
    by_cases hcs : cs = []
    · subst hcs
      rw [show octetValue [] = 0 from rfl, Nat.mul_zero, Nat.zero_add, hlast, List.nil_append]
    · have hhead : cs.head? ≠ some '0' := by
        intro h
        have hlen := hzero (by rw [List.head?_append_of_ne_nil _ hcs, h])
        have hpos := List.length_pos_iff.mpr hcs
        rw [List.length_append, List.length_singleton] at hlen
        omega
      have hrest := ih (fun c hc => hdigits c (List.mem_append_left _ hc)) hcs
        fun h => absurd h hhead
      have hpos : 0 < octetValue cs := by
        refine Nat.pos_of_ne_zero fun h => hhead ?_
        rw [h, Nat.toDigits_zero] at hrest
        rw [← hrest]
        rfl
      rw [← Nat.toDigits_append_toDigits (by decide) hpos (by omega), hrest, hlast]

theorem DottedQuad.bigEndian_lt (q : DottedQuad) : q.bigEndian < 2 ^ 32 := by
  obtain ⟨o₁, o₂, o₃, o₄, ⟨h₁, h₂, h₃, h₄⟩, hoctets, -⟩ := q.exists_octets
  have hv₁ := h₁.value_le
  have hv₂ := h₂.value_le
  have hv₃ := h₃.value_le
  have hv₄ := h₄.value_le
  simp only [bigEndian, hoctets, List.foldl_cons, List.foldl_nil]
  omega

/-- An address without leading zeros is the one that is printed for its number. -/
theorem DottedQuad.printed_eq {q : DottedQuad} (h : q.NoLeadingZero) :
    (printed q.bigEndian).text = q.text := by
  obtain ⟨o₁, o₂, o₃, o₄, ⟨h₁, h₂, h₃, h₄⟩, hoctets, -⟩ := q.exists_octets
  have hv₁ := h₁.value_le
  have hv₂ := h₂.value_le
  have hv₃ := h₃.value_le
  have hv₄ := h₄.value_le
  have htext : ∀ o ∈ q.octets, (Nat.repr (octetValue o)).toList = o := by
    intro o ho
    rw [Nat.toList_repr]
    exact toDigits_octetValue (q.valid o ho).1 (q.valid o ho).ne_nil (h o ho)
  rw [hoctets] at htext
  simp only [List.forall_mem_cons] at htext
  obtain ⟨ht₁, ht₂, ht₃, ht₄, -⟩ := htext
  have hvalue : q.bigEndian = 256 * (256 * (256 * (256 * 0 + octetValue o₁) + octetValue o₂) +
      octetValue o₃) + octetValue o₄ := by
    rw [bigEndian, hoctets]
    rfl
  have hbyte₁ : q.bigEndian / 2 ^ 24 % 256 = octetValue o₁ := by omega
  have hbyte₂ : q.bigEndian / 2 ^ 16 % 256 = octetValue o₂ := by omega
  have hbyte₃ : q.bigEndian / 2 ^ 8 % 256 = octetValue o₃ := by omega
  have hbyte₄ : q.bigEndian / 2 ^ 0 % 256 = octetValue o₄ := by omega
  have hprinted : (printed q.bigEndian).octets = q.octets := by
    simp only [printed, List.map_cons, List.map_nil, hbyte₁, hbyte₂, hbyte₃, hbyte₄, ht₁, ht₂, ht₃,
      ht₄, hoctets]
  rw [text, hprinted, ← text]

/-- The pattern takes the addresses of four octets, a number is read from them as from its bytes, and
what is printed for a number is an address that is read as this number. -/
theorem ipText_agreement :
    (∀ s, checkIP s = true ↔ ∃ q : DottedQuad, s = q.text) ∧
    (∀ q : DottedQuad, ipToLong q.text = BitVec.ofNat 64 q.bigEndian ∧ q.bigEndian < 2 ^ 32 ∧
      (q.NoLeadingZero → longToIp (ipToLong q.text) = q.text)) ∧
    ∀ n < 2 ^ 32, checkIP (longToIp (BitVec.ofNat 64 n)) = true ∧
      ipToLong (longToIp (BitVec.ofNat 64 n)) = BitVec.ofNat 64 n := by
  refine ⟨fun s => checkIP_iff, fun q => ⟨ipToLong_text q, q.bigEndian_lt, fun h => ?_⟩,
    fun n hn => ?_⟩
  · rw [ipToLong_text, longToIp_ofNat q.bigEndian_lt, DottedQuad.printed_eq h]
  · rw [longToIp_ofNat hn, ipToLong_text, printed_bigEndian hn]
    exact ⟨checkIP_iff.mpr ⟨_, rfl⟩, rfl⟩

theorem ipText_agreement_host : checkIP (longToIp (BitVec.ofNat 64 3232235530)) = true ∧
    ipToLong (longToIp (BitVec.ofNat 64 3232235530)) = BitVec.ofNat 64 3232235530 :=
  ipText_agreement.2.2 3232235530 (by decide)

end texts

end PttTerminal
