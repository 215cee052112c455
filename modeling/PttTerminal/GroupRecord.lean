import PttTerminal.Scanner

/-!
# One group of a group list

The groups of a list are separated by `;`, the fields of a group by `,` and `:`. A record is
read field by field up to the byte that ends it, which is left to the caller.
-/
namespace PttTerminal

/-- What the terminal keeps about a group. Its pool is the one the record itself lives in, so the
pool needs no field; `transport` is the number of its media transport. -/
structure GroupInfo where
  name : Bytes
  number : Bytes
  level : UInt8
  reportHeartbeat : ℤ
  updateHeartbeat : ℤ
  mcastAddress : Bytes
  port : UInt32
  transport : Option ℕ := none
  deriving Repr, DecidableEq

def GroupInfo.setTransport (g : GroupInfo) (t : Option ℕ) : GroupInfo := { g with transport := t }

def pttGroupInfoParse : Scan GroupInfo := do
  let name ← getField 44
  let number ← getField 44
  let level ← getField 44
  let report ← getField 44
  let update ← getField 44
  let mcastAddress ← getField 58
  let port ← pjScanGetUntilChr [59, CR, LF]
  pure {
    name := name
    number := number
    level := (pjStrtoul level).toUInt8
    reportHeartbeat := jint (pjStrtoul report)
    updateHeartbeat := jint (pjStrtoul update)
    mcastAddress := mcastAddress
    port := pjStrtoul port }

/-! ### The text of a group -/

/-- The seven fields of a group as they stand in a message. -/
structure GroupText where
  name : Bytes
  number : Bytes
  level : Bytes
  report : Bytes
  update : Bytes
  address : Bytes
  port : Bytes
  deriving Repr, DecidableEq

namespace GroupText

def text (t : GroupText) : Bytes :=
  t.name ++ 44 :: (t.number ++ 44 :: (t.level ++ 44 :: (t.report ++ 44 :: (t.update ++ 44 ::
    (t.address ++ 58 :: t.port)))))

/-- The group that a text describes. -/
def group (t : GroupText) : GroupInfo where
  name := t.name
  number := t.number
  level := (pjStrtoul t.level).toUInt8
  reportHeartbeat := jint (pjStrtoul t.report)
  updateHeartbeat := jint (pjStrtoul t.update)
  mcastAddress := t.address
  port := pjStrtoul t.port

/-- No field holds the delimiter that ends it. -/
structure Delimited (t : GroupText) : Prop where
  name : Free [44] t.name
  number : Free [44] t.number
  level : Free [44] t.level
  report : Free [44] t.report
  update : Free [44] t.update
  address : Free [58] t.address
  port : Free [59, CR, LF] t.port

end GroupText

/-- `r` is the text of `t` and then `m`, which starts with the byte that ends the record. -/
structure Record (t : GroupText) (r m : Bytes) : Prop where
  eq : r = t.text ++ m
  delimited : t.Delimited
  more : t.port ++ m ≠ []
  stop : ∀ c ∈ m.head?, c ∈ [59, CR, LF]

/-- The parser reads exactly the records, and reads them as what they say. -/
theorem pttGroupInfoParse_eq_ok {r m : Bytes} {g : GroupInfo} :
    pttGroupInfoParse r = .ok (g, m) ↔ ∃ t, Record t r m ∧ g = t.group := by
  simp only [pttGroupInfoParse, Scan.bind_eq_ok, getField_eq_ok (show (44 : UInt8) ≠ 0 by decide),
    getField_eq_ok (show (58 : UInt8) ≠ 0 by decide), pjScanGetUntilChr_eq_ok]
  constructor
  · rintro ⟨n, _, ⟨rfl, hn⟩, num, _, ⟨rfl, hnum⟩, l, _, ⟨rfl, hl⟩, rp, _, ⟨rfl, hrp⟩, u, _,
      ⟨rfl, hu⟩, a, _, ⟨rfl, ha⟩, p, k, ⟨hne, rfl, hp, hstop⟩, h⟩
    cases h
    exact ⟨⟨n, num, l, rp, u, a, p⟩,
      ⟨by simp [GroupText.text], ⟨hn, hnum, hl, hrp, hu, ha, hp⟩, hne,
      hstop⟩, rfl⟩
  · rintro ⟨t, ⟨rfl, hd, hne, hstop⟩, rfl⟩
    refine ⟨t.name, _, ⟨?_, hd.name⟩, t.number, _, ⟨rfl, hd.number⟩, t.level, _, ⟨rfl, hd.level⟩,
      t.report, _, ⟨rfl, hd.report⟩, t.update, _, ⟨rfl, hd.update⟩, t.address, _, ⟨rfl, hd.address⟩,
      t.port, m, ⟨hne, rfl, hd.port, hstop⟩, rfl⟩
    simp [GroupText.text]

theorem Record.length_lt {t : GroupText} {r m : Bytes} (h : Record t r m) :
    m.length < r.length := by
  rw [h.eq]
  simp only [GroupText.text, List.length_append, List.length_cons]
  omega

end PttTerminal
