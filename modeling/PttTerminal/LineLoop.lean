import Mathlib.Logic.Relation
import PttTerminal.Library.Loops
import PttTerminal.Scanner

/-!
# Loops over the lines of a response

Three handlers read their text in the same way: a `while` loop tests the text against a
fixed sequence of literals, and the block behind a test that succeeds reads the line. A block
leaves the loop or falls through to the next test, at the text it has not read; after the last
test the loop goes round. Nothing skips a line that no test recognises.
-/
namespace PttTerminal

open Loops

variable {σ : Type}

/-- One test of the loop and the block behind it. A block only assigns local variables, so it
yields the assignment; `exit` is a `break`. -/
structure Stage (σ : Type) where
  lit : Bytes
  block : Scan (Ctl (σ → σ) (σ → σ))

def runStages : List (Stage σ) → σ → Scan (Ctl σ σ)
  | [], x => pure (.next x)
  | st :: sts, x => do
    if ← pjScanStrcmp st.lit then
      match ← st.block with
      | .next f => runStages sts (f x)
      | .exit f => pure (.exit (f x))
    else runStages sts x

def lineBody (sts : List (Stage σ)) (s : σ × Bytes) : Except Fault (Ctl (σ × Bytes) σ) :=
  if s.2.isEmpty then .ok (.exit s.1)
  else match runStages sts s.1 s.2 with
    | .error e => .error e
    | .ok (.next y, m) => .ok (.next (y, m))
    | .ok (.exit y, _) => .ok (.exit y)

def lineLoop (sts : List (Stage σ)) (x : σ) (r : Bytes) : Except Fault σ :=
  loop .hang (lineBody sts) (r.length + 1) (x, r)

/-! ### The lines of a stage -/

/-- The lines that belong to a literal: `skips` relates a text to what follows its first line
and to the assignment, where the loop goes on; `ends` is the same for the lines it is left at. -/
structure LineRule (σ : Type) where
  lit : Bytes
  skips : Bytes → (σ → σ) → Bytes → Prop
  ends : Bytes → (σ → σ) → Prop
  pos : lit ≠ []
  consumes : ∀ r f m, skips r f m → m.length < r.length

/-- The block reads just the lines of the rule. -/
structure Obeys (st : Stage σ) (ru : LineRule σ) : Prop where
  lit : st.lit = ru.lit
  next : ∀ r, ru.lit <+: r → ∀ f m, st.block r = .ok (.next f, m) ↔ ru.skips r f m
  exit : ∀ r, ru.lit <+: r → ∀ f, (∃ m, st.block r = .ok (.exit f, m)) ↔ ru.ends r f

/-- The text `r`, standing before the tests `rest`, is read to its end or to a line that ends
the loop, and the variables go from `x` to `y`. A test needs as much text as its literal has. -/
inductive Reads (rules : List (LineRule σ)) : List (LineRule σ) → σ → Bytes → σ → Prop
  | done (x : σ) : Reads rules [] x [] x
  | again {x y r} : r ≠ [] → Reads rules rules x r y → Reads rules [] x r y
  | pass {ru rest x y r} : ru.lit.length ≤ r.length → ¬ ru.lit <+: r → Reads rules rest x r y →
      Reads rules (ru :: rest) x r y
  | line {ru rest x y r m f} : ru.lit <+: r → ru.skips r f m → Reads rules rest (f x) m y →
      Reads rules (ru :: rest) x r y
  | last {ru rest x r f} : ru.lit <+: r → ru.ends r f → Reads rules (ru :: rest) x r (f x)

/-- `r` starts with a line of one of the rules, which the loop reads and goes on at `m`. -/
def Skip (rules : List (LineRule σ)) (r m : Bytes) : Prop :=
  ∃ ru ∈ rules, ru.lit <+: r ∧ ∃ f, ru.skips r f m

theorem skip_cons_le (ru : LineRule σ) (rules : List (LineRule σ)) :
    Skip rules ≤ Skip (ru :: rules) :=
  fun _ _ ⟨ru', hru', h⟩ => ⟨ru', List.mem_cons_of_mem _ hru', h⟩

/-! ### One test -/

theorem pjScanStrcmp_of_le {lit r : Bytes} (h : lit.length ≤ r.length) :
    pjScanStrcmp lit r = .ok (lit.isPrefixOf r, r) := by
  rw [pjScanStrcmp, if_neg (by omega)]

theorem runStages_short {st : Stage σ} {sts : List (Stage σ)} {x : σ} {r : Bytes}
    (h : r.length < st.lit.length) : runStages (st :: sts) x r = .error .syntaxError := by
  have hc : pjScanStrcmp st.lit r = .error .syntaxError := if_pos h
  exact Scan.bind_of_error hc

theorem runStages_pass {st : Stage σ} {sts : List (Stage σ)} {x : σ} {r : Bytes}
    (h : st.lit.length ≤ r.length) (hp : ¬ st.lit <+: r) :
    runStages (st :: sts) x r = runStages sts x r := by
  have hb : st.lit.isPrefixOf r = false := by simpa [Bool.eq_false_iff] using hp
  rw [runStages, Scan.bind_of_ok (pjScanStrcmp_of_le h)]
  simp only [hb, Bool.false_eq_true, if_false]

theorem runStages_match {st : Stage σ} {sts : List (Stage σ)} {x : σ} {r : Bytes}
    (hp : st.lit <+: r) : runStages (st :: sts) x r = match st.block r with
      | .error e => .error e
      | .ok (.next f, m) => runStages sts (f x) m
      | .ok (.exit f, m) => .ok (.exit (f x), m) := by
  have hb : st.lit.isPrefixOf r = true := by simpa using hp
  rw [runStages, Scan.bind_of_ok (pjScanStrcmp_of_le hp.length_le)]
  simp only [hb, if_true]
  rw [Scan.bind_apply]
  rcases st.block r with e | ⟨c | c, m⟩ <;> rfl

theorem runStages_line {st : Stage σ} {sts : List (Stage σ)} {x : σ} {r m : Bytes} {f : σ → σ}
    (hp : st.lit <+: r) (hb : st.block r = .ok (.next f, m)) :
    runStages (st :: sts) x r = runStages sts (f x) m := by
  rw [runStages_match hp, hb]

theorem lineBody_cons (sts : List (Stage σ)) (x : σ) {r : Bytes} (h : r ≠ []) :
    lineBody sts (x, r) = match runStages sts x r with
      | .error e => .error e
      | .ok (.next y, m) => .ok (.next (y, m))
      | .ok (.exit y, _) => .ok (.exit y) := by
  rw [lineBody, if_neg (by simpa using h)]

/-! ### What one iteration does -/

/-- Through the tests the text only gets shorter, line by line; if no line is read, nothing
changes and no literal fits. -/
theorem runStages_next {sts : List (Stage σ)} {rules : List (LineRule σ)}
    (ho : List.Forall₂ Obeys sts rules) {x y : σ} {r m : Bytes}
    (h : runStages sts x r = .ok (.next y, m)) :
    Relation.ReflTransGen (Skip rules) r m ∧
      (m.length < r.length ∨ (x = y ∧ r = m ∧ ∀ ru ∈ rules, ru.lit.length ≤ r.length ∧
        ¬ ru.lit <+: r)) := by
  induction ho generalizing x r with
  | nil =>
    simp only [runStages, Scan.pure_apply, Except.ok.injEq, Prod.mk.injEq, Ctl.next.injEq] at h
    exact ⟨h.2 ▸ .refl, .inr ⟨h.1, h.2, by simp⟩⟩
  | @cons st ru sts rules hst _ ih =>
    have hmono := Relation.ReflTransGen.mono (skip_cons_le ru rules)
    rcases Nat.lt_or_ge r.length st.lit.length with hlen | hlen
    · simp [runStages_short hlen] at h
    by_cases hp : st.lit <+: r
    · rw [runStages_match hp] at h
      rcases hb : st.block r with e | ⟨f | f, k⟩
      · simp [hb] at h
      · simp only [hb] at h
        obtain ⟨hgen, hlt⟩ := ih h
        rw [hst.lit] at hp
        have hskip := (hst.next r hp f k).mp hb
        refine ⟨.head ⟨ru, by simp, hp, f, hskip⟩ (hmono _ _ hgen), .inl ?_⟩
        have := ru.consumes r f k hskip
        rcases hlt with hlt | ⟨-, rfl, -⟩ <;> omega
      · simp [hb] at h
    · rw [runStages_pass hlen hp] at h
      obtain ⟨hgen, hlt⟩ := ih h
      refine ⟨hmono _ _ hgen, hlt.imp id ?_⟩
      rintro ⟨hxy, hrm, hrest⟩
      refine ⟨hxy, hrm, fun ru' hru' => ?_⟩
      rcases List.mem_cons.mp hru' with rfl | hru'
      · rw [← hst.lit]; exact ⟨hlen, hp⟩
      · exact hrest ru' hru'

theorem lineBody_next {sts : List (Stage σ)} {rules : List (LineRule σ)}
    (ho : List.Forall₂ Obeys sts rules) {s t : σ × Bytes}
    (h : lineBody sts s = .ok (.next t)) :
    s.2 ≠ [] ∧ Relation.ReflTransGen (Skip rules) s.2 t.2 ∧
      (t.2.length < s.2.length ∨ (t = s ∧ ∀ ru ∈ rules, ru.lit.length ≤ s.2.length ∧
        ¬ ru.lit <+: s.2)) := by
  obtain ⟨x, r⟩ := s
  have hr : r ≠ [] := by rintro rfl; simp [lineBody] at h
  rw [lineBody_cons _ _ hr] at h
  rcases hrun : runStages sts x r with e | ⟨y | y, m⟩
  · simp [hrun] at h
  · simp only [hrun, Except.ok.injEq, Ctl.next.injEq] at h
    subst h
    obtain ⟨hgen, hlt⟩ := runStages_next ho hrun
    refine ⟨hr, hgen, hlt.imp id ?_⟩
    rintro ⟨rfl, rfl, hrest⟩
    exact ⟨rfl, hrest⟩
  · simp [hrun] at h

/-- An iteration that reads nothing repeats itself for ever. -/
theorem lineBody_progress {sts : List (Stage σ)} {rules : List (LineRule σ)}
    (ho : List.Forall₂ Obeys sts rules) {s t : σ × Bytes} (hs : Halts (lineBody sts) s)
    (h : lineBody sts s = .ok (.next t)) : t.2.length < s.2.length := by
  obtain ⟨-, -, hlt | ⟨hts, -⟩⟩ := lineBody_next ho h
  · exact hlt
  · subst hts
    exact absurd hs (not_halts_of_invariant (· = t) (by rintro _ rfl; exact ⟨_, h, rfl⟩) rfl)

/-- A loop that is left reads some of the text in every iteration, so its length is fuel enough. -/
theorem lineLoop_of_halts {sts : List (Stage σ)} {rules : List (LineRule σ)}
    (ho : List.Forall₂ Obeys sts rules) {x : σ} {r : Bytes}
    (h : Halts (lineBody sts) (x, r)) {n : ℕ} (hn : r.length < n) :
    lineLoop sts x r = loop .hang (lineBody sts) n (x, r) :=
  loop_congr_of_measure (fun s : σ × Bytes => s.2.length)
    (fun _ _ hu ht => lineBody_progress ho (hu.halts h) ht) (Nat.lt_succ_self _) hn

/-! ### The texts that are read without a fault -/

theorem Reads.of_runStages {sts : List (Stage σ)} {rules all : List (LineRule σ)}
    (ho : List.Forall₂ Obeys sts rules) {x y : σ} {r : Bytes} :
    (∀ z m, runStages sts x r = .ok (.next z, m) → Reads all [] z m y) →
    (∀ z m, runStages sts x r = .ok (.exit z, m) → z = y) →
    (∃ c, runStages sts x r = .ok c) → Reads all rules x r y := by
  induction ho generalizing x r with
  | nil =>
    intro hn _ _
    exact hn x r rfl
  | @cons st ru sts rules hst _ ih =>
    intro hn he ⟨c, hc⟩
    rcases Nat.lt_or_ge r.length st.lit.length with hlen | hlen
    · simp [runStages_short hlen] at hc
    by_cases hp : st.lit <+: r
    · rw [runStages_match hp] at hn he hc
      rw [hst.lit] at hp
      rcases hb : st.block r with e | ⟨f | f, k⟩
      · simp [hb] at hc
      · simp only [hb] at hn he hc
        exact .line hp ((hst.next r hp f k).mp hb) (ih hn he ⟨c, hc⟩)
      · simp only [hb, Except.ok.injEq, Prod.mk.injEq, Ctl.exit.injEq] at he
        rw [← he (f x) k ⟨rfl, rfl⟩]
        exact .last hp ((hst.exit r hp f).mp ⟨k, hb⟩)
    · rw [runStages_pass hlen hp] at hn he hc
      rw [hst.lit] at hlen hp
      exact .pass hlen hp (ih hn he ⟨c, hc⟩)

theorem loop_eq_ok_reads {sts : List (Stage σ)} {rules : List (LineRule σ)}
    (ho : List.Forall₂ Obeys sts rules) {x y : σ} {r : Bytes} {fuel : ℕ}
    (h : loop .hang (lineBody sts) fuel (x, r) = .ok y) : Reads rules [] x r y := by
  induction fuel generalizing x r with
  | zero => simp [loop] at h
  | succ fuel ih =>
    by_cases hr : r = []
    · subst hr
      obtain rfl : x = y := by simpa [loop_succ, lineBody] using h
      exact .done x
    · rw [loop_succ, lineBody_cons _ _ hr] at h
      refine .again hr (Reads.of_runStages ho (fun z m hz => ?_) (fun z m hz => ?_) ?_)
      · simp only [hz] at h
        exact ih h
      · simpa only [hz, Except.ok.injEq] using h
      · rcases hrun : runStages sts x r with e | c
        · simp [hrun] at h
        · exact ⟨c, rfl⟩

/-- What the loop does from the tests `sts` on. -/
def runFrom (all sts : List (Stage σ)) (fuel : ℕ) (x : σ) (r : Bytes) : Except Fault σ :=
  match runStages sts x r with
  | .error e => .error e
  | .ok (.next y, m) => loop .hang (lineBody all) fuel (y, m)
  | .ok (.exit y, _) => .ok y

/-- A line that no stage is left for is looked at from the first stage on. -/
theorem runFrom_again {all : List (Stage σ)} {x : σ} {r : Bytes} (hr : r ≠ []) (fuel : ℕ) :
    runFrom all [] (fuel + 1) x r = runFrom all all fuel x r := by
  simp only [runFrom, runStages, Scan.pure_apply]
  rw [loop_succ, lineBody_cons _ _ hr]
  rcases runStages all x r with e | ⟨c | c, m⟩ <;> rfl

theorem Reads.runFrom_eq {all : List (Stage σ)} {rules : List (LineRule σ)}
    (ha : List.Forall₂ Obeys all rules) {rest : List (LineRule σ)} {x y : σ} {r : Bytes}
    (h : Reads rules rest x r y) : ∀ {sts : List (Stage σ)}, List.Forall₂ Obeys sts rest →
      ∃ fuel, runFrom all sts fuel x r = .ok y := by
  induction h with
  | done x =>
    rintro _ ⟨⟩
    exact ⟨1, by simp [runFrom, runStages, loop_succ, lineBody]⟩
  | @again x y r hr _ ih =>
    rintro _ ⟨⟩
    obtain ⟨fuel, hf⟩ := ih ha
    refine ⟨fuel + 1, ?_⟩
    rw [runFrom_again hr, hf]
  | pass hlen hp _ ih =>
    intro sts ho
    obtain _ | ⟨hst, hsts⟩ := ho
    obtain ⟨fuel, hf⟩ := ih hsts
    rw [← hst.lit] at hlen hp
    exact ⟨fuel, by rw [runFrom, runStages_pass hlen hp]; exact hf⟩
  | @line ru rest x y r m f hp hskip _ ih =>
    intro sts ho
    obtain _ | ⟨hst, hsts⟩ := ho
    obtain ⟨fuel, hf⟩ := ih hsts
    have hb := (hst.next r hp f m).mpr hskip
    rw [← hst.lit] at hp
    exact ⟨fuel, by rw [runFrom, runStages_line hp hb]; exact hf⟩
  | @last ru rest x r f hp hend =>
    intro sts ho
    obtain _ | ⟨hst, hsts⟩ := ho
    obtain ⟨m, hb⟩ := (hst.exit r hp f).mpr hend
    rw [← hst.lit] at hp
    exact ⟨0, by rw [runFrom, runStages_match hp, hb]⟩

/-- The loop runs to its end on exactly the texts of the grammar, with the variables it says. -/
theorem lineLoop_eq_ok {sts : List (Stage σ)} {rules : List (LineRule σ)}
    (ho : List.Forall₂ Obeys sts rules) {x y : σ} {r : Bytes} :
    lineLoop sts x r = .ok y ↔ Reads rules [] x r y := by
  constructor
  · exact loop_eq_ok_reads ho
  · intro h
    obtain ⟨fuel, hf⟩ := h.runFrom_eq ho .nil
    have hf' : loop .hang (lineBody sts) fuel (x, r) = .ok y := hf
    rw [lineLoop_of_halts ho (halts_of_loop_eq_ok hf') (n := fuel + r.length + 1) (by omega)]
    exact loop_mono hf' (by simp) (by omega)

/-! ### The texts the loop ends on -/

/-- The loop is left after finitely many iterations, by a fault or regularly, and every iteration
that does not leave it reads at least one byte. -/
def Terminates (sts : List (Stage σ)) (x : σ) (r : Bytes) : Prop :=
  Halts (lineBody sts) (x, r) ∧ ∀ s t, Reaches (lineBody sts) (x, r) s →
    lineBody sts s = .ok (.next t) → t.2.length < s.2.length

/-- Each text that stands behind lines the loop goes on after is shorter than `n`, so that the
first comparison fails, or starts with one of the literals. -/
def Recognised (rules : List (LineRule σ)) (n : ℕ) (r : Bytes) : Prop :=
  ∀ m, Relation.ReflTransGen (Skip rules) r m → n ≤ m.length → ∃ ru ∈ rules, ru.lit <+: m

/-- The first literal is the longest one and none is a prefix of another. -/
structure Separated (n : ℕ) (rules : List (LineRule σ)) : Prop where
  le : ∀ ru ∈ rules, ru.lit.length ≤ n
  first : ∃ ru ∈ rules, ru.lit.length = n
  unique : ∀ ru ∈ rules, ∀ ru' ∈ rules, ∀ r, ru.lit <+: r → ru'.lit <+: r → ru = ru'

theorem runStages_pass_all {sts : List (Stage σ)} {rules : List (LineRule σ)}
    (ho : List.Forall₂ Obeys sts rules) {r : Bytes}
    (h : ∀ ru ∈ rules, ru.lit.length ≤ r.length ∧ ¬ ru.lit <+: r) (x : σ) :
    runStages sts x r = .ok (.next x, r) := by
  induction ho with
  | nil => rfl
  | @cons st ru sts rules hst _ ih =>
    have hru := h ru (by simp)
    rw [← hst.lit] at hru
    rw [runStages_pass hru.1 hru.2]
    exact ih fun ru' hru' => h ru' (List.mem_cons_of_mem _ hru')

theorem not_halts_of_runStages {all : List (Stage σ)} {x y : σ} {r k : Bytes} (hr : r ≠ [])
    (h : runStages all x r = .ok (.next y, k)) (hy : ¬ Halts (lineBody all) (y, k)) :
    ¬ Halts (lineBody all) (x, r) := by
  have hb : lineBody all (x, r) = .ok (.next (y, k)) := by rw [lineBody_cons _ _ hr, h]
  exact fun hh => hy (Reaches.halts (.next hb (.refl _)) hh)

section ends

variable {all : List (Stage σ)} {rules : List (LineRule σ)} {n : ℕ} {r m : Bytes}

/-- Where a line of one of the tests to come stands, it is the one that is read next. -/
theorem runStages_skip (hsep : Separated n rules) (hn : n ≤ r.length) {ru₀ : LineRule σ}
    {f : σ → σ} {r' : Bytes} (hp : ru₀.lit <+: r) (hskip : ru₀.skips r f r')
    {sts : List (Stage σ)} {rest : List (LineRule σ)} (ho : List.Forall₂ Obeys sts rest)
    (hsub : ∀ ru ∈ rest, ru ∈ rules) (hmem : ru₀ ∈ rest) (x : σ) :
    ∃ sts' rest', List.Forall₂ Obeys sts' rest' ∧ (∀ ru ∈ rest', ru ∈ rules) ∧
      runStages sts x r = runStages sts' (f x) r' := by
  induction ho with
  | nil => simp at hmem
  | @cons st ru sts rest hst hsts ih =>
    have hru := hsub ru (by simp)
    have hrest : ∀ ru ∈ rest, ru ∈ rules := fun ru' hru' => hsub ru' (List.mem_cons_of_mem _ hru')
    rcases List.mem_cons.mp hmem with rfl | hmem
    · refine ⟨sts, rest, hsts, hrest, runStages_line ?_ ((hst.next r hp f r').mpr hskip)⟩
      rwa [hst.lit]
    · by_cases hpr : ru.lit <+: r
      · obtain rfl := hsep.unique ru hru ru₀ (hrest _ hmem) r hpr hp
        refine ⟨sts, rest, hsts, hrest, runStages_line ?_ ((hst.next r hp f r').mpr hskip)⟩
        rwa [hst.lit]
      · have hle := hsep.le ru hru
        rw [runStages_pass (by rw [hst.lit]; omega) (by rwa [hst.lit])]
        exact ih hrest hmem

/-- Once a text that no literal fits and that is long enough for every comparison stands behind
lines that are read, the loop comes to it and stays there. -/
theorem stuck_of_skip (ha : List.Forall₂ Obeys all rules) (hsep : Separated n rules)
    (hskip : Relation.ReflTransGen (Skip rules) r m) (hn : n ≤ m.length) (hm0 : m ≠ [])
    (hm : ∀ ru ∈ rules, ¬ ru.lit <+: m) :
    n ≤ r.length ∧ ∀ {sts rest}, List.Forall₂ Obeys sts rest → (∀ ru ∈ rest, ru ∈ rules) →
      ∀ x, ∃ y k, runStages sts x r = .ok (.next y, k) ∧ ¬ Halts (lineBody all) (y, k) := by
  have hpass : ∀ ru ∈ rules, ru.lit.length ≤ m.length ∧ ¬ ru.lit <+: m :=
    fun ru hru => ⟨(hsep.le ru hru).trans hn, hm ru hru⟩
  induction hskip using Relation.ReflTransGen.head_induction_on with
  | refl =>
    refine ⟨hn, fun {sts rest} ho hsub x => ⟨x, m, ?_, ?_⟩⟩
    · exact runStages_pass_all ho (fun ru hru => hpass ru (hsub ru hru)) x
    · refine not_halts_of_invariant (· = (x, m)) ?_ rfl
      rintro _ rfl
      exact ⟨(x, m), by rw [lineBody_cons _ _ hm0, runStages_pass_all ha hpass], rfl⟩
  | @head r r' hstep _ ih =>
    obtain ⟨hlen, ih⟩ := ih
    obtain ⟨ru₀, hmem, hp, f, hsk⟩ := hstep
    have hlt : r'.length < r.length := ru₀.consumes r f r' hsk
    have hr : r ≠ [] := by rintro rfl; simp at hlt
    have hn' : n ≤ r.length := by omega
    have hmain : ∀ {sts rest}, List.Forall₂ Obeys sts rest → (∀ ru ∈ rest, ru ∈ rules) →
        ru₀ ∈ rest → ∀ x, ∃ y k, runStages sts x r = .ok (.next y, k) ∧
          ¬ Halts (lineBody all) (y, k) := by
      intro sts rest ho hsub hmem' x
      obtain ⟨sts', rest', ho', hsub', hrun⟩ := runStages_skip hsep hn' hp hsk ho hsub hmem' x
      rw [hrun]
      exact ih ho' hsub' (f x)
    refine ⟨hn', fun {sts rest} ho hsub x => ?_⟩
    by_cases hmem' : ru₀ ∈ rest
    · exact hmain ho hsub hmem' x
    · refine ⟨x, r, runStages_pass_all ho (fun ru hru => ⟨?_, ?_⟩) x, ?_⟩
      · exact (hsep.le ru (hsub ru hru)).trans hn'
      · intro hpr
        exact hmem' (hsep.unique ru (hsub ru hru) ru₀ hmem r hpr hp ▸ hru)
      · obtain ⟨y, k, hrun, hhalt⟩ := hmain ha (fun _ h => h) hmem x
        exact not_halts_of_runStages hr hrun hhalt

/-- The loop ends exactly on the texts all of whose lines it recognises. -/
theorem terminates_iff (ha : List.Forall₂ Obeys all rules) (hsep : Separated n rules) (x : σ) :
    Terminates all x r ↔ Recognised rules n r := by
  constructor
  · rintro ⟨hh, -⟩ m hm hn
    by_contra hno
    have hno' : ∀ ru ∈ rules, ¬ ru.lit <+: m := fun ru hru hp => hno ⟨ru, hru, hp⟩
    have hpos : 0 < n := by
      obtain ⟨ru, -, rfl⟩ := hsep.first
      exact List.length_pos_iff.mpr ru.pos
    have hne : ∀ {k : Bytes}, n ≤ k.length → k ≠ [] := fun hk =>
      List.length_pos_iff.mp (hpos.trans_le hk)
    obtain ⟨hr, hstuck⟩ := stuck_of_skip ha hsep hm hn (hne hn) hno'
    obtain ⟨y, k, hrun, hhalt⟩ := hstuck ha (fun _ h => h) x
    exact not_halts_of_runStages (hne hr) hrun hhalt hh
  · intro h
    have hreach : ∀ s, Reaches (lineBody all) (x, r) s →
        Relation.ReflTransGen (Skip rules) r s.2 := fun s hs =>
      hs.invariant (fun s => Relation.ReflTransGen (Skip rules) r s.2)
        (fun s t hs ht => hs.trans (lineBody_next ha ht).2.1) .refl
    have hprog : ∀ s t, Reaches (lineBody all) (x, r) s → lineBody all s = .ok (.next t) →
        t.2.length < s.2.length := by
      intro s t hs ht
      obtain ⟨-, -, hlt | ⟨-, hpass⟩⟩ := lineBody_next ha ht
      · exact hlt
      · obtain ⟨ru, hru, hlen⟩ := hsep.first
        obtain ⟨ru', hru', hp⟩ := h s.2 (hreach s hs) (hlen ▸ (hpass ru hru).1)
        exact absurd hp (hpass ru' hru').2
    exact ⟨halts_of_measure (fun s : σ × Bytes => s.2.length) hprog, hprog⟩

end ends

end PttTerminal
