import PttTerminal.Library.Loops

/-!
# Programs with checks

A program that may fault is run with checks in between. A check that fails ends it with `noRoom`,
which is none of its faults. A piece without checks is lifted. What has to be shown of a program
with checks is that none of them fails, or that it does what the program does without them.
-/
namespace PttTerminal.Checked

open Loops

/-- Why a program with checks ends early. -/
inductive Stop (ε : Type) where
  | fault (e : ε)
  | noRoom
  deriving Repr, DecidableEq

variable {ε α β σ ρ : Type}

def lift : Except ε α → Except (Stop ε) α
  | .error e => .error (.fault e)
  | .ok a => .ok a

def check (p : Prop) [Decidable p] : Except (Stop ε) Unit := if p then .ok () else .error .noRoom

/-- No check fails. -/
def InRoom (x : Except (Stop ε) α) : Prop := x ≠ .error .noRoom

instance : (x : Except (Stop ε) α) → Decidable (InRoom x)
  | .ok _ => isTrue fun h => nomatch h
  | .error (.fault _) => isTrue fun h => nomatch h
  | .error .noRoom => isFalse fun h => h rfl

@[simp] theorem lift_ok (a : α) : lift (.ok a : Except ε α) = .ok a := rfl

@[simp] theorem lift_error (e : ε) : lift (.error e : Except ε α) = .error (.fault e) := rfl

theorem lift_eq_ok {x : Except ε α} {a : α} : lift x = .ok a ↔ x = .ok a := by
  cases x <;> simp

theorem ok_bind (a : α) (f : α → Except (Stop ε) β) : (.ok a >>= f) = f a := rfl

theorem bind_eq_ok {x : Except (Stop ε) α} {f : α → Except (Stop ε) β} {b : β} :
    (x >>= f) = .ok b ↔ ∃ a, x = .ok a ∧ f a = .ok b := by
  cases x with
  | error e => simp [bind, Except.bind]
  | ok a => simp [bind, Except.bind]

theorem lift_bind (x : Except ε α) (f : α → Except ε β) :
    lift (x >>= f) = lift x >>= fun a => lift (f a) := by
  cases x <;> rfl

theorem check_eq_ok {p : Prop} [Decidable p] {u : Unit} :
    (check p : Except (Stop ε) Unit) = .ok u ↔ p := by
  unfold check
  split_ifs with h <;> simp [h]

@[simp] theorem inRoom_ok (a : α) : InRoom (.ok a : Except (Stop ε) α) := by simp [InRoom]

@[simp] theorem inRoom_lift (x : Except ε α) : InRoom (lift x) := by
  cases x <;> simp [InRoom]

@[simp] theorem inRoom_check {p : Prop} [Decidable p] :
    InRoom (check p : Except (Stop ε) Unit) ↔ p := by
  unfold InRoom check
  split_ifs with h <;> simp [h]

/-- A sequence of two pieces has room when the first one has, and the second one from there. -/
theorem inRoom_bind {x : Except (Stop ε) α} {f : α → Except (Stop ε) β} :
    InRoom (x >>= f) ↔ InRoom x ∧ ∀ a, x = .ok a → InRoom (f a) := by
  rcases x with (e | _) | a
  · simp [InRoom, bind, Except.bind]
  · simp [InRoom, bind, Except.bind]
  · simp [InRoom, bind, Except.bind]

theorem inRoom_lift_bind {x : Except ε α} {f : α → Except (Stop ε) β} :
    InRoom (lift x >>= f) ↔ ∀ a, x = .ok a → InRoom (f a) := by
  simp only [inRoom_bind, inRoom_lift, lift_eq_ok, true_and]

theorem inRoom_check_bind {p : Prop} [Decidable p] {f : Unit → Except (Stop ε) β} :
    InRoom (check p >>= f) ↔ p ∧ InRoom (f ()) := by
  rw [inRoom_bind, inRoom_check]
  refine and_congr_right fun hp => ?_
  constructor
  · exact fun h => h () (check_eq_ok.mpr hp)
  · exact fun h _ _ => h

/-! ### Up to a check that fails -/

/-- Unless a check fails, `x` ends as `p` does, which has no checks. -/
def Follows (x : Except (Stop ε) α) (p : Except ε α) : Prop := InRoom x → x = lift p

section follows

variable {x : Except (Stop ε) α} {p : Except ε α}

theorem follows_lift (p : Except ε α) : Follows (lift p) p := fun _ => rfl

theorem Follows.bind {f : α → Except (Stop ε) β} {g : α → Except ε β} (hx : Follows x p)
    (hf : ∀ a, Follows (f a) (g a)) : Follows (x >>= f) (p >>= g) := by
  intro hroom
  obtain ⟨hroom₁, hroom₂⟩ := inRoom_bind.mp hroom
  rw [hx hroom₁]
  cases p with
  | error e => rfl
  | ok a => exact hf a (hroom₂ a (hx hroom₁))

theorem follows_check_bind {q : Prop} [Decidable q] {f : Unit → Except (Stop ε) α}
    (h : Follows (f ()) p) : Follows (check q >>= f) p := by
  intro hroom
  obtain ⟨hq, hroom⟩ := inRoom_check_bind.mp hroom
  rw [check, if_pos hq]
  exact h hroom

theorem Follows.eq_ok (h : Follows x p) {a : α} (hx : x = .ok a) : p = .ok a := by
  have hroom : InRoom x := by simp [hx]
  rwa [h hroom, lift_eq_ok] at hx

/-- The program with checks runs to its end just when no check fails and the other one does. -/
theorem Follows.isOk_iff (h : Follows x p) :
    (∃ a, x = .ok a) ↔ (∃ a, p = .ok a) ∧ InRoom x := by
  constructor
  · rintro ⟨a, hx⟩
    exact ⟨⟨a, h.eq_ok hx⟩, by simp [hx]⟩
  · rintro ⟨⟨a, hp⟩, hroom⟩
    exact ⟨a, by rw [h hroom, hp, lift_ok]⟩

end follows

section loops

variable {hang : ε} {body : σ → Except (Stop ε) (Ctl σ ρ)}

/-- A loop that makes progress has room when every iteration that it comes to has. -/
theorem inRoom_loop (μ : σ → ℕ) (hμ : ∀ s t, body s = .ok (.next t) → μ t < μ s) {s : σ} {fuel : ℕ}
    (hf : μ s < fuel) : InRoom (loop (.fault hang) body fuel s) ↔
      ∀ t, Reaches body s t → InRoom (body t) := by
  induction fuel generalizing s with
  | zero => omega
  | succ fuel ih =>
    constructor
    · intro h t ht
      cases ht with
      | refl =>
        intro hb
        exact h (loop_fault hb fuel)
      | next hb ht =>
        have hlt := hμ _ _ hb
        rw [loop_next hb] at h
        exact (ih (by omega)).mp h t ht
    · intro h
      have hs := h s (.refl s)
      rcases hb : body s with e | ⟨t | r⟩
      · rw [loop_fault hb]
        simpa [InRoom, hb] using hs
      · have hlt := hμ _ _ hb
        rw [loop_next hb]
        exact (ih (by omega)).mpr fun u hu => h u (.next hb hu)
      · rw [loop_exit hb]
        exact inRoom_ok r

/-- Where the checks of each iteration succeed, the loop does what it does without them. -/
theorem loop_lift {plain : σ → Except ε (Ctl σ ρ)} (P : σ → Prop)
    (hbody : ∀ s, P s → body s = lift (plain s))
    (hnext : ∀ s t, P s → plain s = .ok (.next t) → P t) {fuel : ℕ} {s : σ} (hs : P s) :
    loop (.fault hang) body fuel s = lift (loop hang plain fuel s) := by
  induction fuel generalizing s with
  | zero => rfl
  | succ fuel ih =>
    rw [loop_succ, loop_succ, hbody s hs]
    rcases hb : plain s with e | ⟨t | r⟩
    · rfl
    · exact ih (hnext s t hs hb)
    · rfl

end loops

end PttTerminal.Checked
