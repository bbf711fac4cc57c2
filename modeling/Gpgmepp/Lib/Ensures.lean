import Mathlib.Tactic.Common

/-!
# Computations that may fail, and what they ensure

`Ensures E x Q` says of a computation `x` that it ends with a value that satisfies `Q`
or with an error that satisfies `E`.  With `E` the errors that are allowed, it is the
usual triple of a program without a state, and the rules are the usual ones.

`EndsAlike R x y` says of two computations that they end alike: with values that `R` relates, or
with the same error.

## Main definitions

* `Ensures E x Q`, `EndsAlike R x y` — the judgements.
* `Ensures.bind`, `Ensures.imp`, `Ensures.mapM` — sequencing, consequence, and lists.
* `EndsAlike.bind`, `EndsAlike.imp` — the same for two computations.
-/

universe u v

/-- The computation ends with a value in `Q` or with an error in `E`. -/
def Ensures {ε : Type u} {α : Type v} (E : ε → Prop) (x : Except ε α) (Q : α → Prop) : Prop :=
  match x with
  | .ok a => Q a
  | .error e => E e

namespace Ensures

variable {ε : Type u} {α β : Type v} {E : ε → Prop} {x : Except ε α} {Q R : α → Prop}

@[simp] theorem ok_iff {a : α} : Ensures E (.ok a : Except ε α) Q ↔ Q a := .rfl

@[simp] theorem error_iff {e : ε} : Ensures E (.error e : Except ε α) Q ↔ E e := .rfl

/-- Sequencing: the second computation starts with what the first ensures. -/
theorem bind {f : α → Except ε β} {Q' : β → Prop} (hx : Ensures E x Q)
    (hf : ∀ a, Q a → Ensures E (f a) Q') : Ensures E (x >>= f) Q' := by
  cases x with
  | ok a => exact hf a hx
  | error e => exact hx

/-- Consequence, for the errors and for the values. -/
theorem imp {E' : ε → Prop} (hx : Ensures E x Q) (hE : ∀ e, E e → E' e) (hQ : ∀ a, Q a → R a) :
    Ensures E' x R := by
  cases x with
  | ok a => exact hQ a hx
  | error e => exact hE e hx

/-- Consequence, for the values. -/
theorem mono (hx : Ensures E x Q) (h : ∀ a, Q a → R a) : Ensures E x R :=
  hx.imp (fun _ he => he) h

/-- The value itself is known when the errors are allowed. -/
theorem self (h : ∀ e, x = .error e → E e) : Ensures E x fun a => x = .ok a := by
  cases x with
  | ok a => rfl
  | error e => exact h e rfl

/-- All errors are allowed, and nothing is asked of the value. -/
theorem any : Ensures (fun _ => True) x fun _ => True := by
  cases x <;> trivial

/-- All errors are allowed, and the value is known. -/
theorem value : Ensures (fun _ => True) x fun a => x = .ok a :=
  self fun _ _ => trivial

/-- When every error is allowed, what is always true is ensured. -/
theorem of_forall (hE : ∀ e, E e) (hQ : ∀ a, Q a) : Ensures E x Q :=
  (self fun e _ => hE e).mono fun a _ => hQ a

/-- The elements of a list are worked through one after another. -/
theorem mapM {γ : Type v} {f : γ → Except ε α} {l : List γ} (hf : ∀ c ∈ l, Ensures E (f c) Q) :
    Ensures E (l.mapM f) fun as => ∀ a ∈ as, Q a := by
  induction l with
  | nil => simp [List.mapM_nil, pure, Except.pure]
  | cons c l ih =>
      rw [List.mapM_cons]
      refine (hf c (by simp)).bind ?_
      intro a ha
      refine (ih fun c' hc' => hf c' (by simp [hc'])).bind ?_
      intro as has
      simpa [pure, Except.pure] using ⟨ha, has⟩

/-- What is ensured of a value is true of it. -/
theorem of_ok {a : α} (hx : Ensures E x Q) (h : x = .ok a) : Q a := by
  rw [h] at hx
  exact hx

/-- A computation that is allowed no error has a value. -/
theorem exists_ok (hx : Ensures (fun _ => False) x Q) : ∃ a, x = .ok a ∧ Q a := by
  cases x with
  | ok a => exact ⟨a, rfl, hx⟩
  | error e => exact hx.elim

/-- Errors that are not allowed do not occur. -/
theorem ne_error {e : ε} (hx : Ensures E x Q) (he : ¬ E e) : x ≠ .error e := by
  rintro rfl
  exact he hx

end Ensures

/-! ## Two computations -/

/-- Both computations end with values that `R` relates, or with the same error. -/
inductive EndsAlike {ε : Type u} {α β : Type v} (R : α → β → Prop) : Except ε α → Except ε β → Prop
  | ok {a : α} {b : β} (h : R a b) : EndsAlike R (.ok a) (.ok b)
  | error (e : ε) : EndsAlike R (.error e) (.error e)

namespace EndsAlike

variable {ε : Type u} {α α' β β' : Type v} {R Q : α → β → Prop} {Q' : α' → β' → Prop}
  {x : Except ε α} {y : Except ε β}

/-- Sequencing: the second computations start with values that are related. -/
theorem bind {f : α → Except ε α'} {g : β → Except ε β'} (hxy : EndsAlike R x y)
    (hfg : ∀ a b, R a b → EndsAlike Q' (f a) (g b)) : EndsAlike Q' (x >>= f) (y >>= g) := by
  cases hxy with
  | ok h => exact hfg _ _ h
  | error e => exact .error e

/-- Consequence. -/
theorem imp (hxy : EndsAlike R x y) (h : ∀ a b, R a b → Q a b) : EndsAlike Q x y := by
  cases hxy with
  | ok hab => exact .ok (h _ _ hab)
  | error e => exact .error e

/-- A computation ends like itself, and the value is known. -/
theorem value (x : Except ε α) : EndsAlike (fun a b => a = b ∧ x = .ok a) x x := by
  cases x with
  | ok a => exact .ok ⟨rfl, rfl⟩
  | error e => exact .error e

/-- If the first computation ends with a value, so does the second. -/
theorem exists_of_left {a : α} (hxy : EndsAlike R x y) (hx : x = .ok a) :
    ∃ b, y = .ok b ∧ R a b := by
  cases hxy with
  | ok h =>
      obtain rfl := Except.ok.inj hx
      exact ⟨_, rfl, h⟩
  | error e => cases hx

/-- If the second computation ends with a value, so does the first. -/
theorem exists_of_right {b : β} (hxy : EndsAlike R x y) (hy : y = .ok b) :
    ∃ a, x = .ok a ∧ R a b := by
  cases hxy with
  | ok h =>
      obtain rfl := Except.ok.inj hy
      exact ⟨_, rfl, h⟩
  | error e => cases hy

/-- What related values have in common. -/
theorem map_eq {γ : Type v} {f : α → γ} {g : β → γ} (hxy : EndsAlike R x y)
    (h : ∀ a b, R a b → f a = g b) : x.map f = y.map g := by
  cases hxy with
  | ok hab => exact congrArg Except.ok (h _ _ hab)
  | error e => rfl

end EndsAlike

/-! ## Lists -/

namespace Except

variable {ε : Type u} {α : Type v} {β : Type v} {f : α → Except ε β}

/-- All elements of a list are worked through exactly if each of them is. -/
theorem mapM_eq_ok_iff {l : List α} {bs : List β} : l.mapM f = .ok bs ↔ l.map f = bs.map .ok := by
  induction l generalizing bs with
  | nil => cases bs <;> simp [pure, Except.pure]
  | cons a l ih =>
      rw [List.mapM_cons, List.map_cons]
      cases hfa : f a with
      | error e => cases bs <;> simp [bind, Except.bind]
      | ok b =>
          cases hl : l.mapM f with
          | error e =>
              cases bs with
              | nil => simp [bind, Except.bind]
              | cons c bs => simp [bind, Except.bind, ← ih, hl]
          | ok bs' =>
              cases bs with
              | nil => simp [bind, Except.bind, pure, Except.pure]
              | cons c bs => simp [bind, Except.bind, pure, Except.pure, ← ih, hl]

/-- A loop that appends to a vector what each element comes to. -/
theorem foldlM_append (f : α → Except ε β) (l : List α) : ∀ v : List β,
    l.foldlM (fun v a => do return v ++ [← f a]) v = (l.mapM f).map (v ++ ·) := by
  induction l with
  | nil => intro v; simp [pure, Except.pure, Except.map]
  | cons a l ih =>
      intro v
      rw [List.foldlM_cons, List.mapM_cons]
      cases f a with
      | error e => rfl
      | ok b =>
          show l.foldlM _ (v ++ [b]) = _
          rw [ih]
          cases l.mapM f with
          | error e => rfl
          | ok bs => simp [Except.map, bind, Except.bind, pure, Except.pure]

end Except
