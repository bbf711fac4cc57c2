import Mathlib.Data.List.Flatten
import Mathlib.Data.List.Forall2
import Mathlib.Logic.Function.Basic
import Mathlib.Tactic.Common

/-!
# Blocks of memory and their owners

Blocks that are requested, read and freed through pointers.  A request may come to nothing.  To
read or to free a block that is not there is a fault.

Every block has one owner, and an owner has a list of blocks: `Separated`.  A program that requests
blocks for an owner, and only that, is compared with a program on values, which has the same answers
to its requests: `Acquires`.  It adds to the list of the owner, leaves all blocks as they are, and
its result stands for the value, or both fail.  Lists are gone through with `Acquires.mapAll`.  What
is freed must be all that an owner has: `Separated.freeAll`.

## Main definitions

* `Memory`, `Memory.request`, `Memory.duplicate`, `Memory.free` — blocks.
* `Memory.Separated` — each block has one owner.
* `Memory.Grows` — blocks were added.
* `mapAll` — a program for each element of a list.
* `Memory.Acquires` — a program requests blocks for an owner.
-/

namespace Blocks

/-- What goes wrong with pointers. -/
inductive Fault
  /-- The block is not there. -/
  | dangling
  /-- A null pointer where there must be a block. -/
  | nullPointer
  deriving DecidableEq

/-- Blocks with contents, and the answers to the requests to come. -/
structure Memory (V : Type*) where
  block : ℕ → Option V
  next : ℕ
  room : ℕ → Bool

/-- A program is run on each element of a list. -/
def mapAll {M α β : Type*} (f : α → M → Except Fault (β × M)) :
    List α → M → Except Fault (List β × M)
  | [], m => .ok ([], m)
  | a :: as, m =>
      match f a m with
      | .error e => .error e
      | .ok (b, m) =>
          match mapAll f as m with
          | .error e => .error e
          | .ok (bs, m) => .ok (b :: bs, m)

section MapAll
variable {M α β : Type*} {f : α → M → Except Fault (β × M)}

theorem mapAll_eq_ok {f : α → M → Except Fault (α × M)} (hf : ∀ a m, f a m = .ok (a, m))
    (l : List α) (m : M) : mapAll f l m = .ok (l, m) := by
  induction l with
  | nil => rfl
  | cons a l ih => simp [mapAll, hf, ih]

end MapAll

namespace Memory

variable {V α β ι : Type*} {m m' : Memory V}

/-- There are no blocks. -/
def empty (room : ℕ → Bool) : Memory V := ⟨fun _ => none, 0, room⟩

/-- A new block. -/
def place (m : Memory V) (v : V) : Memory V :=
  { m with block := Function.update m.block m.next (some v), next := m.next + 1 }

/-- The next request is answered. -/
def answered (m : Memory V) : Memory V := { m with room := fun n => m.room (n + 1) }

/-- A block is requested, for these contents. -/
def request (m : Memory V) (v : V) : Option ℕ × Memory V :=
  if m.room 0 then (some m.next, m.answered.place v) else (none, m.answered)

/-- A copy of a block. -/
def duplicate (m : Memory V) (p : ℕ) : Except Fault (Option ℕ × Memory V) :=
  match m.block p with
  | none => .error .dangling
  | some v => .ok (m.request v)

/-- The block is gone. -/
def erase (m : Memory V) (p : ℕ) : Memory V :=
  { m with block := Function.update m.block p none }

/-- A block is freed; a null pointer is ignored. -/
def free (m : Memory V) : Option ℕ → Except Fault (Memory V)
  | none => .ok m
  | some p =>
      match m.block p with
      | none => .error .dangling
      | some _ => .ok (m.erase p)

/-- Several are freed. -/
def freeAll : List (Option ℕ) → Memory V → Except Fault (Memory V)
  | [], m => .ok m
  | p :: ps, m =>
      match m.free p with
      | .error f => .error f
      | .ok m => freeAll ps m

/-- Each block has one owner. -/
structure Separated (m : Memory V) (own : ι → List ℕ) : Prop where
  there : ∀ i, ∀ p ∈ own i, (m.block p).isSome
  nodup : ∀ i, (own i).Nodup
  disjoint : ∀ i j p, p ∈ own i → p ∈ own j → i = j
  owned : ∀ p, (m.block p).isSome → ∃ i, p ∈ own i
  bounded : ∀ p, (m.block p).isSome → p < m.next

/-- Blocks were added, and no other changed. -/
def Grows (m m' : Memory V) : Prop := ∀ p v, m.block p = some v → m'.block p = some v

theorem Grows.refl (m : Memory V) : m.Grows m := fun _ _ h => h

theorem Grows.trans {m'' : Memory V} (h : m.Grows m') (h' : m'.Grows m'') : m.Grows m'' :=
  fun p v hp => h' p v (h p v hp)

theorem grows_answered (m : Memory V) : m.Grows m.answered := fun _ _ h => h

theorem separated_empty (room : ℕ → Bool) :
    (empty room : Memory V).Separated fun _ : ι => [] where
  there := by intro i p h; cases h
  nodup := by intro i; exact List.nodup_nil
  disjoint := by intro i j p h; cases h
  owned := by intro p h; cases h
  bounded := by intro p h; cases h

section Owners
variable [DecidableEq ι] {own : ι → List ℕ} {i : ι}

/-- A new block is added to what its owner has. -/
theorem Separated.place (h : m.Separated own) (i : ι) (v : V) :
    (m.place v).Separated (Function.update own i (own i ++ [m.next])) ∧ m.Grows (m.place v) := by
  have hfresh : ∀ p, (m.block p).isSome → p ≠ m.next := fun p hp =>
    Nat.ne_of_lt (h.bounded p hp)
  have hold : ∀ p, p ≠ m.next → (m.place v).block p = m.block p := fun p hp => by
    simp [Memory.place, Function.update_of_ne hp]
  have hnew : ((m.place v).block m.next).isSome := by simp [Memory.place]
  have hnot : ∀ j, m.next ∉ own j := fun j hj => hfresh _ (h.there j _ hj) rfl
  have hmem : ∀ j p, p ∈ Function.update own i (own i ++ [m.next]) j ↔
      p ∈ own j ∨ j = i ∧ p = m.next := by
    intro j p
    by_cases hj : j = i
    · subst hj
      simp
    · simp [hj]
  refine ⟨⟨?_, ?_, ?_, ?_, ?_⟩, fun p u hp => ?_⟩
  · intro j p hp
    rcases (hmem j p).mp hp with hp | ⟨-, rfl⟩
    · have hthere := h.there j p hp
      rwa [hold p (hfresh p hthere)]
    · exact hnew
  · intro j
    by_cases hj : j = i
    · subst hj
      rw [Function.update_self]
      refine List.nodup_append.mpr ⟨h.nodup j, by simp, fun a ha b hb hab => ?_⟩
      obtain rfl := List.mem_singleton.mp hb
      exact hnot j (hab ▸ ha)
    · rw [Function.update_of_ne hj]
      exact h.nodup j
  · intro j k p hp hp'
    rcases (hmem j p).mp hp with hp | ⟨rfl, rfl⟩
    · rcases (hmem k p).mp hp' with hp' | ⟨-, rfl⟩
      · exact h.disjoint j k p hp hp'
      · exact absurd hp (hnot j)
    · rcases (hmem k _).mp hp' with hp' | ⟨rfl, -⟩
      · exact absurd hp' (hnot k)
      · rfl
  · intro p hp
    by_cases hpn : p = m.next
    · exact ⟨i, (hmem i p).mpr (.inr ⟨rfl, hpn⟩)⟩
    · rw [hold p hpn] at hp
      obtain ⟨j, hj⟩ := h.owned p hp
      exact ⟨j, (hmem j p).mpr (.inl hj)⟩
  · intro p hp
    change p < m.next + 1
    by_cases hpn : p = m.next
    · omega
    · rw [hold p hpn] at hp
      have hlt := h.bounded p hp
      omega
  · rw [hold p (hfresh p (by simp [hp]))]
    exact hp

omit [DecidableEq ι] in
theorem Separated.answered (h : m.Separated own) : m.answered.Separated own := { h with }

/-- An owner frees the first of its blocks. -/
theorem Separated.free {p : ℕ} {ps : List ℕ} (h : m.Separated own) (hp : own i = p :: ps) :
    ∃ m', m.free (some p) = .ok m' ∧ m'.Separated (Function.update own i ps) ∧
      m'.room = m.room ∧ ∀ q, q ≠ p → m'.block q = m.block q := by
  obtain ⟨v, hv⟩ := Option.isSome_iff_exists.mp (h.there i p (by simp [hp]))
  have hsub : ∀ j q, q ∈ Function.update own i ps j → q ∈ own j ∧ q ≠ p := by
    intro j q hq
    by_cases hj : j = i
    · subst hj
      rw [Function.update_self] at hq
      refine ⟨by simp [hp, hq], fun hqp => ?_⟩
      have hnodup := h.nodup j
      rw [hp] at hnodup
      exact (List.nodup_cons.mp hnodup).1 (hqp ▸ hq)
    · rw [Function.update_of_ne hj] at hq
      exact ⟨hq, fun hqp => hj (h.disjoint j i p (hqp ▸ hq) (by simp [hp]))⟩
  have hold : ∀ q, q ≠ p → (m.erase p).block q = m.block q := fun q hq =>
    Function.update_of_ne hq _ _
  have hgone : ∀ q, ((m.erase p).block q).isSome → q ≠ p := by
    rintro q hq rfl
    simp [erase] at hq
  refine ⟨m.erase p, by simp [Memory.free, hv], ⟨?_, ?_, ?_, ?_, ?_⟩, rfl, hold⟩
  · intro j q hq
    obtain ⟨hmem, hne⟩ := hsub j q hq
    rw [hold q hne]
    exact h.there j q hmem
  · intro j
    by_cases hj : j = i
    · subst hj
      have hnodup := h.nodup j
      rw [hp] at hnodup
      rw [Function.update_self]
      exact (List.nodup_cons.mp hnodup).2
    · rw [Function.update_of_ne hj]
      exact h.nodup j
  · intro j k q hq hq'
    exact h.disjoint j k q (hsub j q hq).1 (hsub k q hq').1
  · intro q hq
    have hqp := hgone q hq
    rw [hold q hqp] at hq
    obtain ⟨j, hj⟩ := h.owned q hq
    refine ⟨j, ?_⟩
    by_cases hji : j = i
    · subst hji
      rw [Function.update_self]
      rw [hp] at hj
      exact (List.mem_cons.mp hj).resolve_left hqp
    · rwa [Function.update_of_ne hji]
  · intro q hq
    rw [hold q (hgone q hq)] at hq
    exact h.bounded q hq

/-- **An owner frees all that it has.**  The other blocks are as they were. -/
theorem Separated.freeAll {i : ι} :
    ∀ {ps : List (Option ℕ)} {m : Memory V} {own : ι → List ℕ}, m.Separated own →
      own i = ps.filterMap id →
      ∃ m', Memory.freeAll ps m = .ok m' ∧ m'.Separated (Function.update own i []) ∧
        m'.room = m.room ∧ ∀ q, q ∉ own i → m'.block q = m.block q
  | [], m, own, h, hown => by
      have hsame : Function.update own i [] = own := Function.update_eq_self_iff.mpr hown.symm
      exact ⟨m, rfl, hsame.symm ▸ h, rfl, fun _ _ => rfl⟩
  | none :: ps, m, own, h, hown => by
      obtain ⟨m', hfree, hsep, hroom, hkeep⟩ := Separated.freeAll h (by simpa using hown)
      exact ⟨m', by simpa [Memory.freeAll, Memory.free] using hfree, hsep, hroom, hkeep⟩
  | some p :: ps, m, own, h, hown => by
      have hhas : own i = p :: ps.filterMap id := by simpa using hown
      obtain ⟨m₁, hone, hsep₁, hroom₁, hkeep₁⟩ := h.free hhas
      obtain ⟨m', hfree, hsep, hroom, hkeep⟩ := Separated.freeAll hsep₁
        (Function.update_self i _ _)
      refine ⟨m', by simp [Memory.freeAll, hone, hfree], by simpa using hsep,
        hroom.trans hroom₁, fun q hq => ?_⟩
      have hq' : q ≠ p ∧ q ∉ ps.filterMap id := by simpa [hown] using hq
      rw [hkeep q (by simpa using hq'.2), hkeep₁ q hq'.1]

/-! ## Programs that request blocks -/

/-- What came of a program that requests blocks for the owner `i`, those at `ptrs` of its result,
beside what came of one with values: results that `R` relates, with the same answers left, or the
same fault. -/
inductive Parallel {B : Type*} (own : ι → List ℕ) (i : ι) (ptrs : β → List ℕ)
    (R : Memory V → β → B → Prop) (m : Memory V) :
    Except Fault (β × Memory V) → Except Fault (B × (ℕ → Bool)) → Prop
  | ok {b : β} {m' : Memory V} {y : B}
      (hsep : m'.Separated (Function.update own i (own i ++ ptrs b))) (hgrows : m.Grows m')
      (hrel : R m' b y) : Parallel own i ptrs R m (.ok (b, m')) (.ok (y, m'.room))
  | error (e : Fault) : Parallel own i ptrs R m (.error e) (.error e)

/-- The program `f` requests blocks for the owner `i`, and does with pointers what `g` does with
values, where `P` relates the arguments. -/
structure Acquires {A B : Type*} (i : ι) (ptrs : β → List ℕ) (P : Memory V → α → A → Prop)
    (R : Memory V → β → B → Prop) (f : α → Memory V → Except Fault (β × Memory V))
    (g : A → (ℕ → Bool) → Except Fault (B × (ℕ → Bool))) : Prop where
  spec : ∀ (own : ι → List ℕ) (m : Memory V) (a : α) (x : A), m.Separated own → P m a x →
    Parallel own i ptrs R m (f a m) (g x m.room)
  mono : ∀ (m m' : Memory V) (a : α) (x : A), m.Grows m' → P m a x → P m' a x
  keeps : ∀ (m m' : Memory V) (b : β) (y : B), m.Grows m' → R m b y → R m' b y

/-- **On each element of a list.** -/
theorem Acquires.mapAll {A B : Type*} {ptrs : β → List ℕ} {P : Memory V → α → A → Prop}
    {R : Memory V → β → B → Prop} {f : α → Memory V → Except Fault (β × Memory V)}
    {g : A → (ℕ → Bool) → Except Fault (B × (ℕ → Bool))} (h : Acquires i ptrs P R f g) :
    Acquires i (fun bs : List β => bs.flatMap ptrs) (fun m as xs => List.Forall₂ (P m) as xs)
      (fun m bs ys => List.Forall₂ (R m) bs ys) (Blocks.mapAll f) (Blocks.mapAll g) where
  spec := by
    intro own m as xs hsep hP
    induction as generalizing own m xs with
    | nil =>
        cases hP
        exact .ok (by simpa using hsep) (.refl m) .nil
    | cons a as ih =>
        cases hP with
        | @cons _ x _ xs hax hrest =>
            simp only [Blocks.mapAll]
            have hfirst := h.spec own m a x hsep hax
            generalize f a m = r, g x m.room = r' at hfirst
            cases hfirst with
            | error e => exact .error e
            | @ok b m₁ y hsep₁ hgrows₁ hR =>
                dsimp only
                have hothers := ih _ m₁ xs hsep₁ (hrest.imp fun a x => h.mono m m₁ a x hgrows₁)
                generalize Blocks.mapAll f as m₁ = r, Blocks.mapAll g xs m₁.room = r' at hothers
                cases hothers with
                | error e => exact .error e
                | @ok bs m₂ ys hsep₂ hgrows₂ hRs =>
                    exact .ok (by simpa using hsep₂) (hgrows₁.trans hgrows₂)
                      (.cons (h.keeps m₁ m₂ b y hgrows₂ hR) hRs)
  mono := fun m m' _ _ hgrows hP => hP.imp fun a x => h.mono m m' a x hgrows
  keeps := fun m m' _ _ hgrows hR => hR.imp fun b y => h.keeps m m' b y hgrows

end Owners

end Memory

end Blocks
