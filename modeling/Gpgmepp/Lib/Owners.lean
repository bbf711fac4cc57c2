import Gpgmepp.Lib.Run
import Mathlib.Logic.Function.Basic
import Mathlib.Tactic.Common

/-!
# Objects with one owner

Objects on a heap, and places that each own an object, or none, as through an `auto_ptr`.  What
is put into a place takes the position of what it owned before, which is destroyed.  To copy a
place is to move its object, and leaves the place without one.

The heap counts how often each object was destroyed.  An object that is destroyed twice, or one
that no place owns any more and that is still there, would show in the count: `WellOwned` says
that there are none, and every operation keeps it.  Between two places an object is in the hands
of a temporary, which is the second argument of `WellOwned`.

## Main definitions

* `Owners` — the heap, and the places.
* `Owners.release`, `Owners.reset`, `Owners.new` — what an `auto_ptr` does.
* `Owners.move`, `Owners.make` — an object goes from place to place, or into its first one.
* `Owners.modify` — an object changes.
* `Owners.WellOwned` — each object is owned once, or was destroyed once.
* `Owners.Traced` — each object is what a machine made of its calls.
-/

namespace Owning

open StateMachine

/-- Places that own objects. -/
structure Owners (P V : Type*) where
  /-- The object that a place owns. -/
  held : P → Option ℕ
  /-- The objects that are there. -/
  object : ℕ → Option V
  /-- How often an object was destroyed. -/
  frees : ℕ → ℕ
  /-- The object that is made next. -/
  next : ℕ

namespace Owners

/-- There are no objects yet. -/
def empty {P V : Type*} : Owners P V := ⟨fun _ => none, fun _ => none, fun _ => 0, 0⟩

/-- The objects that are there have one owner each, which is a place or a temporary with the object
`loose`, and were never destroyed; the others were destroyed once, or are still to be made. -/
structure WellOwned {P V : Type*} (s : Owners P V) (loose : Option ℕ) : Prop where
  there : ∀ p o, s.held p = some o → (s.object o).isSome
  unique : ∀ p q o, s.held p = some o → s.held q = some o → p = q
  owned : ∀ o, (s.object o).isSome → loose = some o ∨ ∃ p, s.held p = some o
  loose : ∀ o, loose = some o → (s.object o).isSome ∧ ∀ p, s.held p ≠ some o
  frees_eq : ∀ o, s.frees o = if o < s.next ∧ s.object o = none then 1 else 0
  bounded : ∀ o, (s.object o).isSome → o < s.next

theorem wellOwned_empty {P V : Type*} : (empty : Owners P V).WellOwned none where
  there := by intro p o h; cases h
  unique := by intro p q o h; cases h
  owned := by intro o h; cases h
  loose := by intro o h; cases h
  frees_eq := by intro o; simp [empty]
  bounded := by intro o h; cases h

/-- What it means that objects are well owned, object by object: it is there, was never destroyed,
and is in exactly one place, or it is not, was destroyed once, and is in no place. -/
theorem WellOwned.cases {P V : Type*} {s : Owners P V} (h : s.WellOwned none) {o : ℕ}
    (ho : o < s.next) :
    ((s.object o).isSome ∧ s.frees o = 0 ∧ ∃! p, s.held p = some o) ∨
      s.object o = none ∧ s.frees o = 1 ∧ ∀ p, s.held p ≠ some o := by
  have hfrees := h.frees_eq o
  cases hobj : s.object o with
  | none =>
      refine .inr ⟨rfl, by simpa [ho, hobj] using hfrees, fun p hp => ?_⟩
      have hthere := h.there p o hp
      simp [hobj] at hthere
  | some v =>
      obtain ⟨p, hp⟩ := (h.owned o (by simp [hobj])).resolve_left nofun
      exact .inl ⟨rfl, by simpa [hobj] using hfrees, p, hp, fun q hq => h.unique q p o hq hp⟩

section Operations
variable {P V : Type*} [DecidableEq P]

/-- `delete`, of an object or of a null pointer. -/
def delete (s : Owners P V) : Option ℕ → Owners P V
  | none => s
  | some o =>
      { s with
        object := Function.update s.object o none
        frees := Function.update s.frees o (s.frees o + 1) }

/-- `auto_ptr::reset`: the place owns the object `r`, and what it owned before is destroyed. -/
def reset (s : Owners P V) (p : P) (r : Option ℕ) : Owners P V :=
  { (if s.held p = r then s else s.delete (s.held p)) with held := Function.update s.held p r }

/-- `auto_ptr::release`: the place owns nothing any more. -/
def release (s : Owners P V) (p : P) : Owners P V :=
  { s with held := Function.update s.held p none }

/-- `new V`, which nobody owns yet. -/
def new (s : Owners P V) (v : V) : Owners P V :=
  { s with object := Function.update s.object s.next (some v), next := s.next + 1 }

/-- `dst = src`: the object moves. -/
def move (s : Owners P V) (src dst : P) : Owners P V := (s.release src).reset dst (s.held src)

/-- `p.reset(new V)`. -/
def make (s : Owners P V) (p : P) (v : V) : Owners P V := (s.new v).reset p (some s.next)

/-- An object changes. -/
def modify (s : Owners P V) (o : ℕ) (v : V) : Owners P V :=
  { s with object := Function.update s.object o (some v) }

variable {s : Owners P V} {p src dst : P} {o : ℕ} {v : V} {r : Option ℕ}

/-! ## What the operations leave -/

@[simp] theorem held_reset (s : Owners P V) (p : P) (r : Option ℕ) :
    (s.reset p r).held = Function.update s.held p r := rfl

@[simp] theorem held_move (s : Owners P V) (src dst : P) :
    (s.move src dst).held =
      Function.update (Function.update s.held src none) dst (s.held src) := rfl

@[simp] theorem held_make (s : Owners P V) (p : P) (v : V) :
    (s.make p v).held = Function.update s.held p (some s.next) := rfl

/-- A place that gets another object destroys what it owned, and nothing else. -/
theorem object_reset (s : Owners P V) (p : P) (r : Option ℕ) (o : ℕ) :
    (s.reset p r).object o = if s.held p = some o ∧ r ≠ some o then none else s.object o := by
  simp only [reset]
  by_cases hr : s.held p = r
  · simp [hr]
  · cases hp : s.held p with
    | none => simp [hp ▸ hr, delete]
    | some z =>
        rw [hp] at hr
        by_cases hz : z = o
        · subst hz
          simp [hr, Ne.symm hr, delete]
        · simp [hr, hz, delete, Function.update_of_ne (Ne.symm hz)]

theorem object_reset_none {z : ℕ} (h : s.held p = some z) (o : ℕ) :
    (s.reset p none).object o = if o = z then none else s.object o := by
  simp [object_reset, h, eq_comm]

theorem object_move (hne : src ≠ dst) (o : ℕ) :
    (s.move src dst).object o =
      if s.held dst = some o ∧ s.held src ≠ some o then none else s.object o := by
  rw [move, object_reset]
  simp [release, Function.update_of_ne hne.symm]

theorem object_make (s : Owners P V) (p : P) (v : V) (o : ℕ) :
    (s.make p v).object o =
      if o = s.next then some v else if s.held p = some o then none else s.object o := by
  rw [make, object_reset]
  by_cases ho : o = s.next
  · subst ho
    simp [new]
  · simp [new, ho, Ne.symm ho]

/-- To make an object is to destroy what the place owned before. -/
theorem object_make_of_lt (ho : o < s.next) :
    (s.make p v).object o = if s.held p = some o then none else s.object o := by
  rw [object_make, if_neg (Nat.ne_of_lt ho)]

theorem next_reset (s : Owners P V) (p : P) (r : Option ℕ) : (s.reset p r).next = s.next := by
  simp only [reset]
  split
  · rfl
  · cases s.held p <;> rfl

theorem next_move (s : Owners P V) (src dst : P) : (s.move src dst).next = s.next :=
  next_reset _ _ _

@[simp] theorem next_make (s : Owners P V) (p : P) (v : V) : (s.make p v).next = s.next + 1 :=
  next_reset _ _ _

theorem next_le_make (s : Owners P V) (p : P) (v : V) : s.next ≤ (s.make p v).next := by
  rw [next_make]
  exact Nat.le_succ _

theorem frees_reset (s : Owners P V) (p : P) (r : Option ℕ) (o : ℕ) :
    (s.reset p r).frees o = s.frees o + if s.held p = some o ∧ r ≠ some o then 1 else 0 := by
  simp only [reset]
  by_cases hr : s.held p = r
  · simp [hr]
  · cases hp : s.held p with
    | none => simp [hp ▸ hr, delete]
    | some z =>
        rw [hp] at hr
        by_cases hz : z = o
        · subst hz
          simp [hr, Ne.symm hr, delete]
        · simp [hr, hz, delete, Function.update_of_ne (Ne.symm hz)]

/-- An object that is made in one place and goes on to another could have been made there. -/
theorem move_make (hsrc : s.held src = none) (hdst : s.held dst = none) (v : V) :
    (s.make src v).move src dst = s.make dst v := by
  have hheld : (Function.update (Function.update s.held src (some s.next)) src none) = s.held := by
    rw [Function.update_idem, ← hsrc, Function.update_eq_self]
  simp only [move, make, reset, release, new, hsrc, reduceCtorEq, if_false, delete,
    Function.update_self, hheld, hdst]

/-- An object that changes at once could have been made as it is then. -/
theorem modify_make (hp : s.held p = none) (v v' : V) :
    (s.make p v).modify s.next v' = s.make p v' := by
  simp [modify, make, reset, new, hp, delete]

/-! ## Ownership -/

theorem WellOwned.release (h : s.WellOwned none) (p : P) :
    (s.release p).WellOwned (s.held p) where
  there := by
    intro q o hq
    by_cases hqp : q = p
    · simp [Owners.release, hqp] at hq
    · exact h.there q o (by simpa [Owners.release, hqp] using hq)
  unique := by
    intro q q' o hq hq'
    by_cases hqp : q = p
    · simp [Owners.release, hqp] at hq
    · by_cases hqp' : q' = p
      · simp [Owners.release, hqp'] at hq'
      · exact h.unique q q' o (by simpa [Owners.release, hqp] using hq)
          (by simpa [Owners.release, hqp'] using hq')
  owned := by
    intro o ho
    rcases h.owned o ho with hloose | ⟨q, hq⟩
    · cases hloose
    · by_cases hqp : q = p
      · exact .inl (hqp ▸ hq)
      · exact .inr ⟨q, by simpa [Owners.release, hqp] using hq⟩
  loose := by
    intro o ho
    refine ⟨h.there p o ho, fun q hq => ?_⟩
    by_cases hqp : q = p
    · simp [Owners.release, hqp] at hq
    · exact hqp (h.unique q p o (by simpa [Owners.release, hqp] using hq) ho)
  frees_eq := h.frees_eq
  bounded := h.bounded

omit [DecidableEq P] in
theorem WellOwned.new (h : s.WellOwned none) (v : V) : (s.new v).WellOwned (some s.next) := by
  have hfresh : ∀ o, (s.object o).isSome → o ≠ s.next := fun o ho => Nat.ne_of_lt (h.bounded o ho)
  have hobject : ∀ o, o ≠ s.next → (s.new v).object o = s.object o := fun o ho => by
    simp [Owners.new, Function.update_of_ne ho]
  have hnext : ((s.new v).object s.next).isSome := by simp [Owners.new]
  constructor
  · intro p o hp
    have ho := h.there p o hp
    rwa [hobject o (hfresh o ho)]
  · exact h.unique
  · intro o ho
    by_cases hnew : o = s.next
    · exact .inl (congrArg some hnew.symm)
    · rw [hobject o hnew] at ho
      exact .inr ((h.owned o ho).resolve_left nofun)
  · intro o ho
    obtain rfl := Option.some.inj ho
    exact ⟨hnext, fun p hp => hfresh _ (h.there p _ hp) rfl⟩
  · intro o
    have hfrees := h.frees_eq o
    by_cases hnew : o = s.next
    · subst hnew
      simp [Owners.new, h.frees_eq]
    · rw [hobject o hnew]
      change s.frees o = if o < s.next + 1 ∧ s.object o = none then 1 else 0
      rw [hfrees]
      have hlt : o < s.next + 1 ↔ o < s.next := by omega
      simp only [hlt]
  · intro o ho
    change o < s.next + 1
    by_cases hnew : o = s.next
    · omega
    · rw [hobject o hnew] at ho
      have hlt := h.bounded o ho
      omega

/-- A place takes what a temporary has. -/
theorem WellOwned.reset (h : s.WellOwned r) (p : P) : (s.reset p r).WellOwned none := by
  -- what a place other than `p` holds, and what the temporary has, is still there
  have hkeep : ∀ o, s.held p ≠ some o ∨ r = some o → (s.reset p r).object o = s.object o := by
    intro o ho
    rw [object_reset, if_neg]
    rintro ⟨hp, hr⟩
    exact ho.elim (fun hne => hne hp) hr
  constructor
  · intro q o hq
    by_cases hqp : q = p
    · have hr : r = some o := by simpa [hqp] using hq
      rw [hkeep o (.inr hr)]
      exact (h.loose o hr).1
    · have hq' : s.held q = some o := by simpa [hqp] using hq
      rw [hkeep o (.inl fun hp => hqp (h.unique q p o hq' hp))]
      exact h.there q o hq'
  · intro q q' o hq hq'
    by_cases hqp : q = p
    · by_cases hqp' : q' = p
      · exact hqp.trans hqp'.symm
      · have hr : r = some o := by simpa [hqp] using hq
        exact absurd (by simpa [hqp'] using hq') ((h.loose o hr).2 q')
    · by_cases hqp' : q' = p
      · have hr : r = some o := by simpa [hqp'] using hq'
        exact absurd (by simpa [hqp] using hq) ((h.loose o hr).2 q)
      · exact h.unique q q' o (by simpa [hqp] using hq) (by simpa [hqp'] using hq')
  · intro o ho
    right
    rw [object_reset] at ho
    split_ifs at ho with hdead
    · cases ho
    · rcases h.owned o ho with hloose | ⟨q, hq⟩
      · exact ⟨p, by simp [hloose]⟩
      · by_cases hqp : q = p
        · subst hqp
          have hr : r = some o := by_contra fun hr => hdead ⟨hq, hr⟩
          exact ⟨q, by simp [hr]⟩
        · exact ⟨q, by simpa [hqp] using hq⟩
  · intro o ho
    cases ho
  · intro o
    have hfrees := h.frees_eq o
    rw [frees_reset, object_reset, next_reset, hfrees]
    by_cases hdead : s.held p = some o ∧ r ≠ some o
    · have ho := h.there p o hdead.1
      have hlt := h.bounded o ho
      simp [hdead.1, hdead.2, hlt, Option.isSome_iff_ne_none.mp ho]
    · simp only [if_neg hdead, Nat.add_zero]
  · intro o ho
    rw [next_reset]
    refine h.bounded o ?_
    rw [object_reset] at ho
    split_ifs at ho
    · cases ho
    · exact ho

theorem WellOwned.move (h : s.WellOwned none) (src dst : P) : (s.move src dst).WellOwned none :=
  (h.release src).reset dst

theorem WellOwned.make (h : s.WellOwned none) (p : P) (v : V) : (s.make p v).WellOwned none :=
  (h.new v).reset p

omit [DecidableEq P] in
theorem WellOwned.modify (h : s.WellOwned r) (ho : (s.object o).isSome) (v : V) :
    (s.modify o v).WellOwned r := by
  have hsome : ∀ z, ((s.modify o v).object z).isSome ↔ (s.object z).isSome := by
    intro z
    by_cases hz : z = o
    · subst hz
      simp [Owners.modify, ho]
    · simp [Owners.modify, Function.update_of_ne hz]
  have hnone : ∀ z, (s.modify o v).object z = none ↔ s.object z = none := by
    intro z
    simpa using not_congr (hsome z)
  exact
    { there := fun p z hz => (hsome z).mpr (h.there p z hz)
      unique := h.unique
      owned := fun z hz => h.owned z ((hsome z).mp hz)
      loose := fun z hz => ⟨(hsome z).mpr (h.loose z hz).1, (h.loose z hz).2⟩
      frees_eq := fun z => by simp only [hnone]; exact h.frees_eq z
      bounded := fun z hz => h.bounded z ((hsome z).mp hz) }

end Operations

/-! ## Histories of objects -/

/-- Each object `o` that is there is a machine that began in some state with `initial o` and was
given the inputs `calls o`.  There were none for an object that is not yet made. -/
structure Traced {P V I O ε : Type*} (step : V → I → Except ε (O × V)) (initial : ℕ → V → Prop)
    (calls : ℕ → List I) (s : Owners P V) : Prop where
  run : ∀ o v, s.object o = some v →
    ∃ v₀ us, initial o v₀ ∧ Run step v₀ us v ∧ us.map Transition.input = calls o
  fresh : ∀ o, s.next ≤ o → calls o = []

namespace Traced

variable {P V I O ε : Type*} {step : V → I → Except ε (O × V)} {initial : ℕ → V → Prop}
  {calls : ℕ → List I} {s : Owners P V}

theorem empty : Traced step initial (fun _ => []) (empty : Owners P V) where
  run := by intro o v h; cases h
  fresh := by intro o _; rfl

theorem mono {initial' : ℕ → V → Prop} (h : Traced step initial calls s)
    (hle : ∀ o v, initial o v → initial' o v) : Traced step initial' calls s where
  run := by
    intro o v hv
    obtain ⟨v₀, us, hv₀, hrun, hin⟩ := h.run o v hv
    exact ⟨v₀, us, hle o v₀ hv₀, hrun, hin⟩
  fresh := h.fresh

theorem new (h : Traced step initial calls s) {v : V} (hv : initial s.next v) :
    Traced step initial calls (s.new v) where
  run := by
    intro o u hu
    by_cases ho : o = s.next
    · subst ho
      obtain rfl : v = u := by simpa [Owners.new] using hu
      exact ⟨v, [], hv, .nil v, (h.fresh s.next (Nat.le_refl _)).symm⟩
    · exact h.run o u (by simpa [Owners.new, Function.update_of_ne ho] using hu)
  fresh := by
    intro o ho
    change s.next + 1 ≤ o at ho
    exact h.fresh o (by omega)

/-- An object is given an input. -/
theorem modify (h : Traced step initial calls s) {o : ℕ} {v v' : V} {i : I} {r : O}
    (ho : s.object o = some v) (hlt : o < s.next) (hstep : step v i = .ok (r, v')) :
    Traced step initial (Function.update calls o (calls o ++ [i])) (s.modify o v') where
  run := by
    intro z u hu
    by_cases hz : z = o
    · subst hz
      obtain rfl : v' = u := by simpa [Owners.modify] using hu
      obtain ⟨v₀, us, hv₀, hrun, hin⟩ := h.run z v ho
      exact ⟨v₀, us ++ [⟨v, i, r, v'⟩], hv₀, hrun.append (.single hstep), by simp [hin]⟩
    · rw [Function.update_of_ne hz]
      exact h.run z u (by simpa [Owners.modify, Function.update_of_ne hz] using hu)
  fresh := by
    intro z hz
    change s.next ≤ z at hz
    rw [Function.update_of_ne (by omega)]
    exact h.fresh z hz

variable [DecidableEq P]

theorem reset (h : Traced step initial calls s) (p : P) (r : Option ℕ) :
    Traced step initial calls (s.reset p r) where
  run := by
    intro o v hv
    rw [object_reset] at hv
    split_ifs at hv
    exact h.run o v hv
  fresh := by
    intro o ho
    rw [next_reset] at ho
    exact h.fresh o ho

theorem make (h : Traced step initial calls s) (p : P) {v : V} (hv : initial s.next v) :
    Traced step initial calls (s.make p v) :=
  (h.new hv).reset p _

theorem move (h : Traced step initial calls s) (src dst : P) :
    Traced step initial calls (s.move src dst) :=
  Traced.reset (s := s.release src) ⟨h.run, h.fresh⟩ dst _

end Traced

end Owners

end Owning
