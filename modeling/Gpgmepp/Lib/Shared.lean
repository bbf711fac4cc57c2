import Mathlib.Logic.Function.Basic
import Mathlib.Data.List.Basic
import Mathlib.Data.List.Forall2
import Mathlib.Tactic.Common

/-!
# Objects that share records

Objects that each point to a record, or to none, as through a counted reference.  Copies share
the record of their original.  An object that is to change its record must be its only owner,
which `detach` makes sure of: it gives the object a record of its own unless it has one.

## Main definitions

* `Owner` — objects with a pointer.
* `Store` — a population of objects, and the records.
* `Store.useCount`, `Store.detach` — the owners of a record, and copying on write.
* `Store.Bounded` — no object points to a record that is still to be allocated.
* `Store.detach_spec` — what an object and the others are after it was detached.
-/

namespace Shared

/-- Objects with a pointer to a record. -/
class Owner (V : Type*) where
  ptr : V → Option ℕ
  withPtr : V → Option ℕ → V
  ptr_withPtr : ∀ v p, ptr (withPtr v p) = p

attribute [simp] Owner.ptr_withPtr

/-- Objects, by their places, and records.  The place of a destroyed object is empty. -/
structure Store (V R : Type*) where
  objects : List (Option V)
  record : ℕ → R
  /-- The record that is allocated next. -/
  next : ℕ

namespace Store

variable {V R : Type*} {s : Store V R} {x z : ℕ} {v u : V}

/-- The object at a place. -/
def get (s : Store V R) (x : ℕ) : Option V := s.objects[x]?.join

/-- The object at a place is replaced. -/
def put (s : Store V R) (x : ℕ) (v : V) : Store V R :=
  { s with objects := s.objects.set x (some v) }

/-- There is another object. -/
def push (s : Store V R) (v : V) : Store V R := { s with objects := s.objects ++ [some v] }

/-- The object is destroyed. -/
def destroy (s : Store V R) (x : ℕ) : Store V R := { s with objects := s.objects.set x none }

/-- A new record, at `s.next`. -/
def new (s : Store V R) (c : R) : Store V R :=
  { s with record := Function.update s.record s.next c, next := s.next + 1 }

/-- A record is changed. -/
def write (s : Store V R) (r : ℕ) (c : R) : Store V R :=
  { s with record := Function.update s.record r c }

@[simp] theorem record_put : (s.put x v).record = s.record := rfl

theorem lt_of_get (h : s.get x = some v) : x < s.objects.length := by
  by_contra hge
  rw [get, List.getElem?_eq_none (by omega)] at h
  cases h

@[simp] theorem get_put_self (h : s.get x = some u) : (s.put x v).get x = some v := by
  have hlt := lt_of_get h
  simp [get, put, hlt]

@[simp] theorem get_put_of_ne (h : z ≠ x) : (s.put x v).get z = s.get z := by
  simp [get, put, List.getElem?_set_ne (Ne.symm h)]

/-- An object that there is after another one has been made. -/
theorem get_push (h : (s.push v).get x = some u) : s.get x = some u ∨ u = v := by
  simp only [get, push] at h
  by_cases hx : x < s.objects.length
  · left
    rwa [List.getElem?_append_left hx] at h
  · right
    rw [List.getElem?_append_right (by omega)] at h
    have hmem := List.mem_of_getElem? (Option.join_eq_some_iff.mp h)
    simpa using hmem

theorem get_destroy (h : (s.destroy x).get z = some u) : s.get z = some u := by
  by_cases hz : z = x
  · subst hz
    simp only [get, destroy, List.getElem?_set_self'] at h
    cases hobj : s.objects[z]? <;> simp [hobj] at h
  · simpa [get, destroy, List.getElem?_set_ne (Ne.symm hz)] using h

variable [Owner V]
open Owner

/-- `shared_ptr::use_count`: how many objects own the record. -/
def useCount (s : Store V R) (r : ℕ) : ℕ :=
  s.objects.countP fun o => o.bind ptr == some r

/-- The object at a place gets a record of its own, a copy of the one that it has. -/
def detach (s : Store V R) (x : ℕ) : Store V R :=
  match s.get x with
  | none => s
  | some v =>
      match ptr v with
      | none => s
      | some r =>
          if s.useCount r = 1 then s else (s.new (s.record r)).put x (withPtr v (some s.next))

/-- No object points to a record that is not there yet. -/
def Bounded (s : Store V R) : Prop := ∀ x v r, s.get x = some v → ptr v = some r → r < s.next

/-- The object at `x` is the only one that owns its record. -/
def Alone (s : Store V R) (x : ℕ) : Prop :=
  ∀ v r, s.get x = some v → ptr v = some r →
    ∀ z u, z ≠ x → s.get z = some u → ptr u ≠ some r

/-- The record of an object, if it has one. -/
def peek (s : Store V R) (v : V) : Option R := (ptr v).map s.record

/-! ## Counting owners -/

theorem two_le_countP {α : Type*} {p : α → Bool} {a b : α} (ha : p a = true) (hb : p b = true) :
    ∀ {l : List α} {i j : ℕ}, i < j → l[i]? = some a → l[j]? = some b → 2 ≤ l.countP p
  | [], i, j, _, hi, _ => by simp at hi
  | c :: l, 0, j + 1, _, hi, hj => by
      obtain rfl : c = a := by simpa using hi
      have hpos : 0 < l.countP p :=
        List.countP_pos_iff.mpr ⟨b, List.mem_of_getElem? (by simpa using hj), hb⟩
      rw [List.countP_cons_of_pos ha]
      omega
  | c :: l, i + 1, j + 1, hlt, hi, hj => by
      have hrest := two_le_countP ha hb (l := l) (by omega : i < j) (by simpa using hi)
        (by simpa using hj)
      rw [List.countP_cons]
      omega

/-- An object that owns its record with a use count of one is alone. -/
theorem alone_of_useCount {r : ℕ} (hv : s.get x = some v) (hr : ptr v = some r)
    (h : s.useCount r = 1) : s.Alone x := by
  intro v' r' hv' hr' z u hz hu hur
  obtain rfl : v = v' := Option.some.inj (hv.symm.trans hv')
  obtain rfl : r = r' := Option.some.inj (hr.symm.trans hr')
  have hx := Option.join_eq_some_iff.mp hv
  have hzu := Option.join_eq_some_iff.mp hu
  let owns : Option V → Bool := fun o => o.bind ptr == some r
  have hpv : owns (some v) = true := by simp [owns, hr]
  have hpu : owns (some u) = true := by simp [owns, hur]
  have htwo : 2 ≤ s.objects.countP owns := by
    rcases Nat.lt_or_gt_of_ne hz with hlt | hgt
    · exact two_le_countP hpu hpv hlt hzu hx
    · exact two_le_countP hpv hpu hgt hx hzu
  change s.objects.countP owns = 1 at h
  omega

/-- One if the object owns the record. -/
def owns (r : ℕ) (v : V) : ℕ := if ptr v = some r then 1 else 0

@[simp] theorem useCount_write (q : ℕ) (c : R) (r : ℕ) :
    (s.write q c).useCount r = s.useCount r := rfl

@[simp] theorem useCount_new (c : R) (r : ℕ) : (s.new c).useCount r = s.useCount r := rfl

theorem useCount_push (v : V) (r : ℕ) : (s.push v).useCount r = s.useCount r + owns r v := by
  simp [useCount, push, owns, List.countP_append, List.countP_singleton]

/-- A place is given to another object, or to none. -/
theorem useCount_set (h : s.get x = some u) (o : Option V) (r : ℕ) :
    (Store.mk (s.objects.set x o) s.record s.next).useCount r + owns r u =
      s.useCount r + o.elim 0 (owns r) := by
  have hx := Option.join_eq_some_iff.mp h
  have hlt := lt_of_get h
  have hget : s.objects[x] = some u := (List.getElem_eq_iff hlt).mpr hx
  have hpos : owns r u ≤ s.useCount r := by
    simp only [owns]
    split
    · next hr =>
        exact List.countP_pos_iff.mpr ⟨some u, List.mem_of_getElem? hx, by simp [hr]⟩
    · exact Nat.zero_le _
  have hset := List.countP_set (p := fun o : Option V => o.bind ptr == some r) (a := o) hlt
  rw [hget] at hset
  cases o <;> simp [useCount, owns] at hset hpos ⊢ <;> omega

theorem useCount_put (h : s.get x = some u) (v : V) (r : ℕ) :
    (s.put x v).useCount r + owns r u = s.useCount r + owns r v :=
  useCount_set h (some v) r

theorem useCount_destroy (h : s.get x = some u) (r : ℕ) :
    (s.destroy x).useCount r + owns r u = s.useCount r :=
  useCount_set h none r

/-- An object owns its record. -/
theorem useCount_pos (h : s.get x = some u) {r : ℕ} (hr : ptr u = some r) : 0 < s.useCount r :=
  List.countP_pos_iff.mpr
    ⟨some u, List.mem_of_getElem? (Option.join_eq_some_iff.mp h), by simp [hr]⟩

/-- A record that is counted has an owner. -/
theorem exists_of_useCount_pos {r : ℕ} (h : 0 < s.useCount r) :
    ∃ x u, s.get x = some u ∧ ptr u = some r := by
  obtain ⟨o, hmem, ho⟩ := List.countP_pos_iff.mp h
  obtain ⟨x, hx⟩ := List.mem_iff_getElem?.mp hmem
  cases o with
  | none => simp at ho
  | some u => exact ⟨x, u, by simp [get, hx], by simpa using ho⟩

/-- A record with an owner is there. -/
theorem lt_of_useCount_pos (hb : s.Bounded) {r : ℕ} (h : 0 < s.useCount r) : r < s.next := by
  obtain ⟨x, u, hu, hr⟩ := exists_of_useCount_pos h
  exact hb x u r hu hr

/-! ## Frames -/

/-- The objects other than that at `x`, and what they show, are the same in both stores. -/
def SameBut (x : ℕ) (s s' : Store V R) : Prop :=
  ∀ z, z ≠ x → s'.get z = s.get z ∧ ∀ u, s.get z = some u → s'.peek u = s.peek u

theorem SameBut.refl (x : ℕ) (s : Store V R) : SameBut x s s := fun _ _ => ⟨rfl, fun _ _ => rfl⟩

theorem SameBut.trans {s' s'' : Store V R} (h : SameBut x s s') (h' : SameBut x s' s'') :
    SameBut x s s'' := by
  intro z hz
  obtain ⟨hget, hpeek⟩ := h z hz
  obtain ⟨hget', hpeek'⟩ := h' z hz
  exact ⟨hget'.trans hget, fun u hu => (hpeek' u (hget.trans hu)).trans (hpeek u hu)⟩

theorem sameBut_put (s : Store V R) (x : ℕ) (v : V) : SameBut x s (s.put x v) :=
  fun _ hz => ⟨get_put_of_ne hz, fun _ _ => rfl⟩

theorem peek_new (hb : s.Bounded) (hv : s.get x = some v) (c : R) :
    (s.new c).peek v = s.peek v := by
  cases hr : ptr v with
  | none => simp [peek, hr]
  | some r =>
      have hlt := hb x v r hv hr
      simp [peek, hr, new, Function.update_of_ne (Nat.ne_of_lt hlt)]

/-- A new record changes no object. -/
theorem sameBut_new (hb : s.Bounded) (x : ℕ) (c : R) : SameBut x s (s.new c) :=
  fun _ _ => ⟨rfl, fun _ hu => peek_new hb hu c⟩

/-- A change of the record of an object that is alone changes no other object. -/
theorem sameBut_write {r : ℕ} (halone : s.Alone x) (hv : s.get x = some v) (hr : ptr v = some r)
    (c : R) : SameBut x s (s.write r c) := by
  refine fun z hz => ⟨rfl, fun u hu => ?_⟩
  cases hur : ptr u with
  | none => simp [peek, hur]
  | some q =>
      have hne : q ≠ r := fun h => halone v r hv hr z u hz hu (hur.trans (congrArg some h))
      simp [peek, hur, write, Function.update_of_ne hne]

/-! ## Bounds -/

theorem bounded_new (hb : s.Bounded) (c : R) : (s.new c).Bounded := by
  intro x v r hv hr
  have hlt := hb x v r hv hr
  simp only [new]
  omega

/-- A place may get a pointer to any record that there is. -/
theorem bounded_put (hb : s.Bounded) (hv : ∀ r, ptr v = some r → r < s.next) :
    (s.put x v).Bounded := by
  intro z u r hu hr
  by_cases hz : z = x
  · subst hz
    have hlt := lt_of_get hu
    have huv : v = u := by
      simp only [put, List.length_set] at hlt
      simpa [get, put, hlt] using hu
    exact hv r (huv ▸ hr)
  · rw [get_put_of_ne hz] at hu
    exact hb z u r hu hr

theorem bounded_push (hb : s.Bounded) (hv : ∀ r, ptr v = some r → r < s.next) :
    (s.push v).Bounded := by
  intro z u r hu hr
  rcases get_push hu with hold | rfl
  · exact hb z u r hold hr
  · exact hv r hr

theorem bounded_destroy (hb : s.Bounded) : (s.destroy x).Bounded :=
  fun z u r hu hr => hb z u r (get_destroy hu) hr

/-! ## Copying on write -/

/-- **What detaching does**: the object keeps its record, or gets a copy of it, and is alone; the
others are as they were. -/
theorem detach_spec (hb : s.Bounded) (hv : s.get x = some v) :
    (s.detach x).Bounded ∧ (s.detach x).Alone x ∧ SameBut x s (s.detach x) ∧
      ∃ v', (s.detach x).get x = some v' ∧ (v' = v ∨ ∃ r, v' = withPtr v (some r)) ∧
        (s.detach x).peek v' = s.peek v := by
  have hsame : ∀ s' : Store V R, s' = s → s'.Alone x →
      s'.Bounded ∧ s'.Alone x ∧ SameBut x s s' ∧
        ∃ v', s'.get x = some v' ∧ (v' = v ∨ ∃ r, v' = withPtr v (some r)) ∧
          s'.peek v' = s.peek v := by
    rintro s' rfl halone
    exact ⟨hb, halone, .refl x s', v, hv, .inl rfl, rfl⟩
  cases hr : ptr v with
  | none =>
      refine hsame _ (by simp [detach, hv, hr]) ?_
      intro v' r' hv' hr'
      simp only [detach, hv, hr, Option.some.injEq] at hv'
      subst hv'
      rw [hr] at hr'
      cases hr'
  | some r =>
      by_cases hone : s.useCount r = 1
      · have heq : s.detach x = s := by simp [detach, hv, hr, hone]
        exact hsame _ heq (by rw [heq]; exact alone_of_useCount hv hr hone)
      · have heq : s.detach x = (s.new (s.record r)).put x (withPtr v (some s.next)) := by
          simp [detach, hv, hr, hone]
        have hget : (s.detach x).get x = some (withPtr v (some s.next)) := by
          rw [heq]
          exact get_put_self (s := s.new (s.record r)) hv
        have hsameBut : SameBut x s (s.detach x) := by
          rw [heq]
          exact (sameBut_new hb x _).trans (sameBut_put _ x _)
        refine ⟨?_, ?_, hsameBut, _, hget, .inr ⟨_, rfl⟩, ?_⟩
        · rw [heq]
          refine bounded_put (bounded_new hb _) fun q hq => ?_
          obtain rfl : s.next = q := by simpa using hq
          exact Nat.lt_succ_self s.next
        · -- nobody else points to the new record
          intro v' r' hv' hr' z u hz hu hur
          obtain rfl : withPtr v (some s.next) = v' := Option.some.inj (hget.symm.trans hv')
          obtain rfl : s.next = r' := by simpa using hr'
          rw [heq, get_put_of_ne hz] at hu
          exact absurd (hb z u s.next hu hur) (Nat.lt_irrefl _)
        · rw [heq]
          simp [peek, hr, new]

end Store

/-! ## Two populations side by side -/

section SideBySide
variable {A B : Type*} {R : A → B → Prop}

theorem forall₂_set {l : List A} {l' : List B} {a : A} {b : B} (h : List.Forall₂ R l l')
    (hab : R a b) (x : ℕ) : List.Forall₂ R (l.set x a) (l'.set x b) := by
  induction h generalizing x with
  | nil => exact .nil
  | cons hcd h ih =>
      cases x with
      | zero => exact .cons hab h
      | succ x => exact .cons hcd (ih x)

/-- The objects at a place, or none. -/
theorem rel_join_getElem? {l : List (Option A)} {l' : List (Option B)}
    (h : List.Forall₂ (Option.Rel R) l l') (x : ℕ) : Option.Rel R l[x]?.join l'[x]?.join := by
  induction h generalizing x with
  | nil => exact .none
  | cons hab _ ih =>
      cases x with
      | zero => simpa using hab
      | succ x => simpa using ih x

end SideBySide

end Shared
