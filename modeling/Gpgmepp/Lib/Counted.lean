import Gpgmepp.Lib.Shared

/-!
# Counted references

A resource that counts its references, and is destroyed with the last one.  Whoever has a reference
may add another or drop the one that it has; nobody else may do either.  `Balanced` says who has how
many.

A group of objects may share one reference, as the copies of a smart pointer do that drops the
reference when the last of them is gone.  `groups` counts the groups that have an object.

## Main definitions

* `Resources`, `make`, `ref`, `unref` — the resources.
* `Balanced` — the counts, by the owners of references.
* `groups` — the groups of objects that share a reference to a resource.
-/

namespace Counted

/-- The resource is not there, or not any more. -/
inductive Gone | gone
  deriving DecidableEq

/-- The counts of the resources, and how often each was destroyed. -/
structure Resources where
  refs : ℕ → ℕ
  frees : ℕ → ℕ
  /-- The resource that is made next. -/
  next : ℕ

namespace Resources

/-- There are no resources yet. -/
def empty : Resources := ⟨fun _ => 0, fun _ => 0, 0⟩

/-- A new resource, with one reference. -/
def make (m : Resources) : Resources :=
  { m with refs := Function.update m.refs m.next 1, next := m.next + 1 }

/-- One more reference. -/
def ref (m : Resources) (k : ℕ) : Except Gone Resources :=
  if m.refs k = 0 then .error .gone
  else .ok { m with refs := Function.update m.refs k (m.refs k + 1) }

/-- One reference less; with the last one the resource is destroyed. -/
def unref (m : Resources) (k : ℕ) : Except Gone Resources :=
  if m.refs k = 0 then .error .gone
  else
    .ok
      { m with
        refs := Function.update m.refs k (m.refs k - 1)
        frees := Function.update m.frees k (m.frees k + if m.refs k = 1 then 1 else 0) }

/-- Something is read in the resource. -/
def read (m : Resources) (k : ℕ) : Except Gone Unit :=
  if m.refs k = 0 then .error .gone else .ok ()

/-- The owners have as many references as the resources count, and a resource is destroyed once its
last owner is gone. -/
structure Balanced (m : Resources) (owners : ℕ → ℕ) : Prop where
  refs : ∀ k, m.refs k = owners k
  frees : ∀ k < m.next, m.frees k = if owners k = 0 then 1 else 0
  fresh : ∀ k, m.next ≤ k → owners k = 0 ∧ m.frees k = 0

variable {m : Resources} {owners : ℕ → ℕ} {k : ℕ}

theorem balanced_empty : Balanced empty fun _ => 0 :=
  ⟨fun _ => rfl, fun k hk => absurd hk (Nat.not_lt_zero k), fun _ _ => ⟨rfl, rfl⟩⟩

theorem Balanced.congr {owners' : ℕ → ℕ} (h : Balanced m owners)
    (heq : ∀ k, owners' k = owners k) : Balanced m owners' := by
  obtain rfl : owners' = owners := funext heq
  exact h

/-- A resource with an owner is there. -/
theorem Balanced.lt (h : Balanced m owners) (hk : 0 < owners k) : k < m.next := by
  by_contra hge
  have := (h.fresh k (by omega)).1
  omega

/-- The reference of a new resource belongs to whoever has asked for it. -/
theorem Balanced.make (h : Balanced m owners) :
    Balanced m.make fun k => owners k + if k = m.next then 1 else 0 := by
  obtain ⟨hzero, hfrees⟩ := h.fresh m.next (Nat.le_refl _)
  refine ⟨fun k => ?_, fun k hk => ?_, fun k hk => ?_⟩
  · simp only [Resources.make, Function.update_apply]
    have := h.refs k
    by_cases hnext : k = m.next
    · subst hnext
      simp [hzero]
    · simp [hnext, this]
  · by_cases hnext : k = m.next
    · subst hnext
      simp [Resources.make, hfrees]
    · have hlt : k < m.next := by
        simp only [Resources.make] at hk
        omega
      simpa [Resources.make, hnext] using h.frees k hlt
  · simp only [Resources.make] at hk ⊢
    obtain ⟨hz, hf⟩ := h.fresh k (by omega)
    exact ⟨by simp [hz, show k ≠ m.next by omega], hf⟩

/-- An owner adds a reference. -/
theorem Balanced.ref (h : Balanced m owners) (hk : 0 < owners k) :
    ∃ m', m.ref k = .ok m' ∧ m'.next = m.next ∧
      Balanced m' fun q => owners q + if q = k then 1 else 0 := by
  have hrefs := h.refs k
  refine ⟨{ m with refs := Function.update m.refs k (m.refs k + 1) },
    by rw [Resources.ref, if_neg (by omega)], rfl, fun q => ?_, fun q hq => ?_, fun q hq => ?_⟩
  · simp only [Function.update_apply]
    have := h.refs q
    split
    · next heq =>
        subst heq
        omega
    · omega
  · have := h.frees q hq
    by_cases heq : q = k
    · subst heq
      simpa [show owners q ≠ 0 by omega] using this
    · simpa [heq] using this
  · obtain ⟨hz, hf⟩ := h.fresh q hq
    have hne : q ≠ k := by
      rintro rfl
      omega
    exact ⟨by simp [hz, hne], hf⟩

/-- An owner drops its reference. -/
theorem Balanced.unref (h : Balanced m owners) (owners' : ℕ → ℕ)
    (howners : ∀ q, owners q = owners' q + if q = k then 1 else 0) :
    ∃ m', m.unref k = .ok m' ∧ m'.next = m.next ∧ Balanced m' owners' := by
  have hrefs := h.refs k
  have hk := howners k
  rw [if_pos rfl] at hk
  have hlt := h.lt (show 0 < owners k by omega)
  refine ⟨{ m with
      refs := Function.update m.refs k (m.refs k - 1)
      frees := Function.update m.frees k (m.frees k + if m.refs k = 1 then 1 else 0) },
    by rw [Resources.unref, if_neg (by omega)], rfl, fun q => ?_, fun q hq => ?_, fun q hq => ?_⟩
  · simp only [Function.update_apply]
    have := h.refs q
    have hq := howners q
    split
    · next heq =>
        subst heq
        omega
    · next hne =>
        rw [if_neg hne] at hq
        omega
  · have hfrees := h.frees q hq
    have hq' := howners q
    simp only [Function.update_apply]
    by_cases heq : q = k
    · subst heq
      rw [if_neg (by omega)] at hfrees
      rw [if_pos rfl, hfrees, Nat.zero_add]
      have : m.refs q = 1 ↔ owners' q = 0 := by omega
      simp only [this]
    · rw [if_neg heq] at hq' ⊢
      rw [hfrees, hq', Nat.add_zero]
  · obtain ⟨hz, hf⟩ := h.fresh q hq
    have hq' := howners q
    have hne : q ≠ k := by
      rintro rfl
      omega
    exact ⟨by omega, by simpa [Function.update_apply, hne] using hf⟩

/-- What has an owner can be read. -/
theorem Balanced.read (h : Balanced m owners) (hk : 0 < owners k) : m.read k = .ok () := by
  have hrefs := h.refs k
  rw [Resources.read, if_neg (by omega)]

end Resources

/-! ## Groups -/

section Groups
open Shared
variable {V : Type*} [Owner V] {s s' : Store V ℕ} {k r : ℕ}

/-- How many groups of objects there are that share a reference to the resource.  The record of a
group is the resource. -/
def groups (s : Store V ℕ) (k : ℕ) : ℕ :=
  (List.range s.next).countP fun r => decide (0 < s.useCount r ∧ s.record r = k)

/-- An object belongs to a group. -/
theorem groups_pos (hr : r < s.next) (huse : 0 < s.useCount r) : 0 < groups s (s.record r) :=
  List.countP_pos_iff.mpr ⟨r, List.mem_range.mpr hr, by simp [huse]⟩

/-- The groups are the same as long as none is made and none goes. -/
theorem groups_congr (hnext : s'.next = s.next) (hrecord : s'.record = s.record)
    (huse : ∀ r, 0 < s'.useCount r ↔ 0 < s.useCount r) (k : ℕ) : groups s' k = groups s k := by
  simp only [groups, hnext, hrecord, huse]

/-- Something that is in a list once is counted from now on. -/
theorem countP_update {α : Type*} {p p' : α → Bool} {l : List α} {a : α} (hl : l.Nodup)
    (hsame : ∀ b, b ≠ a → p' b = p b) (hp : p a = false) (hp' : p' a = true) (ha : a ∈ l) :
    l.countP p' = l.countP p + 1 := by
  induction l with
  | nil => cases ha
  | cons b l ih =>
      obtain ⟨hb, hl⟩ := List.nodup_cons.mp hl
      by_cases hba : b = a
      · subst hba
        have hrest : l.countP p' = l.countP p := by
          refine List.countP_congr fun c hc => ?_
          rw [hsame c (fun hcb => hb (hcb ▸ hc))]
        rw [List.countP_cons_of_pos hp', List.countP_cons_of_neg (by simp [hp]), hrest]
      · have hrest := ih hl (List.mem_of_ne_of_mem (Ne.symm hba) ha)
        rw [List.countP_cons, List.countP_cons, hsame b hba]
        omega

/-- A group goes with its last object. -/
theorem groups_drop (hnext : s'.next = s.next) (hrecord : s'.record = s.record)
    (hother : ∀ q, q ≠ r → (0 < s'.useCount q ↔ 0 < s.useCount q)) (hr : r < s.next)
    (hlive : 0 < s.useCount r) (hgone : s'.useCount r = 0) (k : ℕ) :
    groups s k = groups s' k + if k = s.record r then 1 else 0 := by
  by_cases hk : k = s.record r
  · subst hk
    rw [if_pos rfl, groups, groups, hnext, hrecord]
    refine countP_update List.nodup_range (fun q hq => ?_) (by simp [hgone]) (by simp [hlive])
      (List.mem_range.mpr hr)
    simp only [hother q hq]
  · rw [if_neg hk, Nat.add_zero]
    simp only [groups, hnext, hrecord]
    refine List.countP_congr fun q _ => ?_
    by_cases hq : q = r
    · subst hq
      simp [Ne.symm hk]
    · simp only [hother q hq]

/-- An object that gets a reference of its own is a new group. -/
theorem groups_push_new {v : V} (hb : s.Bounded) (hv : Owner.ptr v = some s.next) (k q : ℕ) :
    groups ((s.new k).push v) q = groups s q + if q = k then 1 else 0 := by
  have huse : ∀ r, ((s.new k).push v).useCount r = s.useCount r + if r = s.next then 1 else 0 := by
    intro r
    rw [Store.useCount_push, Store.useCount_new, Store.owns, hv]
    simp [eq_comm]
  have hnone : s.useCount s.next = 0 := by
    by_contra hne
    have := Store.lt_of_useCount_pos hb (Nat.pos_of_ne_zero hne)
    omega
  have hbelow : (List.range s.next).countP (fun r =>
      decide (0 < ((s.new k).push v).useCount r ∧ ((s.new k).push v).record r = q)) =
        groups s q := by
    refine List.countP_congr fun r hr => ?_
    have hne : r ≠ s.next := by
      have := List.mem_range.mp hr
      omega
    have hrecord : ((s.new k).push v).record r = s.record r := Function.update_of_ne hne _ _
    rw [huse, if_neg hne, hrecord, Nat.add_zero]
  have hnext : ((s.new k).push v).next = s.next + 1 := rfl
  rw [groups, hnext, List.range_succ, List.countP_append, hbelow, List.countP_singleton, huse,
    hnone]
  simp [Store.push, Store.new, eq_comm]

/-- An object of a resource that has a group keeps it from being destroyed. -/
theorem groups_pos_of_get {x : ℕ} {v : V} (hb : s.Bounded) (hv : s.get x = some v)
    (hr : Owner.ptr v = some r) : 0 < groups s (s.record r) :=
  groups_pos (hb x v r hv hr) (Store.useCount_pos hv hr)

/-- A resource has a group if one of its objects is there. -/
theorem groups_pos_iff (hb : s.Bounded) :
    0 < groups s k ↔ ∃ x v r, s.get x = some v ∧ Owner.ptr v = some r ∧ s.record r = k := by
  constructor
  · intro h
    obtain ⟨r, -, hr⟩ := List.countP_pos_iff.mp h
    obtain ⟨huse, hk⟩ := of_decide_eq_true hr
    obtain ⟨x, v, hv, hr⟩ := Store.exists_of_useCount_pos huse
    exact ⟨x, v, r, hv, hr, hk⟩
  · rintro ⟨x, v, r, hv, hr, rfl⟩
    exact groups_pos_of_get hb hv hr

end Groups

end Counted
