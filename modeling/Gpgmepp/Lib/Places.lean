import Gpgmepp.Lib.LinkedList
import Mathlib.Logic.Equiv.Basic

/-!
# Places that hold lists in memory

Some places each hold a list of their own, and some lists were given away.  A place may get a list
that was just made, drop the one that it has, or swap it with another place; and a list that was
just made may be given away at once.  Whatever is done, every node that was made has one owner: a
place, or whoever it was given to, or it was released, once.  And what was there before, or was
given away, is not touched.

## Main definitions

* `Owner`, `Places` — who has a node, and what the places have.
* `Foreign` — the nodes that are not for the places to change.
* `Places.give`, `Places.make`, `Places.replace`, `Places.release`, `Places.swap` — the rules.
-/

namespace LinkedList

variable {α : Type*}

/-- Where a node is that was made. -/
inductive Owner
  | place (x : ℕ)
  | given
  | released
  deriving DecidableEq

/-- The owner, when the places `x` and `y` swap what they have. -/
def Owner.swap (x y : ℕ) : Owner → Owner
  | .place z => .place (Equiv.swap x y z)
  | o => o

theorem Owner.swap_eq_place {x y z : ℕ} (o : Owner) :
    o.swap x y = .place z ↔ o = .place (Equiv.swap x y z) := by
  cases o with
  | place w => simp [swap, Equiv.swap_apply_eq_iff]
  | given => simp [swap]
  | released => simp [swap]

/-- Each place `x` has the list `lists x`, which is at `ptr x`; and every node that was made, from
the address `base` on, has an owner. -/
structure Places (base : ℕ) (h : Heap α) (ptr : ℕ → Option ℕ) (lists : ℕ → List α)
    (owner : ℕ → Option Owner) : Prop where
  base_le : base ≤ h.fresh
  list : ∀ x, ∃ as, IsList h (ptr x) as (lists x) ∧ ∀ a, a ∈ as ↔ owner a = some (.place x)
  made : ∀ a, (owner a).isSome ↔ base ≤ a ∧ a < h.fresh
  once : h.released.Nodup
  released : ∀ a, a ∈ h.released ↔ owner a = some .released

/-- A node that was there before, or was given away. -/
def Foreign (base : ℕ) (owner : ℕ → Option Owner) (a : ℕ) : Prop :=
  a < base ∨ owner a = some .given

namespace Places

variable {base : ℕ} {h h' : Heap α} {ptr : ℕ → Option ℕ} {lists : ℕ → List α}
  {owner : ℕ → Option Owner} {x y a : ℕ}

/-- Nothing was made yet. -/
theorem start (h : Heap α) (hreleased : h.released = []) :
    Places h.fresh h (fun _ => none) (fun _ => []) fun _ => none where
  base_le := Nat.le_refl _
  list _ := ⟨[], .nil, by simp⟩
  made a := by
    simp only [Option.isSome_none, Bool.false_eq_true, false_iff]
    omega
  once := by simp [hreleased]
  released a := by simp [hreleased]

theorem lt_fresh (hp : Places base h ptr lists owner) (ha : owner a ≠ none) : a < h.fresh :=
  ((hp.made a).mp (Option.isSome_iff_ne_none.mpr ha)).2

theorem lt_of_foreign (hp : Places base h ptr lists owner) (ha : Foreign base owner a) :
    a < h.fresh := by
  rcases ha with ha | ha
  · exact Nat.lt_of_lt_of_le ha hp.base_le
  · exact hp.lt_fresh (by simp [ha])

/-- A place that has no list has no nodes. -/
theorem owner_ne (hp : Places base h ptr lists owner) (hx : lists x = []) :
    owner a ≠ some (.place x) := by
  obtain ⟨as, hlist, hmem⟩ := hp.list x
  have hlength := hlist.length_eq
  rw [hx, List.length_nil, List.length_eq_zero_iff] at hlength
  subst hlength
  exact fun howner => List.not_mem_nil ((hmem a).mpr howner)

/-! ### Making lists -/

/-- The owners after `o` got a new list of the nodes `as`, and the nodes `freed` were made as well,
but released. -/
def settledOwner (owner : ℕ → Option Owner) (o : Owner) (as freed : List ℕ) (a : ℕ) :
    Option Owner :=
  if a ∈ as then some o else if a ∈ freed then some .released else owner a

section Settle
variable {as freed : List ℕ} {o p : Owner}

/-- What was made since is new. -/
theorem mem_new (hperm : (as ++ freed).Perm (List.range' h.fresh (h'.fresh - h.fresh))) :
    a ∈ as ∨ a ∈ freed ↔ h.fresh ≤ a ∧ a < h'.fresh := by
  rw [← List.mem_append, hperm.mem_iff, List.mem_range'_1]
  omega

/-- Who has a node after the list was made. -/
theorem settledOwner_eq_some (hp : Places base h ptr lists owner)
    (hperm : (as ++ freed).Perm (List.range' h.fresh (h'.fresh - h.fresh))) :
    settledOwner owner o as freed a = some p ↔
      owner a = some p ∨ (a ∈ as ∧ o = p) ∨ (a ∈ freed ∧ p = .released) := by
  have hnew := mem_new hperm (a := a)
  have hnodup := hperm.nodup_iff.mpr List.nodup_range'
  have hdisjoint : a ∈ as → a ∉ freed :=
    fun has hfreed => (List.nodup_append.mp hnodup).2.2 a has a hfreed rfl
  have hold : a ∈ as ∨ a ∈ freed → owner a = none := by
    intro hmem
    by_contra hne
    have := hp.lt_fresh hne
    have := (hnew.mp hmem).1
    omega
  rw [settledOwner]
  by_cases has : a ∈ as
  · simp [has, hdisjoint has, hold (.inl has)]
  · by_cases hfreed : a ∈ freed
    · simp [has, hfreed, hold (.inr hfreed), eq_comm]
    · simp [has, hfreed]

/-- A list was made since, and somebody has it. -/
theorem settle (hp : Places base h ptr lists owner) (hs : Settled h h' as)
    (hle : h.fresh ≤ h'.fresh) (ho : o ≠ .released) :
    ∃ owner' : ℕ → Option Owner,
      (∀ a, (owner' a).isSome ↔ base ≤ a ∧ a < h'.fresh) ∧ h'.released.Nodup ∧
      (∀ a, a ∈ h'.released ↔ owner' a = some .released) ∧
      ∀ a p, p ≠ .released → (owner' a = some p ↔ owner a = some p ∨ (a ∈ as ∧ o = p)) := by
  obtain ⟨freed, hreleased, hperm⟩ := hs.accounts
  have hbase := hp.base_le
  have hnew : ∀ a, a ∈ as ∨ a ∈ freed ↔ h.fresh ≤ a ∧ a < h'.fresh := fun a => mem_new hperm
  refine ⟨settledOwner owner o as freed, fun a => ?_, ?_, fun a => ?_, fun a p hne => ?_⟩
  · have hold := hp.made a
    have hmem := hnew a
    by_cases has : a ∈ as
    · simp only [settledOwner, has, if_true, Option.isSome_some, true_iff]
      have := hmem.mp (.inl has)
      omega
    · by_cases hfreed : a ∈ freed
      · simp only [settledOwner, has, hfreed, if_true, if_false, Option.isSome_some, true_iff]
        have := hmem.mp (.inr hfreed)
        omega
      · simp only [settledOwner, has, hfreed, if_false, hold]
        have : ¬ (h.fresh ≤ a ∧ a < h'.fresh) := fun h => by
          rcases hmem.mpr h with h | h
          · exact has h
          · exact hfreed h
        omega
  · rw [hreleased, List.nodup_append]
    have hnodup := hperm.nodup_iff.mpr List.nodup_range'
    refine ⟨hp.once, (List.nodup_append.mp hnodup).2.1, ?_⟩
    rintro a ha b hb rfl
    have hlt := hp.lt_fresh (a := a) (by simp [(hp.released a).mp ha])
    have := ((hnew a).mp (.inr hb)).1
    omega
  · rw [settledOwner_eq_some hp hperm, hreleased, List.mem_append, hp.released a]
    simp [ho]
  · rw [settledOwner_eq_some hp hperm]
    simp [hne]

/-- **A list is given away** that was just made, or nothing is kept of what was made. -/
theorem give (hp : Places base h ptr lists owner) (hs : Settled h h' as)
    (hle : h.fresh ≤ h'.fresh) :
    ∃ owner', Places base h' ptr lists owner' ∧
      ∀ a, owner' a = some .given ↔ owner a = some .given ∨ a ∈ as := by
  obtain ⟨owner', hmade, honce, hreleased, howner⟩ := hp.settle hs hle (o := .given) (by simp)
  refine ⟨owner', ⟨hp.base_le.trans hle, fun y => ?_, hmade, honce, hreleased⟩, fun a => ?_⟩
  · obtain ⟨bs, hlist, hmem⟩ := hp.list y
    refine ⟨bs, hlist.congr fun a ha => hs.frame a (hlist.lt_fresh a ha), fun a => ?_⟩
    rw [howner a _ (by simp), hmem a]
    simp
  · rw [howner a _ (by simp)]
    simp

end Settle

/-! ### Releasing, taking and swapping -/

/-- **A place drops its list.** -/
theorem release (hp : Places base h ptr lists owner) (x : ℕ) :
    ∃ h' owner', h.release (ptr x) = some h' ∧ h'.fresh = h.fresh ∧
      (∀ a, Foreign base owner a → h'.cells a = h.cells a) ∧
      Places base h' (Function.update ptr x none) (Function.update lists x []) owner' ∧
      ∀ a, owner' a = some .given ↔ owner a = some .given := by
  obtain ⟨as, hlist, hmem⟩ := hp.list x
  refine ⟨h.eraseAll as, fun a => if a ∈ as then some .released else owner a, hlist.release_eq,
    Heap.fresh_eraseAll h as, fun a ha => ?_, ⟨?_, fun y => ?_, fun a => ?_, ?_, fun a => ?_⟩,
    fun a => ?_⟩
  · have hnot : a ∉ as := by
      intro hin
      have howner := (hmem a).mp hin
      rcases ha with ha | ha
      · have := (hp.made a).mp (by simp [howner])
        omega
      · rw [howner] at ha
        cases ha
    rw [Heap.cells_eraseAll, if_neg hnot]
  · rw [Heap.fresh_eraseAll]
    exact hp.base_le
  · by_cases hy : y = x
    · subst hy
      refine ⟨[], by simpa using IsList.nil, fun a => ?_⟩
      simp only [List.not_mem_nil, false_iff]
      split
      · simp
      · next hnot => rwa [← hmem a]
    · obtain ⟨bs, hlist', hmem'⟩ := hp.list y
      have hdisjoint : ∀ b ∈ bs, b ∉ as := by
        intro b hb hin
        have hyx := ((hmem' b).mp hb).symm.trans ((hmem b).mp hin)
        exact hy (by simpa using hyx)
      refine ⟨bs, ?_, fun a => ?_⟩
      · rw [Function.update_of_ne hy, Function.update_of_ne hy]
        exact hlist'.congr fun b hb => by rw [Heap.cells_eraseAll, if_neg (hdisjoint b hb)]
      · rw [hmem' a]
        split
        · next hin => simp [(hmem a).mp hin, Ne.symm hy]
        · rfl
  · rw [Heap.fresh_eraseAll, ← hp.made a]
    split
    · next hin => simp [(hmem a).mp hin]
    · rfl
  · rw [Heap.released_eraseAll, List.nodup_append]
    refine ⟨hp.once, hlist.nodup, ?_⟩
    rintro a ha b hb rfl
    have hboth := ((hp.released a).mp ha).symm.trans ((hmem a).mp hb)
    cases hboth
  · rw [Heap.released_eraseAll, List.mem_append, hp.released a]
    split
    · next hin => simp [hin]
    · next hnot => simp [hnot]
  · dsimp only
    split
    · next hin => simp [(hmem a).mp hin]
    · rfl

/-- **An empty place takes a list** that was given away. -/
theorem take (hp : Places base h ptr lists owner) (hx : lists x = []) {q : Option ℕ}
    {as : List ℕ} {l : List α} (hq : IsList h q as l) (has : ∀ a ∈ as, owner a = some .given) :
    ∃ owner', Places base h (Function.update ptr x q) (Function.update lists x l) owner' ∧
      ∀ a, owner' a = some .given ↔ owner a = some .given ∧ a ∉ as := by
  refine ⟨fun a => if a ∈ as then some (.place x) else owner a,
    ⟨hp.base_le, fun y => ?_, fun a => ?_, hp.once, fun a => ?_⟩, fun a => ?_⟩
  · by_cases hy : y = x
    · subst hy
      refine ⟨as, by simpa using hq, fun a => ?_⟩
      by_cases hin : a ∈ as
      · simp [hin]
      · simpa [hin] using hp.owner_ne hx
    · obtain ⟨bs, hlist, hmem⟩ := hp.list y
      refine ⟨bs, ?_, fun a => ?_⟩
      · rw [Function.update_of_ne hy, Function.update_of_ne hy]
        exact hlist
      · rw [hmem a]
        by_cases hin : a ∈ as
        · simp [hin, has a hin, Ne.symm hy]
        · simp [hin]
  · rw [← hp.made a]
    by_cases hin : a ∈ as
    · simp [hin, has a hin]
    · simp [hin]
  · rw [hp.released a]
    by_cases hin : a ∈ as
    · simp [hin, has a hin]
    · simp [hin]
  · by_cases hin : a ∈ as
    · simp [hin]
    · simp [hin]

/-- What was just made was not given away before. -/
theorem given_iff (hp : Places base h ptr lists owner) {as : List ℕ} (hs : Settled h h' as)
    (a : ℕ) : (owner a = some .given ∨ a ∈ as) ∧ a ∉ as ↔ owner a = some .given := by
  obtain ⟨freed, -, hperm⟩ := hs.accounts
  have hnew := mem_new hperm (a := a)
  constructor
  · rintro ⟨hgiven | hin, hnot⟩
    · exact hgiven
    · exact absurd hin hnot
  · intro hgiven
    refine ⟨.inl hgiven, fun hin => ?_⟩
    have := hp.lt_fresh (a := a) (by simp [hgiven])
    have := (hnew.mp (.inl hin)).1
    omega

/-- **An empty place gets a list** that was just made. -/
theorem make (hp : Places base h ptr lists owner) {as : List ℕ} (hs : Settled h h' as)
    (hle : h.fresh ≤ h'.fresh) (hx : lists x = []) {q : Option ℕ} {l : List α}
    (hq : IsList h' q as l) :
    ∃ owner', Places base h' (Function.update ptr x q) (Function.update lists x l) owner' ∧
      ∀ a, owner' a = some .given ↔ owner a = some .given := by
  obtain ⟨owner₁, hp₁, hgiven₁⟩ := hp.give hs hle
  obtain ⟨owner₂, hp₂, hgiven₂⟩ := hp₁.take hx hq fun a ha => (hgiven₁ a).mpr (.inr ha)
  refine ⟨owner₂, hp₂, fun a => ?_⟩
  rw [hgiven₂ a, hgiven₁ a, hp.given_iff hs a]

/-- **A place gets a list** that was just made, and then the one that it had is released. -/
theorem replace (hp : Places base h ptr lists owner) {as : List ℕ} (hs : Settled h h' as)
    (hle : h.fresh ≤ h'.fresh) (x : ℕ) {q : Option ℕ} {l : List α} (hq : IsList h' q as l) :
    ∃ h'' owner', h'.release (ptr x) = some h'' ∧
      (∀ a, Foreign base owner a → h''.cells a = h.cells a) ∧
      Places base h'' (Function.update ptr x q) (Function.update lists x l) owner' ∧
      ∀ a, owner' a = some .given ↔ owner a = some .given := by
  obtain ⟨owner₁, hp₁, hgiven₁⟩ := hp.give hs hle
  obtain ⟨h'', owner₂, hrelease, -, hcells, hp₂, hgiven₂⟩ := hp₁.release x
  have has : ∀ a ∈ as, owner₁ a = some .given := fun a ha => (hgiven₁ a).mpr (.inr ha)
  have hq' : IsList h'' q as l := hq.congr fun a ha => hcells a (.inr (has a ha))
  obtain ⟨owner₃, hp₃, hgiven₃⟩ := hp₂.take (x := x) (by simp) hq' fun a ha =>
    (hgiven₂ a).mpr (has a ha)
  refine ⟨h'', owner₃, hrelease, fun a ha => ?_, by simpa using hp₃, fun a => ?_⟩
  · rw [hcells a (ha.imp_right fun hgiven => (hgiven₁ a).mpr (.inl hgiven))]
    exact hs.frame a (hp.lt_of_foreign ha)
  · rw [hgiven₃ a, hgiven₂ a, hgiven₁ a, hp.given_iff hs a]

/-- **Two places swap their lists.** -/
theorem swap (hp : Places base h ptr lists owner) (x y : ℕ) :
    ∃ owner', Places base h (Function.update (Function.update ptr x (ptr y)) y (ptr x))
        (Function.update (Function.update lists x (lists y)) y (lists x)) owner' ∧
      ∀ a, owner' a = some .given ↔ owner a = some .given := by
  refine ⟨fun a => (owner a).map (Owner.swap y x), ?_, fun a => ?_⟩
  · rw [← Equiv.comp_swap_eq_update, ← Equiv.comp_swap_eq_update]
    refine ⟨hp.base_le, fun z => ?_, fun a => ?_, hp.once, fun a => ?_⟩
    · obtain ⟨as, hlist, hmem⟩ := hp.list (Equiv.swap y x z)
      refine ⟨as, hlist, fun a => ?_⟩
      rw [hmem a]
      cases owner a with
      | none => simp
      | some o => simp [Owner.swap_eq_place]
    · rw [← hp.made a, Option.isSome_map]
    · rw [hp.released a]
      cases owner a with
      | none => simp
      | some o => cases o <;> simp [Owner.swap]
  · dsimp only
    cases owner a with
    | none => simp
    | some o => cases o <;> simp [Owner.swap]

end Places

end LinkedList
