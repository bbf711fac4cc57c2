import Gpgmepp.Error
import Gpgmepp.Lib.LinkedList

/-!
# Loading components

`Component::load` gets the components from gpgme as a linked list, and makes a vector of them.  It
takes the list apart: each `Component` owns one node, whose link is cleared.  While it does, the
rest of the list is owned by one of two shared pointers, `head` and `next`, and growing the vector
may throw.  Each shared pointer has a count of its own, which needs memory, too; that there is
memory for these is assumed.

At each such point all nodes have an owner, and only one.  So in the end every node is released
once, in whatever order the owners are destroyed: `loads`.

## Main definitions

* `Loaded` — how the function ends, with the owners that there are.
* `loadLoop`, `load` — the function of the sources.
* `Loaded.Lawful` — what should be true in the end.
-/

namespace Gpgmepp.Configuration

open LinkedList

variable {α : Type*}

/-- How `Component::load` ends, and the owners that there are then.  A `Component` is a shared
pointer to a node. -/
inductive Loaded (α : Type*)
  | returned (h : Heap α) (result : List (Option ℕ))
  /-- The vector could not grow. -/
  | threw (h : Heap α) (next : Option ℕ) (result : List (Option ℕ)) (head : Option ℕ)

/-- The loop, where `throws` says for each size of the vector whether it cannot grow.  The calls of
`reset` do not throw: there the tail would be released, and then once more with `head`. -/
def loadLoop (throws : ℕ → Bool) :
    (fuel : ℕ) → Heap α → (head : Option ℕ) → (result : List (Option ℕ)) → Option (Loaded α)
  | _, h, none, result => some (.returned h result)
  | 0, _, some _, _ => none
  | fuel + 1, h, some head, result =>
      match h.cells head with
      | none => none
      | some node =>
          let next := node.next
          match h.setNext head none with
          | none => none
          | some h =>
              if throws result.length then some (.threw h next result (some head))
              -- the new component takes over `head`, which takes over `next`
              else loadLoop throws fuel h next (result ++ [some head])

/-- `Component::load`, with what `gpgme_new` and `gpgme_op_conf_load` return. -/
def load (throws : ℕ → Bool) (newErr loadErr : UInt32) (h : Heap α) (confList : Option ℕ)
    (returnedError : Error) : Option (Error × Loaded α) :=
  if newErr ≠ 0 then some (⟨newErr⟩, .returned h [])
  else if loadErr ≠ 0 then some (⟨loadErr⟩, .returned h [])
  else (loadLoop throws (h.fresh + 1) h confList []).map (returnedError, ·)

/-- In whatever order the owners are destroyed, the nodes `as` are released since `h₀`, each once,
and no other. -/
def Releases (h₀ h : Heap α) (owners : List (Option ℕ)) (as : List ℕ) : Prop :=
  ∀ owners', owners.Perm owners' → ∃ h', destroyAll h owners' = some h' ∧
    ∃ freed, h'.released = h₀.released ++ freed ∧ freed.Perm as

/-- What should be true in the end, for a list of nodes `as` with contents `l`.  On return there
is a component for each node, which owns the node, without a link.  The owners release all
nodes. -/
def Loaded.Lawful (throws : ℕ → Bool) (h₀ : Heap α) (as : List ℕ) (l : List α) : Loaded α → Prop
  | .returned h result =>
      (∀ i < as.length, throws i = false) ∧ result = as.map some ∧
        List.Forall₂ (fun a x => h.cells a = some ⟨x, none⟩) as l ∧ Releases h₀ h result as
  | .threw h next result head =>
      (∃ i < as.length, throws i = true) ∧ Releases h₀ h (next :: (result ++ [head])) as

/-! ## The loop -/

/-- The invariant of the loop, between the nodes `done` that have components and the rest of the
list, which is owned by `head`. -/
structure Loading (h₀ h : Heap α) (head : Option ℕ) (done as : List ℕ) (l₀ l : List α) :
    Prop where
  components : List.Forall₂ (fun a x => h.cells a = some ⟨x, none⟩) done l₀
  rest : IsList h head as l
  nodup : (done ++ as).Nodup
  released_eq : h.released = h₀.released

section Loop
variable {h₀ h : Heap α} {head : Option ℕ} {done as : List ℕ} {l₀ l : List α}

/-- Components that own a node each, without a link. -/
theorem owned_components (hnodes : List.Forall₂ (fun a x => h.cells a = some ⟨x, none⟩) as l) :
    Owned h (as.map some) as := by
  induction hnodes with
  | nil => exact .nil
  | cons hcell _ ih => exact Owned.cons (.cons hcell .nil) ih

theorem releases_of_owned {owners : List (Option ℕ)} {bs : List ℕ} (howned : Owned h owners bs)
    (hnodup : as.Nodup) (hperm : bs.Perm as) (hreleased : h.released = h₀.released) :
    Releases h₀ h owners as := by
  intro owners' howners
  obtain ⟨h', hdestroy, freed, hfreed, hbs⟩ :=
    howned.exists_destroyAll (hperm.nodup_iff.mpr hnodup) howners
  exact ⟨h', hdestroy, freed, hreleased ▸ hfreed, hbs.trans hperm⟩

/-- All nodes have an owner. -/
theorem Loading.releases (hl : Loading h₀ h head done as l₀ l) :
    Releases h₀ h (head :: done.map some) (done ++ as) :=
  releases_of_owned (.cons hl.rest (owned_components hl.components)) hl.nodup
    List.perm_append_comm hl.released_eq

/-- **One iteration**, before the vector grows: the first node is taken off the list. -/
theorem Loading.detach {a : ℕ} (hl : Loading h₀ h head done (a :: as) l₀ l) :
    ∃ c l', head = some a ∧ l = c.content :: l' ∧ h.cells a = some c ∧
      Loading h₀ (h.link a none) c.next (done ++ [a]) as (l₀ ++ [c.content]) l' := by
  obtain ⟨hcomponents, hrest, hnodup, hreleased⟩ := hl
  obtain ⟨-, hnodup', hdisjoint⟩ := List.nodup_append.mp hnodup
  cases hrest with
  | @cons _ c _ l' hc hrest =>
      refine ⟨c, l', rfl, rfl, hc, ?_, ?_, by simpa using hnodup, hreleased⟩
      · refine List.rel_append ?_ (.cons ?_ .nil)
        · have hne : ∀ b ∈ done, b ≠ a := fun b hb => hdisjoint b hb a List.mem_cons_self
          refine ((List.forall₂_and_left _ _).mpr ⟨hne, hcomponents⟩).imp ?_
          rintro b x ⟨hba, hb⟩
          rw [Heap.cells_link_of_ne _ hba, hb]
        · rw [Heap.cells_link_self, hc, Option.map_some]
      · refine hrest.congr fun b hb => Heap.cells_link_of_ne _ ?_
        rintro rfl
        exact (List.nodup_cons.mp hnodup').1 hb

/-- The loop, from any of its iterations on. -/
theorem lawful_loadLoop (throws : ℕ → Bool) (fuel : ℕ) (hfuel : as.length ≤ fuel)
    (hl : Loading h₀ h head done as l₀ l) (hthrows : ∀ i < done.length, throws i = false) :
    ∃ outcome, loadLoop throws fuel h head (done.map some) = some outcome ∧
      outcome.Lawful throws h₀ (done ++ as) (l₀ ++ l) := by
  induction as generalizing fuel h head done l₀ l with
  | nil =>
      obtain ⟨hcomponents, hrest, hnodup, hreleased⟩ := hl
      cases hrest
      refine ⟨.returned h (done.map some), by cases fuel <;> rfl, ?_⟩
      rw [List.append_nil] at hnodup ⊢
      rw [List.append_nil]
      exact ⟨hthrows, rfl, hcomponents,
        releases_of_owned (owned_components hcomponents) hnodup (.refl _) hreleased⟩
  | cons a as ih =>
      obtain ⟨fuel, rfl⟩ : ∃ k, fuel = k + 1 := Nat.exists_eq_succ_of_ne_zero (by
        rw [List.length_cons] at hfuel
        omega)
      obtain ⟨c, l', rfl, rfl, hc, hnext⟩ := hl.detach
      have hmap : done.map some ++ [some a] = (done ++ [a]).map some := by simp
      have hnodes : done ++ a :: as = (done ++ [a]) ++ as := by simp
      have hcontents : l₀ ++ c.content :: l' = (l₀ ++ [c.content]) ++ l' := by simp
      rw [hnodes, hcontents]
      simp only [loadLoop, hc, Heap.setNext_eq hc, List.length_map]
      cases hthrow : throws done.length with
      | true =>
          refine ⟨_, rfl, ⟨done.length, by simp, hthrow⟩, ?_⟩
          rw [hmap]
          exact hnext.releases
      | false =>
          simp only [Bool.false_eq_true, if_false, hmap]
          refine ih fuel (by simpa using hfuel) hnext fun i hi => ?_
          rw [List.length_append, List.length_singleton, Nat.lt_succ_iff_lt_or_eq] at hi
          rcases hi with hi | rfl
          · exact hthrows i hi
          · exact hthrow

end Loop

/-- **Loading components.**  For every list of gpgme, and wherever the vector cannot grow, the
nodes are made components of, and each is released once in the end. -/
theorem loads (throws : ℕ → Bool) {h : Heap α} {confList : Option ℕ} {as : List ℕ} {l : List α}
    (hlist : IsList h confList as l) (returnedError : Error) :
    ∃ outcome, load throws 0 0 h confList returnedError = some (returnedError, outcome) ∧
      outcome.Lawful throws h as l := by
  have hl : Loading h h confList [] as [] l := ⟨.nil, hlist, hlist.nodup, rfl⟩
  obtain ⟨outcome, hloop, hlawful⟩ := lawful_loadLoop throws (h.fresh + 1)
    (hlist.length_le_fresh.trans (Nat.le_succ _)) hl nofun
  refine ⟨outcome, ?_, hlawful⟩
  rw [List.map_nil] at hloop
  simp only [load, hloop]
  rfl

/-- A list of two components. -/
def twoNodes : Heap Bool := ((Heap.empty.alloc true).2.alloc false).2.link 0 (some 1)

/-- The vector grows once, and then it cannot. -/
theorem loads_twoNodes :
    ∃ outcome, load (· == 1) 0 0 twoNodes (some 0) .none = some (.none, outcome) ∧
      outcome.Lawful (· == 1) twoNodes [0, 1] [true, false] :=
  loads (· == 1) (.cons (c := ⟨true, some 1⟩) rfl (.cons (c := ⟨false, none⟩) rfl .nil)) .none

end Gpgmepp.Configuration
