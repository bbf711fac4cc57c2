import Mathlib.Data.List.Nodup
import Mathlib.Data.List.Range
import Mathlib.Data.List.Perm.Subperm
import Mathlib.Logic.Function.Basic
import Mathlib.Tactic.Common

/-!
# Linked lists in memory

Nodes in memory that each have a content and a link to the next one, as C code makes and releases
them.  The use of an address at which there is no node is a fault, `none`, and so is to release it;
so what is not a fault releases nothing twice.  The addresses that were released are kept in the
order in which they were.

A list is released as a whole, from its first node on.  Some owners each hold a list of their own:
they may be destroyed in any order, and every node is released once.

## Main definitions

* `Heap`, `Heap.alloc`, `Heap.setNext`, `Heap.release` — memory, and what is done with it.
* `IsList h p as l` — at `p` there is a list of nodes, at the addresses `as` and with contents `l`.
* `Heap.forEach`, `Heap.advance` — loops that read a list.
* `Owned`, `destroyAll` — owners of lists, and their end.
* `Built`, `Settled` — what a loop that makes a list has come to, and what it leaves.
-/

namespace LinkedList

variable {α : Type*}

/-- A node. -/
structure Cell (α : Type*) where
  content : α
  next : Option ℕ

/-- The nodes that there are, by their addresses, which are used one after the other. -/
structure Heap (α : Type*) where
  cells : ℕ → Option (Cell α)
  /-- The address of the next node. -/
  fresh : ℕ
  /-- The addresses of the nodes that were released. -/
  released : List ℕ
  unused : ∀ a, fresh ≤ a → cells a = none

namespace Heap

/-- No nodes. -/
def empty : Heap α := ⟨fun _ => none, 0, [], fun _ _ => rfl⟩

/-- A new node, without a link. -/
def alloc (h : Heap α) (x : α) : ℕ × Heap α :=
  (h.fresh,
    { cells := Function.update h.cells h.fresh (some ⟨x, none⟩)
      fresh := h.fresh + 1
      released := h.released
      unused := by
        intro a ha
        rw [Function.update_of_ne (by omega)]
        exact h.unused a (by omega) })

/-- The link of a node is changed. -/
def link (h : Heap α) (a : ℕ) (q : Option ℕ) : Heap α :=
  { h with
    cells := Function.update h.cells a ((h.cells a).map fun c => { c with next := q })
    unused := by
      intro b hb
      by_cases hab : b = a
      · subst hab
        rw [Function.update_self, h.unused b hb, Option.map_none]
      · rw [Function.update_of_ne hab]
        exact h.unused b hb }

/-- `a->next = q`. -/
def setNext (h : Heap α) (a : ℕ) (q : Option ℕ) : Option (Heap α) :=
  if (h.cells a).isSome then some (h.link a q) else none

/-- A node is gone. -/
def erase (h : Heap α) (a : ℕ) : Heap α :=
  { h with
    cells := Function.update h.cells a none
    released := h.released ++ [a]
    unused := by
      intro b hb
      by_cases hab : b = a
      · subst hab
        rw [Function.update_self]
      · rw [Function.update_of_ne hab]
        exact h.unused b hb }

/-- The nodes from `p` on are released, at most `fuel` of them. -/
def releaseLoop : (fuel : ℕ) → Heap α → Option ℕ → Option (Heap α)
  | _, h, none => some h
  | 0, _, some _ => none
  | fuel + 1, h, some a =>
      match h.cells a with
      | none => none
      | some c => releaseLoop fuel (h.erase a) c.next

/-- A list is released.  There cannot be more nodes than addresses were used. -/
def release (h : Heap α) (p : Option ℕ) : Option (Heap α) := releaseLoop h.fresh h p

/-- All these nodes are gone. -/
def eraseAll (h : Heap α) (as : List ℕ) : Heap α := as.foldl erase h

variable {h : Heap α} {a b : ℕ}

@[simp] theorem fresh_alloc (x : α) : (h.alloc x).2.fresh = h.fresh + 1 := rfl

@[simp] theorem released_alloc (x : α) : (h.alloc x).2.released = h.released := rfl

@[simp] theorem fresh_link (q : Option ℕ) : (h.link a q).fresh = h.fresh := rfl

@[simp] theorem released_link (q : Option ℕ) : (h.link a q).released = h.released := rfl

theorem cells_alloc_self (x : α) : (h.alloc x).2.cells h.fresh = some ⟨x, none⟩ :=
  Function.update_self ..

theorem cells_alloc_of_ne (x : α) (hb : b ≠ h.fresh) : (h.alloc x).2.cells b = h.cells b :=
  Function.update_of_ne hb ..

theorem cells_link_self (q : Option ℕ) :
    (h.link a q).cells a = (h.cells a).map fun c => { c with next := q } :=
  Function.update_self ..

theorem cells_link_of_ne (q : Option ℕ) (hb : b ≠ a) : (h.link a q).cells b = h.cells b :=
  Function.update_of_ne hb ..

theorem lt_fresh {c : Cell α} (hc : h.cells a = some c) : a < h.fresh := by
  by_contra hge
  rw [h.unused a (by omega)] at hc
  cases hc

theorem setNext_eq {c : Cell α} (hc : h.cells a = some c) (q : Option ℕ) :
    h.setNext a q = some (h.link a q) := by
  rw [setNext, hc]
  rfl

theorem cells_eraseAll (h : Heap α) (as : List ℕ) :
    ∀ b, (h.eraseAll as).cells b = if b ∈ as then none else h.cells b := by
  induction as generalizing h with
  | nil => intro b; simp [eraseAll]
  | cons a as ih =>
      intro b
      have hrest := ih (h.erase a) b
      simp only [eraseAll, List.foldl_cons] at hrest ⊢
      rw [hrest]
      by_cases hb : b = a
      · subst hb
        simp [erase]
      · simp [erase, hb]

@[simp] theorem released_eraseAll (h : Heap α) (as : List ℕ) :
    (h.eraseAll as).released = h.released ++ as := by
  induction as generalizing h with
  | nil => simp [eraseAll]
  | cons a as ih =>
      have hrest := ih (h.erase a)
      simp only [eraseAll, List.foldl_cons] at hrest ⊢
      rw [hrest]
      simp [erase]

@[simp] theorem fresh_eraseAll (h : Heap α) (as : List ℕ) : (h.eraseAll as).fresh = h.fresh := by
  induction as generalizing h with
  | nil => rfl
  | cons a as ih => exact ih (h.erase a)

theorem fresh_of_setNext {h' : Heap α} {q : Option ℕ} (hnext : h.setNext a q = some h') :
    h'.fresh = h.fresh := by
  rw [setNext] at hnext
  split at hnext
  · exact Option.some.inj hnext ▸ fresh_link q
  · cases hnext

theorem fresh_of_release {h' : Heap α} {p : Option ℕ} (hrelease : h.release p = some h') :
    h'.fresh = h.fresh := by
  have hloop : ∀ fuel (g : Heap α) p, releaseLoop fuel g p = some h' → h'.fresh = g.fresh := by
    intro fuel
    induction fuel with
    | zero =>
        intro g p hg
        cases p with
        | none => exact Option.some.inj hg ▸ rfl
        | some a => cases hg
    | succ fuel ih =>
        intro g p hg
        cases p with
        | none => exact Option.some.inj hg ▸ rfl
        | some a =>
            rw [releaseLoop] at hg
            split at hg
            · cases hg
            · exact ih (g.erase a) _ hg
  exact hloop _ h p hrelease

theorem eraseAll_append (h : Heap α) (as bs : List ℕ) :
    h.eraseAll (as ++ bs) = (h.eraseAll as).eraseAll bs :=
  List.foldl_append ..

end Heap

/-! ## Lists -/

/-- From `p` on there are nodes at the addresses `as`, with the contents `l`. -/
inductive IsList (h : Heap α) : Option ℕ → List ℕ → List α → Prop
  | nil : IsList h none [] []
  | cons {a : ℕ} {c : Cell α} {as : List ℕ} {l : List α} (hc : h.cells a = some c)
      (hrest : IsList h c.next as l) : IsList h (some a) (a :: as) (c.content :: l)

namespace IsList

variable {h h' : Heap α} {p : Option ℕ} {as as' : List ℕ} {l l' : List α}

theorem length_eq (hp : IsList h p as l) : as.length = l.length := by
  induction hp with
  | nil => rfl
  | cons _ _ ih => simp [ih]

/-- A list depends on its own nodes only. -/
theorem congr (hp : IsList h p as l) (hcells : ∀ a ∈ as, h'.cells a = h.cells a) :
    IsList h' p as l := by
  induction hp with
  | nil => exact .nil
  | cons hc hrest ih =>
      refine .cons ((hcells _ List.mem_cons_self).trans hc) (ih fun a ha => ?_)
      exact hcells a (List.mem_cons_of_mem _ ha)

theorem lt_fresh (hp : IsList h p as l) : ∀ a ∈ as, a < h.fresh := by
  induction hp with
  | nil => exact nofun
  | cons hc _ ih => exact List.forall_mem_cons.mpr ⟨Heap.lt_fresh hc, ih⟩

/-- There is one list at `p`. -/
theorem unique (hp : IsList h p as l) (hp' : IsList h p as' l') : as = as' ∧ l = l' := by
  induction hp generalizing as' l' with
  | nil =>
      cases hp'
      exact ⟨rfl, rfl⟩
  | cons hc _ ih =>
      cases hp' with
      | cons hc' hrest' =>
          obtain rfl := Option.some.inj (hc.symm.trans hc')
          obtain ⟨rfl, rfl⟩ := ih hrest'
          exact ⟨rfl, rfl⟩

/-- From each of its nodes on there is a list that is not longer. -/
theorem exists_of_mem (hp : IsList h p as l) {a : ℕ} (ha : a ∈ as) :
    ∃ as' l', IsList h (some a) as' l' ∧ as'.length ≤ as.length := by
  induction hp with
  | nil => cases ha
  | cons hc hrest ih =>
      rcases List.mem_cons.mp ha with rfl | ha
      · exact ⟨_, _, .cons hc hrest, le_rfl⟩
      · obtain ⟨as', l', hlist, hle⟩ := ih ha
        exact ⟨as', l', hlist, hle.trans (Nat.le_succ _)⟩

theorem exists_cell (hp : IsList h p as l) {a : ℕ} (ha : a ∈ as) : ∃ c, h.cells a = some c := by
  obtain ⟨_, _, hlist, -⟩ := hp.exists_of_mem ha
  cases hlist with
  | cons hc _ => exact ⟨_, hc⟩

/-- No node is in a list twice. -/
theorem nodup (hp : IsList h p as l) : as.Nodup := by
  induction hp with
  | nil => exact List.nodup_nil
  | cons hc hrest ih =>
      refine List.nodup_cons.mpr ⟨fun ha => ?_, ih⟩
      -- else the list from there on would be shorter than itself
      obtain ⟨as', l', hlist, hle⟩ := hrest.exists_of_mem ha
      obtain ⟨rfl, -⟩ := hlist.unique (.cons hc hrest)
      rw [List.length_cons] at hle
      omega

theorem length_le_fresh (hp : IsList h p as l) : as.length ≤ h.fresh := by
  have hsub : as ⊆ List.range h.fresh := fun a ha => List.mem_range.mpr (hp.lt_fresh a ha)
  simpa using (List.subperm_of_subset hp.nodup hsub).length_le

theorem eq_nil_iff (hp : IsList h p as l) : p = none ↔ l = [] := by
  cases hp <;> simp

/-- The first node of a list. -/
theorem exists_of_cons {x : α} (hp : IsList h p as (x :: l)) : ∃ a next as', p = some a ∧
    as = a :: as' ∧ h.cells a = some ⟨x, next⟩ ∧ IsList h next as' l := by
  generalize hl : x :: l = l₀ at hp
  cases hp with
  | nil => cases hl
  | @cons a c as' l' hc hrest =>
      obtain ⟨rfl, rfl⟩ := List.cons.inj hl
      exact ⟨a, c.next, as', rfl, rfl, hc, hrest⟩

/-- A node is linked to the last one. -/
theorem concat (hp : IsList h p as l) {a b : ℕ} {x : α} (hb : as.getLast? = some b)
    (hother : ∀ a ∈ as, a ≠ b → h'.cells a = h.cells a)
    (hlast : h'.cells b = (h.cells b).map fun c => { c with next := some a })
    (hnew : h'.cells a = some ⟨x, none⟩) : IsList h' p (as ++ [a]) (l ++ [x]) := by
  have hnodup := hp.nodup
  induction hp with
  | nil => cases hb
  | @cons a' c as l hc hrest ih =>
      cases as with
      | nil =>
          obtain rfl : a' = b := by simpa using hb
          obtain ⟨y, next⟩ := c
          cases hrest
          rw [hc, Option.map_some] at hlast
          exact @IsList.cons _ h' a' ⟨y, some a⟩ _ _ hlast (.cons hnew .nil)
      | cons a'' as =>
          rw [List.getLast?_cons_cons] at hb
          have hmem := List.mem_of_getLast? hb
          have hne : a' ≠ b := fun heq => (List.nodup_cons.mp hnodup).1 (heq ▸ hmem)
          refine .cons ((hother a' List.mem_cons_self hne).trans hc) (ih hb ?_ ?_)
          · exact fun a ha => hother a (List.mem_cons_of_mem _ ha)
          · exact (List.nodup_cons.mp hnodup).2

/-- **A list is released**: each of its nodes, and nothing else. -/
theorem release_eq (hp : IsList h p as l) : h.release p = some (h.eraseAll as) := by
  have hloop : ∀ fuel, as.length ≤ fuel → Heap.releaseLoop fuel h p = some (h.eraseAll as) := by
    induction as generalizing h p l with
    | nil =>
        intro fuel _
        cases hp
        cases fuel <;> rfl
    | cons a as ih =>
        intro fuel hfuel
        cases hp with
        | @cons _ c _ l hc hrest =>
            have hnodup := (IsList.cons hc hrest).nodup
            cases fuel with
            | zero => simp at hfuel
            | succ fuel =>
                simp only [Heap.releaseLoop, hc]
                refine ih (hrest.congr fun b hb => ?_) fuel (by simpa using hfuel)
                have hne : b ≠ a := fun heq => (List.nodup_cons.mp hnodup).1 (heq ▸ hb)
                exact Function.update_of_ne hne ..
  exact hloop _ hp.length_le_fresh

end IsList

/-! ## Reading lists -/

namespace Heap

/-- `for (a = p ; a ; a = a->next)`, of at most `fuel` nodes: what is done with each of them. -/
def forEachLoop {ε β : Type} (fault : ε) (body : β → α → Except ε β) :
    (fuel : ℕ) → Heap α → β → Option ℕ → Except ε β
  | _, _, b, none => .ok b
  | 0, _, _, some _ => .error fault
  | fuel + 1, h, b, some a =>
      match h.cells a with
      | none => .error fault
      | some c =>
          match body b c.content with
          | .error e => .error e
          | .ok b => forEachLoop fault body fuel h b c.next

/-- The nodes from `p` on, one after the other. -/
def forEach {ε β : Type} (fault : ε) (body : β → α → Except ε β) (h : Heap α) (b : β)
    (p : Option ℕ) : Except ε β :=
  forEachLoop fault body h.fresh h b p

/-- `while (a && idx) { a = a->next; --idx; }` -/
def advance (h : Heap α) : (idx : ℕ) → Option ℕ → Option (Option ℕ)
  | 0, p => some p
  | _ + 1, none => some none
  | idx + 1, some a =>
      match h.cells a with
      | none => none
      | some c => h.advance idx c.next

end Heap

namespace IsList

variable {h : Heap α} {p : Option ℕ} {as : List ℕ} {l : List α}

/-- **A list is read**: each of its nodes, in the order of the list. -/
theorem forEach_eq {ε β : Type} {fault : ε} {body : β → α → Except ε β} (hp : IsList h p as l)
    (b : β) : h.forEach fault body b p = l.foldlM body b := by
  have hloop : ∀ fuel, as.length ≤ fuel →
      Heap.forEachLoop fault body fuel h b p = l.foldlM body b := by
    induction hp generalizing b with
    | nil =>
        intro fuel _
        cases fuel <;> rfl
    | @cons a c as l hc _ ih =>
        intro fuel hfuel
        cases fuel with
        | zero => simp at hfuel
        | succ fuel =>
            simp only [Heap.forEachLoop, hc, List.foldlM_cons]
            cases body b c.content with
            | error e => rfl
            | ok b' => exact ih b' fuel (by simpa using hfuel)
  exact hloop _ hp.length_le_fresh

/-- The list from a node on that is counted down to. -/
theorem exists_advance (hp : IsList h p as l) (idx : ℕ) :
    ∃ q bs, h.advance idx p = some q ∧ IsList h q bs (l.drop idx) := by
  induction hp generalizing idx with
  | nil =>
      refine ⟨none, [], ?_, ?_⟩
      · cases idx <;> rfl
      · rw [List.drop_nil]
        exact .nil
  | @cons a c as l hc hrest ih =>
      cases idx with
      | zero => exact ⟨_, _, rfl, .cons hc hrest⟩
      | succ idx =>
          obtain ⟨q, bs, hadvance, hlist⟩ := ih idx
          exact ⟨q, bs, by simp only [Heap.advance, hc, hadvance], hlist⟩

end IsList

/-! ## Owners -/

/-- The owners hold lists of their own, of the nodes `bs`. -/
inductive Owned (h : Heap α) : List (Option ℕ) → List ℕ → Prop
  | nil : Owned h [] []
  | cons {p : Option ℕ} {as bs : List ℕ} {l : List α} {ps : List (Option ℕ)}
      (hp : IsList h p as l) (hps : Owned h ps bs) : Owned h (p :: ps) (as ++ bs)

/-- Owners are destroyed, and release what they hold. -/
def destroyAll (h : Heap α) (owners : List (Option ℕ)) : Option (Heap α) :=
  owners.foldlM Heap.release h

namespace Owned

variable {h h' : Heap α} {ps ps' : List (Option ℕ)} {bs bs' : List ℕ}

theorem congr (hps : Owned h ps bs) (hcells : ∀ b ∈ bs, h'.cells b = h.cells b) :
    Owned h' ps bs := by
  induction hps with
  | nil => exact .nil
  | cons hp _ ih =>
      refine .cons (hp.congr fun a ha => ?_) (ih fun b hb => ?_)
      · exact hcells a (List.mem_append_left _ ha)
      · exact hcells b (List.mem_append_right _ hb)

theorem append (hps : Owned h ps bs) (hps' : Owned h ps' bs') :
    Owned h (ps ++ ps') (bs ++ bs') := by
  induction hps with
  | nil => exact hps'
  | cons hp _ ih =>
      rw [List.append_assoc]
      exact .cons hp ih

/-- What one of the owners holds. -/
theorem exists_of_mem (hps : Owned h ps bs) {p : Option ℕ} (hp : p ∈ ps) :
    ∃ as l, IsList h p as l ∧ as ⊆ bs := by
  induction hps with
  | nil => cases hp
  | @cons q as bs l ps hq _ ih =>
      rcases List.mem_cons.mp hp with rfl | hp
      · exact ⟨as, l, hq, List.subset_append_left ..⟩
      · obtain ⟨as', l', hlist, hsub⟩ := ih hp
        exact ⟨as', l', hlist, fun a ha => List.mem_append_right _ (hsub ha)⟩

/-- The order of the owners does not matter. -/
theorem perm (hps : Owned h ps bs) (hperm : ps.Perm ps') :
    ∃ bs', Owned h ps' bs' ∧ bs.Perm bs' := by
  induction hperm generalizing bs with
  | nil => exact ⟨bs, hps, .refl _⟩
  | cons p _ ih =>
      cases hps with
      | cons hp hrest =>
          obtain ⟨bs', hbs', hperm'⟩ := ih hrest
          exact ⟨_, .cons hp hbs', hperm'.append_left _⟩
  | swap p q ps =>
      cases hps with
      | @cons _ as _ _ _ hq hrest =>
          cases hrest with
          | @cons _ as' bs _ _ hp hrest =>
              refine ⟨_, .cons hp (.cons hq hrest), ?_⟩
              rw [← List.append_assoc, ← List.append_assoc]
              exact List.perm_append_comm.append_right _
  | trans _ _ ih₁ ih₂ =>
      obtain ⟨bs₁, hbs₁, hperm₁⟩ := ih₁ hps
      obtain ⟨bs₂, hbs₂, hperm₂⟩ := ih₂ hbs₁
      exact ⟨bs₂, hbs₂, hperm₁.trans hperm₂⟩

/-- **Owners are destroyed**: each node is released. -/
theorem destroyAll_eq (hps : Owned h ps bs) (hnodup : bs.Nodup) :
    destroyAll h ps = some (h.eraseAll bs) := by
  induction ps generalizing h bs with
  | nil =>
      cases hps
      rfl
  | cons p ps ih =>
      cases hps with
      | @cons _ as bs l _ hp hrest =>
          obtain ⟨-, hbs, hdisjoint⟩ := List.nodup_append.mp hnodup
          have hrest' : Owned (h.eraseAll as) ps bs := by
            refine hrest.congr fun b hb => ?_
            rw [Heap.cells_eraseAll, if_neg fun ha => hdisjoint b ha b hb rfl]
          rw [Heap.eraseAll_append, ← ih hrest' hbs]
          simp only [destroyAll, List.foldlM_cons, hp.release_eq]
          rfl

/-- Owners are destroyed in any order: each node is released once. -/
theorem exists_destroyAll (hps : Owned h ps bs) (hnodup : bs.Nodup) (hperm : ps.Perm ps') :
    ∃ h', destroyAll h ps' = some h' ∧ ∃ freed, h'.released = h.released ++ freed ∧
      freed.Perm bs := by
  obtain ⟨bs', hps', hbs'⟩ := hps.perm hperm
  refine ⟨_, hps'.destroyAll_eq (hbs'.nodup_iff.mp hnodup), bs', ?_, hbs'.symm⟩
  rw [Heap.released_eraseAll]

end Owned

/-! ## Lists in the making -/

/-- Since `h₀`, the nodes of the list `l` were made, and nothing else: `result` is the first one and
`last` the last one, if any. -/
structure Built (h₀ h : Heap α) (result last : Option ℕ) (l : List α) : Prop where
  list : IsList h result (List.range' h₀.fresh l.length) l
  last_eq : last = (List.range' h₀.fresh l.length).getLast?
  fresh_eq : h.fresh = h₀.fresh + l.length
  released_eq : h.released = h₀.released
  frame : ∀ a < h₀.fresh, h.cells a = h₀.cells a

/-- Of the nodes that were made since `h₀`, those at the addresses `kept` are left.  The others were
released, each once, and what was there before is untouched. -/
structure Settled (h₀ h : Heap α) (kept : List ℕ) : Prop where
  frame : ∀ a < h₀.fresh, h.cells a = h₀.cells a
  accounts : ∃ freed, h.released = h₀.released ++ freed ∧
    (kept ++ freed).Perm (List.range' h₀.fresh (h.fresh - h₀.fresh))

namespace Built

variable {h₀ h : Heap α} {result last : Option ℕ} {l : List α}

theorem refl (h : Heap α) : Built h h none none [] :=
  ⟨.nil, rfl, rfl, rfl, fun _ _ => rfl⟩

/-- The first node is made. -/
theorem first (hb : Built h₀ h result last []) (x : α) :
    Built h₀ (h.alloc x).2 (some h.fresh) (some h.fresh) [x] := by
  have hfresh : h.fresh = h₀.fresh := hb.fresh_eq
  refine ⟨?_, ?_, ?_, hb.released_eq, fun a ha => ?_⟩
  · rw [hfresh]
    exact .cons (c := ⟨x, none⟩) (hfresh ▸ Heap.cells_alloc_self x) .nil
  · rw [hfresh]
    rfl
  · rw [Heap.fresh_alloc, hfresh]
    rfl
  · rw [Heap.cells_alloc_of_ne x (by omega)]
    exact hb.frame a ha

/-- Another node is made, and linked to the last one. -/
theorem concat (hb : Built h₀ h result last l) (hne : l ≠ []) (x : α) :
    ∃ b, last = some b ∧ (h.alloc x).2.setNext b (some h.fresh) =
        some ((h.alloc x).2.link b (some h.fresh)) ∧
      Built h₀ ((h.alloc x).2.link b (some h.fresh)) result (some h.fresh) (l ++ [x]) := by
  obtain ⟨n, hn⟩ : ∃ n, l.length = n + 1 := Nat.exists_eq_succ_of_ne_zero (by simpa using hne)
  have hfresh := hb.fresh_eq
  have hrange : List.range' h₀.fresh (l ++ [x]).length =
      List.range' h₀.fresh l.length ++ [h.fresh] := by
    rw [List.length_append, List.length_singleton, List.range'_1_concat, hfresh]
  have hlast : (List.range' h₀.fresh l.length).getLast? = some (h₀.fresh + n) := by
    rw [hn, List.range'_1_concat, List.getLast?_concat]
  have hne' : h₀.fresh + n ≠ h.fresh := by omega
  obtain ⟨c, hc⟩ := hb.list.exists_cell (List.mem_of_getLast? hlast)
  have hc' : (h.alloc x).2.cells (h₀.fresh + n) = some c :=
    (Heap.cells_alloc_of_ne x hne').trans hc
  refine ⟨h₀.fresh + n, hb.last_eq.trans hlast, Heap.setNext_eq hc' _, ?_, ?_, ?_, ?_, ?_⟩
  · rw [hrange]
    refine hb.list.concat hlast (fun a ha hab => ?_) ?_ ?_
    · have hlt : a ≠ h.fresh := (hb.list.lt_fresh a ha).ne
      rw [Heap.cells_link_of_ne _ hab, Heap.cells_alloc_of_ne x hlt]
    · rw [Heap.cells_link_self, hc', hc]
    · rw [Heap.cells_link_of_ne _ hne'.symm, Heap.cells_alloc_self]
  · rw [hrange, List.getLast?_concat]
  · rw [Heap.fresh_link, Heap.fresh_alloc, hfresh, List.length_append, List.length_singleton]
    rfl
  · exact hb.released_eq
  · intro a ha
    rw [Heap.cells_link_of_ne _ (by omega), Heap.cells_alloc_of_ne x (by omega)]
    exact hb.frame a ha

/-- The list is kept. -/
theorem settled (hb : Built h₀ h result last l) :
    Settled h₀ h (List.range' h₀.fresh l.length) := by
  refine ⟨hb.frame, [], by rw [hb.released_eq, List.append_nil], ?_⟩
  rw [List.append_nil, hb.fresh_eq, Nat.add_sub_cancel_left]

/-- The list is released. -/
theorem settled_release (hb : Built h₀ h result last l) :
    ∃ h', h.release result = some h' ∧ Settled h₀ h' [] := by
  refine ⟨_, hb.list.release_eq, fun a ha => ?_, List.range' h₀.fresh l.length, ?_, ?_⟩
  · rw [Heap.cells_eraseAll, if_neg (fun hmem => by simp at hmem; omega)]
    exact hb.frame a ha
  · rw [Heap.released_eraseAll, hb.released_eq]
  · rw [List.nil_append, Heap.fresh_eraseAll, hb.fresh_eq, Nat.add_sub_cancel_left]

end Built

end LinkedList
