import Mathlib.Data.List.Forall2
import Mathlib.Data.UInt
import Mathlib.Tactic.Common

/-!
# Walks along a linked list

The loops that are written for a linked list: one that counts the elements in a word, one that
appends something to a vector for each of them, one that looks for a pointer, and three that look
for the element with a given number, which is counted down.

A counter wraps around; an index does not, as the walk ends before.  Each loop has an equation that
says what it does in terms of lists, and from the equations follows that the accessors that are
made of these loops agree: `agree_find`, `agree_findIf`, `agree_advance`.

## Main definitions

* `count`, `collect`, `verify` — the loops that count, append, and look for a pointer.
* `find`, `findIf`, `advance` — the three that look for an element: they count down in the header
  of the loop, after the test in a filter, and before the test of an element.
* `Agree` — what the accessors of a list have to do with each other.
-/

namespace Walk

variable {α β : Type*}

/-! ## Counting -/

/-- `for ( ; a ; a = a->next) if (p(a)) ++count;` -/
def count (p : α → Bool) : List α → UInt32 → UInt32
  | [], n => n
  | a :: l, n => count p l (if p a then n + 1 else n)

/-- The counter wraps around. -/
theorem toNat_count (p : α → Bool) (l : List α) :
    ∀ n, (count p l n).toNat = (n.toNat + l.countP p) % 2 ^ 32 := by
  induction l with
  | nil =>
      intro n
      rw [count, List.countP_nil, Nat.add_zero, Nat.mod_eq_of_lt n.toNat_lt]
  | cons a l ih =>
      intro n
      rw [count, ih, List.countP_cons]
      split
      · have hone : (1 : UInt32).toNat = 1 := rfl
        rw [UInt32.toNat_add, hone]
        omega
      · omega

/-! ## The element with a number -/

/-- `for ( ; a ; a = a->next, --idx) if (idx == 0) return a;` -/
def find : List α → UInt32 → Option α
  | [], _ => none
  | a :: l, idx => if idx = 0 then some a else find l (idx - 1)

/-- `for ( ; a ; a = a->next) if (p(a) && idx-- == 0) return a;` -/
def findIf (p : α → Bool) : List α → UInt32 → Option α
  | [], _ => none
  | a :: l, idx =>
      if p a then if idx = 0 then some a else findIf p l (idx - 1) else findIf p l idx

/-- `while (a && idx) { a = a->next; --idx; }` -/
def advance : List α → UInt32 → List α
  | [], _ => []
  | a :: l, idx => if idx = 0 then a :: l else advance l (idx - 1)

/-- The index, counted down once. -/
theorem toNat_pred {idx : UInt32} (h : idx ≠ 0) : idx.toNat = (idx - 1).toNat + 1 := by
  have hone : (1 : UInt32).toNat = 1 := rfl
  have hpos : idx.toNat ≠ 0 := fun h0 => h (UInt32.toNat.inj h0)
  have hle : (1 : UInt32) ≤ idx := by
    rw [UInt32.le_iff_toNat_le, hone]
    omega
  rw [UInt32.toNat_sub_of_le _ _ hle, hone]
  omega

theorem find_eq (l : List α) : ∀ idx, find l idx = l[idx.toNat]? := by
  induction l with
  | nil => intro idx; rfl
  | cons a l ih =>
      intro idx
      by_cases h : idx = 0
      · subst h
        rfl
      · rw [find, if_neg h, ih, toNat_pred h, List.getElem?_cons_succ]

theorem findIf_eq (p : α → Bool) (l : List α) :
    ∀ idx, findIf p l idx = (l.filter p)[idx.toNat]? := by
  induction l with
  | nil => intro idx; rfl
  | cons a l ih =>
      intro idx
      cases hp : p a with
      | false =>
          rw [findIf, hp, List.filter_cons_of_neg (by simp [hp])]
          exact ih idx
      | true =>
          rw [findIf, hp, List.filter_cons_of_pos hp, if_pos rfl]
          by_cases h : idx = 0
          · subst h
            rfl
          · rw [if_neg h, ih, toNat_pred h, List.getElem?_cons_succ]

theorem advance_eq (l : List α) : ∀ idx, advance l idx = l.drop idx.toNat := by
  induction l with
  | nil => intro idx; exact List.drop_nil.symm
  | cons a l ih =>
      intro idx
      by_cases h : idx = 0
      · subst h
        rfl
      · rw [advance, if_neg h, ih, toNat_pred h, List.drop_succ_cons]

/-- `for ( ; a ; a = a->next) if (a == p) return p;` -/
def verify [DecidableEq α] : List α → Option α → Option α
  | [], _ => none
  | a :: l, p => if p = some a then p else verify l p

theorem verify_of_mem [DecidableEq α] {l : List α} {a : α} (h : a ∈ l) :
    verify l (some a) = some a := by
  induction l with
  | nil => cases h
  | cons b l ih =>
      rw [verify]
      split_ifs with hab
      · rfl
      · exact ih ((List.mem_cons.mp h).resolve_left fun heq => hab (by rw [heq]))

/-- The pointer itself is returned, or a null pointer. -/
theorem verify_cases [DecidableEq α] (l : List α) (p : Option α) :
    verify l p = p ∨ verify l p = none := by
  induction l with
  | nil => exact .inr rfl
  | cons b l ih =>
      rw [verify]
      split_ifs
      · exact .inl rfl
      · exact ih

/-! ## Appending -/

/-- `for ( ; a ; a = a->next) if (p(a)) v.push_back(make(a));` -/
def collect (p : α → Bool) (make : α → β) (l : List α) : List β :=
  l.foldl (fun v a => if p a then v ++ [make a] else v) []

/-- A loop that appends what `f` says to a vector. -/
theorem foldl_of_append {push : List β → α → List β} {f : α → Option β}
    (h : ∀ v a, push v a = v ++ (f a).toList) (l : List α) :
    ∀ v, l.foldl push v = v ++ l.filterMap f := by
  induction l with
  | nil => intro v; simp
  | cons a l ih =>
      intro v
      rw [List.foldl_cons, ih, h, List.append_assoc]
      cases hf : f a with
      | none => simp [hf]
      | some b => simp [hf]

theorem collect_eq (p : α → Bool) (make : α → β) (l : List α) :
    collect p make l = (l.filter p).map make := by
  have hpush : ∀ (v : List β) a, (if p a then v ++ [make a] else v) =
      v ++ (Option.guard p a |>.map make).toList := by
    intro v a
    cases hp : p a <;> simp [Option.guard, hp]
  rw [collect, foldl_of_append hpush, List.nil_append, ← List.map_filterMap,
    List.filterMap_eq_filter]

/-- The elements that satisfy `p` are matched, one by one, exactly if none of them is missed. -/
theorem forall₂_filterMap_iff {R : α → β → Prop} {p : α → Bool} {f : α → Option β} {l : List α}
    (h : ∀ a b, f a = some b → p a = true ∧ R a b) :
    List.Forall₂ R (l.filter p) (l.filterMap f) ↔ ∀ a ∈ l, p a = true → f a ≠ none := by
  constructor
  · intro hmatch a ha hp hnone
    have hlength := hmatch.length_eq
    -- nothing is appended for other elements, so they make no difference
    have hfilter : l.filterMap f = (l.filter p).filterMap f := by
      rw [List.filterMap_filter]
      refine List.filterMap_congr fun b _ => ?_
      cases hf : f b with
      | none => simp
      | some c => simp [(h b c hf).1]
    rw [hfilter, List.length_filterMap_eq_countP, eq_comm, List.countP_eq_length] at hlength
    have hsome := hlength a (List.mem_filter.mpr ⟨ha, hp⟩)
    rw [hnone] at hsome
    exact Bool.false_ne_true hsome
  · intro hall
    induction l with
    | nil => exact .nil
    | cons a l ih =>
        have hrest := ih fun a' ha' => hall a' (List.mem_cons_of_mem _ ha')
        cases hf : f a with
        | none =>
            have hp : p a = false := by
              by_contra hp
              exact hall a List.mem_cons_self (by simpa using hp) hf
            rw [List.filter_cons_of_neg (by simp [hp]), List.filterMap_cons_none hf]
            exact hrest
        | some b =>
            obtain ⟨hp, hR⟩ := h a b hf
            rw [List.filter_cons_of_pos hp, List.filterMap_cons_some hf]
            exact .cons hR hrest

/-! ## Accessors -/

/-- The accessor with an index returns the element of the vector, or an object that is null if
there is none. -/
structure Indexed (isNull : β → Prop) (vector : List β) (index : UInt32 → β) : Prop where
  index_eq : ∀ i b, vector[i.toNat]? = some b → index i = b
  index_null : ∀ i, vector.length ≤ i.toNat → isNull (index i)

/-- What the accessors of a list have to do with each other; the one that counts returns the length
of the vector, as far as it fits. -/
structure Agree (isNull : β → Prop) (num : UInt32) (vector : List β) (index : UInt32 → β) : Prop
    extends Indexed isNull vector index where
  num_eq : num.toNat = vector.length % 2 ^ 32

section Agree
variable {isNull : β → Prop} {p : α → Bool} {l : List α} {elem : α → β} {index : UInt32 → β}

/-- The accessors agree if the one with an index looks up the elements that the others walk to. -/
theorem agree_of_getElem? (make : Option α → β) (hnull : isNull (make none))
    (helem : ∀ a ∈ l, p a = true → elem a = make (some a))
    (hindex : ∀ i, index i = make (l.filter p)[i.toNat]?) :
    Agree isNull (count p l 0) (collect p elem l) index := by
  have hcollect : collect p elem l = (l.filter p).map fun a => make (some a) := by
    rw [collect_eq]
    refine List.map_congr_left fun a ha => ?_
    obtain ⟨hmem, hp⟩ := List.mem_filter.mp ha
    exact helem a hmem hp
  refine ⟨⟨fun i b hb => ?_, fun i hi => ?_⟩, ?_⟩
  · rw [hcollect, List.getElem?_map, Option.map_eq_some_iff] at hb
    obtain ⟨a, ha, rfl⟩ := hb
    rw [hindex, ha]
  · rw [hcollect, List.length_map] at hi
    rw [hindex, List.getElem?_eq_none hi]
    exact hnull
  · have hzero : (0 : UInt32).toNat = 0 := rfl
    rw [toNat_count, hcollect, List.length_map, List.countP_eq_length_filter, hzero, Nat.zero_add]

theorem agree_find (make : Option α → β) (hnull : isNull (make none))
    (helem : ∀ a ∈ l, elem a = make (some a)) :
    Agree isNull (count (fun _ => true) l 0) (collect (fun _ => true) elem l)
      fun i => make (find l i) :=
  agree_of_getElem? make hnull (fun a ha _ => helem a ha) fun i => by
    rw [find_eq, List.filter_true]

theorem agree_findIf (make : Option α → β) (hnull : isNull (make none))
    (helem : ∀ a ∈ l, p a = true → elem a = make (some a)) :
    Agree isNull (count p l 0) (collect p elem l) fun i => make (findIf p l i) :=
  agree_of_getElem? make hnull helem fun i => by rw [findIf_eq]

theorem agree_advance (make : Option α → β) (hnull : isNull (make none))
    (helem : ∀ a ∈ l, elem a = make (some a)) :
    Agree isNull (count (fun _ => true) l 0) (collect (fun _ => true) elem l)
      fun i => make (advance l i).head? :=
  agree_of_getElem? make hnull (fun a ha _ => helem a ha) fun i => by
    rw [advance_eq, List.head?_drop, List.filter_true]

/-- The accessors that do nothing. -/
theorem agree_nil {b : β} (hnull : isNull b) : Agree isNull 0 [] fun _ => b :=
  ⟨⟨nofun, fun _ _ => hnull⟩, rfl⟩

end Agree

end Walk
