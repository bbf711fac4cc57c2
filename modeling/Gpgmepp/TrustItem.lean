import Gpgmepp.Lib.Ensures
import Gpgmepp.Lib.Run
import Gpgmepp.Lib.Shared

/-!
# Trust items

gpgme hands over trust items, each with one reference, which the receiver owns.  A `TrustItem`
takes a reference of its own when it is made of an item or of another `TrustItem`, and drops it
when it is destroyed.  Items are received in two places.  The event loop drops the reference that
it received after the event was handled; `Context::nextTrustItem` keeps it for ever.

So no item is released while a `TrustItem` refers to it, or twice, but those that come from
`nextTrustItem` are never released: `referenceLaw`.

## Main definitions

* `ref`, `unref` — the reference counts of gpgme.
* `TrustItem`, `World` — objects, items, and the events that are being handled.
* `Op`, `step` — what a program does with trust items.
* `Counted` — what the reference count of an item should be.
-/

namespace Gpgmepp

open Shared StateMachine

/-- `TrustItem`: the item that its `Private` points to, if any. -/
structure TrustItem where
  item : Option ℕ
  deriving DecidableEq

namespace TrustItem

instance : Owner TrustItem where
  ptr v := v.item
  withPtr _ p := ⟨p⟩
  ptr_withPtr _ _ := rfl

/-- What a program must not do: use an item that was released, or name an object that there is
not. -/
inductive Fault | released | noObject
  deriving DecidableEq

/-- The objects that there are, and for each item its reference count, which is zero when the item
was released. -/
abbrev Items := Store TrustItem ℕ

/-- `gpgme_trust_item_ref`. -/
def ref (s : Items) (r : ℕ) : Except Fault Items :=
  if s.record r = 0 then .error .released else .ok (s.write r (s.record r + 1))

/-- `gpgme_trust_item_unref`. -/
def unref (s : Items) (r : ℕ) : Except Fault Items :=
  if s.record r = 0 then .error .released else .ok (s.write r (s.record r - 1))

/-- `TrustItem(item)`; with the item of another one, it is the copy constructor. -/
def construct (s : Items) (item : Option ℕ) : Except Fault Items :=
  match item with
  | none => .ok (s.push ⟨none⟩)
  | some r => (ref s r).map fun s => s.push ⟨some r⟩

/-- What the copy constructor does to the item of the other object. -/
def refItem (s : Items) (v : TrustItem) : Except Fault Items :=
  match v.item with
  | none => .ok s
  | some r => ref s r

/-- What `~TrustItem` does to the item of the object. -/
def dropItem (s : Items) (v : TrustItem) : Except Fault Items :=
  match v.item with
  | none => .ok s
  | some r => unref s r

/-- The items of a program and the events that it is handling, the last one first.  Each of them
has a `TrustItem` that lives until the event is handled. -/
structure World where
  items : Items
  handling : List ℕ

/-- Where an item is received. -/
inductive Path | nextTrustItem | event
  deriving DecidableEq

/-- What a program does with trust items. -/
inductive Op
  /-- `Context::nextTrustItem`, when gpgme has an item or none. -/
  | next (found : Bool)
  /-- `GPGME_EVENT_NEXT_TRUSTITEM`: `nextTrustItemEvent` is called, and returns. -/
  | eventBegin
  | eventEnd
  /-- `TrustItem()`. -/
  | new
  /-- The `TrustItem` of an event is copied, of the last event or of one before it. -/
  | keep (i : ℕ)
  | copy (x : ℕ)
  | assign (x y : ℕ)
  | swap (x y : ℕ)
  | destroy (x : ℕ)

/-- The item that is delivered in a step, if any. -/
inductive Output
  | done
  | delivered (path : Path) (r : ℕ)
  deriving DecidableEq

/-- The object at a place. -/
def object (s : Items) (x : ℕ) : Except Fault TrustItem :=
  match s.get x with
  | some v => .ok v
  | none => .error .noObject

/-- One step. -/
def step (w : World) : Op → Except Fault (Output × World)
  | .next false => do
      let s ← construct w.items none
      return (.done, { w with items := s })
  | .next true => do
      let r := w.items.next
      let s ← construct (w.items.new 1) (some r)
      return (.delivered .nextTrustItem r, { w with items := s })
  | .eventBegin => do
      let r := w.items.next
      let s ← ref (w.items.new 1) r
      return (.delivered .event r, ⟨s, r :: w.handling⟩)
  | .eventEnd =>
      match w.handling with
      | [] => .error .noObject
      | r :: handling => do
          -- the `TrustItem` of the event, and then the reference that was handed over
          let s ← unref w.items r
          let s ← unref s r
          return (.done, ⟨s, handling⟩)
  | .new => do
      let s ← construct w.items none
      return (.done, { w with items := s })
  | .keep i =>
      match w.handling[i]? with
      | none => .error .noObject
      | some r => do
          let s ← construct w.items (some r)
          return (.done, { w with items := s })
  | .copy x => do
      let v ← object w.items x
      let s ← construct w.items v.item
      return (.done, { w with items := s })
  | .assign x y => do
      let v ← object w.items x
      let u ← object w.items y
      -- `other` is a copy of `u`, and holds `v` when it is destroyed
      let s ← refItem w.items u
      let s ← dropItem (s.put x u) v
      return (.done, { w with items := s })
  | .swap x y => do
      let v ← object w.items x
      let u ← object w.items y
      return (.done, { w with items := (w.items.put x u).put y v })
  | .destroy x => do
      let v ← object w.items x
      let s ← dropItem w.items v
      return (.done, { w with items := s.destroy x })

/-- Nothing was received yet. -/
def start : World := ⟨⟨[], fun _ => 0, 0⟩, []⟩

/-- Some `TrustItem` refers to the item. -/
def World.Refers (w : World) (r : ℕ) : Prop := 0 < w.items.useCount r ∨ r ∈ w.handling

/-- What the reference count of an item should be: at least one while a `TrustItem` refers to it,
and zero when none does any more. -/
def World.Counted (w : World) (r : ℕ) : Prop :=
  (w.Refers r → 1 ≤ w.items.record r) ∧ (¬ w.Refers r → w.items.record r = 0)

/-- A completed step. -/
abbrev Stepped := Transition World Op Output

/-- How often an item was received in one of the two places. -/
def deliveries (path : Path) (ts : List Stepped) (r : ℕ) : ℕ :=
  ts.countP fun t => t.output = .delivered path r

/-! ## The counts -/

/-- The references of each item that there is, but for those that are not owned by objects. -/
structure Balanced (s : Items) (other : ℕ → ℕ) : Prop where
  bounded : s.Bounded
  count : ∀ r < s.next, s.record r = s.useCount r + other r

section Balance
variable {s : Items} {other : ℕ → ℕ} {r : ℕ}

theorem record_write (s : Items) (q : ℕ) (c : ℕ) (r : ℕ) :
    (s.write q c).record r = if r = q then c else s.record r := by
  simp only [Store.write, Function.update_apply]

/-- A reference is added, by whoever owns it now. -/
theorem ensures_ref (h : Balanced s other) (hr : r < s.next) (hpos : 0 < s.useCount r + other r) :
    Ensures (fun _ => False) (ref s r) fun s' =>
      s' = s.write r (s.record r + 1) ∧
        Balanced s' fun q => other q + if q = r then 1 else 0 := by
  have hcount := h.count r hr
  rw [ref, if_neg (by omega)]
  refine ⟨rfl, h.bounded, fun q hq => ?_⟩
  have hq' := h.count q hq
  rw [record_write, Store.useCount_write]
  split_ifs with heq
  · subst heq
    omega
  · omega

/-- A reference is dropped by its owner. -/
theorem ensures_unref {other' : ℕ → ℕ} (h : Balanced s other) (hr : r < s.next)
    (hother : ∀ q, other q = other' q + if q = r then 1 else 0) :
    Ensures (fun _ => False) (unref s r) fun s' =>
      s'.objects = s.objects ∧ s'.next = s.next ∧ Balanced s' other' := by
  have hcount := h.count r hr
  have hown := hother r
  rw [if_pos rfl] at hown
  rw [unref, if_neg (by omega)]
  refine ⟨rfl, rfl, h.bounded, fun q hq => ?_⟩
  have hq' := h.count q hq
  have hqo := hother q
  rw [record_write, Store.useCount_write]
  split_ifs at hqo ⊢ with heq
  · subst heq
    omega
  · omega

theorem owns_some (q : ℕ) (r : ℕ) : Store.owns q (⟨some r⟩ : TrustItem) = if q = r then 1 else 0 := by
  simp only [Store.owns, Owner.ptr, Option.some.injEq, eq_comm]

theorem owns_none (q : ℕ) : Store.owns q (⟨none⟩ : TrustItem) = 0 := by
  simp [Store.owns, Owner.ptr]

/-- The references that are owned by a new object are handed to it. -/
theorem Balanced.push {v : TrustItem} (h : Balanced s fun q => other q + Store.owns q v)
    (hv : ∀ r, v.item = some r → r < s.next) : Balanced (s.push v) other := by
  refine ⟨Store.bounded_push h.bounded hv, fun q hq => ?_⟩
  have hcount := h.count q hq
  rw [Store.useCount_push]
  exact hcount.trans (by omega)

/-- A `TrustItem` is made of an item that has a reference already. -/
theorem ensures_construct (h : Balanced s other) {item : Option ℕ}
    (hitem : ∀ r, item = some r → r < s.next ∧ 0 < s.useCount r + other r) :
    Ensures (fun _ => False) (construct s item) fun s' => s'.next = s.next ∧ Balanced s' other := by
  cases item with
  | none => exact ⟨rfl, Balanced.push (by simpa [owns_none] using h) nofun⟩
  | some r =>
      obtain ⟨hr, hpos⟩ := hitem r rfl
      have href := ensures_ref h hr hpos
      simp only [construct]
      cases hs : ref s r with
      | error f =>
          rw [hs] at href
          exact href.elim
      | ok s' =>
          rw [hs, Ensures.ok_iff] at href
          obtain ⟨rfl, hbal⟩ := href
          refine ⟨rfl, Balanced.push ?_ ?_⟩
          · simpa only [owns_some] using hbal
          · rintro q ⟨⟩
            exact hr

/-- A new item, with one reference. -/
theorem Balanced.new (h : Balanced s other) (hfresh : other s.next = 0) :
    Balanced (s.new 1) fun q => other q + if q = s.next then 1 else 0 := by
  refine ⟨Store.bounded_new h.bounded 1, fun q hq => ?_⟩
  have hnew : (s.new 1).record q = if q = s.next then 1 else s.record q := by
    simp only [Store.new, Function.update_apply]
  rw [hnew, Store.useCount_new]
  split_ifs with heq
  · subst heq
    have hunused : ¬ 0 < s.useCount s.next := fun hpos =>
      Nat.lt_irrefl _ (Store.lt_of_useCount_pos h.bounded hpos)
    omega
  · have hlt : q < s.next := by
      simp only [Store.new] at hq
      omega
    have := h.count q hlt
    omega

/-- An object takes a reference to the item of another one. -/
theorem ensures_refItem {v : TrustItem} (h : Balanced s other)
    (hv : ∀ r, v.item = some r → r < s.next ∧ 0 < s.useCount r) :
    Ensures (fun _ => False) (refItem s v) fun s' => s'.objects = s.objects ∧ s'.next = s.next ∧
      Balanced s' fun q => other q + Store.owns q v := by
  obtain ⟨item⟩ := v
  cases item with
  | none => exact ⟨rfl, rfl, by simpa [owns_none] using h⟩
  | some r =>
      obtain ⟨hlt, huse⟩ := hv r rfl
      refine (ensures_ref h hlt (by omega)).mono ?_
      rintro s' ⟨rfl, hbal⟩
      exact ⟨rfl, rfl, by simpa only [owns_some] using hbal⟩

/-- An object gives up its reference. -/
theorem ensures_dropItem {v : TrustItem} (h : Balanced s fun q => other q + Store.owns q v)
    (hv : ∀ r, v.item = some r → r < s.next) :
    Ensures (fun _ => False) (dropItem s v) fun s' => s'.next = s.next ∧ Balanced s' other := by
  obtain ⟨item⟩ := v
  cases item with
  | none => exact ⟨rfl, by simpa [owns_none] using h⟩
  | some r =>
      refine (ensures_unref h (hv r rfl) fun q => ?_).mono fun s' hs' => hs'.2
      rw [owns_some]

/-- The place of an object is emptied, or given to another one; the reference of the former is
still there. -/
theorem Balanced.destroy {x : ℕ} {v : TrustItem} (h : Balanced s other) (hv : s.get x = some v) :
    Balanced (s.destroy x) fun q => other q + Store.owns q v := by
  refine ⟨Store.bounded_destroy h.bounded, fun q hq => ?_⟩
  have hcount := h.count q hq
  have huse := Store.useCount_destroy hv q
  change s.record q = _
  omega

theorem Balanced.put {x : ℕ} {v u : TrustItem} (h : Balanced s fun q => other q + Store.owns q u)
    (hv : s.get x = some v) (hu : ∀ r, u.item = some r → r < s.next) :
    Balanced (s.put x u) fun q => other q + Store.owns q v := by
  refine ⟨Store.bounded_put h.bounded hu, fun q hq => ?_⟩
  have hcount := h.count q hq
  have huse := Store.useCount_put hv u q
  change s.record q = _
  omega

theorem dropItem_destroy (s : Items) (x : ℕ) (v : TrustItem) :
    (dropItem s v).map (Store.destroy · x) = dropItem (s.destroy x) v := by
  obtain ⟨item⟩ := v
  cases item with
  | none => rfl
  | some r =>
      simp only [dropItem, unref]
      change Except.map _ (if s.record r = 0 then _ else _) =
        if s.record r = 0 then _ else _
      split_ifs
      · rfl
      · rfl

end Balance

/-! ## Runs -/

theorem deliveries_concat (path : Path) (ts : List Stepped) (t : Stepped) (r : ℕ) :
    deliveries path (ts ++ [t]) r =
      deliveries path ts r + if t.output = .delivered path r then 1 else 0 := by
  simp [deliveries, List.countP_append, List.countP_singleton]

/-- Who owns the references of the items that were received: the objects, two for each event that
is being handled, and for each item that comes from `nextTrustItem` nobody owns one. -/
structure Accounted (ts : List Stepped) (w : World) : Prop where
  balanced : Balanced w.items fun r =>
    2 * w.handling.count r + deliveries .nextTrustItem ts r
  handling : ∀ r ∈ w.handling, r < w.items.next
  delivered : ∀ r, deliveries .nextTrustItem ts r + deliveries .event ts r =
    if r < w.items.next then 1 else 0

section Steps
variable {ts : List Stepped} {w : World}

theorem accounted_start : Accounted [] start where
  balanced := by
    refine ⟨?_, nofun⟩
    intro x v r hv
    simp [start, Store.get] at hv
  handling := nofun
  delivered r := by simp [deliveries, start]

theorem Accounted.next_unused (h : Accounted ts w) (path : Path) :
    deliveries path ts w.items.next = 0 := by
  have hsum := h.delivered w.items.next
  rw [if_neg (Nat.lt_irrefl _)] at hsum
  cases path <;> omega

theorem Accounted.count_next (h : Accounted ts w) : w.handling.count w.items.next = 0 :=
  List.count_eq_zero.mpr fun hmem => Nat.lt_irrefl _ (h.handling _ hmem)

/-- A step in which nothing is delivered. -/
theorem Accounted.done (h : Accounted ts w) {op : Op} {s : Items} {handling : List ℕ}
    (hnext : s.next = w.items.next) (hhandling : ∀ r ∈ handling, r ∈ w.handling)
    (hbal : Balanced s fun r => 2 * handling.count r + deliveries .nextTrustItem ts r) :
    Accounted (ts ++ [⟨w, op, .done, ⟨s, handling⟩⟩]) ⟨s, handling⟩ where
  balanced := by simpa [deliveries_concat] using hbal
  handling r hr := hnext ▸ h.handling r (hhandling r hr)
  delivered r := by simpa [deliveries_concat, hnext] using h.delivered r

/-- The item of an object is there, and has a reference. -/
theorem Accounted.item (h : Accounted ts w) {x : ℕ} {v : TrustItem} (hv : w.items.get x = some v)
    {r : ℕ} (hr : v.item = some r) : r < w.items.next ∧ 0 < w.items.useCount r :=
  ⟨h.balanced.bounded x v r hv hr, Store.useCount_pos hv hr⟩

theorem ensures_object (s : Items) (x : ℕ) :
    Ensures (fun f => f = .noObject) (object s x) fun v => s.get x = some v := by
  simp only [object]
  cases hv : s.get x with
  | none => exact rfl
  | some v => exact rfl

/-- What never fails ensures what it does also where some errors are allowed. -/
theorem ensures_allow {α : Type} {x : Except Fault α} {Q : α → Prop}
    (h : Ensures (fun _ => False) x Q) : Ensures (fun f => f = .noObject) x Q :=
  h.imp (fun _ hf => hf.elim) fun _ hq => hq

/-- An object is made of an item that has an owner. -/
theorem Accounted.ensures_construct (h : Accounted ts w) (op : Op) {item : Option ℕ}
    (hitem : ∀ r, item = some r → r < w.items.next ∧
      (0 < w.items.useCount r ∨ r ∈ w.handling)) :
    Ensures (fun f => f = .noObject)
      (construct w.items item >>= fun s => (.ok (.done, { w with items := s }) : Except Fault _))
      fun p => Accounted (ts ++ [⟨w, op, p.1, p.2⟩]) p.2 := by
  refine (ensures_allow (TrustItem.ensures_construct h.balanced ?_)).bind ?_
  · intro r hr
    obtain ⟨hlt, hown⟩ := hitem r hr
    refine ⟨hlt, ?_⟩
    rcases hown with huse | hmem
    · omega
    · have := List.count_pos_iff.mpr hmem
      omega
  · rintro s ⟨hnext, hbal⟩
    exact h.done hnext (fun r hr => hr) hbal

/-- A step in which a new item is delivered. -/
theorem Accounted.received (h : Accounted ts w) {op : Op} {path : Path} {s : Items}
    {handling : List ℕ} (hnext : s.next = w.items.next + 1)
    (hhandling : ∀ r ∈ handling, r = w.items.next ∨ r ∈ w.handling)
    (hbal : Balanced s fun r => 2 * handling.count r + deliveries .nextTrustItem
      (ts ++ [⟨w, op, .delivered path w.items.next, ⟨s, handling⟩⟩]) r) :
    Accounted (ts ++ [⟨w, op, .delivered path w.items.next, ⟨s, handling⟩⟩]) ⟨s, handling⟩ where
  balanced := hbal
  handling r hr := by
    rcases hhandling r hr with rfl | hr
    · exact hnext ▸ Nat.lt_succ_self _
    · exact hnext ▸ Nat.lt_succ_of_lt (h.handling r hr)
  delivered r := by
    have hsum := h.delivered r
    have hlt : r < s.next ↔ r < w.items.next ∨ w.items.next = r := by omega
    cases path with
    | nextTrustItem =>
        simp only [deliveries_concat, Output.delivered.injEq, true_and, reduceCtorEq, false_and,
          if_false, hlt]
        split_ifs at hsum ⊢ <;> omega
    | event =>
        simp only [deliveries_concat, Output.delivered.injEq, true_and, reduceCtorEq, false_and,
          if_false, hlt]
        split_ifs at hsum ⊢ <;> omega

/-- The step keeps the accounts, and releases nothing that was released. -/
def KeepsAccounts (ts : List Stepped) (w : World) (op : Op) : Prop :=
  Ensures (fun f => f = .noObject) (step w op) fun p => Accounted (ts ++ [⟨w, op, p.1, p.2⟩]) p.2

/-! The steps, one after the other. -/

theorem Accounted.balanced_new (h : Accounted ts w) :
    Balanced (w.items.new 1) fun r => 2 * w.handling.count r + deliveries .nextTrustItem ts r +
      if r = w.items.next then 1 else 0 :=
  h.balanced.new (by simp [h.next_unused, h.count_next])

/-- The reference that is handed over stays, as nobody owns it. -/
theorem Accounted.keeps_next (h : Accounted ts w) : KeepsAccounts ts w (.next true) := by
  refine (ensures_allow (TrustItem.ensures_construct h.balanced_new ?_)).bind ?_
  · rintro r ⟨⟩
    exact ⟨Nat.lt_succ_self _, by rw [if_pos rfl]; omega⟩
  · rintro s ⟨hnext, hbal⟩
    refine h.received hnext (fun r hr => .inr hr) ?_
    simpa [deliveries_concat, Nat.add_assoc, eq_comm] using hbal

theorem Accounted.keeps_eventBegin (h : Accounted ts w) : KeepsAccounts ts w .eventBegin := by
  have howned : 0 < (w.items.new 1).useCount w.items.next +
      (2 * w.handling.count w.items.next + deliveries .nextTrustItem ts w.items.next +
        if w.items.next = w.items.next then 1 else 0) := by
    rw [if_pos rfl]
    omega
  refine (ensures_allow (ensures_ref h.balanced_new (Nat.lt_succ_self _) howned)).bind ?_
  rintro s ⟨rfl, hbal⟩
  refine h.received rfl (fun r hr => List.mem_cons.mp hr) ⟨hbal.bounded, fun r hr => ?_⟩
  have hcount := hbal.count r hr
  simp only [deliveries_concat, Output.delivered.injEq, reduceCtorEq, false_and, if_false,
    List.count_cons, beq_iff_eq] at hcount ⊢
  rw [hcount]
  split_ifs <;> omega

/-- The event gives up two references: that of the object, then the one that was handed over. -/
theorem Accounted.keeps_eventEnd (h : Accounted ts w) : KeepsAccounts ts w .eventEnd := by
  simp only [KeepsAccounts, step]
  cases hhandling : w.handling with
  | nil => exact rfl
  | cons r handling =>
      have hbal := h.balanced
      have hr := h.handling r (hhandling ▸ List.mem_cons_self)
      simp only [hhandling, List.count_cons, beq_iff_eq] at hbal
      have hother : ∀ q, 2 * (handling.count q + if r = q then 1 else 0) +
          deliveries .nextTrustItem ts q =
            2 * handling.count q + deliveries .nextTrustItem ts q +
              (if q = r then 1 else 0) + if q = r then 1 else 0 := by
        intro q
        simp only [eq_comm]
        split_ifs <;> omega
      refine (ensures_allow (ensures_unref hbal hr hother)).bind ?_
      rintro s₁ ⟨hobjects₁, hnext₁, hbal₁⟩
      refine (ensures_allow (ensures_unref hbal₁ (hnext₁ ▸ hr) fun q => rfl)).bind ?_
      rintro s₂ ⟨hobjects₂, hnext₂, hbal₂⟩
      refine h.done (hnext₂.trans hnext₁) (fun q hq => ?_) hbal₂
      rw [hhandling]
      exact List.mem_cons_of_mem _ hq

theorem Accounted.keeps_keep (h : Accounted ts w) (i : ℕ) : KeepsAccounts ts w (.keep i) := by
  simp only [KeepsAccounts, step]
  cases hget : w.handling[i]? with
  | none => exact rfl
  | some r =>
      have hmem := List.mem_of_getElem? hget
      apply h.ensures_construct _
      rintro q ⟨⟩
      exact ⟨h.handling r hmem, .inr hmem⟩

theorem Accounted.keeps_copy (h : Accounted ts w) (x : ℕ) : KeepsAccounts ts w (.copy x) := by
  refine (ensures_object w.items x).bind fun v hv => ?_
  refine h.ensures_construct _ fun r hr => ?_
  obtain ⟨hlt, huse⟩ := h.item hv hr
  exact ⟨hlt, .inl huse⟩

/-- The copy has a reference of its own, and the former item of the object loses one. -/
theorem Accounted.keeps_assign (h : Accounted ts w) (x y : ℕ) :
    KeepsAccounts ts w (.assign x y) := by
  refine (ensures_object w.items x).bind fun v hv => ?_
  refine (ensures_object w.items y).bind fun u hu => ?_
  refine (ensures_allow (ensures_refItem h.balanced fun r hr => h.item hu hr)).bind ?_
  rintro s ⟨hobjects, hnext, hbal⟩
  have hv' : s.get x = some v := by simpa [Store.get, hobjects] using hv
  have hput := hbal.put hv' fun r hr => hnext ▸ (h.item hu hr).1
  refine (ensures_allow (ensures_dropItem hput fun r hr => hnext ▸ (h.item hv hr).1)).bind ?_
  rintro s' ⟨hnext', hbal'⟩
  exact h.done (hnext'.trans hnext) (fun r hr => hr) hbal'

/-- Two objects exchange their references. -/
theorem Accounted.keeps_swap (h : Accounted ts w) (x y : ℕ) : KeepsAccounts ts w (.swap x y) := by
  refine (ensures_object w.items x).bind fun v hv => ?_
  refine (ensures_object w.items y).bind fun u hu => ?_
  have hu' : (w.items.put x u).get y = some u := by
    by_cases hxy : y = x
    · subst hxy
      exact Store.get_put_self hv
    · rw [Store.get_put_of_ne hxy]
      exact hu
  refine h.done rfl (fun r hr => hr) ⟨?_, fun q hq => ?_⟩
  · exact Store.bounded_put (Store.bounded_put h.balanced.bounded fun r hr => (h.item hu hr).1)
      fun r hr => (h.item hv hr).1
  · have hcount := h.balanced.count q hq
    have hx := Store.useCount_put hv u q
    have hy := Store.useCount_put hu' v q
    change w.items.record q = _
    omega

theorem Accounted.keeps_destroy (h : Accounted ts w) (x : ℕ) :
    KeepsAccounts ts w (.destroy x) := by
  refine (ensures_object w.items x).bind fun v hv => ?_
  have hdrop := ensures_dropItem (h.balanced.destroy hv) fun r hr => (h.item hv hr).1
  rw [← dropItem_destroy] at hdrop
  cases hs : dropItem w.items v with
  | error f =>
      rw [hs] at hdrop
      exact hdrop.elim
  | ok s =>
      rw [hs] at hdrop
      exact h.done hdrop.1 (fun r hr => hr) hdrop.2

/-- **One step** keeps the accounts. -/
theorem ensures_step (h : Accounted ts w) (op : Op) : KeepsAccounts ts w op := by
  cases op with
  | next found =>
      cases found with
      | false => exact h.ensures_construct _ nofun
      | true => exact h.keeps_next
  | eventBegin => exact h.keeps_eventBegin
  | eventEnd => exact h.keeps_eventEnd
  | new => exact h.ensures_construct _ nofun
  | keep i => exact h.keeps_keep i
  | copy x => exact h.keeps_copy x
  | assign x y => exact h.keeps_assign x y
  | swap x y => exact h.keeps_swap x y
  | destroy x => exact h.keeps_destroy x

end Steps

/-- The accounts are kept in every run. -/
theorem accounted_of_run {ts : List Stepped} {w : World} (h : Run step start ts w) :
    Accounted ts w :=
  h.history Accounted accounted_start fun _ _ op _ _ _ ih hs => (ensures_step ih op).of_ok hs

/-- An item is counted as it should be exactly if it does not come from `nextTrustItem`, or if
some `TrustItem` refers to it. -/
theorem Accounted.counted_iff {ts : List Stepped} {w : World} (h : Accounted ts w) {r : ℕ}
    (hr : r < w.items.next) :
    w.Counted r ↔ deliveries .nextTrustItem ts r = 0 ∨ w.Refers r := by
  have hcount := h.balanced.count r hr
  have hmem := List.count_pos_iff (a := r) (l := w.handling)
  simp only [World.Counted, World.Refers, ← hmem]
  omega

/-- Only `nextTrustItem` delivers as it does. -/
theorem ensures_input (w : World) (op : Op) : Ensures (fun _ => True) (step w op) fun p =>
    ∀ r, p.1 = .delivered .nextTrustItem r → op = .next true := by
  cases op with
  | next found =>
      cases found with
      | false => exact Ensures.any.bind fun s _ => nofun
      | true => exact .of_forall (fun _ => trivial) fun p r _ => rfl
  | eventBegin => exact Ensures.any.bind fun s _ => nofun
  | eventEnd =>
      simp only [step]
      cases w.handling with
      | nil => trivial
      | cons r handling =>
          exact Ensures.any.bind fun s _ => Ensures.any.bind fun s _ => nofun
  | new => exact Ensures.any.bind fun s _ => nofun
  | keep i =>
      simp only [step]
      cases w.handling[i]? with
      | none => trivial
      | some r => exact Ensures.any.bind fun s _ => nofun
  | copy x => exact Ensures.any.bind fun v _ => Ensures.any.bind fun s _ => nofun
  | assign x y =>
      exact Ensures.any.bind fun v _ => Ensures.any.bind fun u _ =>
        Ensures.any.bind fun s _ => Ensures.any.bind fun s _ => nofun
  | swap x y => exact Ensures.any.bind fun v _ => Ensures.any.bind fun u _ => nofun
  | destroy x => exact Ensures.any.bind fun v _ => Ensures.any.bind fun s _ => nofun

/-- **The reference counts of trust items.**  In no run is an item used or released after it was
released.  At any time, an item that the event loop received is counted as it should be, and one
that `nextTrustItem` received is exactly if some `TrustItem` still refers to it.  So all items are,
at any time, if none comes from `nextTrustItem`. -/
theorem referenceLaw {ts : List Stepped} {w : World} (h : Run step start ts w) :
    (∀ op, step w op ≠ .error .released) ∧
    (∀ path r, (∃ t ∈ ts, t.output = .delivered path r) →
      (w.Counted r ↔ path = .event ∨ w.Refers r)) ∧
    ((∀ t ∈ ts, t.input ≠ .next true) →
      ∀ path r, (∃ t ∈ ts, t.output = .delivered path r) → w.Counted r) := by
  have haccounted := accounted_of_run h
  have hiff : ∀ path r, (∃ t ∈ ts, t.output = .delivered path r) →
      (w.Counted r ↔ path = .event ∨ w.Refers r) := by
    rintro path r ⟨t, ht, hout⟩
    have hpos : 0 < deliveries path ts r := List.countP_pos_iff.mpr ⟨t, ht, by simpa using hout⟩
    have hsum := haccounted.delivered r
    have hr : r < w.items.next := by
      by_contra hge
      rw [if_neg hge] at hsum
      cases path with
      | nextTrustItem => omega
      | event => omega
    rw [if_pos hr] at hsum
    rw [haccounted.counted_iff hr]
    cases path with
    | nextTrustItem =>
        have hne : deliveries .nextTrustItem ts r ≠ 0 := by omega
        simp only [hne, reduceCtorEq, false_or]
    | event => exact iff_of_true (.inl (by omega)) (.inl rfl)
  refine ⟨fun op => (ensures_step haccounted op).ne_error (by simp), hiff, ?_⟩
  rintro hevents path r ⟨t, ht, hout⟩
  refine (hiff path r ⟨t, ht, hout⟩).mpr ?_
  cases path with
  | event => exact .inl rfl
  | nextTrustItem =>
      exfalso
      obtain ⟨before, after, rfl⟩ := List.append_of_mem ht
      have hstep := h.cut.2.1
      rw [hout] at hstep
      exact hevents t ht ((ensures_input t.source t.input).of_ok hstep r rfl)

/-- While an item is handled, nothing else has happened. -/
def handlingFirst : World := ⟨((start.items.new 1).write 0 2), [0]⟩

/-- An item that the event loop received, while it is handled. -/
theorem referenceLaw_event :
    Run step start [⟨start, .eventBegin, .delivered .event 0, handlingFirst⟩] handlingFirst ∧
      handlingFirst.Counted 0 := by
  have hrun : Run step start [⟨start, .eventBegin, .delivered .event 0, handlingFirst⟩]
      handlingFirst := .single rfl
  exact ⟨hrun, ((referenceLaw hrun).2.1 .event 0 ⟨_, List.mem_singleton_self _, rfl⟩).mpr (.inl rfl)⟩

/-- An item that `nextTrustItem` received is never released: a `TrustItem` is received, and
destroyed. -/
theorem not_counted_nextTrustItem :
    ¬ ∀ ts w, Run step start ts w →
      ∀ path r, (∃ t ∈ ts, t.output = .delivered path r) → w.Counted r := by
  intro h
  let received : World := ⟨((start.items.new 1).write 0 2).push ⟨some 0⟩, []⟩
  let left : World := ⟨((received.items).write 0 1).destroy 0, []⟩
  have hrun : Run step start [⟨start, .next true, .delivered .nextTrustItem 0, received⟩,
      ⟨received, .destroy 0, .done, left⟩] left := .cons rfl (.single rfl)
  have hcounted := h _ _ hrun .nextTrustItem 0 ⟨_, List.mem_cons_self, rfl⟩
  have hunused : ¬ left.Refers 0 := by
    simp only [World.Refers, not_or]
    exact ⟨by decide, by decide⟩
  have hrecord := hcounted.2 hunused
  revert hrecord
  decide

end TrustItem

end Gpgmepp
