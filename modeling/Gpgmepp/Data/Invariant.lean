import Gpgmepp.Data.Lifetime

/-!
# What holds between calls on data

The data of a `Data::Private` is there as long as it has a `Data`, and the callbacks that gpgme has
a pointer to are those of the `Data::Private` with the data.  Every step does one of a few things,
and each of these keeps that.

## Main definitions

* `Inv` — what holds between calls.
* `Stepped` — the cases of a step.
-/

namespace Gpgmepp.DataObjects

open Shared Owning StateMachine

/-- What holds between calls. -/
structure Inv (w : World) : Prop where
  bounded : w.store.Bounded
  gpgme : w.gpgme.WellOwned none
  /-- A `Data::Private` with data has a `Data`. -/
  alive : ∀ r, (w.gpgme.held r).isSome → 0 < w.store.useCount r
  /-- The callbacks are a part of the `Data::Private` that has the data. -/
  held : ∀ g r p, w.gpgme.object g = some (.callbacks r p) → w.gpgme.held r = some g
  /-- A provider, while it is there, supports what the callbacks are set for. -/
  supported : ∀ g r p cbs, w.gpgme.object g = some (.callbacks r p) → w.providers p = some cbs →
    w.store.record r = cbs
  made_before : ∀ g r p, w.gpgme.object g = some (.callbacks r p) → p < w.next
  lt_next : ∀ p cbs, w.providers p = some cbs → p < w.next

/-- The calls that were made support what they do, and are none for the end. -/
def Transfers (w : World) (out : List Called) : Prop :=
  ∀ c ∈ out, c.2 ≠ .release ∧ ∃ cbs, w.providers c.1 = some cbs ∧ has cbs c.2 = true

/-- The objects are others, and those that have data have objects. -/
structure Regrouped (w : World) (store : Store DataHandle DataCbs) (gone : Option ℕ) : Prop where
  next : store.next = w.store.next
  record : store.record = w.store.record
  bounded : store.Bounded
  alive : ∀ r, gone ≠ some r → (w.gpgme.held r).isSome → 0 < store.useCount r

/-- What a step leaves. -/
inductive Stepped (w : World) (op : Op) : List Called → World → Prop
  | used (out : List Called) (hout : Transfers w out) (he : ¬op.Endangers w)
      (ht : ∀ p, op.tells w p = false) : Stepped w op out w
  | moved (store : Store DataHandle DataCbs) (hs : Regrouped w store none)
      (he : ¬op.Endangers w) (ht : ∀ p, op.tells w p = false) :
      Stepped w op [] { w with store := store }
  | released (store : Store DataHandle DataCbs) (r g : ℕ) (out : List Called)
      (hs : Regrouped w store (some r)) (hheld : w.gpgme.held r = some g)
      (hcall : call w g .release = .ok out) (he : op.Endangers w ↔ ∃ ctx, g ∈ w.pending ctx)
      (ht : ∀ p, op.tells w p = false) :
      Stepped w op out { w with store := store, gpgme := w.gpgme.reset r none }
  | made (cbs : DataCbs) (data : Option Material) (out : List Called)
      (hdata : ∀ r p, data = some (.callbacks r p) → r = w.store.next ∧ w.providers p = some cbs)
      (hout : Transfers w out) (he : ¬op.Endangers w)
      (ht : ∀ p, op.tells w p = true ↔
        data = some (.callbacks w.store.next p) ∧ cbs.release = true) :
      Stepped w op out (construct w cbs data)
  | newProvider (supported : DataCbs) (he : ¬op.Endangers w) (ht : ∀ p, op.tells w p = false) :
      Stepped w op []
        { w with
          providers := Function.update w.providers w.next (some supported), next := w.next + 1 }
  | deleteProvider (p : ℕ) (hop : op = .deleteProvider p) :
      Stepped w op [] { w with providers := Function.update w.providers p none }
  | started (ctx : ℕ) (gs : List ℕ) (hgs : ∀ g ∈ gs, (w.gpgme.object g).isSome)
      (he : ¬op.Endangers w) (ht : ∀ p, op.tells w p = false) :
      Stepped w op [] { w with pending := Function.update w.pending ctx gs }

theorem transfers_nil (w : World) : Transfers w [] := by
  intro c hc
  cases hc

namespace Inv
variable {w : World} (hi : Inv w)

theorem start : Inv start where
  bounded := by
    intro x v r hv
    simp [DataObjects.start, Store.get] at hv
  gpgme := Owners.wellOwned_empty
  alive := by intro r hr; cases hr
  held := by intro g r p hg; cases hg
  supported := by intro g r p cbs hg; cases hg
  made_before := by intro g r p hg; cases hg
  lt_next := by intro p cbs hp; cases hp

include hi

/-! ### The callbacks -/

/-- The callbacks of data are there. -/
theorem useCount_pos {g r p : ℕ} (hg : w.gpgme.object g = some (.callbacks r p)) :
    0 < w.store.useCount r :=
  hi.alive r (by simp [hi.held g r p hg])

theorem call_callbacks {g r p : ℕ} (hg : w.gpgme.object g = some (.callbacks r p))
    (op : DataProvider.Operation) :
    call w g op =
      if has (w.store.record r) op then
        match w.providers p with
        | none => .error .dangling
        | some _ => .ok [(p, op)]
      else .ok [] := by
  have hpos := hi.useCount_pos hg
  simp only [call, hg, if_neg (Nat.ne_of_gt hpos)]
  cases has (w.store.record r) op <;> rfl

/-- gpgme finds the provider if there is a call to make. -/
theorem call_ne_dangling_iff {g r p : ℕ} (hg : w.gpgme.object g = some (.callbacks r p))
    (op : DataProvider.Operation) :
    call w g op ≠ .error .dangling ↔
      (has (w.store.record r) op = true → (w.providers p).isSome) := by
  rw [hi.call_callbacks hg]
  by_cases hhas : has (w.store.record r) op = true
  · cases hp : w.providers p <;> simp [hhas]
  · simp [hhas]

/-- A call is for the operation, and the provider supports it. -/
theorem mem_call {g : ℕ} {op : DataProvider.Operation} {out : List Called}
    (h : call w g op = .ok out) {c : Called} (hc : c ∈ out) :
    c.2 = op ∧ ∃ cbs, w.providers c.1 = some cbs ∧ has cbs op = true := by
  cases hg : w.gpgme.object g with
  | none => simp [call, hg] at h
  | some m =>
      cases m with
      | storage =>
          obtain rfl : [] = out := by simpa [call, hg] using h
          cases hc
      | callbacks r p =>
          rw [hi.call_callbacks hg] at h
          by_cases hhas : has (w.store.record r) op = true
          · cases hp : w.providers p with
            | none => simp [hhas, hp] at h
            | some cbs =>
                obtain rfl : [(p, op)] = out := by simpa [hhas, hp] using h
                obtain rfl : c = (p, op) := by simpa using hc
                exact ⟨rfl, cbs, hp, hi.supported g r p cbs hg hp ▸ hhas⟩
          · obtain rfl : [] = out := by simpa [hhas] using h
            cases hc

theorem transfers_call {g : ℕ} {op : DataProvider.Operation} {out : List Called}
    (hop : op ≠ .release) (h : call w g op = .ok out) : Transfers w out := by
  intro c hc
  obtain ⟨rfl, hcbs⟩ := hi.mem_call h hc
  exact ⟨hop, hcbs⟩

theorem isSome_of_dataOf {x g : ℕ} (h : dataOf w x = some g) : (w.gpgme.object g).isSome := by
  obtain ⟨r, -, hr⟩ := Option.bind_eq_some_iff.mp h
  exact hi.gpgme.there r g hr

/-! ### Steps keep it -/

theorem moved {store : Store DataHandle DataCbs} (hs : Regrouped w store none) :
    Inv { w with store := store } where
  bounded := hs.bounded
  gpgme := hi.gpgme
  alive := fun r => hs.alive r nofun
  held := hi.held
  supported := by
    intro g r p cbs hg hp
    rw [hs.record]
    exact hi.supported g r p cbs hg hp
  made_before := hi.made_before
  lt_next := hi.lt_next

theorem released {store : Store DataHandle DataCbs} {r : ℕ} (hs : Regrouped w store (some r)) :
    Inv { w with store := store, gpgme := w.gpgme.reset r none } := by
  have hobject : ∀ g m, (w.gpgme.reset r none).object g = some m →
      w.gpgme.object g = some m ∧ w.gpgme.held r ≠ some g := by
    intro g m hg
    rw [Owners.object_reset] at hg
    split_ifs at hg with hgone
    exact ⟨hg, fun hheld => hgone ⟨hheld, nofun⟩⟩
  refine ⟨hs.bounded, hi.gpgme.reset r, ?_, ?_, ?_, ?_, hi.lt_next⟩
  · intro q hq
    by_cases hqr : q = r
    · simp [hqr] at hq
    · exact hs.alive q (by simpa using Ne.symm hqr) (by simpa [hqr] using hq)
  · intro g q p hg
    obtain ⟨hold, hne⟩ := hobject g _ hg
    have hheld := hi.held g q p hold
    by_cases hqr : q = r
    · exact absurd (hqr ▸ hheld) hne
    · simpa [hqr] using hheld
  · intro g q p cbs hg hp
    rw [hs.record]
    exact hi.supported g q p cbs (hobject g _ hg).1 hp
  · intro g q p hg
    exact hi.made_before g q p (hobject g _ hg).1

theorem lt_of_held {r : ℕ} (h : (w.gpgme.held r).isSome) : r < w.store.next :=
  Store.lt_of_useCount_pos hi.bounded (hi.alive r h)

theorem held_next : w.gpgme.held w.store.next = none := by
  by_contra h
  exact absurd (hi.lt_of_held (Option.isSome_iff_ne_none.mpr h)) (Nat.lt_irrefl _)

/-- The data objects after one was made. -/
theorem object_construct {cbs : DataCbs} {data : Option Material} {g : ℕ} {m : Material} :
    (construct w cbs data).gpgme.object g = some m ↔
      g = w.gpgme.next ∧ data = some m ∨ w.gpgme.object g = some m := by
  have hnew : w.gpgme.object w.gpgme.next ≠ some m := by
    intro h
    exact absurd (hi.gpgme.bounded _ (by simp [h])) (Nat.lt_irrefl _)
  cases data with
  | none => simp [construct]
  | some m' =>
      simp only [construct, Owners.object_make, hi.held_next]
      by_cases hg : g = w.gpgme.next
      · subst hg
        simp [hnew]
      · simp [hg]

theorem object_construct_of_ne (cbs : DataCbs) (data : Option Material) {g : ℕ}
    (hg : g ≠ w.gpgme.next) : (construct w cbs data).gpgme.object g = w.gpgme.object g := by
  refine Option.ext fun m => ?_
  rw [hi.object_construct]
  simp [hg]

omit hi in
theorem record_construct (cbs : DataCbs) (data : Option Material) {r : ℕ}
    (hr : r < w.store.next) : (construct w cbs data).store.record r = w.store.record r :=
  Function.update_of_ne (Nat.ne_of_lt hr) _ _

theorem held_construct {cbs : DataCbs} {data : Option Material} {r g : ℕ}
    (h : w.gpgme.held r = some g) : (construct w cbs data).gpgme.held r = some g := by
  have hne : r ≠ w.store.next := Nat.ne_of_lt (hi.lt_of_held (by simp [h]))
  cases data with
  | none => exact h
  | some m => simpa [construct, hne] using h

theorem made {cbs : DataCbs} {data : Option Material}
    (hdata : ∀ r p, data = some (.callbacks r p) → r = w.store.next ∧ w.providers p = some cbs) :
    Inv (construct w cbs data) where
  bounded := by
    refine Store.bounded_push (Store.bounded_new hi.bounded cbs) fun r hr => ?_
    obtain rfl : w.store.next = r := by simpa [Owner.ptr] using hr
    exact Nat.lt_succ_self _
  gpgme := by
    cases data with
    | none => exact hi.gpgme
    | some m => exact hi.gpgme.make _ _
  alive := by
    intro r hr
    change 0 < ((w.store.new cbs).push ⟨some w.store.next⟩).useCount r
    rw [Store.useCount_push, Store.useCount_new]
    by_cases hnew : r = w.store.next
    · simp [Store.owns, Owner.ptr, hnew]
    · have hold : (w.gpgme.held r).isSome := by
        cases data with
        | none => exact hr
        | some m => simpa [construct, hnew] using hr
      have hpos := hi.alive r hold
      omega
  held := by
    intro g r p hg
    rcases hi.object_construct.mp hg with ⟨rfl, rfl⟩ | hold
    · obtain ⟨rfl, -⟩ := hdata r p rfl
      simp [construct]
    · exact hi.held_construct (hi.held g r p hold)
  supported := by
    intro g r p cbs' hg hp
    rcases hi.object_construct.mp hg with ⟨-, rfl⟩ | hold
    · obtain ⟨rfl, hcbs⟩ := hdata r p rfl
      obtain rfl : cbs = cbs' := Option.some.inj (hcbs.symm.trans hp)
      exact Function.update_self _ _ _
    · rw [record_construct cbs data (hi.lt_of_held (by simp [hi.held g r p hold]))]
      exact hi.supported g r p cbs' hold hp
  made_before := by
    intro g r p hg
    rcases hi.object_construct.mp hg with ⟨-, rfl⟩ | hold
    · exact hi.lt_next p cbs (hdata r p rfl).2
    · exact hi.made_before g r p hold
  lt_next := hi.lt_next

theorem newProvider (supported : DataCbs) :
    Inv { w with
      providers := Function.update w.providers w.next (some supported), next := w.next + 1 } where
  bounded := hi.bounded
  gpgme := hi.gpgme
  alive := hi.alive
  held := hi.held
  supported := by
    intro g r p cbs hg hp
    have hlt := hi.made_before g r p hg
    exact hi.supported g r p cbs hg (by simpa [Nat.ne_of_lt hlt] using hp)
  made_before := fun g r p hg => Nat.lt_succ_of_lt (hi.made_before g r p hg)
  lt_next := by
    intro p cbs hp
    change p < w.next + 1
    by_cases hnew : p = w.next
    · omega
    · have hlt := hi.lt_next p cbs (by simpa [hnew] using hp)
      omega

theorem deleteProvider (p : ℕ) :
    Inv { w with providers := Function.update w.providers p none } where
  bounded := hi.bounded
  gpgme := hi.gpgme
  alive := hi.alive
  held := hi.held
  supported := by
    intro g r q cbs hg hq
    by_cases hqp : q = p
    · simp [hqp] at hq
    · exact hi.supported g r q cbs hg (by simpa [hqp] using hq)
  made_before := hi.made_before
  lt_next := by
    intro q cbs hq
    by_cases hqp : q = p
    · simp [hqp] at hq
    · exact hi.lt_next q cbs (by simpa [hqp] using hq)

theorem keep {op : Op} {out : List Called} {w' : World} (h : Stepped w op out w') : Inv w' := by
  cases h with
  | used _ _ _ _ => exact hi
  | moved store hs _ _ => exact hi.moved hs
  | released store r g out hs _ _ _ _ => exact hi.released hs
  | made cbs data out hdata _ _ _ => exact hi.made hdata
  | newProvider supported _ _ => exact hi.newProvider supported
  | deleteProvider p _ => exact hi.deleteProvider p
  | started ctx gs _ _ _ =>
      exact ⟨hi.bounded, hi.gpgme, hi.alive, hi.held, hi.supported, hi.made_before, hi.lt_next⟩

/-! ### What each function does -/

/-- An object is gone from its place, and the data if it was the last that had it. -/
theorem stepped_drop {op : Op} {store : Store DataHandle DataCbs} {d : Option ℕ}
    {out : List Called} {w' : World} (h : drop w store d = .ok (out, w'))
    (hnext : store.next = w.store.next) (hrecord : store.record = w.store.record)
    (hb : store.Bounded)
    (hother : ∀ q, d ≠ some q → 0 < w.store.useCount q → 0 < store.useCount q)
    (he : op.Endangers w ↔ ∃ r g, d = some r ∧ store.useCount r = 0 ∧ w.gpgme.held r = some g ∧
      ∃ ctx, g ∈ w.pending ctx)
    (ht : ∀ p, op.tells w p = false) : Stepped w op out w' := by
  have hmoved : (∀ r, d = some r → (w.gpgme.held r).isSome → store.useCount r ≠ 0) →
      (out, w') = ([], { w with store := store }) → Stepped w op out w' := by
    rintro hkept ⟨⟩
    refine .moved store ⟨hnext, hrecord, hb, fun r _ hr => ?_⟩ ?_ ht
    · by_cases hd : d = some r
      · exact Nat.pos_of_ne_zero (hkept r hd hr)
      · exact hother r hd (hi.alive r hr)
    · rintro hdanger
      obtain ⟨r, g, hd, hzero, hheld, -⟩ := he.mp hdanger
      exact hkept r hd (by simp [hheld]) hzero
  cases d with
  | none => exact hmoved nofun (Except.ok.inj h).symm
  | some r =>
      simp only [drop] at h
      split_ifs at h with hzero
      · cases hheld : w.gpgme.held r with
        | none =>
            simp only [hheld] at h
            refine hmoved ?_ (Except.ok.inj h).symm
            intro q hq hsome
            obtain rfl : r = q := Option.some.inj hq
            simp [hheld] at hsome
        | some g =>
            cases hcall : call w g .release with
            | error f => simp [hheld, hcall] at h
            | ok calls =>
                simp only [hheld, hcall] at h
                obtain ⟨rfl, rfl⟩ := Prod.mk.inj (Except.ok.inj h)
                refine .released store r g calls
                  ⟨hnext, hrecord, hb, fun q hq hsome => hother q hq (hi.alive q hsome)⟩ hheld
                  hcall (he.trans ⟨?_, fun hp => ⟨r, g, rfl, hzero, hheld, hp⟩⟩) ht
                rintro ⟨q, g', hq, -, hheld', hp⟩
                obtain rfl : r = q := Option.some.inj hq
                obtain rfl : g = g' := Option.some.inj (hheld.symm.trans hheld')
                exact hp
      · refine hmoved ?_ (Except.ok.inj h).symm
        intro q hq _
        obtain rfl : r = q := Option.some.inj hq
        exact hzero

theorem stepped_destroy {x : ℕ} {v : DataHandle} (hv : w.store.get x = some v)
    {out : List Called} {w' : World} (h : drop w (w.store.destroy x) v.d = .ok (out, w')) :
    Stepped w (.destroy x) out w' := by
  refine hi.stepped_drop h rfl rfl (Store.bounded_destroy hi.bounded) ?_ ?_ fun _ => rfl
  · intro q hq hpos
    have huse := Store.useCount_destroy hv q
    simp only [Store.owns, Owner.ptr, if_neg hq] at huse
    omega
  · have hlast : ∀ r, v.d = some r →
        ((w.store.destroy x).useCount r = 0 ↔ w.store.useCount r = 1) := by
      intro r hr
      have huse := Store.useCount_destroy hv r
      simp only [Store.owns, Owner.ptr, if_pos hr] at huse
      omega
    constructor
    · rintro ⟨ctx, g, hp, v', r, hv', hr, hone, hheld⟩
      obtain rfl : v = v' := Option.some.inj (hv.symm.trans hv')
      exact ⟨r, g, hr, (hlast r hr).mpr hone, hheld, ctx, hp⟩
    · rintro ⟨r, g, hr, hzero, hheld, ctx, hp⟩
      exact ⟨ctx, g, hp, v, r, hv, hr, (hlast r hr).mp hzero, hheld⟩

theorem stepped_assign {x y : ℕ} {v u : DataHandle} (hv : w.store.get x = some v)
    (hu : w.store.get y = some u) {out : List Called} {w' : World}
    (h : drop w (w.store.put x u) v.d = .ok (out, w')) : Stepped w (.assign x y) out w' := by
  refine hi.stepped_drop h rfl rfl
    (Store.bounded_put hi.bounded fun r hr => hi.bounded y u r hu hr) ?_ ?_ fun _ => rfl
  · intro q hq hpos
    have huse := Store.useCount_put hv u q
    simp only [Store.owns, Owner.ptr, if_neg hq] at huse
    omega
  · -- the object keeps the data if it is assigned one that shares it
    have hlast : ∀ r, v.d = some r →
        ((w.store.put x u).useCount r = 0 ↔ w.store.useCount r = 1 ∧ u.d ≠ some r) := by
      intro r hr
      have huse := Store.useCount_put hv u r
      have hpos := Store.useCount_pos hv hr
      simp only [Store.owns, Owner.ptr, if_pos hr] at huse
      by_cases hur : u.d = some r
      · rw [if_pos hur] at huse
        refine iff_of_false (by omega) ?_
        rintro ⟨-, hne⟩
        exact hne hur
      · rw [if_neg hur] at huse
        simp only [hur, ne_eq, not_false_eq_true, and_true]
        omega
    have hdata : ∀ r g, w.gpgme.held r = some g → (dataOf w y ≠ some g ↔ u.d ≠ some r) := by
      intro r g hheld
      refine not_congr ⟨fun hy => ?_, fun hr => ?_⟩
      · obtain ⟨q, hq, hheld'⟩ := Option.bind_eq_some_iff.mp hy
        obtain rfl : q = r := hi.gpgme.unique q r g hheld' hheld
        simpa [hu] using hq
      · simp [dataOf, hu, hr, hheld]
    constructor
    · rintro ⟨ctx, g, hp, ⟨v', r, hv', hr, hone, hheld⟩, hy⟩
      obtain rfl : v = v' := Option.some.inj (hv.symm.trans hv')
      exact ⟨r, g, hr, (hlast r hr).mpr ⟨hone, (hdata r g hheld).mp hy⟩, hheld, ctx, hp⟩
    · rintro ⟨r, g, hr, hzero, hheld, ctx, hp⟩
      obtain ⟨hone, hne⟩ := (hlast r hr).mp hzero
      exact ⟨ctx, g, hp, ⟨v, r, hv, hr, hone, hheld⟩, (hdata r g hheld).mpr hne⟩

theorem stepped_swap {x y : ℕ} {v u : DataHandle} (hv : w.store.get x = some v)
    (hu : w.store.get y = some u) :
    Stepped w (.swap x y) [] { w with store := (w.store.put x u).put y v } := by
  have hget : (w.store.put x u).get y = some u := by
    by_cases hxy : y = x
    · subst hxy
      exact Store.get_put_self hu
    · rwa [Store.get_put_of_ne hxy]
  refine .moved _ ⟨rfl, rfl, ?_, fun r _ hr => ?_⟩ id fun _ => rfl
  · exact Store.bounded_put
      (Store.bounded_put hi.bounded fun r hr => hi.bounded y u r hu hr)
      fun r hr => hi.bounded x v r hv hr
  · have hfirst := Store.useCount_put hv u r
    have hsecond := Store.useCount_put hget v r
    have hpos := hi.alive r hr
    omega

theorem stepped_copy {x : ℕ} {v : DataHandle} (hv : w.store.get x = some v) :
    Stepped w (.copy x) [] { w with store := w.store.push v } := by
  refine .moved _ ⟨rfl, rfl, ?_, fun r _ hr => ?_⟩ id fun _ => rfl
  · exact Store.bounded_push hi.bounded fun r hr => hi.bounded x v r hv hr
  · rw [Store.useCount_push]
    have hpos := hi.alive r hr
    omega

theorem stepped_ofProvider {found : Capability → Bool} {dp : Option ℕ} {e : UInt32}
    {out : List Called} {w' : World} (h : ofProvider found w dp e = .ok (out, w')) :
    Stepped w (.ofProvider dp e) out w' := by
  cases dp with
  | none =>
      obtain ⟨rfl, rfl⟩ := Prod.mk.inj (Except.ok.inj h)
      exact .made _ none [] nofun (transfers_nil w) id (by simp [Op.tells])
  | some p =>
      cases hp : w.providers p with
      | none => simp [ofProvider, hp] at h
      | some cbs =>
          have hdata : ∀ r q,
              (if e = 0 then some (Material.callbacks w.store.next p) else none) =
                some (.callbacks r q) → r = w.store.next ∧ w.providers q = some cbs := by
            intro r q hrq
            split_ifs at hrq
            obtain ⟨rfl, rfl⟩ := Material.callbacks.inj (Option.some.inj hrq)
            exact ⟨rfl, hp⟩
          have hmade := hi.made hdata
          have htells : ∀ q, Op.tells w q (.ofProvider (some p) e) = true ↔
              (if e = 0 then some (Material.callbacks w.store.next p) else none) =
                some (.callbacks w.store.next q) ∧ cbs.release = true := by
            intro q
            by_cases hqp : p = q
            · subst hqp
              simp [Op.tells, hp]
            · simp [Op.tells, hqp]
          simp only [ofProvider, hp] at h
          generalize (if e = 0 then some (Material.callbacks w.store.next p) else none) = data
            at h hdata hmade htells
          split_ifs at h with hseek
          · cases hcall : call (construct w cbs data) w.gpgme.next .seek with
            | error f => simp [hcall] at h
            | ok calls =>
                simp only [hcall] at h
                obtain ⟨rfl, rfl⟩ := Prod.mk.inj (Except.ok.inj h)
                refine .made cbs _ _ hdata ?_ id htells
                intro c hc
                have hcalls : c ∈ calls := by simpa using hc
                exact hmade.transfers_call (by decide) hcall c hcalls
          · obtain ⟨rfl, rfl⟩ := Prod.mk.inj (Except.ok.inj h)
            exact .made cbs _ [] hdata (transfers_nil w) id htells

/-- Data is used. -/
theorem stepped_call {op : Op} {g : ℕ} {o : DataProvider.Operation} {out : List Called}
    {w' : World} (ho : o ≠ .release) (he : ¬op.Endangers w) (ht : ∀ p, op.tells w p = false)
    (h : ((call w g o).map fun out => (out, w)) = .ok (out, w')) : Stepped w op out w' := by
  cases hcall : call w g o with
  | error f => simp [hcall, Except.map] at h
  | ok calls =>
      rw [hcall] at h
      obtain ⟨rfl, rfl⟩ := Prod.mk.inj (Except.ok.inj h)
      exact .used _ (hi.transfers_call ho hcall) he ht

omit hi in
theorem stepped_new (cbs : DataCbs) {op : Op} (e : UInt32) (he : ¬op.Endangers w)
    (ht : ∀ p, op.tells w p = false) :
    Stepped w op [] (construct w cbs (if e = 0 then some .storage else none)) := by
  have hdata : ∀ r p, (if e = 0 then some Material.storage else none) ≠ some (.callbacks r p) := by
    intro r p
    split_ifs <;> simp
  exact .made cbs _ [] (fun r p h => absurd h (hdata r p)) (transfers_nil w) he fun p =>
    iff_of_false (by simp [ht p]) fun h => hdata _ _ h.1

/-- The functions do one of a few things. -/
theorem stepped {found : Capability → Bool} {op : Op} {out : List Called} {w' : World}
    (h : step found w op = .ok (out, w')) : Stepped w op out w' := by
  cases op with
  | null =>
      obtain ⟨rfl, rfl⟩ := Prod.mk.inj (Except.ok.inj h)
      exact .made _ none [] nofun (transfers_nil w) id (by simp [Op.tells])
  | new e =>
      obtain ⟨rfl, rfl⟩ := Prod.mk.inj (Except.ok.inj h)
      exact stepped_new _ e id fun _ => rfl
  | ofBuffer e =>
      simp only [step, ofBuffer] at h
      by_cases hflag : (found .dataSetFlag && decide (e ≠ 0)) = true
      · rw [if_pos hflag] at h
        cases h
      · rw [if_neg hflag] at h
        obtain ⟨rfl, rfl⟩ := Prod.mk.inj (Except.ok.inj h)
        exact stepped_new _ e id fun _ => rfl
  | ofProvider dp e => exact hi.stepped_ofProvider h
  | copy x =>
      simp only [step] at h
      cases hv : w.store.get x with
      | none => simp [hv] at h
      | some v =>
          rw [hv] at h
          obtain ⟨rfl, rfl⟩ := Prod.mk.inj (Except.ok.inj h)
          exact hi.stepped_copy hv
  | assign x y =>
      simp only [step] at h
      cases hv : w.store.get x with
      | none => simp [hv] at h
      | some v =>
          cases hu : w.store.get y with
          | none => simp [hv, hu] at h
          | some u =>
              rw [hv, hu] at h
              exact hi.stepped_assign hv hu h
  | swap x y =>
      simp only [step] at h
      cases hv : w.store.get x with
      | none => simp [hv] at h
      | some v =>
          cases hu : w.store.get y with
          | none => simp [hv, hu] at h
          | some u =>
              rw [hv, hu] at h
              obtain ⟨rfl, rfl⟩ := Prod.mk.inj (Except.ok.inj h)
              exact hi.stepped_swap hv hu
  | destroy x =>
      simp only [step] at h
      cases hv : w.store.get x with
      | none => simp [hv] at h
      | some v =>
          rw [hv] at h
          exact hi.stepped_destroy hv h
  | transfer x o =>
      simp only [step] at h
      split_ifs at h with ho
      cases hv : w.store.get x with
      | none => simp [hv] at h
      | some v =>
          cases hg : dataOf w x with
          | none =>
              rw [hv, hg] at h
              obtain ⟨rfl, rfl⟩ := Prod.mk.inj (Except.ok.inj h)
              exact .used [] (transfers_nil w) id fun _ => rfl
          | some g =>
              rw [hv, hg] at h
              exact hi.stepped_call ho id (fun _ => rfl) h
  | newProvider supported =>
      obtain ⟨rfl, rfl⟩ := Prod.mk.inj (Except.ok.inj h)
      exact .newProvider supported id fun _ => rfl
  | deleteProvider p =>
      simp only [step] at h
      split_ifs at h
      obtain ⟨rfl, rfl⟩ := Prod.mk.inj (Except.ok.inj h)
      exact .deleteProvider p rfl
  | startOperation ctx xs =>
      obtain ⟨rfl, rfl⟩ := Prod.mk.inj (Except.ok.inj h)
      refine .started ctx _ (fun g hg => ?_) id fun _ => rfl
      obtain ⟨x, -, hx⟩ := List.mem_filterMap.mp hg
      exact hi.isSome_of_dataOf hx
  | operationUses ctx g o =>
      simp only [step] at h
      split_ifs at h with ho
      exact hi.stepped_call (fun hrelease => ho (.inl hrelease)) id (fun _ => rfl) h
  | operationDone ctx =>
      obtain ⟨rfl, rfl⟩ := Prod.mk.inj (Except.ok.inj h)
      exact .started ctx [] (by simp) id fun _ => rfl

end Inv

end Gpgmepp.DataObjects
