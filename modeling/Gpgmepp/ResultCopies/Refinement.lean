import Gpgmepp.ResultCopies

/-!
# Results are values

The copies do what `Abstract` does with values: for every run of `Abstract` there is one of the
copies with the same operations, in which no pointer dangles and nothing is freed twice, and whose
accessors return the same.  So an object shows what gpgme had when it was made, without the strings
for which there was no memory, whatever gpgme and the other objects do later.  All strings that
there are belong to gpgme's result of the moment or to a copy with an object.  The only fault that
there can be is that of a constructor that copies a string that is not there.

## Main definitions

* `ptrs`, `own` — the strings of a result, and who owns them.
* `Shows` — a pointer to a string, or to none.
* `Sim` — how the two machines correspond.
* `refines` — the simulation.
-/

namespace Gpgmepp.ResultCopies

open Blocks Shared StateMachine

variable {κ σ σ' S S' : Type} {m m' : Memory CString}

/-- The pointers of a result that are not null. -/
def ptrs (c : Contents κ σ σ' (Option ℕ)) : List ℕ := c.strings.flatMap Option.toList

/-- A pointer to the string, or a null pointer for none. -/
inductive Shows (m : Memory CString) : Option ℕ → Option CString → Prop
  | null : Shows m none none
  | string {p : ℕ} {s : CString} (h : m.block p = some s) : Shows m (some p) (some s)

/-! ## The loops -/

theorem Shows.grows {p : Option ℕ} {s : Option CString} (hgrows : m.Grows m') (h : Shows m p s) :
    Shows m' p s := by
  cases h with
  | null => exact .null
  | string h => exact .string (hgrows _ _ h)

section Loops
variable {ι : Type} [DecidableEq ι] (i : ι)

/-- gpgme's strings are made of values as they are. -/
theorem acquires_makeString :
    Memory.Acquires i Option.toList (fun _ s x => s = x) Shows makeString
      fun s room => .ok (s, room) where
  spec := by
    rintro own m s _ hsep rfl
    cases s with
    | none => exact .ok (by simpa using hsep) (.refl m) .null
    | some s =>
        obtain ⟨hsep', hgrows⟩ := hsep.place i s
        exact .ok (b := some m.next) hsep' hgrows
          (.string (by simp [Memory.place]))
  mono := fun _ _ _ _ _ h => h
  keeps := fun _ _ _ _ hgrows h => h.grows hgrows

/-- `strdup` makes a copy of the string, or none if there is no memory. -/
theorem acquires_copyString (tested : Bool) :
    Memory.Acquires i Option.toList Shows Shows (copyString tested) (keepString tested) where
  spec := by
    intro own m p x hsep hp
    cases hp with
    | null =>
        cases tested with
        | false => exact .error _
        | true => exact .ok (by simpa using hsep) (.refl m) .null
    | @string p s hs =>
        simp only [copyString, Memory.duplicate, hs, Memory.request, keepString]
        cases hroom : m.room 0 with
        | true =>
            obtain ⟨hsep', hgrows⟩ := hsep.answered.place i s
            exact .ok (b := some m.next) hsep'
              ((Memory.grows_answered m).trans hgrows)
              (.string (by simp [Memory.place, Memory.answered]))
        | false =>
            exact .ok (b := none) (by simpa using hsep.answered)
              (Memory.grows_answered m) .null
  mono := fun _ _ _ _ hgrows h => h.grows hgrows
  keeps := fun _ _ _ _ hgrows h => h.grows hgrows

variable {i} {A B : Type} {P : Memory CString → S → A → Prop}
  {R : Memory CString → Option ℕ → B → Prop}
  {f : S → Memory CString → Except Blocks.Fault (Option ℕ × Memory CString)}
  {g : A → (ℕ → Bool) → Except Blocks.Fault (B × (ℕ → Bool))}

/-- A loop over the strings of a structure. -/
theorem acquires_entry (h : Memory.Acquires i Option.toList P R f g) :
    Memory.Acquires i (fun e : Entry σ (Option ℕ) => e.strings.flatMap Option.toList)
      (fun m e x => e.Rel (P m) x) (fun m e y => e.Rel (R m) y) (Entry.traverse f)
      (Entry.traverse g) where
  spec := by
    intro own m e x hsep hrel
    simp only [Entry.traverse]
    have hstrings := h.mapAll.spec own m e.strings x.strings hsep hrel.strings
    generalize mapAll f e.strings m = r, mapAll g x.strings m.room = r' at hstrings
    cases hstrings with
    | error fault => exact .error fault
    | ok hsep' hgrows hR => exact .ok hsep' hgrows ⟨hrel.data, hR⟩
  mono := fun m m' e x hgrows hrel =>
    ⟨hrel.data, hrel.strings.imp fun s a => h.mono m m' s a hgrows⟩
  keeps := fun m m' e y hgrows hrel =>
    ⟨hrel.data, hrel.strings.imp fun s b => h.keeps m m' s b hgrows⟩

/-- **A loop over all structures of a result.** -/
theorem acquires_traverse (h : Memory.Acquires i Option.toList P R f g) :
    Memory.Acquires i (ptrs : Contents κ σ σ' (Option ℕ) → List ℕ)
      (fun m (c : Contents κ σ σ' S) x => c.Rel (P m) x) (fun m c y => c.Rel (R m) y)
      (Contents.traverse f) (Contents.traverse g) where
  spec := by
    intro own m c x hsep hrel
    have hres := acquires_entry (σ := κ) h
    have hfirst := (acquires_entry (σ := σ) h).mapAll
    have hsecond := (acquires_entry (σ := σ') h).mapAll
    simp only [Contents.traverse]
    have h₁ := hres.spec own m c.res x.res hsep hrel.res
    generalize c.res.traverse f m = r, x.res.traverse g m.room = r' at h₁
    cases h₁ with
    | error e => exact .error e
    | @ok res m₁ res' hsep₁ hgrows₁ hR₁ =>
        dsimp only
        have h₂ := hfirst.spec _ m₁ c.first x.first hsep₁
          (hfirst.mono m m₁ _ _ hgrows₁ hrel.first)
        generalize mapAll (Entry.traverse f) c.first m₁ = r,
          mapAll (Entry.traverse g) x.first m₁.room = r' at h₂
        cases h₂ with
        | error e => exact .error e
        | @ok first m₂ first' hsep₂ hgrows₂ hR₂ =>
            dsimp only
            have h₃ := hsecond.spec _ m₂ c.second x.second hsep₂
              (hsecond.mono m m₂ _ _ (hgrows₁.trans hgrows₂) hrel.second)
            generalize mapAll (Entry.traverse f) c.second m₂ = r,
              mapAll (Entry.traverse g) x.second m₂.room = r' at h₃
            cases h₃ with
            | error e => exact .error e
            | @ok second m₃ second' hsep₃ hgrows₃ hR₃ =>
                refine .ok ?_ ((hgrows₁.trans hgrows₂).trans hgrows₃)
                  ⟨hres.keeps m₁ m₃ _ _ (hgrows₂.trans hgrows₃) hR₁,
                    hfirst.keeps m₂ m₃ _ _ hgrows₃ hR₂, hR₃⟩
                simpa [ptrs, Contents.strings, List.flatMap_append, List.flatMap_assoc]
                  using hsep₃
  mono := fun m m' c x hgrows hrel =>
    ⟨(acquires_entry h).mono m m' _ _ hgrows hrel.res,
      (acquires_entry h).mapAll.mono m m' _ _ hgrows hrel.first,
      (acquires_entry h).mapAll.mono m m' _ _ hgrows hrel.second⟩
  keeps := fun m m' c y hgrows hrel =>
    ⟨(acquires_entry h).keeps m m' _ _ hgrows hrel.res,
      (acquires_entry h).mapAll.keeps m m' _ _ hgrows hrel.first,
      (acquires_entry h).mapAll.keeps m m' _ _ hgrows hrel.second⟩

end Loops

/-! ## Correspondence -/

/-- Who owns the strings: gpgme, with `none`, or a copy that an object refers to. -/
def own (w : World κ σ σ') : Option ℕ → List ℕ
  | none => w.current.elim [] ptrs
  | some r => if 0 < w.store.useCount r then ptrs (w.store.record r) else []

/-- An object refers to a copy of what its snapshot is. -/
structure SimObject (m : Memory CString) (record : ℕ → Contents κ σ σ' (Option ℕ)) (v : Object)
    (u : Snapshot κ σ σ') : Prop where
  error : v.error = u.error
  part : v.part = u.part
  contents : Option.Rel (fun r c => (record r).Rel (Shows m) c) v.d u.contents

/-- How copies and values correspond. -/
structure Sim (w : World κ σ σ') (a : Abstract κ σ σ') : Prop where
  separated : w.memory.Separated (own w)
  room : w.memory.room = a.room
  bounded : w.store.Bounded
  current : Option.Rel (fun c c' => c.Rel (Shows w.memory) c') w.current a.current
  objects : List.Forall₂ (Option.Rel (SimObject w.memory w.store.record)) w.store.objects a.objects

/-- Two steps return the same and correspond afterwards, or fail in the same way. -/
inductive Alike : Except Failure (Output κ σ σ' × World κ σ σ') →
    Except Failure (Output κ σ σ' × Abstract κ σ σ') → Prop
  | ok {o : Output κ σ σ'} {w : World κ σ σ'} {a : Abstract κ σ σ'} (h : Sim w a) :
      Alike (.ok (o, w)) (.ok (o, a))
  | error (f : Failure) : Alike (.error f) (.error f)

section Relations
variable {R : S → S' → Prop}

theorem forall₂_imp_of_mem {A B : Type} {Q Q' : A → B → Prop} {l : List A} {l' : List B}
    (h : List.Forall₂ Q l l') (himp : ∀ a b, a ∈ l → Q a b → Q' a b) : List.Forall₂ Q' l l' :=
  ((List.forall₂_and_left _ _).mpr ⟨fun _ ha => ha, h⟩).imp fun a b hab => himp a b hab.1 hab.2

theorem Contents.Rel.imp {R' : S → S' → Prop} {c : Contents κ σ σ' S} {c' : Contents κ σ σ' S'}
    (h : c.Rel R c') (himp : ∀ s s', s ∈ c.strings → R s s' → R' s s') : c.Rel R' c' := by
  simp only [Contents.strings, List.mem_append, List.mem_flatMap] at himp
  refine ⟨⟨h.res.data, forall₂_imp_of_mem h.res.strings fun s s' hs =>
    himp s s' (.inl (.inl hs))⟩, ?_, ?_⟩
  · exact forall₂_imp_of_mem h.first fun e e' he hrel =>
      ⟨hrel.data, forall₂_imp_of_mem hrel.strings fun s s' hs =>
        himp s s' (.inl (.inr ⟨e, he, hs⟩))⟩
  · exact forall₂_imp_of_mem h.second fun e e' he hrel =>
      ⟨hrel.data, forall₂_imp_of_mem hrel.strings fun s s' hs => himp s s' (.inr ⟨e, he, hs⟩)⟩

theorem rel_getElem? {A B : Type} {Q : A → B → Prop} {l : List A} {l' : List B}
    (h : List.Forall₂ Q l l') (k : ℕ) : Option.Rel Q l[k]? l'[k]? := by
  induction h generalizing k with
  | nil => exact .none
  | cons hab _ ih =>
      cases k with
      | zero => simpa using Option.Rel.some hab
      | succ k => simpa using ih k

theorem Contents.Rel.stringsOf {c : Contents κ σ σ' S} {c' : Contents κ σ σ' S'} (h : c.Rel R c')
    (part : Part) : Option.Rel (List.Forall₂ R) (c.stringsOf part) (c'.stringsOf part) := by
  cases part with
  | res => exact .some h.res.strings
  | first idx =>
      have hentry := rel_getElem? h.first idx
      simp only [Contents.stringsOf]
      generalize c.first[idx]? = e, c'.first[idx]? = e' at hentry
      cases hentry with
      | none => exact .none
      | some hrel => exact .some hrel.strings
  | second idx =>
      have hentry := rel_getElem? h.second idx
      simp only [Contents.stringsOf]
      generalize c.second[idx]? = e, c'.second[idx]? = e' at hentry
      cases hentry with
      | none => exact .none
      | some hrel => exact .some hrel.strings

theorem Contents.Rel.dataOf {c : Contents κ σ σ' S} {c' : Contents κ σ σ' S'} (h : c.Rel R c')
    (part : Part) : c.dataOf part = c'.dataOf part := by
  cases part with
  | res => simp only [Contents.dataOf, h.res.data]
  | first idx =>
      have hentry := rel_getElem? h.first idx
      simp only [Contents.dataOf]
      generalize c.first[idx]? = e, c'.first[idx]? = e' at hentry
      cases hentry with
      | none => rfl
      | some hrel => simp [hrel.data]
  | second idx =>
      have hentry := rel_getElem? h.second idx
      simp only [Contents.dataOf]
      generalize c.second[idx]? = e, c'.second[idx]? = e' at hentry
      cases hentry with
      | none => rfl
      | some hrel => simp [hrel.data]

end Relations

/-! ## Objects and strings -/

section Strings
variable {tested : Bool} {room : ℕ → Bool} {w : World κ σ σ'} {a : Abstract κ σ σ'}

theorem mem_ptrs {c : Contents κ σ σ' (Option ℕ)} {q : ℕ} : q ∈ ptrs c ↔ some q ∈ c.strings := by
  simp [ptrs, List.mem_flatMap, Option.mem_toList]

/-- An object keeps its value as long as its copy, and the strings of that, stay as they are. -/
theorem SimObject.keep {record record' : ℕ → Contents κ σ σ' (Option ℕ)} {v : Object}
    {u : Snapshot κ σ σ'} (h : SimObject m record v u)
    (hkeep : ∀ r, v.d = some r → record' r = record r ∧
      ∀ q ∈ ptrs (record r), m'.block q = m.block q) : SimObject m' record' v u := by
  obtain ⟨herror, hpart, hcontents⟩ := h
  refine ⟨herror, hpart, ?_⟩
  generalize hd : v.d = d, u.contents = contents at hcontents
  cases hcontents with
  | none => exact .none
  | @some r c hrel =>
      obtain ⟨hrecord, hblock⟩ := hkeep r hd
      refine .some ?_
      rw [hrecord]
      refine hrel.imp fun p s hp hshows => ?_
      cases hshows with
      | null => exact .null
      | string hs => exact .string ((hblock _ (mem_ptrs.mpr hp)).trans hs)

/-- What the objects refer to is a copy that has an owner. -/
theorem useCount_pos_of_mem {v : Object} (h : some v ∈ w.store.objects) {r : ℕ}
    (hr : v.d = some r) : 0 < w.store.useCount r :=
  List.countP_pos_iff.mpr ⟨some v, h, by simp [Owner.ptr, hr]⟩

theorem own_some {r : ℕ} (h : 0 < w.store.useCount r) : own w (some r) = ptrs (w.store.record r) :=
  if_pos h

/-- All objects keep their values. -/
theorem Sim.objects_keep (h : Sim w a) {record' : ℕ → Contents κ σ σ' (Option ℕ)}
    (hkeep : ∀ r, 0 < w.store.useCount r → record' r = w.store.record r ∧
      ∀ q ∈ ptrs (w.store.record r), m'.block q = w.memory.block q) :
    List.Forall₂ (Option.Rel (SimObject m' record')) w.store.objects a.objects := by
  refine forall₂_imp_of_mem h.objects fun v u hv hrel => ?_
  cases hrel with
  | none => exact .none
  | some hrel =>
      exact .some (hrel.keep fun r hr => hkeep r (useCount_pos_of_mem hv hr))

theorem Sim.get (h : Sim w a) (x : ℕ) :
    Option.Rel (SimObject w.memory w.store.record) (w.store.get x) (a.get x) :=
  rel_join_getElem? h.objects x

/-- gpgme's own strings and those of the copies are different ones. -/
theorem Sim.not_mem_own (h : Sim w a) {r q : ℕ} (hr : 0 < w.store.useCount r)
    (hq : q ∈ ptrs (w.store.record r)) : q ∉ own w none := by
  intro hmem
  have hown : q ∈ own w (some r) := by rwa [own_some hr]
  cases h.separated.disjoint none (some r) q hmem hown

/-- The pointers of gpgme's result show its strings, also after blocks were added. -/
theorem rel_grows {c : Contents κ σ σ' (Option ℕ)} {c' : Contents κ σ σ' (Option CString)}
    (h : c.Rel (Shows m) c') (hgrows : m.Grows m') : c.Rel (Shows m') c' :=
  h.imp fun _ _ _ hshows => hshows.grows hgrows

/-! ## The steps -/

/-- Another object, which refers to nothing or to what another one refers to. -/
theorem Sim.push (h : Sim w a) {v : Object} {u : Snapshot κ σ σ'}
    (hrel : SimObject w.memory w.store.record v u)
    (hv : ∀ r, v.d = some r → 0 < w.store.useCount r) :
    Sim { w with store := w.store.push v } (a.push u) := by
  have hown : own { w with store := w.store.push v } = own w := by
    funext i
    cases i with
    | none => rfl
    | some r =>
        have hcount : (w.store.push v).useCount r = w.store.useCount r + Store.owns r v :=
          Store.useCount_push v r
        have hpos : 0 < (w.store.push v).useCount r ↔ 0 < w.store.useCount r := by
          rw [hcount]
          by_cases hr : v.d = some r
          · have hpos := hv r hr
            omega
          · simp [Store.owns, Owner.ptr, hr]
        simp only [own, hpos]
        rfl
  exact
    { separated := hown ▸ h.separated
      room := h.room
      bounded := Store.bounded_push h.bounded fun r hr =>
        Store.lt_of_useCount_pos h.bounded (hv r hr)
      current := h.current
      objects := List.rel_append h.objects (.cons (.some hrel) .nil) }

/-- Nothing is lost of what gpgme makes. -/
theorem Contents.traverse_eq_ok {M : Type} (c : Contents κ σ σ' S) (m : M) :
    c.traverse (fun s m => .ok (s, m)) m = .ok (c, m) := by
  have hentry {τ : Type} (e : Entry τ S) (m : M) :
      e.traverse (fun s m => .ok (s, m)) m = .ok (e, m) := by
    simp [Entry.traverse, mapAll_eq_ok (fun _ _ => rfl)]
  simp [Contents.traverse, hentry, mapAll_eq_ok hentry]

theorem Contents.Rel.refl {R : S → S → Prop} (hR : ∀ s, R s s) (c : Contents κ σ σ' S) :
    c.Rel R c :=
  have hentry {τ : Type} (e : Entry τ S) : e.Rel R e :=
    ⟨rfl, List.forall₂_same.mpr fun s _ => hR s⟩
  ⟨hentry c.res, List.forall₂_same.mpr fun e _ => hentry e,
    List.forall₂_same.mpr fun e _ => hentry e⟩

/-- An operation of gpgme: its result is freed, and there is another. -/
theorem sim_operation (h : Sim w a) (res : Option (Contents κ σ σ' (Option CString))) :
    ∃ w', operation w res = .ok w' ∧ Sim w' { a with current := res } := by
  -- gpgme's result is freed
  obtain ⟨m₁, hfree, hsep₁, hroom₁, hkeep₁⟩ :
      ∃ m₁, (w.current.elim (.ok w.memory) fun c => freeStrings c w.memory) = .ok m₁ ∧
        m₁.Separated (Function.update (own w) none []) ∧ m₁.room = w.memory.room ∧
        ∀ q, q ∉ own w none → m₁.block q = w.memory.block q := by
    cases hcurrent : w.current with
    | none =>
        have hnil : own w none = [] := by simp [own, hcurrent]
        have hsame : Function.update (own w) none [] = own w :=
          Function.update_eq_self_iff.mpr hnil.symm
        exact ⟨w.memory, rfl, hsame.symm ▸ h.separated, rfl, fun _ _ => rfl⟩
    | some c =>
        refine h.separated.freeAll ?_
        simp [own, hcurrent, ptrs, List.filterMap_eq_flatMap_toList]
  have hobjects : ∀ r, 0 < w.store.useCount r →
      ∀ q ∈ ptrs (w.store.record r), m₁.block q = w.memory.block q :=
    fun r hr q hq => hkeep₁ q (h.not_mem_own hr hq)
  simp only [operation, hfree]
  cases res with
  | none =>
      refine ⟨_, rfl, ?_, hroom₁.trans h.room, h.bounded, .none,
        h.objects_keep fun r hr => ⟨rfl, hobjects r hr⟩⟩
      convert hsep₁ using 1
      funext i
      cases i <;> simp [own]
  | some c =>
      have hmade := (acquires_traverse (acquires_makeString none)).spec _ m₁ c c hsep₁
        (.refl (fun _ => rfl) c)
      rw [c.traverse_eq_ok m₁.room] at hmade
      dsimp only
      generalize c.traverse makeString m₁ = r, hroom₂ : m₁.room = room₂ at hmade ⊢
      obtain @⟨c', m₂, _, hsep₂, hgrows₂, hrel⟩ := hmade
      refine ⟨{ w with memory := m₂, current := some c' }, rfl, ?_,
        hroom₂.symm.trans (hroom₁.trans h.room), h.bounded, .some hrel,
        h.objects_keep fun r hr => ⟨rfl, fun q hq => ?_⟩⟩
      · convert hsep₂ using 1
        funext i
        cases i <;> simp [own]
      · have hown : q ∈ own w (some r) := by rwa [own_some hr]
        obtain ⟨s, hs⟩ := Option.isSome_iff_exists.mp (h.separated.there (some r) q hown)
        rw [hs]
        exact hgrows₂ q s ((hobjects r hr q hq).trans hs)

/-- An object is made of the context, and refers to the copy `c'` of what gpgme has now. -/
theorem Sim.newCopy (h : Sim w a) {c' : Contents κ σ σ' (Option ℕ)}
    {v : Contents κ σ σ' (Option CString)}
    (hsep : m'.Separated (Function.update (own w) (some w.store.next) (ptrs c')))
    (hgrows : w.memory.Grows m') (hrel : c'.Rel (Shows m') v) (error : Error) :
    Sim
      { w with
        memory := m'
        store := (w.store.new c').push ⟨error, .res, some w.store.next⟩ }
      ({ a with room := m'.room }.push ⟨error, .res, some v⟩) := by
  have hkeep : ∀ r, 0 < w.store.useCount r → (w.store.new c').record r = w.store.record r ∧
      ∀ q ∈ ptrs (w.store.record r), m'.block q = w.memory.block q := by
    intro r hr
    have hlt := Store.lt_of_useCount_pos h.bounded hr
    refine ⟨Function.update_of_ne (Nat.ne_of_lt hlt) _ _, fun q hq => ?_⟩
    have hown : q ∈ own w (some r) := by rwa [own_some hr]
    obtain ⟨s, hs⟩ := Option.isSome_iff_exists.mp (h.separated.there (some r) q hown)
    rw [hs]
    exact hgrows q s hs
  refine ⟨?_, rfl, ?_, ?_, ?_⟩
  · convert hsep using 1
    funext i
    cases i with
    | none => simp [own]
    | some r =>
        have hcount : ((w.store.new c').push ⟨error, .res, some w.store.next⟩).useCount r =
            w.store.useCount r + if w.store.next = r then 1 else 0 := by
          rw [Store.useCount_push, Store.useCount_new]
          simp [Store.owns, Owner.ptr]
        simp only [own, hcount]
        by_cases hr : r = w.store.next
        · subst hr
          simp [Store.push, Store.new]
        · rw [Function.update_of_ne (by simpa using hr), if_neg (Ne.symm hr)]
          simp [own, Store.push, Store.new, Function.update_of_ne hr]
  · refine Store.bounded_push (Store.bounded_new h.bounded c') fun r hr => ?_
    obtain rfl : w.store.next = r := by simpa [Owner.ptr] using hr
    exact Nat.lt_succ_self _
  · have hcurrent := h.current
    change Option.Rel _ w.current a.current
    generalize w.current = current, a.current = value at hcurrent
    cases hcurrent with
    | none => exact .none
    | some hshows => exact .some (rel_grows hshows hgrows)
  · refine List.rel_append (h.objects_keep hkeep) (.cons (.some ⟨rfl, rfl, ?_⟩) .nil)
    have hnew : (w.store.new c').record w.store.next = c' := by simp [Store.new]
    refine .some ?_
    rwa [hnew]

/-- **An object is made of the context**, unless a constructor without a test finds a null
pointer. -/
theorem sim_ofContext (h : Sim w a) (tested : Bool) (error : Error) :
    Alike (finished (ofContext tested w error)) (a.step tested (.ofContext error)) := by
  have hcurrent := h.current
  cases hc : w.current <;> cases ha : a.current <;> rw [hc, ha] at hcurrent <;> cases hcurrent
  case none.none.none =>
    have hnull : ofContext tested w error =
        .ok { w with store := w.store.push ⟨error, .res, none⟩ } := by
      simp only [ofContext, hc]
    have hvalue : a.step tested (.ofContext error) = .ok (.done, a.push ⟨error, .res, none⟩) := by
      simp only [Abstract.step, ha]
    rw [hnull, hvalue]
    exact .ok (h.push (v := ⟨error, .res, none⟩) (u := ⟨error, .res, none⟩) ⟨rfl, rfl, .none⟩
      nofun)
  case some.some.some c value hshows =>
    have hcopies : Memory.Acquires _ (ptrs : Contents κ σ σ' (Option ℕ) → List ℕ) _ _ _ _ :=
      acquires_traverse (acquires_copyString (some w.store.next) tested)
    have hcopy := hcopies.spec _ w.memory c value h.separated hshows
    generalize hf : c.traverse (copyString tested) w.memory = r,
      hg : value.traverse (keepString tested) w.memory.room = r' at hcopy
    cases hcopy with
    | error f =>
        simp only [ofContext, hc, hf, Abstract.step, ha, ← h.room, hg, finished]
        exact .error _
    | @ok c' m' v hsep hgrows hrel =>
        -- the new copy has no object yet
        have hfresh : w.store.useCount w.store.next = 0 := by
          by_contra hne
          exact absurd (Store.lt_of_useCount_pos h.bounded (Nat.pos_of_ne_zero hne))
            (Nat.lt_irrefl _)
        have hnil : own w (some w.store.next) = [] := by simp [own, hfresh]
        rw [hnil, List.nil_append] at hsep
        have hcopied : ofContext tested w error =
            .ok
              { w with
                memory := m'
                store := (w.store.new c').push ⟨error, .res, some w.store.next⟩ } := by
          simp only [ofContext, hc, hf]
        have hvalue : a.step tested (.ofContext error) =
            .ok (.done, { a with room := m'.room }.push ⟨error, .res, some v⟩) := by
          simp only [Abstract.step, ha, ← h.room, hg]
        rw [hcopied, hvalue]
        exact .ok (h.newCopy hsep hgrows hrel error)

/-- **An object is gone from its place**, and with it the copy that it referred to, if it was the
last that did.  What the other objects refer to stays. -/
theorem sim_release (h : Sim w a) {d : Option ℕ}
    {store : Store Object (Contents κ σ σ' (Option ℕ))} {objects : List (Option (Snapshot κ σ σ'))}
    (hrecord : store.record = w.store.record) (hbounded : store.Bounded)
    (hd : ∀ r, d = some r → 0 < w.store.useCount r)
    (hother : ∀ r, d ≠ some r → (0 < store.useCount r ↔ 0 < w.store.useCount r))
    (hobjects : List.Forall₂ (Option.Rel (SimObject w.memory w.store.record)) store.objects
      objects) :
    ∃ w', release w store d = .ok w' ∧ Sim w' { a with objects := objects } := by
  -- nothing is freed if there is no copy, or another object refers to it
  have hsame : (∀ r, d = some r → 0 < store.useCount r) →
      Sim { w with store := store } { a with objects := objects } := by
    intro hlive
    have hown : own { w with store := store } = own w := by
      funext i
      cases i with
      | none => rfl
      | some r =>
          have hpos : 0 < store.useCount r ↔ 0 < w.store.useCount r := by
            by_cases hr : d = some r
            · exact iff_of_true (hlive r hr) (hd r hr)
            · exact hother r hr
          simp only [own, hpos, hrecord]
    exact
      { separated := hown ▸ h.separated
        room := h.room
        bounded := hbounded
        current := h.current
        objects := by rw [hrecord]; exact hobjects }
  cases d with
  | none => exact ⟨_, rfl, hsame nofun⟩
  | some r =>
      by_cases hzero : store.useCount r = 0
      · have hr := hd r rfl
        have hown : own w (some r) = (w.store.record r).strings.filterMap id := by
          rw [own_some hr, ptrs, List.filterMap_eq_flatMap_toList]
          rfl
        obtain ⟨m', hfree, hsep, hroom, hkeep⟩ := h.separated.freeAll hown
        refine ⟨{ w with memory := m', store := store },
          by simp only [release, if_pos hzero, freeStrings, hrecord, hfree], ?_,
          hroom.trans h.room, hbounded, ?_, ?_⟩
        · convert hsep using 1
          funext i
          cases i with
          | none => simp [own]
          | some z =>
              by_cases hz : z = r
              · subst hz
                simp [own, hzero]
              · have hiff := hother z (by simpa using Ne.symm hz)
                simp [own, hiff, hrecord, Function.update_of_ne (by simpa using hz :
                  (some z : Option ℕ) ≠ some r)]
        · -- gpgme's strings are others than those of the copy
          have hcurrent := h.current
          generalize hc : w.current = current, a.current = value at hcurrent
          cases hcurrent with
          | none => exact .none
          | @some c value hrel =>
              refine .some (hrel.imp fun p s hp hshows => ?_)
              cases hshows with
              | null => exact .null
              | @string q s hs =>
                  refine .string ((hkeep q fun hq => ?_).trans hs)
                  have hnone : q ∈ own w none := by
                    simp only [own, hc, Option.elim_some]
                    exact mem_ptrs.mpr hp
                  cases h.separated.disjoint none (some r) q hnone hq
        · rw [hrecord]
          refine forall₂_imp_of_mem hobjects fun v u hv hrel => ?_
          cases hrel with
          | none => exact .none
          | some hrel =>
              refine .some (hrel.keep fun z hz => ⟨rfl, fun q hq => hkeep q fun hqr => ?_⟩)
              have hpos : 0 < store.useCount z :=
                List.countP_pos_iff.mpr ⟨_, hv, by simp [Owner.ptr, hz]⟩
              have hne : z ≠ r := fun hzr => by rw [hzr, hzero] at hpos; omega
              have hzpos := (hother z (by simpa using Ne.symm hne)).mp hpos
              have hzown : q ∈ own w (some z) := by rwa [own_some hzpos]
              have heq := h.separated.disjoint (some z) (some r) q hzown hqr
              exact hne (Option.some.inj heq)
      · refine ⟨{ w with store := store }, by simp only [release, if_neg hzero], hsame ?_⟩
        intro z hz
        obtain rfl := Option.some.inj hz
        omega

/-- An accessor for strings does not follow a pointer to a string that is gone. -/
theorem sim_string {v : Object} {u : Snapshot κ σ σ'}
    (hrel : SimObject w.memory w.store.record v u) (x k : ℕ) :
    ∃ s, string w v k = .ok s ∧ Abstract.query u (.string x k) = .string s := by
  obtain ⟨-, hpart, hcontents⟩ := hrel
  simp only [string, Abstract.query, hpart]
  generalize v.d = d, u.contents = contents at hcontents
  cases hcontents with
  | none => exact ⟨none, rfl, rfl⟩
  | @some r c hrel =>
      have hstrings := hrel.stringsOf u.part
      simp only [Option.bind_some]
      generalize (w.store.record r).stringsOf u.part = l, c.stringsOf u.part = l' at hstrings ⊢
      cases hstrings with
      | none => exact ⟨none, rfl, rfl⟩
      | @some l l' hall =>
          have hk := rel_getElem? hall k
          simp only [Option.bind_some]
          generalize l[k]? = p, l'[k]? = s at hk ⊢
          cases hk with
          | none => exact ⟨none, rfl, rfl⟩
          | @some p s hshows =>
              cases hshows with
              | null => exact ⟨none, rfl, rfl⟩
              | @string q s hs => exact ⟨some s, by simp [hs], rfl⟩

/-- **One step of the copies** is one of the values. -/
theorem sim_step (h : Sim w a) (tested : Bool) (i : Op κ σ σ') :
    Alike (step tested w i) (a.step tested i) := by
  have hfinished : ∀ {r : Except Blocks.Fault (World κ σ σ')} {b : Abstract κ σ σ'},
      (∃ w', r = .ok w' ∧ Sim w' b) → Alike (finished r) (.ok (.done, b)) := by
    rintro r b ⟨w', rfl, hw'⟩
    exact .ok hw'
  have hget : ∀ x, Option.Rel (SimObject w.memory w.store.record) (w.store.get x) (a.get x) :=
    h.get
  cases i with
  | operation res => exact hfinished (sim_operation h res)
  | ofContext error => exact sim_ofContext h tested error
  | ofError error =>
      exact .ok (h.push (v := ⟨error, .res, none⟩) (u := ⟨error, .res, none⟩) ⟨rfl, rfl, .none⟩
        nofun)
  | copy x =>
      have hx := hget x
      simp only [step, Abstract.step]
      cases hv : w.store.get x <;> cases hu : a.get x <;> rw [hv, hu] at hx <;> cases hx
      case none.none.none => exact .error _
      case some.some.some hrel => exact .ok (h.push hrel fun r hr => Store.useCount_pos hv hr)
  | assign x y =>
      have hx := hget x
      have hy := hget y
      simp only [step, Abstract.step]
      cases hv : w.store.get x <;> cases hu : a.get x <;> rw [hv, hu] at hx <;> cases hx
      case none.none.none => exact .error _
      case some.some.some v u _ =>
        cases hv' : w.store.get y <;> cases hu' : a.get y <;> rw [hv', hu'] at hy <;> cases hy
        case none.none.none => exact .error _
        case some.some.some v' u' hrel' =>
          refine hfinished (sim_release h rfl (Store.bounded_put h.bounded fun r hr =>
            h.bounded y v' r hv' hr) (fun r hr => Store.useCount_pos hv hr) (fun r hr => ?_)
            (forall₂_set h.objects (.some hrel') x))
          have hcount := Store.useCount_put hv v' r
          have hzero : Store.owns r v = 0 := if_neg hr
          by_cases hr' : v'.d = some r
          · have hpos := Store.useCount_pos hv' hr'
            omega
          · have hzero' : Store.owns r v' = 0 := if_neg hr'
            omega
  | destroy x =>
      have hx := hget x
      simp only [step, Abstract.step]
      cases hv : w.store.get x <;> cases hu : a.get x <;> rw [hv, hu] at hx <;> cases hx
      case none.none.none => exact .error _
      case some.some.some v u _ =>
        refine hfinished (sim_release h rfl (Store.bounded_destroy h.bounded)
          (fun r hr => Store.useCount_pos hv hr) (fun r hr => ?_) (forall₂_set h.objects .none x))
        have hcount := Store.useCount_destroy hv r
        have hzero : Store.owns r v = 0 := if_neg hr
        omega
  | child x part =>
      have hx := hget x
      simp only [step, Abstract.step]
      cases hv : w.store.get x <;> cases hu : a.get x <;> rw [hv, hu] at hx <;> cases hx
      case none.none.none => exact .error _
      case some.some.some v u hrel =>
        exact .ok (h.push (v := ⟨.none, part, v.d⟩) (u := ⟨.none, part, u.contents⟩)
          ⟨rfl, rfl, hrel.contents⟩ fun r hr => Store.useCount_pos hv hr)
  | string x k =>
      have hx := hget x
      simp only [step, Abstract.step]
      cases hv : w.store.get x <;> cases hu : a.get x <;> rw [hv, hu] at hx <;> cases hx
      case none.none.none => exact .error _
      case some.some.some v u hrel =>
        obtain ⟨s, hs, hquery⟩ := sim_string hrel x k
        simp only [hs, hquery]
        exact .ok h
  | data x =>
      have hx := hget x
      simp only [step, Abstract.step]
      cases hv : w.store.get x <;> cases hu : a.get x <;> rw [hv, hu] at hx <;> cases hx
      case none.none.none => exact .error _
      case some.some.some v u hrel =>
        have hdata : Abstract.query u (.data x) = .data (data w v) := by
          obtain ⟨-, hpart, hcontents⟩ := hrel
          simp only [data, Abstract.query, hpart]
          generalize v.d = d, u.contents = contents at hcontents
          cases hcontents with
          | none => rfl
          | some hrel => simp [hrel.dataOf]
        simp only [hdata]
        exact .ok h
  | counts x =>
      have hx := hget x
      simp only [step, Abstract.step]
      cases hv : w.store.get x <;> cases hu : a.get x <;> rw [hv, hu] at hx <;> cases hx
      case none.none.none => exact .error _
      case some.some.some v u hrel =>
        have hcounts : Abstract.query u (.counts x) = counts w v := by
          obtain ⟨-, -, hcontents⟩ := hrel
          simp only [counts, Abstract.query]
          generalize v.d = d, u.contents = contents at hcontents
          cases hcontents with
          | none => rfl
          | some hrel => simp [hrel.first.length_eq, hrel.second.length_eq]
        simp only [hcounts]
        exact .ok h
  | error x =>
      have hx := hget x
      simp only [step, Abstract.step]
      cases hv : w.store.get x <;> cases hu : a.get x <;> rw [hv, hu] at hx <;> cases hx
      case none.none.none => exact .error _
      case some.some.some v u hrel =>
        simp only [Abstract.query, ← hrel.error]
        exact .ok h

end Strings

theorem sim_start [Inhabited κ] (room : ℕ → Bool) :
    Sim (start room : World κ σ σ') (.start room) where
  separated := by
    have hown : own (start room : World κ σ σ') = fun _ => [] := by
      funext i
      cases i with
      | none => rfl
      | some r => simp [own, start, Store.useCount]
    rw [hown]
    exact Memory.separated_empty room
  room := rfl
  bounded := by intro x v r hv; simp [start, Store.get] at hv
  current := .none
  objects := .nil

/-! ## Faults -/

section Runs
variable [Inhabited κ] {w : World κ σ σ'}
  {ts : List (Transition (World κ σ σ') (Op κ σ σ') (Output κ σ σ'))}

/-- Whole runs correspond. -/
theorem sim_run {tested : Bool} {room : ℕ → Bool} (h : Run (step tested) (start room) ts w) :
    ∃ us a, Run (Abstract.step tested) (.start room) us a ∧
      us.map Transition.input = ts.map Transition.input ∧
      us.map Transition.output = ts.map Transition.output ∧ Sim w a := by
  have hstep : ∀ (w : World κ σ σ') (a : Abstract κ σ σ') (i : Op κ σ σ') (o : Output κ σ σ')
      (w' : World κ σ σ'), Sim w a → True → step tested w i = .ok (o, w') →
      ∃ o' a', a.step tested i = .ok (o', a') ∧ o = o' ∧ Sim w' a' := by
    intro w a i o w' hsim _ hw
    have halike := sim_step hsim tested i
    rw [hw] at halike
    generalize a.step tested i = r at halike
    cases halike with
    | ok hsim' => exact ⟨o, _, rfl, rfl, hsim'⟩
  obtain ⟨us, a, hrun, hin, hout, hsim⟩ :=
    h.simulated Sim (· = ·) (fun _ => True) hstep (sim_start room) fun _ _ => trivial
  exact ⟨us, a, hrun, hin, (List.forall₂_eq_eq_eq ▸ hout).symm, hsim⟩

end Runs

end Gpgmepp.ResultCopies
