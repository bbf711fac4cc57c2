import Gpgmepp.Lib.Counted
import Gpgmepp.Lib.Run

/-!
# The references of keys

gpgme counts the references of its keys.  Whoever is handed a key has one of them: a `Key`, whose
copies share it, and with them the objects for its user IDs, its subkeys and their signatures; the
last of them drops it.  A context has a reference to each of its signing keys, and hands out
another one to whoever asks for the key.  So there may be several groups of objects for one key.

The functions of gpgme for signing keys are a parameter, `GpgmeSigners`, with their documented
behaviour.

## Main definitions

* `GpgmeSigners` — gpgme as the sources use it; `GpgmeSigners.documented` is one such library.
* `KeyObject` — an object for a key, or for a part of it.
* `World`, `Op`, `step` — the objects of a program, and what it does with them.
* `World.Refers` — the key is in use.
* `keysCounted` — a key is there as long as it is in use, and no longer.
-/

namespace Gpgmepp.KeyReferences

open Shared Counted StateMachine

/-- What an object is about: a key, or a part of it.  The functions of an object for a part read in
the lists of the key. -/
inductive Part
  | key
  | userID (index : ℕ)
  | subkey (index : ℕ)
  | signature (uid index : ℕ)
  deriving DecidableEq

/-- `Key`, `UserID`, `Subkey` or `UserID::Signature`, with the shared pointer of each. -/
structure KeyObject where
  part : Part
  key : Option ℕ

instance : Owner KeyObject where
  ptr v := v.key
  withPtr v p := { v with key := p }
  ptr_withPtr _ _ := rfl

/-- The signing keys of a context. -/
def signersOf (signers : List (ℕ × ℕ)) (ctx : ℕ) : List ℕ :=
  (signers.filter (·.1 = ctx)).map Prod.snd

/-- The functions of gpgme for signing keys.  The signing keys are given with their contexts, in the
order in which they were added. -/
class GpgmeSigners where
  /-- `gpgme_signers_add(ctx, key)`, where `key` may be null; `memory` says whether there is
  memory. -/
  signersAdd : Resources → List (ℕ × ℕ) → (ctx : ℕ) → (key : Option ℕ) → (memory : Bool) →
    Except Gone (Resources × List (ℕ × ℕ))
  signersAdd_null : ∀ keys signers ctx memory,
    signersAdd keys signers ctx none memory = .ok (keys, signers)
  signersAdd_noMemory : ∀ keys signers ctx k,
    signersAdd keys signers ctx (some k) false = .ok (keys, signers)
  /-- The context gets a reference of its own. -/
  signersAdd_key : ∀ keys signers ctx k, signersAdd keys signers ctx (some k) true =
    (keys.ref k).map fun keys => (keys, signers ++ [(ctx, k)])
  /-- `gpgme_signers_clear(ctx)`. -/
  signersClear : Resources → List (ℕ × ℕ) → (ctx : ℕ) → Except Gone (Resources × List (ℕ × ℕ))
  /-- The references of the context are dropped. -/
  signersClear_eq : ∀ keys signers ctx, signersClear keys signers ctx =
    ((signersOf signers ctx).foldlM Resources.unref keys).map fun keys =>
      (keys, signers.filter (·.1 ≠ ctx))
  /-- `gpgme_signers_enum(ctx, idx)`. -/
  signersEnum : Resources → List (ℕ × ℕ) → (ctx idx : ℕ) → Except Gone (Option ℕ × Resources)
  /-- Whoever asks for a key gets a reference to it. -/
  signersEnum_key : ∀ keys signers ctx idx k, (signersOf signers ctx)[idx]? = some k →
    signersEnum keys signers ctx idx = (keys.ref k).map fun keys => (some k, keys)
  signersEnum_null : ∀ keys signers ctx idx, (signersOf signers ctx)[idx]? = none →
    signersEnum keys signers ctx idx = .ok (none, keys)

/-- gpgme as it is documented, to evaluate instances with. -/
abbrev GpgmeSigners.documented : GpgmeSigners where
  signersAdd keys signers ctx key memory :=
    match key, memory with
    | some k, true => (keys.ref k).map fun keys => (keys, signers ++ [(ctx, k)])
    | _, _ => .ok (keys, signers)
  signersAdd_null _ _ _ _ := rfl
  signersAdd_noMemory _ _ _ _ := rfl
  signersAdd_key _ _ _ _ := rfl
  signersClear keys signers ctx :=
    ((signersOf signers ctx).foldlM Resources.unref keys).map fun keys =>
      (keys, signers.filter (·.1 ≠ ctx))
  signersClear_eq _ _ _ := rfl
  signersEnum keys signers ctx idx :=
    match (signersOf signers ctx)[idx]? with
    | some k => (keys.ref k).map fun keys => (some k, keys)
    | none => .ok (none, keys)
  signersEnum_key _ _ _ _ _ h := by rw [h]
  signersEnum_null _ _ _ _ h := by rw [h]

/-- The keys of gpgme, the signing keys of its contexts, and the objects. -/
structure World where
  keys : Resources
  /-- Contexts, each with a signing key, in the order in which they were added. -/
  signers : List (ℕ × ℕ)
  store : Store KeyObject ℕ

/-- What happens. -/
inductive Op
  /-- `Key()`. -/
  | null
  /-- `Context::nextKey`, `Context::key`, and the event for a key, when there is one or not. -/
  | deliver (found : Bool)
  /-- `Context::addSigningKey`, when gpgme has the memory for it or not. -/
  | addSigningKey (ctx x : ℕ) (memory : Bool)
  /-- `Context::clearSigningKeys`, and the end of a context. -/
  | clearSigningKeys (ctx : ℕ)
  | signingKey (ctx idx : ℕ)
  | signingKeys (ctx : ℕ)
  | copy (x : ℕ)
  | assign (x y : ℕ)
  | swap (x y : ℕ)
  | destroy (x : ℕ)
  /-- The object for a part, or for the key of a part. -/
  | derive (x : ℕ) (part : Part)
  /-- Something is read in the key. -/
  | read (x : ℕ)

/-- Why there is no step. -/
inductive Failure
  | fault (g : Gone)
  /-- There is no such object. -/
  | noObject

/-- `Key(k, acquireRef)`. -/
def construct (w : World) (k : Option ℕ) (acquireRef : Bool) : Except Gone World :=
  match k with
  | none => .ok { w with store := w.store.push ⟨.key, none⟩ }
  | some k =>
      let store := (w.store.new k).push ⟨.key, some w.store.next⟩
      if acquireRef then (w.keys.ref k).map fun keys => { w with keys := keys, store := store }
      else .ok { w with store := store }

/-- The deleter of the shared pointers, if an object was the last of its group. -/
def drop (w : World) (store : Store KeyObject ℕ) (key : Option ℕ) : Except Gone World :=
  match key with
  | none => .ok { w with store := store }
  | some r =>
      if store.useCount r = 0 then
        (w.keys.unref (store.record r)).map fun keys => { w with keys := keys, store := store }
      else .ok { w with store := store }

section Signers
variable [GpgmeSigners]

/-- `Context::addSigningKey`, of the key `k`. -/
def addSigningKey (w : World) (ctx : ℕ) (k : Option ℕ) (memory : Bool) : Except Gone World :=
  (GpgmeSigners.signersAdd w.keys w.signers ctx k memory).map fun p =>
    { w with keys := p.1, signers := p.2 }

/-- `Context::clearSigningKeys`. -/
def clearSigningKeys (w : World) (ctx : ℕ) : Except Gone World :=
  (GpgmeSigners.signersClear w.keys w.signers ctx).map fun p =>
    { w with keys := p.1, signers := p.2 }

/-- `Context::signingKey`. -/
def signingKey (w : World) (ctx idx : ℕ) : Except Gone World :=
  match GpgmeSigners.signersEnum w.keys w.signers ctx idx with
  | .error f => .error f
  | .ok (k, keys) => construct { w with keys := keys } k false

/-- The loop of `Context::signingKeys`, of at most `fuel` turns. -/
def signingKeysLoop (ctx : ℕ) : (fuel : ℕ) → World → (i : ℕ) → Except Gone World
  | 0, _, _ => .error .gone
  | fuel + 1, w, i =>
      match GpgmeSigners.signersEnum w.keys w.signers ctx i with
      | .error f => .error f
      | .ok (none, keys) => .ok { w with keys := keys }
      | .ok (some k, keys) =>
          match construct { w with keys := keys } (some k) false with
          | .error f => .error f
          | .ok w => signingKeysLoop ctx fuel w (i + 1)

/-- `Context::signingKeys`.  The loop ends at the index after the last key. -/
def signingKeys (w : World) (ctx : ℕ) : Except Gone World :=
  signingKeysLoop ctx (w.signers.length + 1) w 0

end Signers

/-- The key of an object. -/
def World.keyOf (w : World) (v : KeyObject) : Option ℕ := v.key.map w.store.record

/-- The object for a part. -/
def derivePart (w : World) (v : KeyObject) (part : Part) : Except Gone World :=
  let made := { w with store := w.store.push ⟨part, v.key⟩ }
  match w.keyOf v with
  | none => .ok made
  | some k => if part = .key then .ok made else (w.keys.read k).map fun _ => made

/-- A function that reads in the key. -/
def readKey (w : World) (v : KeyObject) : Except Gone World :=
  match w.keyOf v with
  | none => .ok w
  | some k => (w.keys.read k).map fun _ => w

/-- A step that cannot fail for want of an object. -/
def finished (r : Except Gone World) : Except Failure (Unit × World) :=
  match r with
  | .error f => .error (.fault f)
  | .ok w => .ok ((), w)

/-- A step with the object at a place. -/
def withObject (w : World) (x : ℕ) (f : KeyObject → Except Gone World) :
    Except Failure (Unit × World) :=
  match w.store.get x with
  | none => .error .noObject
  | some v => finished (f v)

/-- One step. -/
def step [GpgmeSigners] (w : World) : Op → Except Failure (Unit × World)
  | .null => finished (construct w none false)
  | .deliver false => finished (construct w none false)
  | .deliver true => finished (construct { w with keys := w.keys.make } (some w.keys.next) false)
  | .addSigningKey ctx x memory => withObject w x fun v => addSigningKey w ctx (w.keyOf v) memory
  | .clearSigningKeys ctx => finished (clearSigningKeys w ctx)
  | .signingKey ctx idx => finished (signingKey w ctx idx)
  | .signingKeys ctx => finished (signingKeys w ctx)
  | .copy x => withObject w x fun v => .ok { w with store := w.store.push v }
  | .assign x y =>
      match w.store.get x, w.store.get y with
      | some v, some u => finished (drop w (w.store.put x u) v.key)
      | _, _ => .error .noObject
  | .swap x y =>
      match w.store.get x, w.store.get y with
      | some v, some u => .ok ((), { w with store := (w.store.put x u).put y v })
      | _, _ => .error .noObject
  | .destroy x => withObject w x fun v => drop w (w.store.destroy x) v.key
  | .derive x part => withObject w x fun v => derivePart w v part
  | .read x => withObject w x fun v => readKey w v

/-- Nothing was done yet. -/
def start : World := ⟨.empty, [], ⟨[], fun _ => 0, 0⟩⟩

/-- The key is in use: it is a signing key of a context, or an object refers to it. -/
def World.Refers (w : World) (k : ℕ) : Prop :=
  (∃ ctx, (ctx, k) ∈ w.signers) ∨ ∃ x v, w.store.get x = some v ∧ w.keyOf v = some k

/-! ## Who has how many references -/

/-- How often a key is a signing key. -/
def signing (l : List (ℕ × ℕ)) (k : ℕ) : ℕ := l.countP (·.2 = k)

/-- The references of a key: one for each time that it is a signing key, and one for each group of
objects. -/
def owners (w : World) (k : ℕ) : ℕ := signing w.signers k + groups w.store k

/-- The references are counted. -/
structure Inv (w : World) : Prop where
  bounded : w.store.Bounded
  balanced : w.keys.Balanced (owners w)

section Invariant
variable {w : World} {k : ℕ}

theorem inv_start : Inv start := by
  refine ⟨fun x v r hv => by simp [start, Store.get] at hv, ?_⟩
  exact Resources.balanced_empty.congr fun k => by simp [owners, start, signing, groups]

/-- Objects that refer to nothing new, and the same groups. -/
theorem Inv.store (h : Inv w) {store : Store KeyObject ℕ} (hb : store.Bounded)
    (hgroups : ∀ k, groups store k = groups w.store k) : Inv { w with store := store } :=
  ⟨hb, h.balanced.congr fun k => by simp only [owners, hgroups]⟩

/-- Another object that shares the pointer of one that there is, or has none. -/
theorem Inv.push (h : Inv w) {v : KeyObject} (hv : ∀ r, v.key = some r → 0 < w.store.useCount r) :
    Inv { w with store := w.store.push v } := by
  refine h.store (Store.bounded_push h.bounded fun r hr =>
    Store.lt_of_useCount_pos h.bounded (hv r hr)) (groups_congr rfl rfl fun r => ?_)
  rw [Store.useCount_push]
  by_cases hr : v.key = some r
  · have hpos := hv r hr
    omega
  · simp [Store.owns, Owner.ptr, hr]

/-- A `Key` takes over the reference that it was made with. -/
theorem exists_construct (hb : w.store.Bounded)
    (hbal : w.keys.Balanced fun q => owners w q + if q = k then 1 else 0) :
    ∃ w', construct w (some k) false = .ok w' ∧ Inv w' ∧ w'.signers = w.signers := by
  refine ⟨{ w with store := (w.store.new k).push ⟨.key, some w.store.next⟩ }, rfl, ⟨?_, ?_⟩, rfl⟩
  · refine Store.bounded_push (Store.bounded_new hb k) fun r hr => ?_
    obtain rfl : w.store.next = r := by simpa [Owner.ptr] using hr
    exact Nat.lt_succ_self _
  · refine hbal.congr fun q => ?_
    simp only [owners]
    rw [groups_push_new hb rfl, Nat.add_assoc]

/-- `Key()`. -/
theorem exists_null (h : Inv w) : ∃ w', construct w none false = .ok w' ∧ Inv w' :=
  ⟨_, rfl, h.push nofun⟩

/-- A key that an object refers to has an owner. -/
theorem Inv.owners_pos_of_get (h : Inv w) {x : ℕ} {v : KeyObject} (hv : w.store.get x = some v)
    (hk : w.keyOf v = some k) : 0 < owners w k := by
  obtain ⟨r, hr, rfl⟩ := Option.map_eq_some_iff.mp hk
  have hpos := groups_pos_of_get h.bounded hv hr
  rw [owners]
  omega

/-- So has a signing key. -/
theorem owners_pos_of_mem {ctx : ℕ} (hmem : (ctx, k) ∈ w.signers) : 0 < owners w k := by
  have hpos : 0 < signing w.signers k := List.countP_pos_iff.mpr ⟨_, hmem, by simp⟩
  rw [owners]
  omega

/-- An object is gone from its place, and its reference if it was the last of its group. -/
theorem exists_drop (h : Inv w) {store : Store KeyObject ℕ} {key : Option ℕ}
    (hb : store.Bounded) (hnext : store.next = w.store.next)
    (hrecord : store.record = w.store.record)
    (hkey : ∀ r, key = some r → 0 < w.store.useCount r)
    (hother : ∀ r, key ≠ some r → (0 < store.useCount r ↔ 0 < w.store.useCount r)) :
    ∃ w', drop w store key = .ok w' ∧ Inv w' := by
  cases key with
  | none => exact ⟨_, rfl, h.store hb (groups_congr hnext hrecord fun r => hother r nofun)⟩
  | some r =>
      by_cases hzero : store.useCount r = 0
      · have hgroups := groups_drop hnext hrecord (fun q hq => hother q (by simpa using Ne.symm hq))
          (Store.lt_of_useCount_pos h.bounded (hkey r rfl)) (hkey r rfl) hzero
        obtain ⟨keys, hunref, -, hbal⟩ := h.balanced.unref (k := w.store.record r)
          (fun q => signing w.signers q + groups store q) fun q => by
            simp only [owners, hgroups q]
            omega
        exact ⟨{ w with keys := keys, store := store },
          by simp only [drop, if_pos hzero, hrecord, hunref, Except.map], hb, hbal⟩
      · refine ⟨{ w with store := store }, by simp only [drop, if_neg hzero], ?_⟩
        refine h.store hb (groups_congr hnext hrecord fun q => ?_)
        by_cases hq : r = q
        · subst hq
          exact iff_of_true (Nat.pos_of_ne_zero hzero) (hkey r rfl)
        · exact hother q (by simpa using hq)

section Signers
variable [GpgmeSigners]

/-- A signing key is added. -/
theorem exists_addSigningKey (h : Inv w) (ctx : ℕ) {k : Option ℕ} (memory : Bool)
    (hk : ∀ q, k = some q → 0 < owners w q) :
    ∃ w', addSigningKey w ctx k memory = .ok w' ∧ Inv w' := by
  cases k with
  | none => exact ⟨w, by simp only [addSigningKey, GpgmeSigners.signersAdd_null, Except.map], h⟩
  | some k =>
      cases memory with
      | false =>
          exact ⟨w, by simp only [addSigningKey, GpgmeSigners.signersAdd_noMemory, Except.map], h⟩
      | true =>
          obtain ⟨keys, href, -, hbal⟩ := h.balanced.ref (hk k rfl)
          refine ⟨{ w with keys := keys, signers := w.signers ++ [(ctx, k)] },
            by simp only [addSigningKey, GpgmeSigners.signersAdd_key, href, Except.map],
            h.bounded, ?_⟩
          refine hbal.congr fun q => ?_
          have hsigning : signing (w.signers ++ [(ctx, k)]) q =
              signing w.signers q + if q = k then 1 else 0 := by
            simp [signing, List.countP_append, List.countP_singleton, eq_comm]
          simp only [owners, hsigning]
          omega

omit [GpgmeSigners] in
/-- References are dropped one after the other. -/
theorem exists_unrefAll {l : List ℕ} {m : Resources} {rest : ℕ → ℕ}
    (h : m.Balanced fun q => rest q + l.count q) :
    ∃ m', l.foldlM Resources.unref m = .ok m' ∧ m'.Balanced rest := by
  induction l generalizing m with
  | nil => exact ⟨m, rfl, by simpa using h⟩
  | cons k l ih =>
      obtain ⟨m₁, hunref, -, hbal⟩ := h.unref (k := k) (fun q => rest q + l.count q) fun q => by
        rw [List.count_cons, Nat.add_assoc]
        simp only [beq_iff_eq, eq_comm (a := k)]
      obtain ⟨m', hfold, hend⟩ := ih hbal
      exact ⟨m', by rw [List.foldlM_cons, hunref]; exact hfold, hend⟩

omit [GpgmeSigners] in
/-- The signing keys of one context, and those of the others. -/
theorem signing_split (l : List (ℕ × ℕ)) (ctx k : ℕ) :
    signing l k = signing (l.filter (·.1 ≠ ctx)) k + (signersOf l ctx).count k := by
  simp only [signersOf]
  induction l with
  | nil => rfl
  | cons p l ih =>
      have hcons : signing (p :: l) k = signing l k + if p.2 = k then 1 else 0 := by
        simp [signing, List.countP_cons]
      rw [hcons, ih]
      by_cases hp : p.1 = ctx
      · simp [hp, List.count_cons]
        omega
      · simp [hp, signing, List.countP_cons]
        omega

theorem exists_clearSigningKeys (h : Inv w) (ctx : ℕ) :
    ∃ w', clearSigningKeys w ctx = .ok w' ∧ Inv w' := by
  have hbal : w.keys.Balanced fun q =>
      signing (w.signers.filter (·.1 ≠ ctx)) q + groups w.store q +
        (signersOf w.signers ctx).count q := by
    refine h.balanced.congr fun q => ?_
    rw [owners, signing_split w.signers ctx q]
    omega
  obtain ⟨keys, hfold, hend⟩ := exists_unrefAll hbal
  exact ⟨{ w with keys := keys, signers := w.signers.filter (·.1 ≠ ctx) },
    by simp only [clearSigningKeys, GpgmeSigners.signersClear_eq, hfold, Except.map], h.bounded,
    hend⟩

omit [GpgmeSigners] in
theorem mem_signers_of_signersOf {signers : List (ℕ × ℕ)} {ctx : ℕ}
    (h : k ∈ signersOf signers ctx) : (ctx, k) ∈ signers := by
  obtain ⟨⟨c, q⟩, hmem, rfl⟩ := List.mem_map.mp h
  obtain ⟨hin, hc⟩ := List.mem_filter.mp hmem
  obtain rfl : c = ctx := by simpa using hc
  exact hin

/-- A signing key is handed out. -/
theorem exists_signersEnum (h : Inv w) {ctx idx : ℕ}
    (hk : (signersOf w.signers ctx)[idx]? = some k) :
    ∃ keys, GpgmeSigners.signersEnum w.keys w.signers ctx idx = .ok (some k, keys) ∧
      ∃ w', construct { w with keys := keys } (some k) false = .ok w' ∧ Inv w' ∧
        w'.signers = w.signers := by
  have hmem := mem_signers_of_signersOf (List.mem_of_getElem? hk)
  obtain ⟨keys, href, -, hbal⟩ := h.balanced.ref (owners_pos_of_mem hmem)
  refine ⟨keys, ?_, exists_construct (w := { w with keys := keys }) (k := k) h.bounded hbal⟩
  rw [GpgmeSigners.signersEnum_key _ _ _ _ _ hk, href]
  rfl

theorem exists_signingKey (h : Inv w) (ctx idx : ℕ) :
    ∃ w', signingKey w ctx idx = .ok w' ∧ Inv w' := by
  cases hk : (signersOf w.signers ctx)[idx]? with
  | none =>
      obtain ⟨w', hmade, hinv⟩ := exists_null h
      exact ⟨w', by simp only [signingKey, GpgmeSigners.signersEnum_null _ _ _ _ hk, hmade], hinv⟩
  | some k =>
      obtain ⟨keys, henum, w', hmade, hinv, -⟩ := exists_signersEnum h hk
      exact ⟨w', by simp only [signingKey, henum, hmade], hinv⟩

/-- The loop ends at the index after the last key of the context. -/
theorem exists_signingKeysLoop {ctx : ℕ} {signers : List (ℕ × ℕ)} {fuel : ℕ} :
    ∀ {w : World} {i : ℕ}, Inv w → w.signers = signers → i ≤ (signersOf signers ctx).length →
      (signersOf signers ctx).length < fuel + i →
      ∃ w', signingKeysLoop ctx fuel w i = .ok w' ∧ Inv w' := by
  induction fuel with
  | zero =>
      intro w i _ _ hi hfuel
      omega
  | succ fuel ih =>
      intro w i h hsigners hi hfuel
      cases hk : (signersOf w.signers ctx)[i]? with
      | none =>
          refine ⟨w, ?_, h⟩
          simp only [signingKeysLoop, GpgmeSigners.signersEnum_null _ _ _ _ hk]
      | some k =>
          obtain ⟨keys, henum, w₁, hmade, hinv, hsigners₁⟩ := exists_signersEnum h hk
          obtain ⟨hlt, -⟩ := List.getElem?_eq_some_iff.mp (hsigners ▸ hk)
          obtain ⟨w', hloop, hend⟩ := ih hinv (hsigners₁.trans hsigners) hlt (by omega)
          exact ⟨w', by simp only [signingKeysLoop, henum, hmade, hloop], hend⟩

/-- All signing keys of a context are handed out. -/
theorem exists_signingKeys (h : Inv w) (ctx : ℕ) : ∃ w', signingKeys w ctx = .ok w' ∧ Inv w' := by
  have hlength : (signersOf w.signers ctx).length ≤ w.signers.length := by
    rw [signersOf, List.length_map]
    exact List.length_filter_le ..
  exact exists_signingKeysLoop h rfl (Nat.zero_le _) (by omega)

end Signers

theorem exists_derivePart (h : Inv w) {x : ℕ} {v : KeyObject} (hv : w.store.get x = some v)
    (part : Part) : ∃ w', derivePart w v part = .ok w' ∧ Inv w' := by
  have hinv : Inv { w with store := w.store.push ⟨part, v.key⟩ } :=
    h.push fun r hr => Store.useCount_pos hv hr
  simp only [derivePart]
  cases hk : w.keyOf v with
  | none => exact ⟨_, rfl, hinv⟩
  | some k =>
      by_cases hpart : part = .key
      · exact ⟨_, by simp only [if_pos hpart], hinv⟩
      · have hread := h.balanced.read (h.owners_pos_of_get hv hk)
        exact ⟨_, by simp only [if_neg hpart, hread, Except.map], hinv⟩

theorem exists_readKey (h : Inv w) {x : ℕ} {v : KeyObject} (hv : w.store.get x = some v) :
    ∃ w', readKey w v = .ok w' ∧ Inv w' := by
  simp only [readKey]
  cases hk : w.keyOf v with
  | none => exact ⟨w, rfl, h⟩
  | some k =>
      have hread := h.balanced.read (h.owners_pos_of_get hv hk)
      exact ⟨w, by simp only [hread, Except.map], h⟩

/-- **One step** keeps the counts, and follows no pointer to a key that is gone. -/
theorem step_inv [GpgmeSigners] (h : Inv w) (i : Op) :
    step w i = .error .noObject ∨ ∃ w', step w i = .ok ((), w') ∧ Inv w' := by
  have hfinished : ∀ {r : Except Gone World}, (∃ w', r = .ok w' ∧ Inv w') →
      finished r = .error .noObject ∨ ∃ w', finished r = .ok ((), w') ∧ Inv w' := by
    rintro r ⟨w', rfl, hw'⟩
    exact .inr ⟨w', rfl, hw'⟩
  have hobject : ∀ {x : ℕ} {f : KeyObject → Except Gone World},
      (∀ v, w.store.get x = some v → ∃ w', f v = .ok w' ∧ Inv w') →
      withObject w x f = .error .noObject ∨ ∃ w', withObject w x f = .ok ((), w') ∧ Inv w' := by
    intro x f hf
    simp only [withObject]
    cases hv : w.store.get x with
    | none => exact .inl rfl
    | some v => exact hfinished (hf v hv)
  cases i with
  | null => exact hfinished (exists_null h)
  | deliver found =>
      cases found with
      | false => exact hfinished (exists_null h)
      | true =>
          obtain ⟨w', hmade, hinv, -⟩ := exists_construct (w := { w with keys := w.keys.make })
            (k := w.keys.next) h.bounded h.balanced.make
          exact hfinished ⟨w', hmade, hinv⟩
  | addSigningKey ctx x memory =>
      exact hobject fun v hv =>
        exists_addSigningKey h ctx memory fun q hq => h.owners_pos_of_get hv hq
  | clearSigningKeys ctx => exact hfinished (exists_clearSigningKeys h ctx)
  | signingKey ctx idx => exact hfinished (exists_signingKey h ctx idx)
  | signingKeys ctx => exact hfinished (exists_signingKeys h ctx)
  | copy x => exact hobject fun v hv => ⟨_, rfl, h.push fun r hr => Store.useCount_pos hv hr⟩
  | assign x y =>
      simp only [step]
      cases hv : w.store.get x with
      | none => exact .inl rfl
      | some v =>
          cases hu : w.store.get y with
          | none => exact .inl rfl
          | some u =>
              have hb := Store.bounded_put (x := x) h.bounded fun r hr => h.bounded y u r hu hr
              refine hfinished (exists_drop h hb rfl rfl (fun r hr => Store.useCount_pos hv hr)
                fun r hr => ?_)
              have hcount := Store.useCount_put hv u r
              have hzero : Store.owns r v = 0 := if_neg hr
              by_cases hur : u.key = some r
              · have hpos := Store.useCount_pos hu hur
                omega
              · have hzero' : Store.owns r u = 0 := if_neg hur
                omega
  | swap x y =>
      simp only [step]
      cases hv : w.store.get x with
      | none => exact .inl rfl
      | some v =>
          cases hu : w.store.get y with
          | none => exact .inl rfl
          | some u =>
              refine .inr ⟨_, rfl, h.store ?_ (groups_congr rfl rfl fun r => ?_)⟩
              · refine Store.bounded_put (Store.bounded_put h.bounded fun r hr =>
                  h.bounded y u r hu hr) fun r hr => h.bounded x v r hv hr
              · have hx := Store.useCount_put hv u r
                have hget : (w.store.put x u).get y = some u := by
                  by_cases hyx : y = x
                  · subst hyx
                    exact Store.get_put_self hv
                  · rw [Store.get_put_of_ne hyx, hu]
                have hy := Store.useCount_put hget v r
                omega
  | destroy x =>
      refine hobject fun v hv => exists_drop h (Store.bounded_destroy h.bounded) rfl rfl
        (fun r hr => Store.useCount_pos hv hr) fun r hr => ?_
      have hcount := Store.useCount_destroy hv r
      have hzero : Store.owns r v = 0 := if_neg hr
      omega
  | derive x part => exact hobject fun v hv => exists_derivePart h hv part
  | read x => exact hobject fun v hv => exists_readKey h hv

/-- A key has an owner exactly if it is in use. -/
theorem owners_pos_iff (h : Inv w) (k : ℕ) : 0 < owners w k ↔ w.Refers k := by
  have hsigning : 0 < signing w.signers k ↔ ∃ ctx, (ctx, k) ∈ w.signers := by
    rw [signing, List.countP_pos_iff]
    constructor
    · rintro ⟨⟨ctx, q⟩, hmem, hq⟩
      obtain rfl : q = k := by simpa using hq
      exact ⟨ctx, hmem⟩
    · rintro ⟨ctx, hmem⟩
      exact ⟨_, hmem, by simp⟩
  have hgroups : 0 < groups w.store k ↔ ∃ x v, w.store.get x = some v ∧ w.keyOf v = some k := by
    rw [groups_pos_iff h.bounded]
    constructor
    · rintro ⟨x, v, r, hv, hr, rfl⟩
      exact ⟨x, v, hv, Option.map_eq_some_iff.mpr ⟨r, hr, rfl⟩⟩
    · rintro ⟨x, v, hv, hk⟩
      obtain ⟨r, hr, hk⟩ := Option.map_eq_some_iff.mp hk
      exact ⟨x, v, r, hv, hr, hk⟩
  rw [World.Refers, ← hsigning, ← hgroups, owners]
  omega

end Invariant

/-- **A key is there as long as it is in use, and no longer.**  In every run, each key that gpgme
has handed out has references, and was not destroyed, while it is a signing key or an object refers
to it; after that it has none, and was destroyed once.  So nothing that a program does, in whatever
order, follows a pointer to a key that is gone. -/
theorem keysCounted [GpgmeSigners] {ts : List (Transition World Op Unit)} {w : World}
    (h : Run step start ts w) :
    (∀ k < w.keys.next,
      (w.Refers k → 0 < w.keys.refs k ∧ w.keys.frees k = 0) ∧
        (¬ w.Refers k → w.keys.refs k = 0 ∧ w.keys.frees k = 1)) ∧
      ∀ i g, step w i ≠ .error (.fault g) := by
  have hinv : Inv w := h.invariant Inv inv_start fun m i o m' hm hstep => by
    rcases step_inv hm i with hnone | ⟨m'', hstep', hm''⟩
    · rw [hnone] at hstep
      cases hstep
    · rw [hstep'] at hstep
      cases hstep
      exact hm''
  refine ⟨fun k hk => ?_, fun i g hfault => ?_⟩
  · have hrefs := hinv.balanced.refs k
    have hfrees := hinv.balanced.frees k hk
    rw [← owners_pos_iff hinv k]
    constructor
    · intro hpos
      rw [if_neg (by omega)] at hfrees
      exact ⟨by omega, hfrees⟩
    · intro hzero
      rw [if_pos (by omega)] at hfrees
      exact ⟨by omega, hfrees⟩
  · rcases step_inv hinv i with hnone | ⟨m', hstep, -⟩
    · rw [hnone] at hfault
      cases hfault
    · rw [hstep] at hfault
      cases hfault

/-- A key is listed and made a signing key, and its object goes; the signing keys are asked for, and
cleared, and the new object goes as well. -/
theorem run_signer :
    letI := GpgmeSigners.documented
    ∃ (ts : List (Transition World Op Unit)) (w : World), Run step start ts w ∧
      ts.map Transition.input =
        [.deliver true, .addSigningKey 7 0 true, .destroy 0, .signingKeys 7, .clearSigningKeys 7,
          .destroy 1] ∧
      w.keys.next = 1 ∧ w.keys.refs 0 = 0 := by
  let := GpgmeSigners.documented
  exact ⟨_, _, .cons rfl (.cons rfl (.cons rfl (.cons rfl (.cons rfl (.cons rfl (.nil _)))))), rfl,
    rfl, rfl⟩

theorem keysCounted_signer :
    letI := GpgmeSigners.documented
    ∃ (ts : List (Transition World Op Unit)) (w : World), Run step start ts w ∧
      w.keys.next = 1 ∧ w.keys.refs 0 = 0 ∧
      (∀ k < w.keys.next,
        (w.Refers k → 0 < w.keys.refs k ∧ w.keys.frees k = 0) ∧
          (¬ w.Refers k → w.keys.refs k = 0 ∧ w.keys.frees k = 1)) ∧
      ∀ i g, step w i ≠ .error (.fault g) := by
  let := GpgmeSigners.documented
  obtain ⟨ts, w, hrun, -, hnext, hrefs⟩ := run_signer
  exact ⟨ts, w, hrun, hnext, hrefs, keysCounted hrun⟩

end Gpgmepp.KeyReferences
