import Gpgmepp.Data.Invariant
import Gpgmepp.Lib.Counted
import Gpgmepp.Lib.Run

/-!
# What gpgme may use of data

gpgme calls a provider as long as a `Data` made of it is there, and an operation uses the data that
it was started with.  Nobody but the program keeps either from going.

## Main definitions

* `dataSafe_iff` — what gpgme may use is there unless the program takes it away.
* `dataReleased` — each data object is released once, and its provider is told.
-/

namespace Gpgmepp.DataObjects

open Shared Owning StateMachine

/-- The providers of the data that is there are there, if there is something to call them for. -/
def Provided (w : World) : Prop :=
  ∀ g r p op, w.gpgme.object g = some (.callbacks r p) → has (w.store.record r) op = true →
    (w.providers p).isSome

/-- The data of the operations is there. -/
def Kept (w : World) : Prop := ∀ ctx, ∀ g ∈ w.pending ctx, (w.gpgme.object g).isSome

variable {w : World}

theorem Inv.safe_iff (hi : Inv w) : Safe w ↔ Provided w ∧ Kept w := by
  constructor
  · intro hsafe
    refine ⟨fun g r p op hg hhas => ?_, hsafe.pending⟩
    exact (hi.call_ne_dangling_iff hg op).mp (hsafe.callbacks g (by simp [hg]) op) hhas
  · rintro ⟨hprovided, hkept⟩
    refine ⟨fun g hsome op => ?_, hkept⟩
    obtain ⟨m, hg⟩ := Option.isSome_iff_exists.mp hsome
    cases m with
    | storage => simp [call, hg]
    | callbacks r p => exact (hi.call_ne_dangling_iff hg op).mpr (hprovided g r p op hg)

/-! ## What each step leaves of it -/

theorem Provided.released (h : Provided w) {store : Store DataHandle DataCbs} {r g : ℕ}
    (hs : Regrouped w store (some r)) (hheld : w.gpgme.held r = some g) :
    Provided { w with store := store, gpgme := w.gpgme.reset r none } := by
  intro g' q p op hg hhas
  rw [Owners.object_reset_none hheld] at hg
  split_ifs at hg
  exact h g' q p op hg (hs.record ▸ hhas)

/-- The data of an operation that goes on must not be released. -/
theorem Kept.released_iff (h : Kept w) (store : Store DataHandle DataCbs) {r g : ℕ}
    (hheld : w.gpgme.held r = some g) :
    Kept { w with store := store, gpgme := w.gpgme.reset r none } ↔
      ¬∃ ctx, g ∈ w.pending ctx := by
  constructor
  · rintro h' ⟨ctx, hp⟩
    have hthere := h' ctx g hp
    rw [Owners.object_reset_none hheld, if_pos rfl] at hthere
    cases hthere
  · intro hnone ctx g' hp
    have hne : g' ≠ g := by
      rintro rfl
      exact hnone ⟨ctx, hp⟩
    rw [Owners.object_reset_none hheld, if_neg hne]
    exact h ctx g' hp

theorem Provided.made (h : Provided w) (hi : Inv w) {cbs : DataCbs} {data : Option Material}
    (hdata : ∀ r p, data = some (.callbacks r p) → r = w.store.next ∧ w.providers p = some cbs) :
    Provided (construct w cbs data) := by
  intro g r p op hg hhas
  rcases hi.object_construct.mp hg with ⟨-, rfl⟩ | hold
  · simp [construct, (hdata r p rfl).2]
  · rw [Inv.record_construct cbs data (hi.lt_of_held (by simp [hi.held g r p hold]))] at hhas
    exact h g r p op hold hhas

theorem Kept.made (h : Kept w) (hi : Inv w) (cbs : DataCbs) (data : Option Material) :
    Kept (construct w cbs data) := by
  intro ctx g hp
  obtain ⟨m, hm⟩ := Option.isSome_iff_exists.mp (h ctx g hp)
  exact Option.isSome_iff_exists.mpr ⟨m, hi.object_construct.mpr (.inr hm)⟩

theorem Provided.newProvider (h : Provided w) (hi : Inv w) (supported : DataCbs) :
    Provided { w with
      providers := Function.update w.providers w.next (some supported), next := w.next + 1 } := by
  intro g r p op hg hhas
  have hlt := hi.made_before g r p hg
  simpa [Nat.ne_of_lt hlt] using h g r p op hg hhas

/-- The provider of data that is there must not be destroyed. -/
theorem Provided.deleteProvider_iff (h : Provided w) (p : ℕ) :
    Provided { w with providers := Function.update w.providers p none } ↔
      ¬(Op.deleteProvider p).Endangers w := by
  constructor
  · rintro h' ⟨g, r, op, hg, hhas⟩
    have hthere := h' g r p op hg hhas
    simp at hthere
  · intro hnone g r q op hg hhas
    have hne : q ≠ p := by
      rintro rfl
      exact hnone ⟨g, r, op, hg, hhas⟩
    simpa [hne] using h g r q op hg hhas

theorem Kept.started (h : Kept w) {ctx : ℕ} {gs : List ℕ}
    (hgs : ∀ g ∈ gs, (w.gpgme.object g).isSome) :
    Kept { w with pending := Function.update w.pending ctx gs } := by
  intro ctx' g hp
  by_cases hctx : ctx' = ctx
  · exact hgs g (by simpa [hctx] using hp)
  · exact h ctx' g (by simpa [hctx] using hp)

/-- **One step** leaves gpgme what it may use, unless it endangers that. -/
theorem Inv.safe_step (hi : Inv w) (hsafe : Safe w) {op : Op} {out : List Called} {w' : World}
    (h : Stepped w op out w') : Safe w' ↔ ¬op.Endangers w := by
  obtain ⟨hprovided, hkept⟩ := hi.safe_iff.mp hsafe
  rw [(hi.keep h).safe_iff]
  cases h with
  | used _ _ he _ => exact iff_of_true ⟨hprovided, hkept⟩ he
  | moved store hs he _ =>
      refine iff_of_true ⟨fun g r p o hg hhas => ?_, hkept⟩ he
      exact hprovided g r p o hg (hs.record ▸ hhas)
  | released store r g out hs hheld _ he _ =>
      rw [he, ← hkept.released_iff store hheld]
      exact and_iff_right (hprovided.released hs hheld)
  | made cbs data out hdata _ he _ =>
      exact iff_of_true ⟨hprovided.made hi hdata, hkept.made hi cbs data⟩ he
  | newProvider supported he _ =>
      exact iff_of_true ⟨hprovided.newProvider hi supported, hkept⟩ he
  | deleteProvider p hop =>
      subst hop
      rw [← hprovided.deleteProvider_iff p]
      exact and_iff_left hkept
  | started ctx gs hgs he _ => exact iff_of_true ⟨hprovided, hkept.started hgs⟩ he

/-- The calls of a step are for what the providers support. -/
theorem Inv.supports_step (hi : Inv w) {op : Op} {out : List Called} {w' : World}
    (h : Stepped w op out w') {c : Called} (hc : c ∈ out) :
    ∃ cbs, w.providers c.1 = some cbs ∧ has cbs c.2 = true := by
  cases h with
  | used _ hout _ _ => exact (hout c hc).2
  | moved _ _ _ _ => cases hc
  | released _ r g _ _ _ hcall _ _ =>
      obtain ⟨hop, hcbs⟩ := hi.mem_call hcall hc
      rwa [hop]
  | made cbs data _ _ hout _ _ => exact (hout c hc).2
  | newProvider _ _ _ => cases hc
  | deleteProvider _ _ => cases hc
  | started _ _ _ _ _ => cases hc

theorem safe_start : Safe start where
  callbacks := by intro g hg; cases hg
  pending := by intro ctx g hg; cases hg

section Runs
variable {found : Capability → Bool} {ts : List (Transition World Op (List Called))}

/-- **What gpgme may use is there** after every step of a run, unless the program destroys a
provider before the data that was made of it, or the data of an operation that goes on.  Providers
are called for what they support, and for nothing else. -/
theorem dataSafe_iff (h : Run (step found) start ts w) :
    ((∀ t ∈ ts, Safe t.target) ↔ ∀ t ∈ ts, ¬t.input.Endangers t.source) ∧
      ∀ t ∈ ts, ∀ c ∈ t.output, ∃ cbs, t.source.providers c.1 = some cbs ∧ has cbs c.2 = true := by
  constructor
  · refine h.forall_iff (fun m => Inv m ∧ Safe m) _ _ ⟨.start, safe_start⟩ ?_
    rintro m op out m' ⟨hi, hm⟩ hs
    have hstepped := hi.stepped hs
    exact ⟨hi.safe_step hm hstepped, fun hm' => ⟨hi.keep hstepped, hm'⟩⟩
  · refine h.forall_mem Inv _ .start (fun m op out m' hi hs => hi.keep (hi.stepped hs)) ?_
    intro m op out m' hi hs c hc
    exact hi.supports_step (hi.stepped hs) hc

end Runs

/-- The data of an operation that goes on is destroyed, and then its provider. -/
theorem dataSafe_hurried :
    ∃ ts w, Run (step fun _ => true) start ts w ∧
      ts.map Transition.input =
        [.newProvider ⟨true, false, true, true⟩, .ofProvider (some 0) 0, .startOperation 0 [0],
          .operationUses 0 0 .read, .destroy 0, .deleteProvider 0] ∧
      ts.flatMap Transition.output = [(0, .seek), (0, .seek), (0, .read), (0, .release)] ∧
      ¬∀ t ∈ ts, Safe t.target := by
  have hrun : Run (step fun _ => true) start [_, _, _, _, _, _] _ :=
    .cons (i := .newProvider ⟨true, false, true, true⟩) rfl <|
    .cons (i := .ofProvider (some 0) 0) rfl <|
    .cons (i := .startOperation 0 [0]) rfl <|
    .cons (i := .operationUses 0 0 .read) rfl <|
    .cons (i := .destroy 0) rfl <| .cons (i := .deleteProvider 0) rfl <| .nil _
  refine ⟨_, _, hrun, rfl, rfl, fun hsafe => ?_⟩
  exact (dataSafe_iff hrun).1.mp hsafe _
    (List.mem_cons_of_mem _ <| List.mem_cons_of_mem _ <| List.mem_cons_of_mem _ <|
      List.mem_cons_of_mem _ List.mem_cons_self)
    ⟨0, 0, List.mem_singleton.mpr rfl, ⟨some 0⟩, 0, rfl, rfl, rfl, rfl⟩

/-! ## Releases -/

/-- The data objects that were made of a provider which is told of the end of them. -/
def madeOf (p : ℕ) (ts : List (Transition World Op (List Called))) : List ℕ :=
  ts.flatMap fun t => if t.input.tells t.source p then [t.source.gpgme.next] else []

/-- Of the data objects `l` that were made of a provider, those that are gone were released with
`n` calls. -/
structure Told (p : ℕ) (l : List ℕ) (n : ℕ) (w : World) : Prop where
  nodup : l.Nodup
  lt : ∀ g ∈ l, g < w.gpgme.next
  mem_iff : ∀ g, g ∈ l ∧ (w.gpgme.object g).isSome ↔
    ∃ r, w.gpgme.object g = some (.callbacks r p) ∧ (w.store.record r).release = true
  count_eq : n = l.countP fun g => (w.gpgme.object g).isNone

theorem Transfers.count_eq {out : List Called} (h : Transfers w out) (p : ℕ) :
    out.count (p, .release) = 0 :=
  List.count_eq_zero.mpr fun hc => (h _ hc).1 rfl

/-- The end of a data object is told to its provider. -/
theorem Told.count_call {p : ℕ} {l : List ℕ} {n : ℕ} (ht : Told p l n w) (hi : Inv w) {g : ℕ}
    (hg : (w.gpgme.object g).isSome) {out : List Called} (hcall : call w g .release = .ok out) :
    out.count (p, .release) = if g ∈ l then 1 else 0 := by
  obtain ⟨m, hm⟩ := Option.isSome_iff_exists.mp hg
  have hmem : g ∈ l ↔ ∃ r, m = .callbacks r p ∧ (w.store.record r).release = true := by
    have hiff := ht.mem_iff g
    rw [hm] at hiff
    simpa using hiff
  cases m with
  | storage =>
      obtain rfl : [] = out := by simpa [call, hm] using hcall
      simp [hmem]
  | callbacks r q =>
      rw [hi.call_callbacks hm] at hcall
      by_cases hhas : (w.store.record r).release = true
      · cases hq : w.providers q with
        | none => simp [has, hhas, hq] at hcall
        | some cbs =>
            obtain rfl : [(q, .release)] = out := by simpa [has, hhas, hq] using hcall
            simp [hmem, hhas, List.count_singleton]
      · obtain rfl : [] = out := by simpa [has, hhas] using hcall
        simp [hmem, hhas]

/-- A data object is released, and its provider is told. -/
theorem Told.released {p : ℕ} {l : List ℕ} {n : ℕ} (ht : Told p l n w) (hi : Inv w)
    {store : Store DataHandle DataCbs} {r g : ℕ} {out : List Called}
    (hs : Regrouped w store (some r)) (hheld : w.gpgme.held r = some g)
    (hcall : call w g .release = .ok out) :
    Told p l (n + out.count (p, .release))
      { w with store := store, gpgme := w.gpgme.reset r none } := by
  have hthere := hi.gpgme.there r g hheld
  have hobject := Owners.object_reset_none hheld
  rw [ht.count_call hi hthere hcall]
  refine ⟨ht.nodup, fun q hq => ?_, fun q => ?_, ?_⟩
  · rw [Owners.next_reset]
    exact ht.lt q hq
  · simp only [hobject, hs.record]
    by_cases hq : q = g
    · simp [hq]
    · simpa only [if_neg hq] using ht.mem_iff q
  · simp only [hobject]
    by_cases hg : g ∈ l
    · rw [if_pos hg, ht.count_eq]
      refine (Counted.countP_update ht.nodup (fun q hq => ?_) ?_ ?_ hg).symm
      · simp only [if_neg hq]
      · simpa using hthere
      · simp
    · rw [if_neg hg, Nat.add_zero, ht.count_eq]
      refine List.countP_congr fun q hq => ?_
      have hne : q ≠ g := by
        rintro rfl
        exact hg hq
      simp only [if_neg hne]

/-- A data object is made of a provider that is told of the end of it, or another. -/
theorem Inv.callbacks_construct (hi : Inv w) {cbs : DataCbs} {data : Option Material}
    (hdata : ∀ r p, data = some (.callbacks r p) → r = w.store.next ∧ w.providers p = some cbs)
    (g p : ℕ) :
    (∃ r, (construct w cbs data).gpgme.object g = some (.callbacks r p) ∧
        ((construct w cbs data).store.record r).release = true) ↔
      g = w.gpgme.next ∧ data = some (.callbacks w.store.next p) ∧ cbs.release = true ∨
        ∃ r, w.gpgme.object g = some (.callbacks r p) ∧
          (w.store.record r).release = true := by
  have hrecord : (construct w cbs data).store.record w.store.next = cbs :=
    Function.update_self _ _ _
  have hkeep : ∀ r, w.gpgme.object g = some (.callbacks r p) →
      (construct w cbs data).store.record r = w.store.record r := fun r hg =>
    Inv.record_construct cbs data (hi.lt_of_held (by simp [hi.held g r p hg]))
  constructor
  · rintro ⟨r, hg, hrelease⟩
    rcases hi.object_construct.mp hg with ⟨rfl, rfl⟩ | hold
    · obtain ⟨rfl, -⟩ := hdata r p rfl
      exact .inl ⟨rfl, rfl, hrecord ▸ hrelease⟩
    · exact .inr ⟨r, hold, hkeep r hold ▸ hrelease⟩
  · rintro (⟨rfl, hnew, hrelease⟩ | ⟨r, hold, hrelease⟩)
    · exact ⟨_, hi.object_construct.mpr (.inl ⟨rfl, hnew⟩), hrecord.symm ▸ hrelease⟩
    · exact ⟨r, hi.object_construct.mpr (.inr hold), (hkeep r hold).symm ▸ hrelease⟩

/-- A data object is made. -/
theorem Told.made {p : ℕ} {l : List ℕ} {n : ℕ} (ht : Told p l n w) (hi : Inv w) {cbs : DataCbs}
    {data : Option Material}
    (hdata : ∀ r p, data = some (.callbacks r p) → r = w.store.next ∧ w.providers p = some cbs)
    {b : Bool}
    (hb : b = true ↔ data = some (.callbacks w.store.next p) ∧ cbs.release = true) :
    Told p (l ++ if b then [w.gpgme.next] else []) n (construct w cbs data) := by
  have hfresh : w.gpgme.next ∉ l := fun hmem => Nat.lt_irrefl _ (ht.lt _ hmem)
  have hle : w.gpgme.next ≤ (construct w cbs data).gpgme.next := by
    cases data <;> simp [construct]
  have hobject : ∀ g ∈ l, (construct w cbs data).gpgme.object g = w.gpgme.object g := by
    intro g hg
    refine hi.object_construct_of_ne cbs data ?_
    rintro rfl
    exact hfresh hg
  have hcallbacks := fun g => hi.callbacks_construct hdata g p
  simp only [← hb] at hcallbacks
  have hsame : (l.countP fun g => ((construct w cbs data).gpgme.object g).isNone) =
      l.countP fun g => (w.gpgme.object g).isNone := by
    refine List.countP_congr fun g hg => ?_
    rw [hobject g hg]
  cases b with
  | false =>
      simp only [Bool.false_eq_true, if_false, List.append_nil, and_false, false_or]
        at hcallbacks ⊢
      refine ⟨ht.nodup, fun g hg => Nat.lt_of_lt_of_le (ht.lt g hg) hle, fun g => ?_, ?_⟩
      · rw [hcallbacks, ← ht.mem_iff]
        refine and_congr_right fun hl => ?_
        rw [hobject g hl]
      · rw [hsame, ht.count_eq]
  | true =>
      simp only [if_true, and_true] at hcallbacks ⊢
      obtain ⟨r, hr, -⟩ := (hcallbacks w.gpgme.next).mpr (.inl rfl)
      refine ⟨ht.nodup.append (List.nodup_singleton _) fun g hg hnew => ?_, fun g hg => ?_,
        fun g => ?_, ?_⟩
      · obtain rfl := List.mem_singleton.mp hnew
        exact hfresh hg
      · rcases List.mem_append.mp hg with hl | hnew
        · exact Nat.lt_of_lt_of_le (ht.lt g hl) hle
        · obtain rfl := List.mem_singleton.mp hnew
          exact (hi.made hdata).gpgme.bounded _ (by simp [hr])
      · rw [hcallbacks, ← ht.mem_iff, List.mem_append, List.mem_singleton]
        constructor
        · rintro ⟨hl | hnew, hsome⟩
          · exact .inr ⟨hl, hobject g hl ▸ hsome⟩
          · exact .inl hnew
        · rintro (rfl | ⟨hl, hsome⟩)
          · exact ⟨.inr rfl, by simp [hr]⟩
          · exact ⟨.inl hl, (hobject g hl).symm ▸ hsome⟩
      · rw [List.countP_append, hsame, ht.count_eq]
        simp [hr]

/-- **One step** tells a provider of the data that it releases. -/
theorem Told.step {p : ℕ} {l : List ℕ} {n : ℕ} (ht : Told p l n w) (hi : Inv w) {op : Op}
    {out : List Called} {w' : World} (h : Stepped w op out w') :
    Told p (l ++ if op.tells w p then [w.gpgme.next] else [])
      (n + out.count (p, .release)) w' := by
  cases h with
  | used _ hout _ htells => simpa [htells p, hout.count_eq p] using ht
  | moved store hs _ htells =>
      simp only [htells p, Bool.false_eq_true, if_false, List.append_nil, List.count_nil,
        Nat.add_zero]
      exact ⟨ht.nodup, ht.lt, by simpa only [hs.record] using ht.mem_iff, ht.count_eq⟩
  | newProvider _ _ htells => simpa [htells p] using ⟨ht.nodup, ht.lt, ht.mem_iff, ht.count_eq⟩
  | deleteProvider q hop =>
      subst hop
      simpa [Op.tells] using ⟨ht.nodup, ht.lt, ht.mem_iff, ht.count_eq⟩
  | started _ _ _ _ htells =>
      simpa [htells p] using ⟨ht.nodup, ht.lt, ht.mem_iff, ht.count_eq⟩
  | released store r g out hs hheld hcall _ htells =>
      simpa [htells p] using ht.released hi hs hheld hcall
  | made cbs data out hdata hout _ htells =>
      rw [hout.count_eq p, Nat.add_zero]
      exact ht.made hi hdata (htells p)

/-- **Data objects of gpgme are released once**, when the last `Data` goes that has them.  If one
was made of a provider that supports it, the provider is called for that, once. -/
theorem dataReleased {found : Capability → Bool} {ts : List (Transition World Op (List Called))}
    (h : Run (DataObjects.step found) start ts w) :
    (∀ g < w.gpgme.next,
      (w.gpgme.object g).isSome ∧ w.gpgme.frees g = 0 ∧
          (∃! r, w.gpgme.held r = some g) ∧ (∃ x, dataOf w x = some g) ∨
        w.gpgme.object g = none ∧ w.gpgme.frees g = 1 ∧ ∀ x, dataOf w x ≠ some g) ∧
      ∀ p, (ts.flatMap Transition.output).count (p, .release) =
        (madeOf p ts).countP fun g => (w.gpgme.object g).isNone := by
  have hall : Inv w ∧ ∀ p,
      Told p (madeOf p ts) ((ts.flatMap Transition.output).count (p, .release)) w := by
    refine h.history (fun ts w => Inv w ∧ ∀ p,
      Told p (madeOf p ts) ((ts.flatMap Transition.output).count (p, .release)) w)
      ⟨.start, fun p => ⟨.nil, by simp [madeOf], by simp [madeOf, start, Owners.empty], rfl⟩⟩ ?_
    rintro ts m op out m' - ⟨hi, ht⟩ hs
    have hstepped := hi.stepped hs
    refine ⟨hi.keep hstepped, fun p => ?_⟩
    have htold := (ht p).step hi hstepped
    simpa [madeOf, List.flatMap_append, List.count_append] using htold
  obtain ⟨hi, ht⟩ := hall
  refine ⟨fun g hg => ?_, fun p => (ht p).count_eq⟩
  rcases hi.gpgme.cases hg with ⟨hthere, hfrees, r, hr, hunique⟩ | ⟨hgone, hfrees, hno⟩
  · refine .inl ⟨hthere, hfrees, ⟨r, hr, hunique⟩, ?_⟩
    obtain ⟨x, v, hv, hd⟩ := Store.exists_of_useCount_pos (hi.alive r (by simp [hr]))
    have hvd : v.d = some r := hd
    exact ⟨x, by simp [dataOf, hv, hvd, hr]⟩
  · refine .inr ⟨hgone, hfrees, fun x hx => ?_⟩
    simpa [hgone] using hi.isSome_of_dataOf hx

/-- Two objects share data that is made of a provider, and are destroyed. -/
theorem dataReleased_shared :
    ∃ ts w, Run (DataObjects.step fun _ => false) start ts w ∧
      ts.map Transition.input =
        [.newProvider ⟨true, true, true, true⟩, .ofProvider (some 0) 0, .copy 0, .destroy 0,
          .destroy 1] ∧
      madeOf 0 ts = [0] ∧ (ts.flatMap Transition.output).count (0, .release) = 1 := by
  have hrun : Run (DataObjects.step fun _ => false) start [_, _, _, _, _] _ :=
    .cons (i := .newProvider ⟨true, true, true, true⟩) rfl <|
    .cons (i := .ofProvider (some 0) 0) rfl <|
    .cons (i := .copy 0) rfl <|
    .cons (i := .destroy 0) rfl <| .cons (i := .destroy 1) rfl <| .nil _
  exact ⟨_, _, hrun, rfl, rfl, ((dataReleased hrun).2 0).trans rfl⟩

end Gpgmepp.DataObjects
