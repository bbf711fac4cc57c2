import Gpgmepp.Error
import Gpgmepp.Lib.Run
import Gpgmepp.Lib.Shared

/-!
# Results of key listings

A `KeyListResult` is an error and a shared pointer to gpgme's result, of which the flag
`truncated` is read.  Copies share the result.  `mergeWith` takes over the flag and the error of
another listing; before it sets the flag it gives its object a result of its own.

So a merge changes no object but its target, whoever shared a result with whom, and the flag of
the target is that of either: `mergeWith_spec`.

## Main definitions

* `KeyListResult`, `Results` — an object, and a population of objects with their results.
* `mergeWith`, `mergeAll` — one merge, and several in order.
* `Action`, `step` — how a population comes about.
* `Isolated`, `isolated_of_run` — merges change their targets only.
-/

namespace Gpgmepp

open Shared StateMachine

/-- `_gpgme_op_keylist_result`, as far as it is read. -/
structure GpgmeKeylistResult where
  truncated : Bool
  deriving DecidableEq

/-- A `KeyListResult`: the error, and the `Private` that it points to. -/
structure KeyListResult where
  error : Error
  d : Option ℕ
  deriving DecidableEq

namespace KeyListResult

instance : Owner KeyListResult where
  ptr v := v.d
  withPtr v p := { v with d := p }
  ptr_withPtr _ _ := rfl

/-- The objects that there are, and their `Private`s. -/
abbrev Results := Store KeyListResult GpgmeKeylistResult

/-- The constructors: from an error, and from what gpgme has as the result of its context. -/
def construct (s : Results) (error : Error) (res : Option GpgmeKeylistResult) : Results :=
  match res with
  | some c => (s.new c).push ⟨error, some s.next⟩
  | none => s.push ⟨error, none⟩

/-- `KeyListResult::isTruncated`. -/
def isTruncated (s : Results) (v : KeyListResult) : Bool :=
  match v.d with
  | some r => (s.record r).truncated
  | none => false

/-- The flag is set in the object at `x`, which has a result of its own after `detach()`.  An
object without a result gets a copy of the other one's; `none` if the assertion fails that there
is one. -/
def setTruncated (s : Results) (x : ℕ) (other : KeyListResult) : Option Results :=
  match (s.detach x).get x with
  | some ⟨error, none⟩ =>
      other.d.map fun r =>
        ((s.detach x).new ((s.detach x).record r)).put x ⟨error, some (s.detach x).next⟩
  | some ⟨_, some r⟩ => some ((s.detach x).write r ⟨true⟩)
  | none => none

/-- `Result::operator=`. -/
def assignError (s : Results) (x : ℕ) (error : Error) : Results :=
  match s.get x with
  | some v => s.put x { v with error }
  | none => s

variable [LibGpgError]

/-- `make_isNull`. -/
def isNull (v : KeyListResult) : Bool := v.d.isNone && !v.error.toBool

/-- `KeyListResult::mergeWith`, and `operator+=`; `none` if an object is not there or an
assertion fails. -/
def mergeWith (s : Results) (x y : ℕ) : Option Results :=
  match s.get x, s.get y with
  | some this, some other =>
      if other.isNull then some s
      -- just assign
      else if this.isNull then some (s.put x other)
      else
        let merged :=
          if isTruncated s other && !isTruncated s this then setTruncated s x other else some s
        -- only merge the error when there was none yet
        merged.map fun s => if this.error.toBool then s else assignError s x other.error
  | _, _ => none

/-- Several results are merged into the one at `x`, from left to right. -/
def mergeAll (s : Results) (x : ℕ) : List ℕ → Option Results
  | [] => some s
  | y :: ys => (mergeWith s x y).bind fun s => mergeAll s x ys

/-! ## Populations -/

/-- What makes, changes and destroys objects. -/
inductive Action
  | construct (error : Error) (res : Option GpgmeKeylistResult)
  | copy (y : ℕ)
  | assign (x y : ℕ)
  | mergeWith (x y : ℕ)
  | destroy (x : ℕ)

/-- One action, unless it names an object that there is not. -/
def step (s : Results) (a : Action) : Except Unit (Unit × Results) :=
  let s' := match a with
    | .construct error res => some (construct s error res)
    | .copy y => (s.get y).map s.push
    | .assign x y => if (s.get x).isSome then (s.get y).map (s.put x) else none
    | .mergeWith x y => KeyListResult.mergeWith s x y
    | .destroy x => some (s.destroy x)
  match s' with
  | some s' => .ok ((), s')
  | none => .error ()

/-- No object yet. -/
def noResults : Results := ⟨[], fun _ => ⟨false⟩, 0⟩

/-- What can be seen of the object at a place: `isTruncated`, `error` and `isNull`. -/
def observe (s : Results) (x : ℕ) : Option (Bool × Error × Bool) :=
  (s.get x).map fun v => (isTruncated s v, v.error, v.isNull)

/-! ## One merge -/

omit [LibGpgError] in
theorem isTruncated_eq (s : Results) (v : KeyListResult) :
    isTruncated s v = ((s.peek v).map GpgmeKeylistResult.truncated).getD false := by
  obtain ⟨error, d⟩ := v
  cases d <;> rfl

/-- What is the same in two populations is seen the same. -/
theorem observe_eq {s s' : Results} {x z : ℕ} (h : s.SameBut x s') (hz : z ≠ x) :
    observe s' z = observe s z := by
  obtain ⟨hget, hpeek⟩ := h z hz
  rw [observe, observe, hget]
  cases hu : s.get z with
  | none => rfl
  | some u => simp only [Option.map_some, isTruncated_eq, hpeek u hu]

omit [LibGpgError] in
/-- **Setting the flag** changes one object, which keeps its error. -/
theorem setTruncated_spec {s : Results} {x : ℕ} {this other : KeyListResult} (hb : s.Bounded)
    (hthis : s.get x = some this) (hother : isTruncated s other = true) :
    ∃ s' r, setTruncated s x other = some s' ∧ s'.Bounded ∧ s.SameBut x s' ∧
      s'.get x = some ⟨this.error, some r⟩ ∧ (s'.record r).truncated = true := by
  obtain ⟨hbounded, halone, hsame, v, hv, hkeeps, -⟩ := Store.detach_spec hb hthis
  have herror : v.error = this.error := by
    rcases hkeeps with rfl | ⟨r, rfl⟩
    · rfl
    · rfl
  obtain ⟨error, d⟩ := v
  obtain rfl : error = this.error := herror
  cases d with
  | some r =>
      refine ⟨(s.detach x).write r ⟨true⟩, r, ?_, hbounded, ?_, hv, ?_⟩
      · simp [setTruncated, hv]
      · exact hsame.trans (Store.sameBut_write halone hv rfl _)
      · simp [Store.write]
  | none =>
      -- without a result of its own the object was not touched
      have hd : this.d = none := by
        rcases hkeeps with h | ⟨r, h⟩
        · rw [← h]
        · cases congrArg KeyListResult.d h
      have hdetach : s.detach x = s := by simp [Store.detach, hthis, Owner.ptr, hd]
      obtain ⟨r, hr⟩ : ∃ r, other.d = some r := by
        cases h : other.d with
        | none => simp [isTruncated, h] at hother
        | some r => exact ⟨r, rfl⟩
      have hrecord : (s.record r).truncated = true := by simpa [isTruncated, hr] using hother
      refine ⟨(s.new (s.record r)).put x ⟨this.error, some s.next⟩, s.next, ?_, ?_, ?_, ?_, ?_⟩
      · rw [setTruncated, hv, hdetach]
        simp [hr]
      · refine Store.bounded_put (Store.bounded_new hb _) fun q hq => ?_
        obtain rfl : s.next = q := Option.some.inj hq
        exact Nat.lt_succ_self _
      · exact (Store.sameBut_new hb x _).trans (Store.sameBut_put _ x _)
      · exact Store.get_put_self (s := s.new _) hthis
      · simp [Store.new, hrecord]

/-- Without an error that counts, an object that is null has no result. -/
theorem isNull_iff {v : KeyListResult} :
    v.isNull = true ↔ v.d = none ∧ v.error.toBool = false := by
  simp [isNull]

theorem isTruncated_of_isNull {s : Results} {v : KeyListResult} (h : v.isNull = true) :
    isTruncated s v = false := by
  simp [isTruncated, (isNull_iff.mp h).1]

omit [LibGpgError] in
/-- The flag of the operand is merged, the error is left. -/
theorem mergeTruncated_spec {s : Results} {x : ℕ} {this : KeyListResult} (other : KeyListResult)
    (hb : s.Bounded) (hthis : s.get x = some this) :
    ∃ s' v, (if isTruncated s other && !isTruncated s this then setTruncated s x other
        else some s) = some s' ∧ s'.Bounded ∧ s.SameBut x s' ∧ s'.get x = some v ∧
      isTruncated s' v = (isTruncated s this || isTruncated s other) ∧ v.error = this.error := by
  by_cases h : isTruncated s other = true ∧ isTruncated s this = false
  · obtain ⟨s', r, hset, hb', hsame, hget, htrunc⟩ := setTruncated_spec hb hthis h.1
    refine ⟨s', _, ?_, hb', hsame, hget, ?_, rfl⟩
    · simp [h.1, h.2, hset]
    · rw [h.1, Bool.or_true]
      exact htrunc
  · refine ⟨s, this, ?_, hb, .refl x s, hthis, ?_, rfl⟩
    · exact if_neg (by simpa using h)
    · cases hother : isTruncated s other with
      | false => simp
      | true =>
          have hthis' : isTruncated s this = true := by simpa [hother] using h
          simp [hthis']

/-- **One merge.**  The other objects are as they were.  The target is truncated if it or the
operand was, and it has the error of the operand, unless that is null or the target had an error
that counts. -/
theorem mergeWith_spec {s : Results} {x y : ℕ} {this other : KeyListResult} (hb : s.Bounded)
    (hthis : s.get x = some this) (hother : s.get y = some other) :
    ∃ s' v, mergeWith s x y = some s' ∧ s'.Bounded ∧ s.SameBut x s' ∧ s'.get x = some v ∧
      isTruncated s' v = (isTruncated s this || isTruncated s other) ∧
      v.error = if other.isNull || this.error.toBool then this.error else other.error := by
  cases hnull : other.isNull with
  | true =>
      refine ⟨s, this, ?_, hb, .refl x s, hthis, ?_, rfl⟩
      · simp [mergeWith, hthis, hother, hnull]
      · simp [isTruncated_of_isNull hnull]
  | false =>
      cases hnull' : this.isNull with
      | true =>
          refine ⟨s.put x other, other, ?_, ?_, Store.sameBut_put s x other,
            Store.get_put_self hthis, ?_, ?_⟩
          · simp [mergeWith, hthis, hother, hnull, hnull']
          · exact Store.bounded_put hb fun r hr => hb y other r hother hr
          · rw [isTruncated_of_isNull hnull']
            rfl
          · rw [(isNull_iff.mp hnull').2]
            rfl
      | false =>
          obtain ⟨s', v, hmerged, hb', hsame, hget, htrunc, herror⟩ :=
            mergeTruncated_spec other hb hthis
          cases hcounts : this.error.toBool with
          | true =>
              refine ⟨s', v, ?_, hb', hsame, hget, htrunc, herror⟩
              simp only [mergeWith, hthis, hother, hnull, hnull', Bool.false_eq_true, if_false,
                hmerged, Option.map_some, hcounts, if_true]
          | false =>
              refine ⟨s'.put x { v with error := other.error }, { v with error := other.error },
                ?_, ?_, hsame.trans (Store.sameBut_put s' x _), Store.get_put_self hget, htrunc,
                rfl⟩
              · simp only [mergeWith, hthis, hother, hnull, hnull', Bool.false_eq_true, if_false,
                  hmerged, Option.map_some, hcounts, assignError, hget]
              · exact Store.bounded_put hb' fun r hr => hb' x v r hget hr

/-! ## Runs -/

/-- Every action keeps the pointers within the results that there are. -/
theorem bounded_step {s s' : Results} {a : Action} (hb : s.Bounded)
    (h : step s a = .ok ((), s')) : s'.Bounded := by
  simp only [step] at h
  split at h
  · next s₁ hs =>
      obtain rfl : s₁ = s' := (Prod.mk.inj (Except.ok.inj h)).2
      cases a with
      | construct error res =>
          obtain rfl := Option.some.inj hs
          cases res with
          | none => exact Store.bounded_push hb fun r hr => by cases hr
          | some c =>
              refine Store.bounded_push (Store.bounded_new hb c) fun r hr => ?_
              obtain rfl : s.next = r := Option.some.inj hr
              exact Nat.lt_succ_self _
      | copy y =>
          obtain ⟨v, hv, rfl⟩ := Option.map_eq_some_iff.mp hs
          exact Store.bounded_push hb fun r hr => hb y v r hv hr
      | assign x y =>
          simp only at hs
          split at hs
          · obtain ⟨v, hv, rfl⟩ := Option.map_eq_some_iff.mp hs
            exact Store.bounded_put hb fun r hr => hb y v r hv hr
          · cases hs
      | mergeWith x y =>
          cases hthis : s.get x with
          | none => simp [mergeWith, hthis] at hs
          | some this =>
              cases hother : s.get y with
              | none => simp [mergeWith, hthis, hother] at hs
              | some other =>
                  obtain ⟨s₂, _, hmerge, hb', _⟩ := mergeWith_spec hb hthis hother
                  obtain rfl : s₂ = s₁ := Option.some.inj (hmerge.symm.trans hs)
                  exact hb'
      | destroy x =>
          obtain rfl := Option.some.inj hs
          exact Store.bounded_destroy hb
  · cases h

/-- In every population that comes about the pointers are within the results that there are. -/
theorem bounded_of_run {ts : List (Transition Results Action Unit)} {s : Results}
    (hrun : Run step noResults ts s) : s.Bounded := by
  refine hrun.invariant Store.Bounded ?_ fun s a _ s' hb hs => bounded_step hb hs
  intro x v r hv
  simp [Store.get, noResults] at hv

/-- The flag of the object at a place. -/
def truncatedAt (s : Results) (x : ℕ) : Bool := (observe s x).elim false Prod.fst

theorem truncatedAt_eq {s : Results} {x : ℕ} {v : KeyListResult} (h : s.get x = some v) :
    truncatedAt s x = isTruncated s v := by
  simp [truncatedAt, observe, h]

/-- **Several merges** change their target only, and the flag of the target is that of all. -/
theorem mergeAll_spec {x : ℕ} (ys : List ℕ) :
    ∀ {s : Results} {this : KeyListResult}, s.Bounded → s.get x = some this →
      (∀ y ∈ ys, (s.get y).isSome) →
      ∃ s' v, mergeAll s x ys = some s' ∧ s.SameBut x s' ∧ s'.get x = some v ∧
        isTruncated s' v = (isTruncated s this || ys.any (truncatedAt s)) := by
  induction ys with
  | nil =>
      intro s this _ hthis _
      exact ⟨s, this, rfl, .refl x s, hthis, by simp⟩
  | cons y ys ih =>
      intro s this hb hthis hlive
      obtain ⟨other, hother⟩ := Option.isSome_iff_exists.mp (hlive y List.mem_cons_self)
      obtain ⟨s₁, v₁, hmerge, hb₁, hsame₁, hget₁, htrunc₁, -⟩ := mergeWith_spec hb hthis hother
      have hlive₁ : ∀ z ∈ ys, (s₁.get z).isSome := by
        intro z hz
        by_cases hzx : z = x
        · rw [hzx, hget₁]
          rfl
        · rw [(hsame₁ z hzx).1]
          exact hlive z (List.mem_cons_of_mem y hz)
      obtain ⟨s₂, v₂, hrest, hsame₂, hget₂, htrunc₂⟩ := ih hb₁ hget₁ hlive₁
      refine ⟨s₂, v₂, ?_, hsame₁.trans hsame₂, hget₂, ?_⟩
      · rw [mergeAll, hmerge]
        exact hrest
      · -- the target itself, if it comes again, adds nothing
        rw [htrunc₂, htrunc₁, List.any_cons, truncatedAt_eq hother, ← Bool.or_assoc]
        rw [Bool.eq_iff_iff]
        simp only [Bool.or_eq_true, List.any_eq_true]
        refine or_congr_right' fun hneither => exists_congr fun z => and_congr_right fun hz => ?_
        by_cases hzx : z = x
        · rw [hzx, truncatedAt_eq hget₁, truncatedAt_eq hthis, htrunc₁, Bool.or_eq_true]
          tauto
        · rw [truncatedAt, observe_eq hsame₁ hzx, truncatedAt]

/-- **The law of merges**: each of them changes its target only, and the target of some merges
is truncated if it or one of the operands was. -/
def Isolated (s : Results) : Prop :=
  ∀ x ys, (s.get x).isSome → (∀ y ∈ ys, (s.get y).isSome) →
    ∃ s', mergeAll s x ys = some s' ∧ (∀ z, z ≠ x → observe s' z = observe s z) ∧
      truncatedAt s' x = (x :: ys).any (truncatedAt s)

/-- **Merges are isolated** in every population, whatever its objects share. -/
theorem isolated_of_run {ts : List (Transition Results Action Unit)} {s : Results}
    (hrun : Run step noResults ts s) : Isolated s := by
  intro x ys hx hlive
  obtain ⟨this, hthis⟩ := Option.isSome_iff_exists.mp hx
  obtain ⟨s', v, hmerge, hsame, hget, htrunc⟩ :=
    mergeAll_spec ys (bounded_of_run hrun) hthis hlive
  refine ⟨s', hmerge, fun z hz => observe_eq hsame hz, ?_⟩
  rw [truncatedAt_eq hget, htrunc, List.any_cons, truncatedAt_eq hthis]

omit [LibGpgError] in
/-- Two copies of a listing that was not truncated, and one that was. -/
theorem isolated_copies :
    letI := LibGpgError.documented
    ∃ ts s, Run step noResults ts s ∧ s.objects.length = 3 ∧ s.useCount 0 = 2 ∧ Isolated s := by
  let := LibGpgError.documented
  have hrun : Run step noResults _ _ := .cons (i := .construct .none (some ⟨false⟩)) rfl
    (.cons (i := .copy 0) rfl (.single (i := .construct .none (some ⟨true⟩)) rfl))
  exact ⟨_, _, hrun, rfl, by decide, isolated_of_run hrun⟩

end KeyListResult

end Gpgmepp
