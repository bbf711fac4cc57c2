import Gpgmepp.CString
import Gpgmepp.Context.Operations
import Gpgmepp.KeyListResult

/-!
# Errors that are combined

Merged listings and operations with two errors have one error to show, and a cancellation should
not be lost in it.  The sources choose with the conversion to `bool`, for which a cancellation is
no error: the error of a later listing takes the place of a cancellation, a canceled listing
without a result is passed over, and of a canceled transport and a successful operation the
success is returned.

## Main definitions

* `mergedError`, `mergedError_eq` — the error of several merges, as it is.
* `firstCode`, `FirstErrorKept` — the code that it should have, and when it has it.
* `VfsMountResult` — a result with two errors.
* `codes_iff` — when no code is lost.
-/

namespace Gpgmepp

open Shared StateMachine LibGpgError

/-- A `VfsMountResult`, with the mount directory of its `Private`. -/
structure VfsMountResult where
  error : Error
  d : Option (Option CString)

namespace VfsMountResult

/-- The constructor, from what gpgme has as the result of its context. -/
def ofGpgme [LibGpgError] (b : Build) (res : Option (Option CString)) (error opError : Error) :
    VfsMountResult where
  error := if error.toBool then error else opError
  d := if b.g13VFS then res else none

end VfsMountResult

namespace KeyListResult

variable [LibGpgError]

/-- The error of an object when some results are merged into it. -/
def mergedError (error : Error) (rs : List KeyListResult) : Error :=
  rs.foldl (fun error other => if other.isNull || error.toBool then error else other.error) error

/-- The code of the first result that has one, or zero. -/
def firstCode (rs : List KeyListResult) : UInt32 :=
  ((rs.find? fun r => r.error.code != 0).map fun r => r.error.code).getD 0

/-- If the first code is no cancellation, no result before it has an error that counts, which
would be one without a code.  If it is a cancellation, no result at all has an error that counts,
and the last one with data is canceled too. -/
def FirstErrorKept (rs : List KeyListResult) : Prop :=
  ∀ r, rs.find? (fun r => r.error.code != 0) = some r →
    if r.error.code = number .canceled then
      (∀ q ∈ rs, q.error.toBool = false) ∧
        ∃ q, (rs.filter fun q => q.d.isSome).getLast? = some q ∧ q.error.code = number .canceled
    else ∀ q ∈ rs.takeWhile fun q => q.error.code == 0, q.error.toBool = false

/-! ## The merged error -/

/-- An error that counts stays. -/
theorem mergedError_of_toBool {error : Error} (h : error.toBool = true) (rs : List KeyListResult) :
    mergedError error rs = error := by
  induction rs with
  | nil => rfl
  | cons r rs ih =>
      rw [mergedError, List.foldl_cons, h, Bool.or_true, if_pos rfl]
      exact ih

/-- **The merged error** is the first that counts, or else that of the last result that is not
null. -/
theorem mergedError_eq (rs : List KeyListResult) :
    ∀ {error : Error}, error.toBool = false → mergedError error rs =
      match rs.find? fun r => r.error.toBool with
      | some r => r.error
      | none => ((rs.filter fun r => r.d.isSome).getLast?.map KeyListResult.error).getD error := by
  induction rs with
  | nil => intro error _; rfl
  | cons r rs ih =>
      intro error herror
      have hstep : mergedError error (r :: rs) =
          mergedError (if r.isNull then error else r.error) rs := by
        simp only [mergedError, List.foldl_cons, herror, Bool.or_false]
      rw [hstep]
      cases hcounts : r.error.toBool with
      | true =>
          have hnull : r.isNull = false := by simp [isNull, hcounts]
          simp only [hnull, List.find?_cons, hcounts, Bool.false_eq_true, if_false]
          exact mergedError_of_toBool hcounts rs
      | false =>
          simp only [List.find?_cons, hcounts]
          cases hd : r.d with
          | none =>
              have hnull : r.isNull = true := isNull_iff.mpr ⟨hd, hcounts⟩
              rw [hnull, if_pos rfl, ih herror, List.filter_cons_of_neg (by simp [hd])]
          | some d =>
              have hnull : r.isNull = false := by simp [isNull, hd]
              rw [hnull, if_neg (by simp), ih hcounts, List.filter_cons_of_pos (by simp [hd]),
                List.getLast?_cons]
              cases (rs.filter fun r => r.d.isSome).getLast? <;> rfl

/-- The merged code is a cancellation exactly if no result has an error that counts and the last
one with data is canceled. -/
theorem canceled_mergedError_iff (rs : List KeyListResult) :
    (mergedError .none rs).code = number .canceled ↔
      (∀ q ∈ rs, q.error.toBool = false) ∧
        ∃ q, (rs.filter fun q => q.d.isSome).getLast? = some q ∧
          q.error.code = number .canceled := by
  rw [mergedError_eq rs Error.toBool_none]
  cases hfind : rs.find? fun r => r.error.toBool with
  | some r =>
      -- an error that counts is no cancellation
      have hr : r.error.toBool = true := 
        List.find?_some (p := fun r : KeyListResult => r.error.toBool) hfind
      refine iff_of_false (Error.toBool_iff.mp hr).2 fun h => ?_
      have hfalse := h.1 r (List.mem_of_find?_eq_some hfind)
      exact absurd (hr.symm.trans hfalse) (by simp)
  | none =>
      have hall : ∀ q ∈ rs, q.error.toBool = false := by simpa using hfind
      have hzero : (0 : UInt32) ≠ number .canceled := (Error.number_ne_zero (by decide)).symm
      cases hlast : (rs.filter fun q => q.d.isSome).getLast? with
      | none => simpa using hzero
      | some q => simpa using fun _ => hall

/-- The merged code, when the first code is no cancellation. -/
theorem code_mergedError_of_ne {rs : List KeyListResult} {r : KeyListResult}
    (hfirst : rs.find? (fun r => r.error.code != 0) = some r)
    (hr : r.error.code ≠ number .canceled) :
    (mergedError .none rs).code = r.error.code ↔
      ∀ q ∈ rs.takeWhile fun q => q.error.code == 0, q.error.toBool = false := by
  obtain ⟨hne, pre, post, rfl, hpre⟩ := List.find?_eq_some_iff_append.mp hfirst
  have hcode : r.error.code ≠ 0 := by simpa using hne
  have hzero : ∀ q ∈ pre, q.error.code = 0 := by simpa using hpre
  have hcounts : r.error.toBool = true := Error.toBool_of_code hcode hr
  have htake : ((pre ++ r :: post).takeWhile fun q => q.error.code == 0) = pre := by
    rw [List.takeWhile_append_of_pos (by simpa using hzero)]
    simp [hcode]
  rw [htake, mergedError_eq _ Error.toBool_none, List.find?_append]
  cases hfind : pre.find? fun r => r.error.toBool with
  | some q =>
      have hq := List.mem_of_find?_eq_some hfind
      have hqcounts : q.error.toBool = true :=
        List.find?_some (p := fun r : KeyListResult => r.error.toBool) hfind
      refine iff_of_false (fun h => hcode (h.symm.trans (hzero q hq))) fun h => ?_
      exact absurd (hqcounts.symm.trans (h q hq)) (by simp)
  | none =>
      refine iff_of_true ?_ (by simpa using hfind)
      simp [hcounts]

/-- **The first code is kept exactly if** `FirstErrorKept`. -/
theorem code_mergedError_iff (rs : List KeyListResult) :
    (mergedError .none rs).code = firstCode rs ↔ FirstErrorKept rs := by
  cases hfirst : rs.find? fun r => r.error.code != 0 with
  | none =>
      -- no result has a code, so that the merged error has none
      have hall : ∀ q ∈ rs, q.error.code = 0 := by simpa using hfirst
      refine iff_of_true ?_ fun r hr => absurd (hfirst.symm.trans hr) (by simp)
      rw [firstCode, hfirst, mergedError_eq rs Error.toBool_none]
      cases hfind : rs.find? fun r => r.error.toBool with
      | some r => exact hall r (List.mem_of_find?_eq_some hfind)
      | none =>
          cases hlast : (rs.filter fun q => q.d.isSome).getLast? with
          | none => exact Error.code_none
          | some q => exact hall q (List.mem_filter.mp (List.mem_of_getLast? hlast)).1
  | some r =>
      have hcode : firstCode rs = r.error.code := by rw [firstCode, hfirst]; rfl
      have hcond : FirstErrorKept rs ↔ if r.error.code = number .canceled then
          (∀ q ∈ rs, q.error.toBool = false) ∧
            ∃ q, (rs.filter fun q => q.d.isSome).getLast? = some q ∧
              q.error.code = number .canceled
          else ∀ q ∈ rs.takeWhile fun q => q.error.code == 0, q.error.toBool = false := by
        constructor
        · exact fun h => h r hfirst
        · rintro h r' hr'
          obtain rfl : r = r' := Option.some.inj (hfirst.symm.trans hr')
          exact h
      rw [hcode, hcond]
      split
      · next h => rw [h, canceled_mergedError_iff]
      · next h => exact code_mergedError_of_ne hfirst h

/-- The error of an object into which others are merged. -/
theorem mergeAll_error {x : ℕ} (ys : List ℕ) :
    ∀ {rs : List KeyListResult} {s : Results} {this : KeyListResult}, s.Bounded →
      s.get x = some this → x ∉ ys → ys.map s.get = rs.map some →
      ∃ s' v, mergeAll s x ys = some s' ∧ s'.get x = some v ∧
        v.error = mergedError this.error rs := by
  induction ys with
  | nil =>
      intro rs s this _ hthis _ hrs
      obtain rfl : rs = [] := List.map_eq_nil_iff.mp hrs.symm
      exact ⟨s, this, rfl, hthis, rfl⟩
  | cons y ys ih =>
      intro rs s this hb hthis hx hrs
      obtain ⟨other, rs, rfl, hother, hrs⟩ := List.map_eq_cons_iff.mp hrs.symm
      obtain ⟨s₁, v₁, hmerge, hb₁, hsame₁, hget₁, -, herror₁⟩ :=
        mergeWith_spec hb hthis hother.symm
      have hrs₁ : ys.map s₁.get = rs.map some := by
        rw [hrs]
        refine List.map_congr_left fun z hz => (hsame₁ z ?_).1
        rintro rfl
        exact hx (List.mem_cons_of_mem y hz)
      obtain ⟨s₂, v₂, hrest, hget₂, herror₂⟩ :=
        ih hb₁ hget₁ (fun h => hx (List.mem_cons_of_mem y h)) hrs₁
      refine ⟨s₂, v₂, ?_, hget₂, ?_⟩
      · rw [mergeAll, hmerge]
        exact hrest
      · rw [herror₂, herror₁]
        rfl

/-- **No code is lost, exactly if** in the merged listings `FirstErrorKept`, and with a canceled
transport the operation has a code, too. -/
theorem codes_iff :
    (∀ ts s x ys rs, Run step noResults ts s → s.get x = some ⟨.none, none⟩ → x ∉ ys →
      ys.map s.get = rs.map some →
      ∃ s' v, mergeAll s x ys = some s' ∧ s'.get x = some v ∧
        (v.error.code = firstCode rs ↔ FirstErrorKept rs)) ∧
    (∀ b res error opError,
      (error.code ≠ 0 → (VfsMountResult.ofGpgme b res error opError).error.code ≠ 0) ↔
        (error.code = number .canceled → opError.code ≠ 0)) ∧
    ∀ b error opError, (error.code ≠ 0 → (Context.createVFS b error opError).1.code ≠ 0) ↔
      (b.g13VFS = true → error.code = number .canceled → opError.code ≠ 0) := by
  have htwo : ∀ error opError : Error,
      (error.code ≠ 0 → (if error.toBool then error else opError).code ≠ 0) ↔
        (error.code = number .canceled → opError.code ≠ 0) := by
    intro error opError
    cases hcounts : error.toBool with
    | true =>
        have hne := (Error.toBool_iff.mp hcounts).2
        exact iff_of_true (fun h => h) fun h => absurd h hne
    | false =>
        rcases Error.toBool_eq_false_iff.mp hcounts with rfl | hcanceled
        · have hne : (0 : UInt32) ≠ number .canceled := (Error.number_ne_zero (by decide)).symm
          simp [hne]
        · have hne : error.code ≠ 0 := hcanceled ▸ Error.number_ne_zero (by decide)
          simp [hcanceled, hcanceled ▸ hne]
  refine ⟨?_, fun b res error opError => htwo error opError, ?_⟩
  · intro ts s x ys rs hrun hthis hx hrs
    obtain ⟨s', v, hmerge, hget, herror⟩ := mergeAll_error ys (bounded_of_run hrun) hthis hx hrs
    exact ⟨s', v, hmerge, hget, herror ▸ code_mergedError_iff rs⟩
  · intro b error opError
    cases hb : b.g13VFS with
    | true => simpa [Context.createVFS, Context.orElse, Context.perform, hb] using htwo error opError
    | false =>
        have hcode : number .notSupported ≠ 0 := Error.number_ne_zero (by decide)
        simp [Context.createVFS, Context.orElse, Context.perform, hb, hcode]

/-- Three objects: an empty one, a canceled listing with data, and one that was successful. -/
theorem run_canceled : ∃ ts s, Run step noResults ts s ∧ s.get 0 = some ⟨.none, none⟩ ∧
    [1, 2].map s.get = [⟨.fromCode .canceled, some 0⟩, ⟨.none, some 1⟩].map some := by
  have hrun : Run step noResults _ _ := .cons (i := .construct .none none) rfl
    (.cons (i := .construct (.fromCode .canceled) (some ⟨false⟩)) rfl
      (.single (i := .construct .none (some ⟨false⟩)) rfl))
  exact ⟨_, _, hrun, rfl, rfl⟩

omit [LibGpgError] in
/-- Merging in the canceled listing alone. -/
theorem codes_canceled :
    letI := LibGpgError.documented
    ∃ s s' v, mergeAll s 0 [1] = some s' ∧ s'.get 0 = some v ∧
      (v.error.code = firstCode [⟨.fromCode .canceled, some 0⟩] ↔
        FirstErrorKept [⟨.fromCode .canceled, some 0⟩]) := by
  let := LibGpgError.documented
  obtain ⟨ts, s, hrun, hthis, hrs⟩ := run_canceled
  refine ⟨s, codes_iff.1 ts s 0 [1] _ hrun hthis (by simp) ?_⟩
  rw [List.map_cons, List.map_cons] at hrs
  rw [List.map_singleton, List.map_singleton, (List.cons.inj hrs).1]

omit [LibGpgError] in
/-- A cancellation is lost in the listing that follows it. -/
theorem not_codes_canceled :
    letI := LibGpgError.documented
    ¬ ∀ ts s x ys rs, Run step noResults ts s → s.get x = some ⟨.none, none⟩ → x ∉ ys →
      ys.map s.get = rs.map some →
      ∃ s' v, mergeAll s x ys = some s' ∧ s'.get x = some v ∧ v.error.code = firstCode rs := by
  let := LibGpgError.documented
  intro h
  obtain ⟨ts, s, hrun, hthis, hrs⟩ := run_canceled
  obtain ⟨s', v, hmerge, hget, hcode⟩ := h ts s 0 [1, 2] _ hrun hthis (by simp) hrs
  obtain ⟨s₂, v₂, hmerge₂, hget₂, herror⟩ :=
    mergeAll_error [1, 2] (bounded_of_run hrun) hthis (by simp) hrs
  obtain rfl : s' = s₂ := Option.some.inj (hmerge.symm.trans hmerge₂)
  obtain rfl : v = v₂ := Option.some.inj (hget.symm.trans hget₂)
  rw [herror] at hcode
  exact absurd hcode (by decide)

end KeyListResult

end Gpgmepp
