import Gpgmepp.Configuration.Effect

/-!
# Freed option records

The member functions of options and arguments look whether the component is still held
before they use a record.  The copy constructor, the assignment and the destructor of an
argument do not: they use the record of every argument that was not made null, also when
the component is gone.  A program that takes care of these three uses no freed record.

## Main results

* `ne_freedOption_of_safe` — every run, and every next operation that is safe.
* `not_ne_freedOption` — a program that lets an argument outlive its component.
-/

namespace Gpgmepp.Configuration

open StateMachine

/-- **In every run, in whatever order objects are obtained, copied, assigned, read and
destroyed and components dropped, no operation uses a freed option record, unless it
copies, assigns or destroys an argument whose component is gone.** -/
theorem ne_freedOption_of_safe [GpgmeConf] [LibGpgError] {w₀ w : World}
    {ts : List (Transition World Op Output)} {op : Op} (h0 : w₀.Initial)
    (hrun : Run step w₀ ts w) (hsafe : Safe w op) : step w op ≠ .error .freedOption :=
  (ensures_step (linked_of_run h0 hrun) op).ne_error fun h => h hsafe

theorem run_obtained :
    letI := GpgmeConf.documented
    letI := LibGpgError.documented
    ∃ ts, Run step (.ofOption .int32 [⟨false, .int32 1, rfl⟩]) ts .obtained := by
  let := GpgmeConf.documented
  let := LibGpgError.documented
  exact ⟨_, .cons (i := .option 0 0 0) rfl
    (.cons (i := .get 0 0 .activeValue fun _ => true) rfl (.nil _))⟩

/-- An argument that is destroyed while its component is held. -/
theorem ne_freedOption_destroy :
    letI := GpgmeConf.documented
    letI := LibGpgError.documented
    Safe .obtained (.destroy 0) ∧ step .obtained (.destroy 0) ≠ .error .freedOption := by
  let := GpgmeConf.documented
  let := LibGpgError.documented
  obtain ⟨ts, hrun⟩ := run_obtained
  have hsafe : Safe .obtained (.destroy 0) := by
    intro a ha r hr
    cases ha
    cases hr
    decide
  exact ⟨hsafe, ne_freedOption_of_safe (World.ofOption_initial _ _) hrun hsafe⟩

/-- An argument that outlives its component: its destructor uses the freed record. -/
theorem not_ne_freedOption :
    letI := GpgmeConf.documented
    letI := LibGpgError.documented
    ¬ ∀ (w₀ w : World) (ts : List (Transition World Op Output)) (op : Op), w₀.Initial →
      Run step w₀ ts w → step w op ≠ .error .freedOption := by
  let := GpgmeConf.documented
  let := LibGpgError.documented
  intro h
  obtain ⟨ts, hrun⟩ := run_obtained
  have hdrop : Run step World.obtained _ _ := .single (i := .drop 0) rfl
  exact h _ _ _ (.destroy 0) (World.ofOption_initial _ _) (hrun.append hdrop) rfl

end Gpgmepp.Configuration
