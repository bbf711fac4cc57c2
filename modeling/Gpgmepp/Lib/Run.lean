import Mathlib.Data.List.Induction
import Mathlib.Tactic.Common

/-!
# Runs of a machine that answers, or fails

A machine is a function `step : S → I → Except ε (O × S)`: from a state and an
input it produces an output and the next state, or stops with an error.  A run is
the list of its completed steps.  Every step is kept whole, with the state it
started from, so that a law about a run can speak of "the state before" and of
"some earlier step" without a second bookkeeping device.

The rules at the end are the only inductions on runs a development needs: a state
invariant, an invariant that may look at the whole history, an invariant of the runs
whose steps meet a condition, a set of states that is never left again, the simulation of
one machine by another and where it ends, and the existence of runs of a machine that never
fails.

## Main definitions

* `Transition S I O` — one completed step.
* `Run step s ts s'` — the transitions `ts` lead from `s` to `s'`.
* `Run.ForallCut Q ts` — each transition has a property of it and the history before it.
* `Run.invariant`, `Run.history`, `Run.absorbing_of`, `Run.forall_iff`, `Run.forallCut_iff`,
  `Run.absorbing`, `Run.simulated`, `Run.matched_iff`, `exists_run` — the rules.
-/

namespace StateMachine

variable {S I O ε : Type*}

/-- One completed step of a machine, with everything that was seen of it. -/
structure Transition (S I O : Type*) where
  /-- The state the step started from. -/
  source : S
  /-- What the machine was given. -/
  input : I
  /-- What it answered. -/
  output : O
  /-- The state it ended in. -/
  target : S

/-- `Run step s ts s'` says that `ts` are steps of the machine, each starting where
the one before ended, from `s` to `s'`. -/
inductive Run (step : S → I → Except ε (O × S)) : S → List (Transition S I O) → S → Prop
  | nil (s : S) : Run step s [] s
  | cons {s : S} {i : I} {o : O} {s' : S} {ts : List (Transition S I O)} {s'' : S}
      (h : step s i = .ok (o, s')) (r : Run step s' ts s'') :
      Run step s (⟨s, i, o, s'⟩ :: ts) s''

namespace Run

variable {step : S → I → Except ε (O × S)}

/-- A single step is a run. -/
theorem single {s s' : S} {i : I} {o : O} (h : step s i = .ok (o, s')) :
    Run step s [⟨s, i, o, s'⟩] s' :=
  .cons h (.nil s')

theorem append {s m u : S} {ts us : List (Transition S I O)}
    (h : Run step s ts m) (h' : Run step m us u) : Run step s (ts ++ us) u := by
  induction h with
  | nil s => exact h'
  | cons hstep _ ih => exact .cons hstep (ih h')

theorem of_append {ts us : List (Transition S I O)} :
    ∀ {s u : S}, Run step s (ts ++ us) u → ∃ m, Run step s ts m ∧ Run step m us u := by
  induction ts with
  | nil => intro s u h; exact ⟨s, .nil s, h⟩
  | cons t ts ih =>
      intro s u h
      cases h with
      | cons hstep r =>
          obtain ⟨m, hm, hu⟩ := ih r
          exact ⟨m, .cons hstep hm, hu⟩

/-- A run can be cut at any of its transitions. -/
theorem cut {s u : S} {ts us : List (Transition S I O)} {t : Transition S I O}
    (h : Run step s (ts ++ t :: us) u) :
    Run step s ts t.source ∧ step t.source t.input = .ok (t.output, t.target) ∧
      Run step t.target us u := by
  obtain ⟨m, hm, hu⟩ := of_append h
  cases hu with
  | cons hstep r => exact ⟨hm, hstep, r⟩

/-- The inputs determine a run. -/
theorem eq_of_inputs {s u v : S} {ts us : List (Transition S I O)} (h : Run step s ts u)
    (h' : Run step s us v) (hin : ts.map Transition.input = us.map Transition.input) :
    ts = us ∧ u = v := by
  induction h generalizing us with
  | nil s =>
      obtain rfl := List.map_eq_nil_iff.mp hin.symm
      cases h'
      exact ⟨rfl, rfl⟩
  | cons hs _ ih =>
      cases h' with
      | nil => cases hin
      | cons hs' r' =>
          simp only [List.map_cons, List.cons.injEq] at hin
          obtain ⟨rfl, hrest⟩ := hin
          obtain ⟨rfl, rfl⟩ := Prod.mk.inj (Except.ok.inj (hs.symm.trans hs'))
          obtain ⟨rfl, rfl⟩ := ih r' hrest
          exact ⟨rfl, rfl⟩

/-- Induction from the end of a run: what holds of the empty run and survives one
more step, given the whole run before it, holds of every run. -/
theorem history {s : S} (P : List (Transition S I O) → S → Prop) (h0 : P [] s)
    (hstep : ∀ ts m i o m', Run step s ts m → P ts m → step m i = .ok (o, m') →
      P (ts ++ [⟨m, i, o, m'⟩]) m') {ts : List (Transition S I O)} {u : S}
    (h : Run step s ts u) : P ts u := by
  induction ts using List.reverseRecOn generalizing u with
  | nil => cases h; exact h0
  | append_singleton ts t ih =>
      obtain ⟨hts, ht, hend⟩ := cut h
      cases hend
      exact hstep ts t.source t.input t.output t.target hts (ih hts) ht

/-- A predicate that holds at the start and is kept by every step holds at the end. -/
theorem invariant {s u : S} {ts : List (Transition S I O)} (P : S → Prop)
    (h : Run step s ts u) (h0 : P s)
    (hstep : ∀ m i o m', P m → step m i = .ok (o, m') → P m') : P u :=
  history (fun _ => P) h0 (fun _ m i o m' _ hm hs => hstep m i o m' hm hs) h

/-- If the steps from `P` that have the property `Q` stay in `P` and have the property `R`,
then so do all transitions of a run of such steps that starts in `P`. -/
theorem absorbing_of {s u : S} {ts : List (Transition S I O)} (P : S → Prop)
    (Q R : Transition S I O → Prop) (h : Run step s ts u) (h0 : P s) (hQ : ∀ t ∈ ts, Q t)
    (hstep : ∀ m i o m', P m → step m i = .ok (o, m') → Q ⟨m, i, o, m'⟩ →
      P m' ∧ R ⟨m, i, o, m'⟩) : P u ∧ ∀ t ∈ ts, R t := by
  induction h with
  | nil s => exact ⟨h0, by simp⟩
  | cons hs _ ih =>
      obtain ⟨hP, hR⟩ := hstep _ _ _ _ h0 hs (hQ _ List.mem_cons_self)
      obtain ⟨hu, hall⟩ := ih hP fun t ht => hQ t (List.mem_cons_of_mem _ ht)
      exact ⟨hu, List.forall_mem_cons.mpr ⟨hR, hall⟩⟩

/-- A predicate that is kept by the steps with property `Q` is kept by a run of such
steps. -/
theorem invariant_of {s u : S} {ts : List (Transition S I O)} (P : S → Prop)
    (Q : Transition S I O → Prop) (h : Run step s ts u) (h0 : P s) (hQ : ∀ t ∈ ts, Q t)
    (hstep : ∀ m i o m', P m → step m i = .ok (o, m') → Q ⟨m, i, o, m'⟩ → P m') : P u :=
  (absorbing_of P Q Q h h0 hQ fun m i o m' hm hs hq => ⟨hstep m i o m' hm hs hq, hq⟩).1

/-- Two properties of transitions that say the same of the steps from `P` say the same of
whole runs from `P`, if the steps that have them stay in `P`. -/
theorem forall_iff {s u : S} {ts : List (Transition S I O)} (P : S → Prop)
    (Q R : Transition S I O → Prop) (h : Run step s ts u) (h0 : P s)
    (hstep : ∀ m i o m', P m → step m i = .ok (o, m') →
      (Q ⟨m, i, o, m'⟩ ↔ R ⟨m, i, o, m'⟩) ∧ (Q ⟨m, i, o, m'⟩ → P m')) :
    (∀ t ∈ ts, Q t) ↔ ∀ t ∈ ts, R t := by
  induction h with
  | nil s => simp
  | cons hs _ ih =>
      obtain ⟨hiff, hP⟩ := hstep _ _ _ _ h0 hs
      simp only [List.forall_mem_cons, ← hiff]
      exact and_congr_right fun hQ => ih (hP hQ)

/-- Every transition has a property that may look at the history before it. -/
def ForallCut (Q : List (Transition S I O) → Transition S I O → Prop)
    (ts : List (Transition S I O)) : Prop :=
  ∀ pre t post, ts = pre ++ t :: post → Q pre t

theorem forallCut_nil (Q : List (Transition S I O) → Transition S I O → Prop) :
    ForallCut Q [] := by
  intro pre t post h
  simp at h

theorem forallCut_concat {Q : List (Transition S I O) → Transition S I O → Prop}
    {ts : List (Transition S I O)} {x : Transition S I O} :
    ForallCut Q (ts ++ [x]) ↔ ForallCut Q ts ∧ Q ts x := by
  constructor
  · intro h
    refine ⟨fun pre t post hts => h pre t (post ++ [x]) (by simp [hts]), h ts x [] rfl⟩
  · rintro ⟨hts, hx⟩ pre t post heq
    rcases List.eq_nil_or_concat post with rfl | ⟨post', y, rfl⟩
    · obtain ⟨rfl, hxt⟩ := List.append_inj' heq rfl
      exact (List.cons.inj hxt).1 ▸ hx
    · have hsplit : ts ++ [x] = (pre ++ t :: post') ++ [y] := by simpa using heq
      exact hts pre t post' (List.append_inj' hsplit rfl).1

/-- `Run.forall_iff`, for properties and a predicate that may look at the history. -/
theorem forallCut_iff {s u : S} {ts : List (Transition S I O)}
    (P : List (Transition S I O) → S → Prop)
    (Q R : List (Transition S I O) → Transition S I O → Prop) (h : Run step s ts u) (h0 : P [] s)
    (hstep : ∀ pre m i o m', P pre m → step m i = .ok (o, m') →
      (Q pre ⟨m, i, o, m'⟩ ↔ R pre ⟨m, i, o, m'⟩) ∧
        (Q pre ⟨m, i, o, m'⟩ → P (pre ++ [⟨m, i, o, m'⟩]) m')) :
    ForallCut Q ts ↔ ForallCut R ts := by
  refine (h.history (fun ts u => (ForallCut Q ts ↔ ForallCut R ts) ∧ (ForallCut Q ts → P ts u))
    ⟨iff_of_true (forallCut_nil Q) (forallCut_nil R), fun _ => h0⟩ ?_).1
  rintro ts m i o m' - ⟨hiff, hP⟩ hs
  simp only [forallCut_concat, ← hiff]
  refine ⟨and_congr_right fun hQ => (hstep ts m i o m' (hP hQ) hs).1, ?_⟩
  rintro ⟨hts, hQ⟩
  exact (hstep ts m i o m' (hP hts) hs).2 hQ

/-- If the steps from `P` stay in `P` and each of them has the property `Q`, then
every transition of a run that starts in `P` has it. -/
theorem absorbing {s u : S} {ts : List (Transition S I O)} (P : S → Prop)
    (Q : Transition S I O → Prop) (h : Run step s ts u) (h0 : P s)
    (hstep : ∀ m i o m', P m → step m i = .ok (o, m') → P m' ∧ Q ⟨m, i, o, m'⟩) :
    P u ∧ ∀ t ∈ ts, Q t :=
  absorbing_of P (fun _ => True) Q h h0 (fun _ _ => trivial) fun m i o m' hm hs _ =>
    hstep m i o m' hm hs

/-- An invariant of the states gives a property of every transition, when it does so
for each step by itself. -/
theorem forall_mem {s u : S} {ts : List (Transition S I O)} (P : S → Prop)
    (Q : Transition S I O → Prop) (h : Run step s ts u) (h0 : P s)
    (hinv : ∀ m i o m', P m → step m i = .ok (o, m') → P m')
    (hQ : ∀ m i o m', P m → step m i = .ok (o, m') → Q ⟨m, i, o, m'⟩) :
    ∀ t ∈ ts, Q t :=
  (absorbing P Q h h0 fun m i o m' hm hs => ⟨hinv m i o m' hm hs, hQ m i o m' hm hs⟩).2

/-- **Forward simulation.**  If every step of a machine, on an input with `Q`, is matched by one of
another machine on the same input, then so is every run on such inputs. -/
theorem simulated {S' O' ε' : Type*} {step' : S' → I → Except ε' (O' × S')} {s u : S}
    {ts : List (Transition S I O)} (h : Run step s ts u) (Sim : S → S' → Prop)
    (Matches : O → O' → Prop) (Q : I → Prop)
    (hstep : ∀ m m' i o n, Sim m m' → Q i → step m i = .ok (o, n) →
      ∃ o' n', step' m' i = .ok (o', n') ∧ Matches o o' ∧ Sim n n')
    {s' : S'} (hsim : Sim s s') (hQ : ∀ t ∈ ts, Q t.input) :
    ∃ us u', Run step' s' us u' ∧ us.map Transition.input = ts.map Transition.input ∧
      List.Forall₂ Matches (ts.map Transition.output) (us.map Transition.output) ∧ Sim u u' := by
  induction h generalizing s' with
  | nil s => exact ⟨[], s', .nil s', rfl, .nil, hsim⟩
  | cons hs _ ih =>
      obtain ⟨o', n', hs', hout, hsim'⟩ := hstep _ _ _ _ _ hsim (hQ _ List.mem_cons_self) hs
      obtain ⟨us, u', hrun, hin, houts, hend⟩ :=
        ih hsim' fun t ht => hQ t (List.mem_cons_of_mem _ ht)
      exact ⟨⟨s', _, o', n'⟩ :: us, u', .cons hs' hrun, by simp [hin],
        .cons hout houts, hend⟩

/-- Two transitions on the same input, with answers and states that correspond. -/
structure Corresponds {S' O' : Type*} (Sim : S → S' → Prop) (Matches : O → O' → Prop)
    (t : Transition S I O) (t' : Transition S' I O') : Prop where
  input : t'.input = t.input
  output : Matches t.output t'.output
  target : Sim t.target t'.target

section Corresponds
variable {S' O' : Type*} {Sim : S → S' → Prop} {Matches : O → O' → Prop}
  {ts : List (Transition S I O)} {us : List (Transition S' I O')}

theorem inputs_of_corresponds (h : List.Forall₂ (Corresponds Sim Matches) ts us) :
    us.map Transition.input = ts.map Transition.input := by
  induction h with
  | nil => rfl
  | cons hhead _ ih => rw [List.map_cons, List.map_cons, ih, hhead.input]

/-- What answers that correspond have in common. -/
theorem outputs_of_corresponds {γ : Type*} (g : O → γ) (g' : O' → γ)
    (h : List.Forall₂ (Corresponds Sim Matches) ts us)
    (hmatches : ∀ o o', Matches o o' → g' o' = g o) :
    us.map (fun t => g' t.output) = ts.map fun t => g t.output := by
  induction h with
  | nil => rfl
  | cons hhead _ ih => rw [List.map_cons, List.map_cons, ih, hmatches _ _ hhead.output]

end Corresponds

/-- **Where a simulation ends.**  If exactly the steps with `Q` are matched by another machine,
then exactly the runs of such steps are matched, step by step. -/
theorem matched_iff {S' O' ε' : Type*} {step' : S' → I → Except ε' (O' × S')} {s u : S}
    {ts : List (Transition S I O)} (h : Run step s ts u) (Sim : S → S' → Prop)
    (Matches : O → O' → Prop) (Q : Transition S I O → Prop)
    (hstep : ∀ m m' i o n, Sim m m' → step m i = .ok (o, n) →
      ((∃ o' n', step' m' i = .ok (o', n') ∧ Matches o o' ∧ Sim n n') ↔ Q ⟨m, i, o, n⟩))
    {s' : S'} (hsim : Sim s s') :
    (∃ us u', Run step' s' us u' ∧ List.Forall₂ (Corresponds Sim Matches) ts us) ↔
      ∀ t ∈ ts, Q t := by
  induction h generalizing s' with
  | nil s => exact iff_of_true ⟨[], s', .nil s', .nil⟩ (by simp)
  | cons hs _ ih =>
      rw [List.forall_mem_cons, ← hstep _ _ _ _ _ hsim hs]
      constructor
      · rintro ⟨us, u', hrun, hall⟩
        cases hall with
        | cons hhead htail =>
            cases hrun with
            | cons hs' hrun =>
                obtain ⟨rfl, hout, htarget⟩ := hhead
                exact ⟨⟨_, _, hs', hout, htarget⟩, (ih htarget).mp ⟨_, u', hrun, htail⟩⟩
      · rintro ⟨⟨o', n', hs', hout, htarget⟩, hrest⟩
        obtain ⟨us, u', hrun, hall⟩ := (ih htarget).mpr hrest
        exact ⟨_, u', .cons hs' hrun, .cons ⟨rfl, hout, htarget⟩ hall⟩

end Run

/-- A machine can be run on every list of inputs on which it does not fail. -/
theorem exists_run_of_forall_mem {step : S → I → Except ε (O × S)} :
    ∀ (is : List I), (∀ s, ∀ i ∈ is, ∃ o s', step s i = .ok (o, s')) →
      ∀ s : S, ∃ ts u, Run step s ts u ∧ ts.map Transition.input = is := by
  intro is
  induction is with
  | nil => intro _ s; exact ⟨[], s, .nil s, rfl⟩
  | cons i is ih =>
      intro htotal s
      obtain ⟨o, s', hstep⟩ := htotal s i List.mem_cons_self
      obtain ⟨ts, u, hr, hmap⟩ := ih (fun s j hj => htotal s j (List.mem_cons_of_mem i hj)) s'
      exact ⟨⟨s, i, o, s'⟩ :: ts, u, .cons hstep hr, by simp [hmap]⟩

/-- A machine that does not fail can be run on every list of inputs. -/
theorem exists_run {step : S → I → Except ε (O × S)}
    (htotal : ∀ s i, ∃ o s', step s i = .ok (o, s')) (is : List I) (s : S) :
    ∃ ts u, Run step s ts u ∧ ts.map Transition.input = is :=
  exists_run_of_forall_mem is (fun s i _ => htotal s i) s

end StateMachine
