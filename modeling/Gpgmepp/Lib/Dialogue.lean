import Mathlib.Data.List.Basic
import Mathlib.Tactic.Common

/-!
# Dialogues given by their scripts

A dialogue is given by its complete scripts, each a list of prompts with the reply
to each.  A list of prompts is accepted when it begins one of the scripts.  A
performer is a partial machine that replies to a prompt or refuses it, and says
nothing more once it has refused.

`Follows` is the simulation between the two: the state of the performer is related
to the scripts that are still possible, a prompt that heads one of them gets the
reply written there, and any other prompt is refused.  From it the two laws of the
module follow: the performer replies to everything exactly when the prompts are
accepted, and on every list of prompts it replies along the longest accepted
beginning and to nothing after it.

## Main definitions

* `Accepts ds ps` — the prompts `ps` begin one of the scripts `ds`.
* `advance ds p` — what remains of the scripts after the prompt `p`.
* `perform next s ps` — the replies of a performer, `none` for a prompt it left
  unanswered.
* `Follows next R` — the performer follows the scripts.
* `Follows.forall_isSome_iff`, `Follows.perform_eq` — the two laws.
-/

namespace Dialogue

variable {P A S : Type*}

/-- `ps` begins one of the scripts. -/
def Accepts (ds : List (List (P × A))) (ps : List P) : Prop :=
  ∃ d ∈ ds, ps <+: d.map Prod.fst

theorem accepts_nil {ds : List (List (P × A))} (h : ds ≠ []) : Accepts ds [] := by
  obtain ⟨d, hd⟩ := List.exists_mem_of_ne_nil ds h
  exact ⟨d, hd, List.nil_prefix⟩

section Advance
variable [DecidableEq P]

/-- What remains of a script after the prompt `p`, if it expects `p` next. -/
def rest? (p : P) : List (P × A) → Option (List (P × A))
  | [] => none
  | (q, _) :: d => if q = p then some d else none

/-- What remains of the scripts that expect `p` next. -/
def advance (ds : List (List (P × A))) (p : P) : List (List (P × A)) :=
  ds.filterMap (rest? p)

theorem rest?_eq_some {p : P} {d r : List (P × A)} :
    rest? p d = some r ↔ ∃ a, d = (p, a) :: r := by
  cases d with
  | nil => simp [rest?]
  | cons q d =>
      obtain ⟨q, a⟩ := q
      by_cases hq : q = p
      · subst hq; simp [rest?]
      · simp [rest?, hq]

theorem mem_advance {ds : List (List (P × A))} {p : P} {r : List (P × A)} :
    r ∈ advance ds p ↔ ∃ a, (p, a) :: r ∈ ds := by
  simp only [advance, List.mem_filterMap, rest?_eq_some]
  constructor
  · rintro ⟨d, hd, a, rfl⟩; exact ⟨a, hd⟩
  · rintro ⟨a, hd⟩; exact ⟨_, hd, a, rfl⟩

theorem advance_ne_nil {ds : List (List (P × A))} {p : P} {a : A} {r : List (P × A)}
    (h : (p, a) :: r ∈ ds) : advance ds p ≠ [] :=
  List.ne_nil_of_mem (mem_advance.mpr ⟨a, h⟩)

/-- Accepting a prompt and more is accepting the rest with what remains. -/
theorem accepts_cons {ds : List (List (P × A))} {p : P} {ps : List P} :
    Accepts ds (p :: ps) ↔ Accepts (advance ds p) ps := by
  constructor
  · rintro ⟨d, hd, hp⟩
    cases d with
    | nil => simp at hp
    | cons q d =>
        obtain ⟨q, a⟩ := q
        obtain ⟨rfl, hps⟩ := List.cons_prefix_cons.mp hp
        exact ⟨d, mem_advance.mpr ⟨a, hd⟩, hps⟩
  · rintro ⟨r, hr, hps⟩
    obtain ⟨a, hd⟩ := mem_advance.mp hr
    exact ⟨_, hd, by simpa using hps⟩

end Advance

/-! ## Performers -/

/-- The replies of a performer to a list of prompts.  After the first refusal every
prompt stays unanswered. -/
def perform (next : S → P → Option (A × S)) : S → List P → List (Option A)
  | _, [] => []
  | s, p :: ps =>
      match next s p with
      | some (a, s') => some a :: perform next s' ps
      | none => List.replicate (ps.length + 1) none

theorem perform_cons_some {next : S → P → Option (A × S)} {s s' : S} {p : P} {a : A}
    (h : next s p = some (a, s')) (ps : List P) :
    perform next s (p :: ps) = some a :: perform next s' ps := by
  simp [perform, h]

theorem perform_cons_none {next : S → P → Option (A × S)} {s : S} {p : P}
    (h : next s p = none) (ps : List P) :
    perform next s (p :: ps) = List.replicate (ps.length + 1) none := by
  simp [perform, h]

/-- The relation `R` between the states of a performer and the scripts still open to
it: a prompt that heads a script is answered as written there, any other is refused. -/
structure Follows [DecidableEq P] (next : S → P → Option (A × S))
    (R : S → List (List (P × A)) → Prop) : Prop where
  /-- Some script is always open, be it the one that expects nothing more. -/
  nonempty : ∀ {s ds}, R s ds → ds ≠ []
  /-- A prompt that heads an open script gets the reply of that script. -/
  answer : ∀ {s ds p a r}, R s ds → (p, a) :: r ∈ ds →
    ∃ s', next s p = some (a, s') ∧ R s' (advance ds p)
  /-- A prompt that heads none is refused. -/
  refuse : ∀ {s ds p}, R s ds → advance ds p = [] → next s p = none

namespace Follows

variable [DecidableEq P] {next : S → P → Option (A × S)}
  {R : S → List (List (P × A)) → Prop}

/-- Which of the two a prompt gets. -/
theorem answer_or_refuse (F : Follows next R) {s : S} {ds : List (List (P × A))}
    (h : R s ds) (p : P) :
    (advance ds p = [] ∧ next s p = none) ∨
      ∃ a s', next s p = some (a, s') ∧ R s' (advance ds p) ∧ advance ds p ≠ [] := by
  by_cases hp : advance ds p = []
  · exact .inl ⟨hp, F.refuse h hp⟩
  · obtain ⟨r, hr⟩ := List.exists_mem_of_ne_nil _ hp
    obtain ⟨a, hd⟩ := mem_advance.mp hr
    obtain ⟨s', hs', hR⟩ := F.answer h hd
    exact .inr ⟨a, s', hs', hR, hp⟩

/-- Every prompt is answered exactly when the prompts are accepted. -/
theorem forall_isSome_iff (F : Follows next R) :
    ∀ (ps : List P) {s : S} {ds : List (List (P × A))}, R s ds →
      ((∀ x ∈ perform next s ps, x.isSome) ↔ Accepts ds ps) := by
  intro ps
  induction ps with
  | nil => intro s ds h; simp [perform, accepts_nil (F.nonempty h)]
  | cons p ps ih =>
      intro s ds h
      rw [accepts_cons]
      rcases F.answer_or_refuse h p with ⟨hp, hn⟩ | ⟨a, s', hs', hR, _⟩
      · rw [perform_cons_none hn, hp]
        simp [Accepts, List.replicate_succ]
      · rw [perform_cons_some hs', ← ih hR]
        simp

/-- **The performer replies along the longest accepted beginning.**  The prompts
split into `pre`, which is accepted and cannot be prolonged, and a rest that gets no
reply; the replies to `pre` are those of any script that `pre` begins. -/
theorem perform_eq (F : Follows next R) :
    ∀ (ps : List P) {s : S} {ds : List (List (P × A))}, R s ds →
      ∃ pre suf, ps = pre ++ suf ∧ Accepts ds pre ∧
        (∀ p rest, suf = p :: rest → ¬ Accepts ds (pre ++ [p])) ∧
        ∀ d ∈ ds, pre <+: d.map Prod.fst →
          perform next s ps =
            (d.take pre.length).map (some ∘ Prod.snd) ++ List.replicate suf.length none := by
  intro ps
  induction ps with
  | nil =>
      intro s ds h
      exact ⟨[], [], rfl, accepts_nil (F.nonempty h), by simp, by simp [perform]⟩
  | cons p ps ih =>
      intro s ds h
      rcases F.answer_or_refuse h p with ⟨hp, hn⟩ | ⟨a, s', hs', hR, _⟩
      · refine ⟨[], p :: ps, rfl, accepts_nil (F.nonempty h), ?_, ?_⟩
        · rintro q rest ⟨⟩
          rw [List.nil_append, accepts_cons, hp]
          simp [Accepts]
        · intro d _ _
          rw [perform_cons_none hn]
          simp
      · obtain ⟨pre, suf, hps, hacc, hmax, hrep⟩ := ih hR
        refine ⟨p :: pre, suf, by simp [hps], accepts_cons.mpr hacc, ?_, ?_⟩
        · intro q rest hsuf
          rw [List.cons_append, accepts_cons]
          exact hmax q rest hsuf
        · intro d hd hpre
          cases d with
          | nil => simp at hpre
          | cons q d =>
              obtain ⟨q, b⟩ := q
              obtain ⟨rfl, hrest⟩ := List.cons_prefix_cons.mp hpre
              -- the reply is that of every script headed by the prompt
              obtain ⟨t, ht, _⟩ := F.answer h hd
              obtain ⟨rfl, -⟩ : b = a ∧ t = s' := by simpa [ht] using hs'
              rw [perform_cons_some hs', hrep d (mem_advance.mpr ⟨_, hd⟩) hrest]
              simp

end Follows

end Dialogue
