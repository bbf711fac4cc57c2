import Gpgmepp.Context.LifeCycle.Invariant

/-!
# Accounts of contexts

What became of the contexts that were made of gpgme, and what its events come with.

## Main definitions

* `Fate` — what became of a context of gpgme.
* `contextsAccounted` — each was released once, is in one `Context`, or was lost by a known call.
* `EventsSafe`, `eventsSafe_iff` — when the assertion in `eventIOCb` holds.
-/

namespace Gpgmepp.LifeCycle

open Owning StateMachine

/-! ## Contexts are accounted for -/

/-- The context `g` of gpgme was made by a call that lost it. -/
def LostBy (found : Capability → Bool) (ts : List (Transition World Op Output)) (g : ℕ) : Prop :=
  ∃ t ∈ ts, t.input.Leaks found ∧ t.source.gpgme.next = g

/-- What became of a context of gpgme. -/
inductive Fate (found : Capability → Bool) (ts : List (Transition World Op Output)) (w : World)
    (g : ℕ) : Prop
  /-- It is there, and one `Context` has it. -/
  | owned (there : (w.gpgme.object g).isSome ∧ w.gpgme.frees g = 0)
      (owner : ∃! c, w.contexts c = true ∧ w.gpgme.held (.context c) = some g)
      (notLost : ¬LostBy found ts g)
  | released (gone : w.gpgme.object g = none ∧ w.gpgme.frees g = 1)
      (nowhere : ∀ p, w.gpgme.held p ≠ some g) (notLost : ¬LostBy found ts g)
  /-- It is there, and nobody has it. -/
  | lost (there : (w.gpgme.object g).isSome ∧ w.gpgme.frees g = 0)
      (nobody : ∀ c, w.gpgme.held (.context c) ≠ some g) (lost : LostBy found ts g)

/-- A step loses a context of gpgme if it leaks, and no other. -/
theorem Stepped.held_lost {found : Capability → Bool} {w w' : World} {op : Op}
    (h : Stepped found w op w') (g : ℕ) :
    (w'.gpgme.held (.lost g)).isSome ↔
      (w.gpgme.held (.lost g)).isSome ∨ op.Leaks found ∧ w.gpgme.next = g := by
  cases h with
  | same hop => simp [hop]
  | lost hop =>
      by_cases hg : g = w.gpgme.next
      · simp [hg, hop]
      · simp [hg, Ne.symm hg]
  | refused hop => simp [hop]
  | created hop protocol => simp [hop]
  | deleted hop c _ => simp [World.deleteContext, World.gpgmeRelease, hop]
  | installed hop c _ _ _ => simp [World.installIOCallbacks, hop]
  | uninstalled hop c _ => simp [World.uninstallIOCallbacks, hop]
  | interactor hop b _ => simp [hop]

section Runs
variable {found : Capability → Bool} {ts : List (Transition World Op Output)} {w : World}

theorem Inv.fate (hi : Inv w)
    (hlost : ∀ g, (w.gpgme.held (.lost g)).isSome ↔ LostBy found ts g) {g : ℕ}
    (hg : g < w.gpgme.next) : Fate found ts w g := by
  have hnot : (∀ g', w.gpgme.held (.lost g') ≠ some g) → ¬LostBy found ts g := by
    intro hno hby
    obtain ⟨o, ho⟩ := Option.isSome_iff_exists.mp ((hlost g).mpr hby)
    exact hno g (hi.lost g o ho ▸ ho)
  rcases hi.gpgme.cases hg with ⟨hthere, hfrees, p, hp, hunique⟩ | ⟨hgone, hfrees, hno⟩
  · cases p with
    | ctx => simp [hi.ctx_eq] at hp
    | context c =>
        refine .owned ⟨hthere, hfrees⟩ ⟨c, ⟨(hi.context c).mp (by simp [hp]), hp⟩, ?_⟩
          (hnot fun g' hg' => ?_)
        · intro c' hc'
          simpa using hunique _ hc'.2
        · cases hunique _ hg'
    | lost g' =>
        obtain rfl := hi.lost g' g hp
        refine .lost ⟨hthere, hfrees⟩ (fun c hc => ?_) ((hlost g).mp (by simp [hp]))
        cases hunique _ hc
  · exact .released ⟨hgone, hfrees⟩ hno (hnot fun g' => hno _)

/-- gpgme calls the callbacks of a context exactly if they are managed, and with its `Context`. -/
theorem Inv.ioCbs_eq (hi : Inv w) {c : ℕ} (hc : w.contexts c = true) :
    ∃ g v, w.gpgme.held (.context c) = some g ∧ w.gpgme.object g = some v ∧
      v.ioCbs = if w.managed c then some c else none := by
  obtain ⟨g, hg⟩ := Option.isSome_iff_exists.mp ((hi.context c).mpr hc)
  obtain ⟨v, hv⟩ := Option.isSome_iff_exists.mp (hi.gpgme.there _ _ hg)
  refine ⟨g, v, hg, hv, ?_⟩
  split_ifs with hm
  · exact (hi.callbacks g v hv c).mpr ⟨hg, hm⟩
  · cases hcbs : v.ioCbs with
    | none => rfl
    | some c' =>
        obtain ⟨hheld, hmanaged⟩ := (hi.callbacks g v hv c').mp hcbs
        obtain rfl : c' = c := by simpa using hi.gpgme.unique _ _ _ hheld hg
        exact absurd hmanaged hm

theorem Inv.iocbs_cases (hi : Inv w) {i : ℕ} (h : i < w.iocbs.next) :
    (w.iocbs.frees i = 0 ∧
        ∃! c, w.contexts c = true ∧ w.iocbs.held c = some i ∧ w.iocbs.object i = some c) ∨
      w.iocbs.frees i = 1 ∧ w.iocbs.object i = none := by
  rcases hi.iocbs.cases h with ⟨hthere, hfrees, c, hc, hunique⟩ | ⟨hgone, hfrees, -⟩
  · obtain ⟨c', hc'⟩ := Option.isSome_iff_exists.mp hthere
    obtain rfl := hunique c' (hi.data i c' hc')
    have hcontext := hi.managed c' (by simp [World.managed, hc])
    exact .inl ⟨hfrees, c', ⟨hcontext, hc, hc'⟩, fun c hc => hunique c hc.2.1⟩
  · exact .inr ⟨hfrees, hgone⟩

variable [LibGpgError]

/-- What holds between calls, and which contexts of gpgme were lost in the calls before. -/
theorem inv_run (h : Run (step found) start ts w) :
    Inv w ∧ ∀ g, (w.gpgme.held (.lost g)).isSome ↔ LostBy found ts g := by
  refine h.history (fun ts w => Inv w ∧ ∀ g, (w.gpgme.held (.lost g)).isSome ↔ LostBy found ts g)
    ⟨.start, fun g => by simp [start, Owners.empty, LostBy]⟩ ?_
  intro ts m op out m' _ hinv hs
  have hstepped := hinv.1.stepped hs
  refine ⟨hinv.1.keep hstepped, fun g => ?_⟩
  rw [hstepped.held_lost, hinv.2]
  simp [LostBy, or_and_right, exists_or]

/-- **No context of gpgme is released twice, and those that are lost are known.**  Each that was
made is in one `Context`, or was released once, or was made by a call that lost it.  Each `Context`
has one, with callbacks exactly if it is managed; and what it keeps of the callbacks is freed
once. -/
theorem contextsAccounted (h : Run (step found) start ts w) :
    (∀ g < w.gpgme.next, Fate found ts w g) ∧
      (∀ c, w.contexts c = true →
        ∃ g v, w.gpgme.held (.context c) = some g ∧ w.gpgme.object g = some v ∧
          v.ioCbs = if w.managed c then some c else none) ∧
      ∀ i < w.iocbs.next,
        (w.iocbs.frees i = 0 ∧
            ∃! c, w.contexts c = true ∧ w.iocbs.held c = some i ∧ w.iocbs.object i = some c) ∨
          w.iocbs.frees i = 1 ∧ w.iocbs.object i = none := by
  obtain ⟨hi, hlost⟩ := inv_run h
  exact ⟨fun g hg => hi.fate hlost hg, fun c hc => hi.ioCbs_eq hc, fun i hlt => hi.iocbs_cases hlt⟩

omit [LibGpgError] in
/-- A `Context` that is deleted while another is lost: the first context of gpgme is released, the
second is still there. -/
theorem contextsAccounted_unknownProtocol :
    letI := LibGpgError.documented
    ∃ ts w, Run (step fun _ => true) start ts w ∧
      ts.map Transition.input =
        [.createForProtocol .cms .none .none, .createForProtocol .unknownProtocol .none .none,
          .deleteContext 0] ∧
      Fate (fun _ => true) ts w 0 ∧ Fate (fun _ => true) ts w 1 ∧
      w.gpgme.frees 0 = 1 ∧ w.gpgme.frees 1 = 0 := by
  let := LibGpgError.documented
  have hrun : Run (step fun _ => true) start [_, _, _] _ :=
    .cons (i := .createForProtocol .cms .none .none) rfl <|
    .cons (i := .createForProtocol .unknownProtocol .none .none) rfl <|
    .cons (i := .deleteContext 0) rfl <| .nil _
  refine ⟨_, _, hrun, rfl, (contextsAccounted hrun).1 0 (by decide),
    (contextsAccounted hrun).1 1 (by decide), by decide, by decide⟩

end Runs

/-! ## Events -/

/-- Whatever gpgme tells, there is an interactor. -/
def EventsSafe [LibGpgError] (found : Capability → Bool) (w : World) : Prop :=
  ∀ g type, step found w (.event g type) ≠ .error .assertionFailed

section Events
variable {w : World}

/-- The interactor is there while a context is managed. -/
def Attended (w : World) : Prop := ∀ c, w.managed c = true → w.interactor = true

theorem attended_start : Attended start := by
  intro c hm
  cases hm

/-- A step that does not destroy the interactor leaves it with what it manages. -/
theorem Stepped.attended {found : Capability → Bool} {w' : World} {op : Op}
    (h : Stepped found w op w') (hop : op ≠ .deleteInteractor) (ha : Attended w) :
    Attended w' := by
  cases h with
  | same _ => exact ha
  | lost _ => exact ha
  | refused _ => exact ha
  | created _ _ => exact ha
  | deleted _ c _ =>
      intro c' hm
      by_cases hc : c' = c
      · simp [World.managed, World.deleteContext, hc] at hm
      · exact ha c' (by simpa [World.managed, World.deleteContext, hc] using hm)
  | installed _ c _ _ hint =>
      intro c' _
      simpa [World.installIOCallbacks] using hint
  | uninstalled _ c _ =>
      intro c' hm
      by_cases hc : c' = c
      · simp [World.managed, World.uninstallIOCallbacks, hc] at hm
      · have hint := ha c' (by simpa [World.managed, World.uninstallIOCallbacks, hc] using hm)
        simpa [World.uninstallIOCallbacks] using hint
  | interactor _ b hb =>
      intro c' _
      cases b with
      | false => exact absurd (hb.mp rfl) hop
      | true => rfl

theorem eventIOCb_of_contexts {c : ℕ} (hc : w.contexts c = true) (type : EventIO) :
    eventIOCb w c type =
      if w.interactor then .ok (if type = .other then .nothing else .told c, w)
      else .error .assertionFailed := by
  cases hint : w.interactor with
  | false => simp [eventIOCb, hint]
  | true =>
      simp only [eventIOCb, hint, hc, Bool.not_true, Bool.false_eq_true, if_false, if_true]
      split_ifs
      · rfl
      · rfl

variable [LibGpgError] {found : Capability → Bool}

variable (found) in
/-- An event of a context of gpgme comes with its `Context`, if that is managed, and with nothing
otherwise. -/
theorem Inv.step_event (hi : Inv w) {g : ℕ} {v : GpgmeContext} (hv : w.gpgme.object g = some v)
    (type : EventIO) :
    step found w (.event g type) = .ok (.nothing, w) ∧ v.ioCbs = none ∨
      ∃ c, w.gpgme.held (.context c) = some g ∧ w.managed c = true ∧ w.contexts c = true ∧
        step found w (.event g type) = eventIOCb w c type := by
  obtain ⟨protocol, ioCbs⟩ := v
  cases ioCbs with
  | none => exact .inl ⟨by simp only [step, hv], rfl⟩
  | some c =>
      obtain ⟨hheld, hm⟩ := (hi.callbacks g _ hv c).mp rfl
      exact .inr ⟨c, hheld, hm, hi.managed c hm, by simp only [step, hv]⟩

theorem Inv.eventsSafe_iff_attended (hi : Inv w) : EventsSafe found w ↔ Attended w := by
  constructor
  · intro hsafe c hm
    by_contra hint
    obtain ⟨g, v, -, hv, hcbs⟩ := hi.ioCbs_eq (hi.managed c hm)
    refine hsafe g .start ?_
    rw [hm, if_pos rfl] at hcbs
    obtain ⟨protocol, ioCbs⟩ := v
    obtain rfl : ioCbs = some c := hcbs
    simp [step, hv, eventIOCb, hint]
  · intro ha g type
    cases hv : w.gpgme.object g with
    | none => simp [step, hv]
    | some v =>
        rcases hi.step_event found hv type with ⟨hs, -⟩ | ⟨c, -, hm, hc, hs⟩
        · simp [hs]
        · rw [hs, eventIOCb_of_contexts hc, if_pos (ha c hm)]
          simp

/-- What an event that the interactor is told of comes with. -/
theorem Inv.step_event_spec (hi : Inv w) (g : ℕ) (type : EventIO) :
    step found w (.event g type) ≠ .error .dangling ∧
      ∀ c w', step found w (.event g type) = .ok (.told c, w') →
        w.contexts c = true ∧ w.managed c = true ∧ w.gpgme.held (.context c) = some g := by
  cases hv : w.gpgme.object g with
  | none => simp [step, hv]
  | some v =>
      rcases hi.step_event found hv type with ⟨hs, -⟩ | ⟨c, hheld, hm, hc, hs⟩
      · simp [hs]
      · rw [hs, eventIOCb_of_contexts hc]
        split_ifs with hint hother
        · simp
        · simp [hc, hm, hheld]
        · simp

/-- **One step** leaves the contexts that are managed with the interactor, unless it destroys
that. -/
theorem Inv.attended_step_iff (hi : Inv w) (ha : Attended w) {op : Op} {out : Output} {w' : World}
    (hs : step found w op = .ok (out, w')) : Attended w' ↔ ¬op.Abandons w := by
  by_cases hop : op = .deleteInteractor
  · subst hop
    obtain ⟨-, -, rfl⟩ := eq_of_ofInteractor hs
    constructor
    · rintro ha' ⟨-, c, hm⟩
      cases ha' c hm
    · intro habandons c hm
      exact absurd ⟨rfl, c, hm⟩ habandons
  · exact iff_of_true ((hi.stepped hs).attended hop ha) fun habandons => hop habandons.1

/-- **The assertion in `eventIOCb` fails only if the interactor was destroyed while it managed a
context.**  No event ever comes with a `Context` that is gone: the interactor is told of the one
that has the context of gpgme, while it is managed. -/
theorem eventsSafe_iff {ts : List (Transition World Op Output)} (h : Run (step found) start ts w) :
    ((∀ t ∈ ts, EventsSafe found t.target) ↔ ∀ t ∈ ts, ¬t.input.Abandons t.source) ∧
      ∀ g type, step found w (.event g type) ≠ .error .dangling ∧
        ∀ c w', step found w (.event g type) = .ok (.told c, w') →
          w.contexts c = true ∧ w.managed c = true ∧ w.gpgme.held (.context c) = some g := by
  constructor
  · refine h.forall_iff (fun m => Inv m ∧ Attended m) _ _ ⟨.start, attended_start⟩ ?_
    rintro m op out m' ⟨hi, ha⟩ hs
    have hi' := hi.keep (hi.stepped hs)
    simp only [hi'.eventsSafe_iff_attended]
    exact ⟨hi.attended_step_iff ha hs, fun ha' => ⟨hi', ha'⟩⟩
  · exact fun g type => (inv_run h).1.step_event_spec g type

omit [LibGpgError] in
/-- An interactor is destroyed while it manages a context, which must not tell of anything then. -/
theorem eventsSafe_abandoned :
    letI := LibGpgError.documented
    ∃ ts w, Run (step fun _ => true) start ts w ∧
      ts.map Transition.input =
        [.newInteractor, .createForProtocol .openPGP .none .none, .manage (some 0),
          .deleteInteractor] ∧
      ¬∀ t ∈ ts, EventsSafe (fun _ => true) t.target := by
  let := LibGpgError.documented
  have hrun : Run (step fun _ => true) start [_, _, _, _] _ :=
    .cons (i := .newInteractor) rfl <|
    .cons (i := .createForProtocol .openPGP .none .none) rfl <|
    .cons (i := .manage (some 0)) rfl <| .cons (i := .deleteInteractor) rfl <| .nil _
  refine ⟨_, _, hrun, rfl, fun hsafe => ?_⟩
  exact (eventsSafe_iff hrun).1.mp hsafe _
    (List.mem_cons_of_mem _ <| List.mem_cons_of_mem _ <| List.mem_cons_of_mem _
      List.mem_cons_self) ⟨rfl, 0, rfl⟩

end Events

end Gpgmepp.LifeCycle
