import Gpgmepp.Context.Interactors
import Gpgmepp.EditInteractor.SetExpiryTime

/-!
# Who owns the interactors of a context

The laws of the machine of a context and its interactors, for all its runs.  No interactor is
destroyed twice or lost (`interactorsOwned`); each is in the state that the callbacks of its own
operations have brought it to (`interactorHistories`); and gpgme finds what it calls back, exactly
if no step takes it away (`callbacksSafe_iff`).

Of a transaction the history holds as long as the member has the transaction that goes on.  A new
one that gpgme refuses takes its place, and then gets the inquiries of the other, `Refused`.

## Main definitions

* `Inv` — what holds after every step.
* `CallbacksSafe` — no callback of gpgme uses an object that is gone.
* `Orphans` — a step takes from gpgme what it calls back.
* `Refused` — a transaction comes into the place of one that goes on.
* `editCallsTo`, `assuanCallsTo` — the callbacks that a history has made of an object.
-/

namespace Gpgmepp.Context.Interacting

open Owning StateMachine

variable [LibGpgError] {δ τ : Type} {b : Build} {charSigned : Bool} {I : EditInteractor δ}
  {T : AssuanTransaction τ} {s s' : Interacting δ τ} {e : Event δ τ} {r : Response}

/-- A completed step. -/
abbrev Happened (δ τ : Type) := Transition (Interacting δ τ) (Event δ τ) Response

/-! ## What holds after every step -/

omit [LibGpgError] in
/-- The objects are owned, and the pointers of gpgme are to objects that there were. -/
structure Inv (b : Build) (s : Interacting δ τ) : Prop where
  editors : s.editors.WellOwned none
  transactions : s.transactions.WellOwned none
  edit_lt : ∀ o, s.pending = some (.edit (some o)) → o < s.editors.next
  assuan_lt : ∀ o, s.pending = some (.assuan o) → o < s.transactions.next
  engine : ∀ o, s.pending = some (.assuan o) → b.assuanEngine = true

omit [LibGpgError] in
theorem inv_fresh : Inv b (fresh : Interacting δ τ) where
  editors := Owners.wellOwned_empty
  transactions := Owners.wellOwned_empty
  edit_lt := by intro o h; cases h
  assuan_lt := by intro o h; cases h
  engine := by intro o h; cases h

omit [LibGpgError] in
/-- Of an operation that it is asked for, gpgme is about the operation, or about none, or, having
refused it, about what it was about before. -/
theorem received_cases (s : Interacting δ τ) (p : Pending) (err : Error) (ended : Bool) :
    (err = .none ∧ s.received p err ended = some p) ∨
      (err ≠ .none ∧ ended = true ∧ s.received p err ended = none) ∨
      (err ≠ .none ∧ ended = false ∧ s.received p err ended = s.pending) := by
  by_cases herr : err = .none
  · exact .inl ⟨herr, if_pos herr⟩
  · right
    simp only [received, if_neg herr]
    cases ended with
    | true => exact .inl ⟨herr, rfl, if_pos rfl⟩
    | false => exact .inr ⟨herr, rfl, if_neg Bool.false_ne_true⟩

omit [LibGpgError] in
/-- What the call of an edit operation does. -/
theorem beginEdit_pending (card start : Bool) (n : ℕ) (err : Error) (ended : Bool)
    (s : Interacting δ τ) :
    (beginEdit card start n err ended s).pending =
      s.received (.edit ((beginEdit card start n err ended s).editors.held (slot card))) err
        ended := rfl

/-- What the call of an Assuan operation does: gpgme is not told of it, or is given the transaction
that is in the member now. -/
theorem beginAssuan_pending (b : Build) (start : Bool) (n : ℕ) (err : Error) (ended : Bool)
    (s : Interacting δ τ) :
    (beginAssuan b start n err ended s).editors = s.editors ∧
    (beginAssuan b start n err ended s).transactions =
      s.transactions.move (.caller n) .lastAssuanTransaction ∧
    ((s.transactions.held (.caller n) = none ∨ b.assuanEngine = false) ∧
        (beginAssuan b start n err ended s).pending = s.pending ∨
      ∃ t, s.transactions.held (.caller n) = some t ∧ b.assuanEngine = true ∧
        (beginAssuan b start n err ended s).pending = s.received (.assuan t) err ended) := by
  simp only [beginAssuan, Owners.held_move, Function.update_self]
  cases ht : s.transactions.held (.caller n) with
  | none => exact ⟨rfl, rfl, .inl ⟨.inl rfl, rfl⟩⟩
  | some t =>
      cases hengine : b.assuanEngine with
      | false => exact ⟨rfl, rfl, .inl ⟨.inr rfl, rfl⟩⟩
      | true => exact ⟨rfl, rfl, .inr ⟨t, rfl, rfl, rfl⟩⟩

theorem beginAssuan_alive (b : Build) (start : Bool) (n : ℕ) (err : Error) (ended : Bool)
    (s : Interacting δ τ) : (beginAssuan b start n err ended s).alive = s.alive := by
  simp only [beginAssuan]
  split
  · rfl
  · split <;> rfl

/-- After the call of an Assuan operation gpgme is about that one, or about none, or about what it
was about before. -/
theorem pending_beginAssuan_cases (b : Build) (start : Bool) (n : ℕ) (err : Error) (ended : Bool)
    (s : Interacting δ τ) :
    (∃ t, s.transactions.held (.caller n) = some t ∧ b.assuanEngine = true ∧
        (beginAssuan b start n err ended s).pending = some (.assuan t)) ∨
      (beginAssuan b start n err ended s).pending = none ∨
      (beginAssuan b start n err ended s).pending = s.pending := by
  rcases (beginAssuan_pending b start n err ended s).2.2 with ⟨-, hp⟩ | ⟨t, ht, hengine, hp⟩
  · exact .inr (.inr hp)
  · rcases s.received_cases (.assuan t) err ended with ⟨-, hr⟩ | ⟨-, -, hr⟩ | ⟨-, -, hr⟩
    · exact .inl ⟨t, ht, hengine, hp.trans hr⟩
    · exact .inr (.inl (hp.trans hr))
    · exact .inr (.inr (hp.trans hr))

/-- **Every step keeps the invariant.** -/
theorem Inv.stepped (h : Inv b s) (hs : Stepped b charSigned I T s e s') : Inv b s' := by
  cases hs with
  | newEditor n data =>
      exact
        { h with
          editors := h.editors.make _ _
          edit_lt := fun o ho => Nat.lt_of_lt_of_le (h.edit_lt o ho) (Owners.next_le_make _ _ _) }
  | newTransaction n t =>
      exact
        { h with
          transactions := h.transactions.make _ _
          assuan_lt := fun o ho =>
            Nat.lt_of_lt_of_le (h.assuan_lt o ho) (Owners.next_le_make _ _ _) }
  | resetEditor n =>
      exact
        { h with
          editors := h.editors.reset _
          edit_lt := fun o ho => by rw [Owners.next_reset]; exact h.edit_lt o ho }
  | resetTransaction n =>
      exact
        { h with
          transactions := h.transactions.reset _
          assuan_lt := fun o ho => by rw [Owners.next_reset]; exact h.assuan_lt o ho }
  | edit card start n err ended ha =>
      have howned : (beginEdit card start n err ended s).editors.WellOwned none :=
        h.editors.move _ _
      have hnext : (beginEdit card start n err ended s).editors.next = s.editors.next :=
        Owners.next_move _ _ _
      have hpending := beginEdit_pending card start n err ended s
      rcases s.received_cases (.edit ((beginEdit card start n err ended s).editors.held
        (slot card))) err ended with ⟨-, hr⟩ | ⟨-, -, hr⟩ | ⟨-, -, hr⟩ <;> rw [hr] at hpending
      · refine ⟨howned, h.transactions, fun o ho => ?_, fun o ho => ?_, fun o ho => ?_⟩
        · rw [hpending] at ho
          exact howned.bounded o (howned.there _ o (by simpa using ho))
        · rw [hpending] at ho
          cases ho
        · rw [hpending] at ho
          cases ho
      · refine ⟨howned, h.transactions, fun o ho => ?_, fun o ho => ?_, fun o ho => ?_⟩ <;>
          · rw [hpending] at ho
            cases ho
      · refine ⟨howned, h.transactions, fun o ho => ?_, fun o ho => ?_, fun o ho => ?_⟩ <;>
          rw [hpending] at ho
        · rw [hnext]
          exact h.edit_lt o ho
        · exact h.assuan_lt o ho
        · exact h.engine o ho
  | assuan start n err ended ha =>
      obtain ⟨heditors, htransactions, -⟩ := beginAssuan_pending b start n err ended s
      have howned : (beginAssuan b start n err ended s).transactions.WellOwned none := by
        rw [htransactions]
        exact h.transactions.move _ _
      have hnext : (beginAssuan b start n err ended s).transactions.next = s.transactions.next := by
        rw [htransactions]
        exact Owners.next_move _ _ _
      have heditorsOwned : (beginAssuan b start n err ended s).editors.WellOwned none := by
        rw [heditors]
        exact h.editors
      rcases pending_beginAssuan_cases b start n err ended s with
        ⟨t, ht, hengine, hpending⟩ | hpending | hpending
      · refine ⟨heditorsOwned, howned, fun o ho => ?_, fun o ho => ?_, fun _ _ => hengine⟩ <;>
          rw [hpending] at ho
        · cases ho
        · obtain rfl := Pending.assuan.inj (Option.some.inj ho)
          rw [hnext]
          exact h.transactions.bounded _ (h.transactions.there _ _ ht)
      · refine ⟨heditorsOwned, howned, fun o ho => ?_, fun o ho => ?_, fun o ho => ?_⟩ <;>
          · rw [hpending] at ho
            cases ho
      · refine ⟨heditorsOwned, howned, fun o ho => ?_, fun o ho => ?_, fun o ho => ?_⟩ <;>
          rw [hpending] at ho
        · rw [heditors]
          exact h.edit_lt o ho
        · rw [hnext]
          exact h.assuan_lt o ho
        · exact h.engine o ho
  | lastEditor card => exact h
  | lastTransaction => exact h
  | takeEditor card n =>
      exact
        { h with
          editors := h.editors.move _ _
          edit_lt := fun o ho => by rw [Owners.next_move]; exact h.edit_lt o ho }
  | takeTransaction n =>
      exact
        { h with
          transactions := h.transactions.move _ _
          assuan_lt := fun o ho => by rw [Owners.next_move]; exact h.assuan_lt o ho }
  | method m err ended =>
      cases ended with
      | true => exact ⟨h.editors, h.transactions, nofun, nofun, nofun⟩
      | false => exact ⟨h.editors, h.transactions, h.edit_lt, h.assuan_lt, h.engine⟩
  | unrelated ended =>
      cases ended with
      | true => exact ⟨h.editors, h.transactions, nofun, nofun, nofun⟩
      | false => exact ⟨h.editors, h.transactions, h.edit_lt, h.assuan_lt, h.engine⟩
  | finished err => exact ⟨h.editors, h.transactions, nofun, nofun, nofun⟩
  | destroy =>
      exact ⟨(h.editors.reset _).reset _, h.transactions.reset _, nofun, nofun, nofun⟩
  | editCallback hp ho hc =>
      exact { h with editors := h.editors.modify (by simp [ho]) _ }
  | assuanCallback hp ho hc =>
      exact { h with transactions := h.transactions.modify (by simp [ho]) _ }

/-- A context that was destroyed owns nothing any more. -/
theorem empty_stepped (h : s.alive = false → ∀ o, s.editors.held .lastEditInteractor ≠ some o ∧
      s.editors.held .lastCardEditInteractor ≠ some o ∧
      s.transactions.held .lastAssuanTransaction ≠ some o)
    (hs : Stepped b charSigned I T s e s') (hdead : s'.alive = false) (o : ℕ) :
    s'.editors.held .lastEditInteractor ≠ some o ∧
      s'.editors.held .lastCardEditInteractor ≠ some o ∧
      s'.transactions.held .lastAssuanTransaction ≠ some o := by
  cases hs with
  | edit card start n err ended ha => simp [beginEdit, ha] at hdead
  | assuan start n err ended ha => simp [beginAssuan_alive, ha] at hdead
  | destroy => simp [destroyed]
  | takeEditor card n =>
      have hold := h hdead o
      cases card <;> simp [slot, hold]
  | takeTransaction n =>
      have hold := h hdead o
      simp [hold]
  | newEditor n data => simpa using h hdead o
  | newTransaction n t => simpa using h hdead o
  | resetEditor n => simpa using h hdead o
  | resetTransaction n => simpa using h hdead o
  | lastEditor card => exact h hdead o
  | lastTransaction => exact h hdead o
  | method m err ended => exact h hdead o
  | unrelated ended => exact h hdead o
  | finished err => exact h hdead o
  | editCallback hp ho hc => exact h hdead o
  | assuanCallback hp ho hc => exact h hdead o

omit [LibGpgError] in
/-- A transaction is started, and then, while it goes on, another one, which gpgme refuses. -/
def hurried : List (Event Unit DefaultAssuanTransaction) :=
  [.newTransaction 0 .new, .newTransaction 1 .new, .assuan true 0 .none false,
    .assuanCallback (.data (ascii "ok")), .assuan true 1 ⟨1⟩ false]

omit [LibGpgError] in
/-- The machine of a context with the classes of the sources. -/
abbrev hurriedStep :=
  step ⟨true, true, true, true, true, true⟩ true (gpgSetExpiryTimeEditInteractor [])
    DefaultAssuanTransaction.virtual

omit [LibGpgError] in
theorem run_hurried :
    letI := LibGpgError.documented
    ∃ ts s, ts.map Transition.input = hurried ∧ Run hurriedStep fresh ts s := by
  let := LibGpgError.documented
  exact ⟨_, _, rfl, .cons rfl (.cons rfl (.cons rfl (.cons rfl (.cons rfl (.nil _)))))⟩

/-- **No interactor is destroyed twice, and none is lost.**  In every run each interactor that was
made is in exactly one place, and was never destroyed, or it was destroyed once, and is in none.
When the context is gone, those that are left are in variables of the program. -/
theorem interactorsOwned {ts : List (Happened δ τ)}
    (h : Run (step b charSigned I T) fresh ts s) :
    (∀ o < s.editors.next,
      ((s.editors.object o).isSome ∧ s.editors.frees o = 0 ∧ ∃! p, s.editors.held p = some o) ∨
        s.editors.object o = none ∧ s.editors.frees o = 1 ∧ ∀ p, s.editors.held p ≠ some o) ∧
    (∀ o < s.transactions.next,
      ((s.transactions.object o).isSome ∧ s.transactions.frees o = 0 ∧
          ∃! p, s.transactions.held p = some o) ∨
        s.transactions.object o = none ∧ s.transactions.frees o = 1 ∧
          ∀ p, s.transactions.held p ≠ some o) ∧
    (s.alive = false →
      (∀ p o, s.editors.held p = some o → ∃ n, p = .caller n) ∧
        ∀ p o, s.transactions.held p = some o → ∃ n, p = .caller n) := by
  obtain ⟨hinv, hempty⟩ := h.invariant
    (fun m => Inv b m ∧ (m.alive = false → ∀ o, m.editors.held .lastEditInteractor ≠ some o ∧
      m.editors.held .lastCardEditInteractor ≠ some o ∧
      m.transactions.held .lastAssuanTransaction ≠ some o))
    ⟨inv_fresh, nofun⟩ fun m e r m' hm hstep =>
      ⟨hm.1.stepped (stepped_of_step hstep), empty_stepped hm.2 (stepped_of_step hstep)⟩
  refine ⟨fun o ho => hinv.editors.cases ho, fun o ho => hinv.transactions.cases ho, ?_⟩
  intro hdead
  constructor
  · intro p o hp
    cases p with
    | lastEditInteractor => exact absurd hp (hempty hdead o).1
    | lastCardEditInteractor => exact absurd hp (hempty hdead o).2.1
    | caller n => exact ⟨n, rfl⟩
  · intro p o hp
    cases p with
    | lastAssuanTransaction => exact absurd hp (hempty hdead o).2.2
    | caller n => exact ⟨n, rfl⟩

omit [LibGpgError] in
theorem interactorsOwned_hurried :
    letI := LibGpgError.documented
    ∃ (ts : List (Happened Unit DefaultAssuanTransaction))
      (s : Interacting Unit DefaultAssuanTransaction),
      ts.map Transition.input = hurried ∧ Run hurriedStep fresh ts s ∧
      (∀ o < s.editors.next,
        ((s.editors.object o).isSome ∧ s.editors.frees o = 0 ∧ ∃! p, s.editors.held p = some o) ∨
          s.editors.object o = none ∧ s.editors.frees o = 1 ∧ ∀ p, s.editors.held p ≠ some o) ∧
      (∀ o < s.transactions.next,
        ((s.transactions.object o).isSome ∧ s.transactions.frees o = 0 ∧
            ∃! p, s.transactions.held p = some o) ∨
          s.transactions.object o = none ∧ s.transactions.frees o = 1 ∧
            ∀ p, s.transactions.held p ≠ some o) ∧
      (s.alive = false →
        (∀ p o, s.editors.held p = some o → ∃ n, p = .caller n) ∧
          ∀ p o, s.transactions.held p = some o → ∃ n, p = .caller n) := by
  let := LibGpgError.documented
  obtain ⟨ts, s, hin, hrun⟩ := run_hurried
  exact ⟨ts, s, hin, hrun, interactorsOwned hrun⟩

/-! ## Callbacks -/

/-- No callback of gpgme uses an object that is gone. -/
def CallbacksSafe (b : Build) (charSigned : Bool) (I : EditInteractor δ) (T : AssuanTransaction τ)
    (s : Interacting δ τ) : Prop :=
  ∀ e, step b charSigned I T s e ≠ .error .dangling ∧
    step b charSigned I T s e ≠ .error .noTransaction

omit [LibGpgError] in
/-- The step takes from gpgme what it calls back: the program destroys the interactor of an
operation that goes on, which it has taken back; it takes back the transaction of one; or it puts
another one, or none, in its place for an operation that gpgme refuses without ending the other, or
does not hear of. -/
def Orphans (s : Interacting δ τ) : Event δ τ → Prop
  | .newEditor n _ | .resetEditor n | .takeEditor _ n =>
      ∃ o, s.pending = some (.edit (some o)) ∧ s.editors.held (.caller n) = some o
  | .edit card _ _ err ended =>
      err ≠ .none ∧ ended = false ∧
        ∃ o, s.pending = some (.edit (some o)) ∧ s.editors.held (slot card) = some o
  | .takeTransaction _ => ∃ o, s.pending = some (.assuan o)
  | .assuan _ n err ended =>
      (∃ o, s.pending = some (.assuan o)) ∧
        (s.transactions.held (.caller n) = none ∨ err ≠ .none ∧ ended = false)
  | _ => False

omit [LibGpgError] in
/-- gpgme finds what it calls back. -/
structure FindsObjects (s : Interacting δ τ) : Prop where
  edit : ∀ o, s.pending = some (.edit (some o)) → (s.editors.object o).isSome
  assuan : ∀ o, s.pending = some (.assuan o) →
    s.transactions.held .lastAssuanTransaction = some o

/-- Where gpgme finds what it calls back, and only there, its callbacks are safe, provided that the
member has no transaction but the one that goes on, if that is still there. -/
theorem callbacksSafe_iff_findsObjects (hinv : Inv b s)
    (hmember : ∀ o x, s.pending = some (.assuan o) → (s.transactions.object o).isSome →
      s.transactions.held .lastAssuanTransaction = some x → x = o) :
    CallbacksSafe b charSigned I T s ↔ FindsObjects s := by
  constructor
  · intro h
    constructor
    · intro o ho
      by_contra hnone
      have hgone : s.editors.object o = none := by simpa using hnone
      have hstep := (h (.editCallback ⟨.getLine, .lit "", fun _ => .fails 0 0⟩)).1
      simp [step, ho, Interacting.editCallback, hgone] at hstep
    · intro o ho
      -- the callback for data uses the pointer of gpgme, and that for inquiries the member
      have hthere : (s.transactions.object o).isSome := by
        by_contra hnone
        have hgone : s.transactions.object o = none := by simpa using hnone
        have hstep := (h (.assuanCallback (.data []))).1
        simp [step, ho, Interacting.assuanCallback, target, hgone] at hstep
      cases hx : s.transactions.held .lastAssuanTransaction with
      | none =>
          have hstep := (h (.assuanCallback (.inquire none))).2
          simp [step, ho, Interacting.assuanCallback, target, hx] at hstep
      | some x => rw [hmember o x ho hthere hx]
  · intro h e
    simp only [step]
    split
    · next c =>
      split
      · next o hp =>
          obtain ⟨ei, hei⟩ := Option.isSome_iff_exists.mp (h.edit o hp)
          simp only [Interacting.editCallback, hei]
          rcases EditInteractor.editInteractorCallbackImpl I ei c with f | r
          · cases f <;> simp
          · simp
      · simp
    · next c =>
      split
      · next o hp =>
          have hheld := h.assuan o hp
          obtain ⟨t, ht⟩ := Option.isSome_iff_exists.mp (hinv.transactions.there _ o hheld)
          obtain ⟨a, t', hdeliver⟩ := AssuanTransaction.exists_deliver charSigned T t c
          have htarget : target s o c = some o := by
            cases c with
            | data data => rfl
            | inquire request => exact hheld
            | status status args => rfl
          simp [Interacting.assuanCallback, htarget, ht, hdeliver]
      · simp
    · split <;> simp
    · split
      · split <;> simp
      · simp

/-- **One step takes from gpgme what it calls back, or leaves it.** -/
theorem findsObjects_iff_not_orphans (hinv : Inv b s) (h : FindsObjects s)
    (hs : Stepped b charSigned I T s e s') : FindsObjects s' ↔ ¬ Orphans s e := by
  have hinv' := hinv.stepped hs
  -- an interactor that the program has in a variable is destroyed if it puts another one there
  have hlost : ∀ n (editors : Owners EditorPlace (EditState δ)),
      (∀ o, o < s.editors.next → (editors.object o).isSome =
        ((s.editors.object o).isSome && decide (s.editors.held (.caller n) ≠ some o))) →
      (FindsObjects { s with editors := editors } ↔
        ¬ ∃ o, s.pending = some (.edit (some o)) ∧ s.editors.held (.caller n) = some o) := by
    intro n editors hobject
    constructor
    · rintro hfinds ⟨o, hp, hheld⟩
      have hsome := hfinds.edit o hp
      rw [hobject o (hinv.edit_lt o hp)] at hsome
      simp [hheld] at hsome
    · intro hnone
      refine ⟨fun o hp => ?_, h.assuan⟩
      rw [hobject o (hinv.edit_lt o hp), h.edit o hp]
      simpa using fun hheld => hnone ⟨o, hp, hheld⟩
  have hsame : ∀ {p q : Prop}, p → ¬ q → (p ↔ ¬ q) := fun hp hq => iff_of_true hp hq
  cases hs with
  | newEditor n data =>
      refine hlost n _ fun o ho => ?_
      rw [Owners.object_make_of_lt ho]
      split_ifs with hheld <;> simp [hheld]
  | newTransaction n t =>
      exact hsame ⟨h.edit, fun o ho => by simpa using h.assuan o ho⟩ id
  | resetEditor n =>
      refine hlost n _ fun o _ => ?_
      rw [Owners.object_reset]
      by_cases hheld : s.editors.held (.caller n) = some o <;> simp [hheld]
  | resetTransaction n =>
      exact hsame ⟨h.edit, fun o ho => by simpa using h.assuan o ho⟩ id
  | edit card start n err ended ha =>
      have hpending := beginEdit_pending card start n err ended s
      rcases s.received_cases (.edit ((beginEdit card start n err ended s).editors.held
        (slot card))) err ended with ⟨herr, hr⟩ | ⟨-, hended, hr⟩ | ⟨herr, hended, hr⟩ <;>
          rw [hr] at hpending
      · refine hsame ⟨fun o ho => ?_, fun o ho => ?_⟩ fun horphans => horphans.1 herr
        · rw [hpending] at ho
          exact hinv'.editors.there _ o (by simpa using ho)
        · rw [hpending] at ho
          cases ho
      · refine hsame ⟨fun o ho => ?_, fun o ho => ?_⟩ fun horphans => ?_
        · rw [hpending] at ho
          cases ho
        · rw [hpending] at ho
          cases ho
        · exact absurd (horphans.2.1.symm.trans hended) (by decide)
      · -- what was in the member is destroyed, whatever goes on
        have hne : EditorPlace.caller n ≠ slot card := by cases card <;> simp [slot]
        have hobject : ∀ o, (beginEdit card start n err ended s).editors.object o =
            if s.editors.held (slot card) = some o ∧ s.editors.held (.caller n) ≠ some o then none
            else s.editors.object o := fun o => Owners.object_move hne o
        constructor
        · rintro hfinds ⟨-, -, o, ho, hheld⟩
          have hsome := hfinds.edit o (hpending.trans ho)
          have hcaller : s.editors.held (.caller n) ≠ some o := fun hcaller =>
            hne (hinv.editors.unique _ _ o hcaller hheld)
          rw [hobject, if_pos ⟨hheld, hcaller⟩] at hsome
          cases hsome
        · intro hnot
          refine ⟨fun o ho => ?_, fun o ho => h.assuan o (hpending.symm.trans ho)⟩
          have hold := hpending.symm.trans ho
          rw [hobject, if_neg fun hheld => hnot ⟨herr, hended, o, hold, hheld.1⟩]
          exact h.edit o hold
  | assuan start n err ended ha =>
      obtain ⟨heditors, htransactions, hpending⟩ := beginAssuan_pending b start n err ended s
      have hmember : (beginAssuan b start n err ended s).transactions.held .lastAssuanTransaction =
          s.transactions.held (.caller n) := by
        rw [htransactions]
        simp
      have hcaller : ∀ o, s.pending = some (.assuan o) → s.transactions.held (.caller n) ≠ some o := by
        intro o ho hcaller
        cases hinv.transactions.unique _ _ o hcaller (h.assuan o ho)
      -- the operation that went on before goes on
      have hgoes : (beginAssuan b start n err ended s).pending = s.pending →
          (FindsObjects (beginAssuan b start n err ended s) ↔
            ¬ ∃ o, s.pending = some (.assuan o)) := by
        intro hp
        constructor
        · rintro hfinds ⟨o, ho⟩
          exact hcaller o ho (hmember.symm.trans (hfinds.assuan o (hp.trans ho)))
        · intro hnot
          refine ⟨fun o ho => ?_, fun o ho => absurd ⟨o, hp.symm.trans ho⟩ hnot⟩
          rw [heditors]
          exact h.edit o (hp.symm.trans ho)
      rcases hpending with ⟨hnull, hp⟩ | ⟨t, ht, hengine, hp⟩
      · rw [hgoes hp, not_iff_not]
        constructor
        · rintro ⟨o, ho⟩
          refine ⟨⟨o, ho⟩, .inl (hnull.resolve_right fun hengine => ?_)⟩
          exact absurd ((hinv.engine o ho).symm.trans hengine) (by decide)
        · exact fun horphans => horphans.1
      · rcases s.received_cases (.assuan t) err ended with
          ⟨herr, hr⟩ | ⟨-, hended, hr⟩ | ⟨herr, hended, hr⟩ <;> rw [hr] at hp
        · refine hsame ⟨fun o ho => ?_, fun o ho => ?_⟩ ?_
          · rw [hp] at ho
            cases ho
          · rw [hp] at ho
            obtain rfl := Pending.assuan.inj (Option.some.inj ho)
            exact hmember.trans ht
          · rintro ⟨-, hnull | ⟨hne, -⟩⟩
            · exact absurd (ht.symm.trans hnull) (by simp)
            · exact hne herr
        · refine hsame ⟨fun o ho => ?_, fun o ho => ?_⟩ ?_
          · rw [hp] at ho
            cases ho
          · rw [hp] at ho
            cases ho
          · rintro ⟨-, hnull | ⟨-, hfalse⟩⟩
            · exact absurd (ht.symm.trans hnull) (by simp)
            · exact absurd (hfalse.symm.trans hended) (by decide)
        · rw [hgoes hp, not_iff_not]
          exact ⟨fun hgoesOn => ⟨hgoesOn, .inr ⟨herr, hended⟩⟩, fun horphans => horphans.1⟩
  | lastEditor card => exact hsame h id
  | lastTransaction => exact hsame h id
  | takeEditor card n =>
      refine hlost n _ fun o _ => ?_
      have hne : slot card ≠ .caller n := by cases card <;> simp [slot]
      rw [Owners.object_move hne]
      by_cases hheld : s.editors.held (.caller n) = some o
      · have hsrc : s.editors.held (slot card) ≠ some o := fun hsrc =>
          hne (hinv.editors.unique _ _ o hsrc hheld)
        simp [hheld, hsrc]
      · simp [hheld]
  | takeTransaction n =>
      constructor
      · rintro hfinds ⟨o, ho⟩
        have hheld := hfinds.assuan o ho
        simp at hheld
      · intro hnot
        exact ⟨h.edit, fun o ho => absurd ⟨o, ho⟩ hnot⟩
  | method m err ended =>
      cases ended with
      | true => exact hsame ⟨nofun, nofun⟩ id
      | false => exact hsame ⟨h.edit, h.assuan⟩ id
  | unrelated ended =>
      cases ended with
      | true => exact hsame ⟨nofun, nofun⟩ id
      | false => exact hsame ⟨h.edit, h.assuan⟩ id
  | finished err => exact hsame ⟨nofun, nofun⟩ id
  | destroy => exact hsame ⟨nofun, nofun⟩ id
  | @editCallback x ei ei' c a hp ho hc =>
      refine hsame ⟨fun o hp' => ?_, h.assuan⟩ id
      obtain rfl : x = o := by simpa [hp] using hp'
      simp [Owners.modify]
  | assuanCallback hp ho hc => exact hsame ⟨h.edit, h.assuan⟩ id

/-- After a step from where gpgme finds what it calls back, the member has no transaction but the
one that goes on, unless that was destroyed. -/
theorem member_eq_of_stepped (hinv : Inv b s) (h : FindsObjects s)
    (hs : Stepped b charSigned I T s e s') {o x : ℕ} (hp : s'.pending = some (.assuan o))
    (hthere : (s'.transactions.object o).isSome)
    (hx : s'.transactions.held .lastAssuanTransaction = some x) : x = o := by
  have hsame : s'.pending = s.pending → s'.transactions.held .lastAssuanTransaction =
      s.transactions.held .lastAssuanTransaction → x = o := by
    intro hpending hheld
    have hold := h.assuan o (hpending.symm.trans hp)
    exact Option.some.inj (hx.symm.trans (hheld.trans hold))
  cases hs with
  | edit card start n err ended ha =>
      have hpending := beginEdit_pending card start n err ended s
      rcases s.received_cases (.edit ((beginEdit card start n err ended s).editors.held
        (slot card))) err ended with ⟨-, hr⟩ | ⟨-, -, hr⟩ | ⟨-, -, hr⟩ <;> rw [hr] at hpending
      · cases hp.symm.trans hpending
      · cases hp.symm.trans hpending
      · exact hsame hpending rfl
  | assuan start n err ended ha =>
      obtain ⟨-, htransactions, -⟩ := beginAssuan_pending b start n err ended s
      rw [htransactions] at hthere hx
      have hcaller : s.transactions.held (.caller n) = some x := by simpa using hx
      rcases pending_beginAssuan_cases b start n err ended s with
        ⟨t, ht, -, hpending⟩ | hpending | hpending
      · obtain rfl := Pending.assuan.inj (Option.some.inj (hp.symm.trans hpending))
        exact Option.some.inj (hcaller.symm.trans ht)
      · cases hp.symm.trans hpending
      · -- the transaction that goes on was in the member, and is destroyed
        have hheld := h.assuan o (hpending.symm.trans hp)
        have hne : s.transactions.held (.caller n) ≠ some o := fun hcaller' => by
          cases hinv.transactions.unique _ _ o hcaller' hheld
        have hmove : TransactionPlace.caller n ≠ .lastAssuanTransaction := by simp
        rw [Owners.object_move hmove, if_pos ⟨hheld, hne⟩] at hthere
        cases hthere
  | takeTransaction n => simp at hx
  | method m err ended =>
      cases ended with
      | true => cases hp
      | false => exact hsame rfl rfl
  | unrelated ended =>
      cases ended with
      | true => cases hp
      | false => exact hsame rfl rfl
  | finished err => cases hp
  | destroy => cases hp
  | newTransaction n t => exact hsame rfl (by simp)
  | resetTransaction n => exact hsame rfl (by simp)
  | newEditor n data => exact hsame rfl rfl
  | resetEditor n => exact hsame rfl rfl
  | lastEditor card => exact hsame rfl rfl
  | lastTransaction => exact hsame rfl rfl
  | takeEditor card n => exact hsame rfl rfl
  | editCallback hp' ho hc => exact hsame rfl rfl
  | assuanCallback hp' ho hc => exact hsame rfl rfl

/-- **When gpgme's callbacks are safe.**  In every run from a new context, all through it, exactly
if no step takes from gpgme what it calls back. -/
theorem callbacksSafe_iff {ts : List (Happened δ τ)}
    (h : Run (step b charSigned I T) fresh ts s) :
    (∀ t ∈ ts, CallbacksSafe b charSigned I T t.target) ↔ ∀ t ∈ ts, ¬ Orphans t.source t.input := by
  refine h.forall_iff (fun m => Inv b m ∧ FindsObjects m) _ _ ⟨inv_fresh, nofun, nofun⟩ ?_
  intro m e r m' hm hstep
  have hs := stepped_of_step hstep
  have hinv' := hm.1.stepped hs
  have hiff : CallbacksSafe b charSigned I T m' ↔ FindsObjects m' :=
    callbacksSafe_iff_findsObjects hinv' fun o x => member_eq_of_stepped hm.1 hm.2 hs
  exact ⟨hiff.trans (findsObjects_iff_not_orphans hm.1 hm.2 hs),
    fun hsafe => ⟨hinv', hiff.mp hsafe⟩⟩

omit [LibGpgError] in
/-- The refused transaction is what makes the callbacks of the one that goes on unsafe. -/
theorem callbacksSafe_hurried :
    letI := LibGpgError.documented
    ∃ (ts : List (Happened Unit DefaultAssuanTransaction))
      (s : Interacting Unit DefaultAssuanTransaction),
      ts.map Transition.input = hurried ∧ Run hurriedStep fresh ts s ∧
      ((∀ t ∈ ts, CallbacksSafe ⟨true, true, true, true, true, true⟩ true
          (gpgSetExpiryTimeEditInteractor []) DefaultAssuanTransaction.virtual t.target) ↔
        ∀ t ∈ ts, ¬ Orphans t.source t.input) := by
  let := LibGpgError.documented
  obtain ⟨ts, s, hin, hrun⟩ := run_hurried
  exact ⟨ts, s, hin, hrun, callbacksSafe_iff hrun⟩

/-! ## Histories of interactors -/

omit [LibGpgError] in
/-- The callback that an event makes of an edit interactor. -/
def editCallTo (s : Interacting δ τ) (e : Event δ τ) (o : ℕ) : Option Gpgmepp.Call :=
  match s.pending, e with
  | some (.edit (some x)), .editCallback c => if x = o then some c else none
  | _, _ => none

omit [LibGpgError] in
/-- The callback that an event makes of a transaction. -/
def assuanCallTo (s : Interacting δ τ) (e : Event δ τ) (o : ℕ) : Option AssuanCall :=
  match s.pending, e with
  | some (.assuan x), .assuanCallback c => if x = o then some c else none
  | _, _ => none

omit [LibGpgError] in
/-- The callbacks that gpgme has made of an edit interactor, in operations that it was given to. -/
def editCallsTo (o : ℕ) (ts : List (Happened δ τ)) : List Gpgmepp.Call :=
  ts.flatMap fun t => (editCallTo t.source t.input o).toList

omit [LibGpgError] in
/-- The callbacks that gpgme has made of a transaction, in operations that it was given to. -/
def assuanCallsTo (o : ℕ) (ts : List (Happened δ τ)) : List AssuanCall :=
  ts.flatMap fun t => (assuanCallTo t.source t.input o).toList

/-- A step adds its callback to the history of the edit interactor that it is made of. -/
theorem traced_editors {initial : ℕ → EditState δ → Prop} {calls : ℕ → List Gpgmepp.Call}
    (h : s.editors.Traced (EditInteractor.editInteractorCallbackImpl I) initial calls)
    (hinv : Inv b s) (hs : Stepped b charSigned I T s e s')
    (hnew : ∀ n data, e = .newEditor n data →
      initial s.editors.next (EditInteractor.start data)) :
    s'.editors.Traced (EditInteractor.editInteractorCallbackImpl I) initial
      fun o => calls o ++ (editCallTo s e o).toList := by
  cases hs with
  | newEditor n data => simpa [editCallTo] using h.make (.caller n) (hnew n data rfl)
  | newTransaction n t => simpa [editCallTo] using h
  | resetEditor n => simpa [editCallTo] using h.reset (.caller n) none
  | resetTransaction n => simpa [editCallTo] using h
  | edit card start n err ended ha =>
      simpa [editCallTo, beginEdit] using h.move (.caller n) (slot card)
  | assuan start n err ended ha =>
      rw [(beginAssuan_pending b start n err ended s).1]
      simpa [editCallTo] using h
  | lastEditor card => simpa [editCallTo] using h
  | lastTransaction => simpa [editCallTo] using h
  | takeEditor card n => simpa [editCallTo] using h.move (slot card) (.caller n)
  | takeTransaction n => simpa [editCallTo] using h
  | method m err ended => simpa [editCallTo] using h
  | unrelated ended => simpa [editCallTo] using h
  | finished err => simpa [editCallTo] using h
  | destroy =>
      simpa [editCallTo, destroyed] using
        (h.reset .lastCardEditInteractor none).reset .lastEditInteractor none
  | @editCallback x ei ei' c a hp ho hc =>
      have hcalls : (fun o => calls o ++ (editCallTo s (.editCallback c) o).toList) =
          Function.update calls x (calls x ++ [c]) := by
        funext o
        by_cases hx : x = o
        · subst hx
          simp [editCallTo, hp]
        · simp [editCallTo, hp, hx, Function.update_of_ne (Ne.symm hx)]
      rw [hcalls]
      exact h.modify ho (hinv.edit_lt x hp) hc
  | assuanCallback hp ho hc => simpa [editCallTo] using h

omit [LibGpgError] in
/-- A transaction comes into the place of another one, which goes on since gpgme refuses the new
one. -/
def Refused (s : Interacting δ τ) : Event δ τ → Prop
  | .assuan _ n err ended =>
      err ≠ .none ∧ ended = false ∧ (∃ o, s.pending = some (.assuan o)) ∧
        (s.transactions.held (.caller n)).isSome
  | _ => False

omit [LibGpgError] in
/-- The member has no transaction but the one that goes on. -/
def Alone (s : Interacting δ τ) : Prop :=
  ∀ o x, s.pending = some (.assuan o) → s.transactions.held .lastAssuanTransaction = some x → x = o

/-- Only a refused transaction comes into the place of one that goes on. -/
theorem Alone.stepped (h : Alone s) (hinv : Inv b s) (hs : Stepped b charSigned I T s e s')
    (hnot : ¬ Refused s e) : Alone s' := by
  intro o x hp hx
  have hsame : s'.pending = s.pending → s'.transactions.held .lastAssuanTransaction =
      s.transactions.held .lastAssuanTransaction → x = o := fun hpending hheld =>
    h o x (hpending.symm.trans hp) (hheld.symm.trans hx)
  cases hs with
  | edit card start n err ended ha =>
      have hpending := beginEdit_pending card start n err ended s
      rcases s.received_cases (.edit ((beginEdit card start n err ended s).editors.held
        (slot card))) err ended with ⟨-, hr⟩ | ⟨-, -, hr⟩ | ⟨-, -, hr⟩ <;> rw [hr] at hpending
      · cases hp.symm.trans hpending
      · cases hp.symm.trans hpending
      · exact hsame hpending rfl
  | assuan start n err ended ha =>
      obtain ⟨-, htransactions, hreceived⟩ := beginAssuan_pending b start n err ended s
      rw [htransactions] at hx
      have hcaller : s.transactions.held (.caller n) = some x := by simpa using hx
      rcases hreceived with ⟨hnull | hengine, hpending⟩ | ⟨t, ht, -, hpending⟩
      · cases hcaller.symm.trans hnull
      · cases (hinv.engine o (hpending.symm.trans hp)).symm.trans hengine
      · rcases s.received_cases (.assuan t) err ended with
          ⟨herr, hr⟩ | ⟨-, hended, hr⟩ | ⟨herr, hended, hr⟩ <;> rw [hr] at hpending
        · obtain rfl := Pending.assuan.inj (Option.some.inj (hp.symm.trans hpending))
          exact Option.some.inj (hcaller.symm.trans ht)
        · cases hp.symm.trans hpending
        · refine absurd ⟨herr, hended, ⟨o, hpending.symm.trans hp⟩, ?_⟩ hnot
          rw [hcaller]
          rfl
  | takeTransaction n => simp at hx
  | method m err ended =>
      cases ended with
      | true => cases hp
      | false => exact hsame rfl rfl
  | unrelated ended =>
      cases ended with
      | true => cases hp
      | false => exact hsame rfl rfl
  | finished err => cases hp
  | destroy => cases hp
  | newTransaction n t => exact hsame rfl (by simp)
  | resetTransaction n => exact hsame rfl (by simp)
  | newEditor n data => exact hsame rfl rfl
  | resetEditor n => exact hsame rfl rfl
  | lastEditor card => exact hsame rfl rfl
  | lastTransaction => exact hsame rfl rfl
  | takeEditor card n => exact hsame rfl rfl
  | editCallback hp' ho hc => exact hsame rfl rfl
  | assuanCallback hp' ho hc => exact hsame rfl rfl

/-- A step adds its callback to the history of the transaction that it is made of, which is the one
that gpgme was given. -/
theorem traced_transactions {initial : ℕ → τ → Prop} {calls : ℕ → List AssuanCall}
    (h : s.transactions.Traced (AssuanTransaction.deliver charSigned T) initial calls)
    (hinv : Inv b s) (halone : Alone s) (hs : Stepped b charSigned I T s e s')
    (hnew : ∀ n t, e = .newTransaction n t → initial s.transactions.next t) :
    s'.transactions.Traced (AssuanTransaction.deliver charSigned T) initial
      fun o => calls o ++ (assuanCallTo s e o).toList := by
  cases hs with
  | newEditor n data => simpa [assuanCallTo] using h
  | newTransaction n t => simpa [assuanCallTo] using h.make (.caller n) (hnew n t rfl)
  | resetEditor n => simpa [assuanCallTo] using h
  | resetTransaction n => simpa [assuanCallTo] using h.reset (.caller n) none
  | edit card start n err ended ha => simpa [assuanCallTo, beginEdit] using h
  | assuan start n err ended ha =>
      rw [(beginAssuan_pending b start n err ended s).2.1]
      simpa [assuanCallTo] using h.move (.caller n) .lastAssuanTransaction
  | lastEditor card => simpa [assuanCallTo] using h
  | lastTransaction => simpa [assuanCallTo] using h
  | takeEditor card n => simpa [assuanCallTo] using h
  | takeTransaction n => simpa [assuanCallTo] using h.move .lastAssuanTransaction (.caller n)
  | method m err ended => simpa [assuanCallTo] using h
  | unrelated ended => simpa [assuanCallTo] using h
  | finished err => simpa [assuanCallTo] using h
  | destroy => simpa [assuanCallTo, destroyed] using h.reset .lastAssuanTransaction none
  | editCallback hp ho hc => simpa [assuanCallTo] using h
  | @assuanCallback o t t' c a data hp ho hc =>
      obtain ⟨x, hp, hox⟩ := hp
      obtain rfl : o = x := hox.elim id fun hheld => halone x o hp hheld
      have hcalls : (fun z => calls z ++ (assuanCallTo s (.assuanCallback c) z).toList) =
          Function.update calls o (calls o ++ [c]) := by
        funext z
        by_cases hz : o = z
        · subst hz
          simp [assuanCallTo, hp]
        · simp [assuanCallTo, hp, hz, Function.update_of_ne (Ne.symm hz)]
      rw [hcalls]
      exact h.modify ho (hinv.assuan_lt o hp) hc

omit [LibGpgError] in
/-- The program made the edit interactor `o` in the state `ei`. -/
def MadeEditor (ts : List (Happened δ τ)) (o : ℕ) (ei : EditState δ) : Prop :=
  ∃ t ∈ ts, t.source.editors.next = o ∧
    ∃ n data, t.input = .newEditor n data ∧ ei = EditInteractor.start data

omit [LibGpgError] in
/-- The program made the transaction `o` in the state `x`. -/
def MadeTransaction (ts : List (Happened δ τ)) (o : ℕ) (x : τ) : Prop :=
  ∃ t ∈ ts, t.source.transactions.next = o ∧ ∃ n, t.input = .newTransaction n x

/-- **Each interactor answers for its own operations.**  In every run, whatever operations there
are and to whatever they are interleaved with, an edit interactor is in the state to which the
callbacks of the operations that it was given to have brought it, from the state in which it was
made; and so is an Assuan transaction, its inquiries included, as long as gpgme refuses none while
another one goes on. -/
theorem interactorHistories {ts : List (Happened δ τ)}
    (h : Run (step b charSigned I T) fresh ts s) :
    (∀ o ei, s.editors.object o = some ei → ∃ ei₀ us, MadeEditor ts o ei₀ ∧
      Run (EditInteractor.editInteractorCallbackImpl I) ei₀ us ei ∧
      us.map Transition.input = editCallsTo o ts) ∧
    ((∀ t ∈ ts, ¬ Refused t.source t.input) →
      ∀ o x, s.transactions.object o = some x → ∃ x₀ us, MadeTransaction ts o x₀ ∧
        Run (AssuanTransaction.deliver charSigned T) x₀ us x ∧
        us.map Transition.input = assuanCallsTo o ts) := by
  have hall : Inv b s ∧
      s.editors.Traced (EditInteractor.editInteractorCallbackImpl I) (MadeEditor ts)
        (fun o => editCallsTo o ts) ∧
      ((∀ t ∈ ts, ¬ Refused t.source t.input) → Alone s ∧
        s.transactions.Traced (AssuanTransaction.deliver charSigned T) (MadeTransaction ts)
          fun o => assuanCallsTo o ts) := by
    refine h.history (fun ts s => Inv b s ∧
      s.editors.Traced (EditInteractor.editInteractorCallbackImpl I) (MadeEditor ts)
        (fun o => editCallsTo o ts) ∧
      ((∀ t ∈ ts, ¬ Refused t.source t.input) → Alone s ∧
        s.transactions.Traced (AssuanTransaction.deliver charSigned T) (MadeTransaction ts)
          fun o => assuanCallsTo o ts)) ⟨inv_fresh, .empty, fun _ => ⟨nofun, .empty⟩⟩ ?_
    rintro ts m e r m' - ⟨hinv, heditors, htransactions⟩ hstep
    have hs := stepped_of_step hstep
    have hlast : (⟨m, e, r, m'⟩ : Happened δ τ) ∈ ts ++ [⟨m, e, r, m'⟩] :=
      List.mem_append_right _ (List.mem_singleton_self _)
    refine ⟨hinv.stepped hs, ?_, fun hnot => ?_⟩
    · have hmade : ∀ o ei, MadeEditor ts o ei → MadeEditor (ts ++ [⟨m, e, r, m'⟩]) o ei := by
        rintro o ei ⟨t, ht, hmade⟩
        exact ⟨t, List.mem_append_left _ ht, hmade⟩
      have hstepped := traced_editors (heditors.mono hmade) hinv hs fun n data he =>
        ⟨_, hlast, rfl, n, data, he, rfl⟩
      simpa [editCallsTo] using hstepped
    · obtain ⟨halone, htraced⟩ := htransactions fun t ht => hnot t (List.mem_append_left _ ht)
      have hmade : ∀ o x, MadeTransaction ts o x → MadeTransaction (ts ++ [⟨m, e, r, m'⟩]) o x := by
        rintro o x ⟨t, ht, hmade⟩
        exact ⟨t, List.mem_append_left _ ht, hmade⟩
      have hstepped := traced_transactions (htraced.mono hmade) hinv halone hs fun n x he =>
        ⟨_, hlast, rfl, n, he⟩
      exact ⟨halone.stepped hinv hs (hnot _ hlast), by simpa [assuanCallsTo] using hstepped⟩
  exact ⟨hall.2.1.run, fun hnot => (hall.2.2 hnot).2.run⟩

omit [LibGpgError] in
theorem interactorHistories_hurried :
    letI := LibGpgError.documented
    ∃ (ts : List (Happened Unit DefaultAssuanTransaction))
      (s : Interacting Unit DefaultAssuanTransaction),
      ts.map Transition.input = hurried.take 4 ∧ Run hurriedStep fresh ts s ∧
      (∀ t ∈ ts, ¬ Refused t.source t.input) ∧
      (∀ o ei, s.editors.object o = some ei → ∃ ei₀ us, MadeEditor ts o ei₀ ∧
        Run (EditInteractor.editInteractorCallbackImpl (gpgSetExpiryTimeEditInteractor [])) ei₀
          us ei ∧ us.map Transition.input = editCallsTo o ts) ∧
      ∀ o x, s.transactions.object o = some x → ∃ x₀ us, MadeTransaction ts o x₀ ∧
        Run (AssuanTransaction.deliver true DefaultAssuanTransaction.virtual) x₀ us x ∧
        us.map Transition.input = assuanCallsTo o ts := by
  let := LibGpgError.documented
  obtain ⟨ts, s, hin, hrun⟩ : ∃ ts s, ts.map Transition.input = hurried.take 4 ∧
      Run hurriedStep fresh ts s :=
    ⟨_, _, rfl, .cons rfl (.cons rfl (.cons rfl (.cons rfl (.nil _))))⟩
  have hnot : ∀ t ∈ ts, ¬ Refused t.source t.input := by
    intro t ht
    have hmem : t.input ∈ hurried.take 4 := hin ▸ List.mem_map_of_mem ht
    simp only [hurried, List.take, List.mem_cons, List.not_mem_nil, or_false] at hmem
    rcases hmem with he | he | he | he <;> rw [he] <;> simp [Refused]
  obtain ⟨heditors, htransactions⟩ := interactorHistories hrun
  exact ⟨ts, s, hin, hrun, hnot, heditors, htransactions hnot⟩

end Gpgmepp.Context.Interacting
