import Gpgmepp.AssuanTransaction
import Gpgmepp.Context.Results
import Gpgmepp.EditInteractor
import Gpgmepp.Lib.Owners

/-!
# The interactors of a context

A context owns the interactor of its last edit operation, the one of its last card-edit operation,
and its last Assuan transaction.  gpgme is given plain pointers to them, for its callbacks.  The
program passes interactors in, and takes them back, by `auto_ptr`.

So an object could be destroyed, or be gone, while gpgme still calls it back.  A new operation ends
the one before, and gives gpgme other pointers.  But the member gets its new owner first: when
gpgme refuses the operation before it ends the other, or, the transaction being null, does not hear
of it, the object of the one that goes on has been destroyed.  And the program may destroy an
interactor that it took back while its operation goes on, or take back a transaction that goes on,
while the callback for inquiries looks for it in the context: `callbacksSafe_iff`.

## Main definitions

* `EditorPlace`, `TransactionPlace` — where an interactor can be.
* `Interacting`, `Event`, `step` — a context and a program, as a machine.
* `Orphans` — a step takes from gpgme what it calls back.
* `callbacksSafe_iff`, `interactorHistories`, `interactorsOwned` — the laws of its runs.
-/

namespace Gpgmepp.Context

open Owning StateMachine

/-- Where an edit interactor is: a member of the context, or a variable of the program. -/
inductive EditorPlace
  | lastEditInteractor | lastCardEditInteractor
  | caller (n : ℕ)
  deriving DecidableEq

/-- Where an Assuan transaction is. -/
inductive TransactionPlace
  | lastAssuanTransaction
  | caller (n : ℕ)
  deriving DecidableEq

/-- An operation of gpgme that calls the program back, with the pointer that it was given. -/
inductive Pending
  | edit (interactor : Option ℕ)
  | assuan (transaction : ℕ)
  deriving DecidableEq

/-- A context, the objects of the program, and what gpgme is about. -/
structure Interacting (δ τ : Type) where
  editors : Owners EditorPlace (EditState δ)
  transactions : Owners TransactionPlace τ
  lastAssuanInquireData : Option ℕ
  d : Private
  pending : Option Pending
  /-- A function of the context waits until the operation is complete. -/
  blocked : Bool
  /-- The context is there. -/
  alive : Bool

/-- What can happen. -/
inductive Event (δ τ : Type)
  -- the program makes an interactor, in one of its variables, or destroys one
  | newEditor (n : ℕ) (data : δ)
  | newTransaction (n : ℕ) (t : τ)
  | resetEditor (n : ℕ)
  | resetTransaction (n : ℕ)
  /-- `edit`, `startEditing`, `cardEdit` and `startCardEditing`, with the variable that the
  interactor is in.  An error `err` is what gpgme returns at once; it may have ended the operation
  that went on before.  Without one gpgme is at work. -/
  | edit (card start : Bool) (n : ℕ) (err : Error) (ended : Bool)
  /-- `assuanTransact` and `startAssuanTransaction`, likewise. -/
  | assuan (start : Bool) (n : ℕ) (err : Error) (ended : Bool)
  | lastEditor (card : Bool)
  | lastTransaction
  | takeEditor (card : Bool) (n : ℕ)
  | takeTransaction (n : ℕ)
  /-- Another function, which may end the operation of gpgme. -/
  | method (m : Method) (err : Error) (ended : Bool)
  /-- A function that uses neither `lastop` nor `lasterr`. -/
  | unrelated (ended : Bool)
  /-- The operation is complete: `wait`, `poll`, the event loop, or the end of a function that has
  waited. -/
  | finished (err : Error)
  /-- The context is destroyed. -/
  | destroy
  -- gpgme
  | editCallback (c : Gpgmepp.Call)
  | assuanCallback (c : AssuanCall)

/-- Why there is no step. -/
inductive Fault
  /-- A pointer to an object that is no longer there. -/
  | dangling
  /-- The assertion that there is a transaction fails. -/
  | noTransaction
  /-- An assertion in an interactor fails. -/
  | assertionFailed
  /-- The callback does not return. -/
  | endless
  /-- It does not happen in this state. -/
  | impossible
  deriving DecidableEq

/-- What a step returns. -/
inductive Response
  | nothing
  | returned (err : Error)
  | pointer (o : Option ℕ)
  | answered (o : ℕ) (a : Answer)
  | replied (o : ℕ) (r : AssuanReply)

namespace Interacting

variable {δ τ : Type}

/-- A new context, and no interactors. -/
def fresh : Interacting δ τ := ⟨.empty, .empty, none, .init, none, false, true⟩

/-- The member for interactors of edit or of card-edit operations. -/
def slot (card : Bool) : EditorPlace :=
  if card then .lastCardEditInteractor else .lastEditInteractor

variable [LibGpgError]

/-- What gpgme is about when it was asked for the operation `p`. -/
def received (s : Interacting δ τ) (p : Pending) (err : Error) (ended : Bool) : Option Pending :=
  if err = .none then some p else if ended then none else s.pending

/-- `Context::edit`, `startEditing`, `cardEdit` and `startCardEditing`, up to the end of the call
or until gpgme is at work. -/
def beginEdit (card start : Bool) (n : ℕ) (err : Error) (ended : Bool) (s : Interacting δ τ) :
    Interacting δ τ :=
  let op := if card then Operation.cardEdit else .edit
  let editors := s.editors.move (.caller n) (slot card)
  { s with
    editors := editors
    d := if start ∨ err ≠ .none then (perform op err).2 else { s.d with lastop := op }
    pending := s.received (.edit (editors.held (slot card))) err ended
    blocked := !start && decide (err = .none) }

/-- `Context::assuanTransact` and `startAssuanTransaction`, likewise. -/
def beginAssuan (b : Build) (start : Bool) (n : ℕ) (err : Error) (ended : Bool)
    (s : Interacting δ τ) : Interacting δ τ :=
  let transactions := s.transactions.move (.caller n) .lastAssuanTransaction
  let s := { s with transactions, d := { s.d with lastop := .assuanTransact } }
  match transactions.held .lastAssuanTransaction with
  | none => { s with d := (assuan b false err).2 }
  | some t =>
      if b.assuanEngine then
        { s with
          d := if start ∨ err ≠ .none then (assuan b true err).2 else s.d
          pending := s.received (.assuan t) err ended
          blocked := !start && decide (err = .none) }
      else { s with d := (assuan b true err).2 }

/-- The functions that are events of their own. -/
def interacts (m : Method) : Bool :=
  m.operation = some .edit || m.operation = some .cardEdit || m.operation = some .assuanTransact

/-- The destruction of a context: gpgme's part of it, and then the members. -/
def destroyed (s : Interacting δ τ) : Interacting δ τ :=
  { s with
    editors := (s.editors.reset .lastCardEditInteractor none).reset .lastEditInteractor none
    transactions := s.transactions.reset .lastAssuanTransaction none
    lastAssuanInquireData := none
    pending := none
    alive := false }

/-- `edit_interactor_callback`, with the pointer that gpgme was given. -/
def editCallback (I : EditInteractor δ) (s : Interacting δ τ) (o : ℕ) (c : Gpgmepp.Call) :
    Except Fault (Response × Interacting δ τ) :=
  match s.editors.object o with
  | none => .error .dangling
  | some ei =>
      match EditInteractor.editInteractorCallbackImpl I ei c with
      | .error .assertionFailed => .error .assertionFailed
      | .error .endless => .error .endless
      | .ok (a, ei) => .ok (.answered o a, { s with editors := s.editors.modify o ei })

/-- The transaction of a callback.  Those for data and for status lines use the pointer that gpgme
was given, that for inquiries uses the member of the context. -/
def target (s : Interacting δ τ) (o : ℕ) : AssuanCall → Option ℕ
  | .inquire _ => s.transactions.held .lastAssuanTransaction
  | _ => some o

/-- `assuan_transaction_data_callback`, `assuan_transaction_inquire_callback`, which keeps what was
handed out, and `assuan_transaction_status_callback`. -/
def assuanCallback (charSigned : Bool) (T : AssuanTransaction τ) (s : Interacting δ τ) (o : ℕ)
    (c : AssuanCall) : Except Fault (Response × Interacting δ τ) :=
  match target s o c with
  | none => .error .noTransaction
  | some o =>
      match s.transactions.object o with
      | none => .error .dangling
      | some t =>
          match AssuanTransaction.deliver charSigned T t c with
          | .error _ => .error .impossible
          | .ok (r, t) =>
              .ok (.replied o r,
                { s with
                  transactions := s.transactions.modify o t
                  lastAssuanInquireData :=
                    match c with
                    | .inquire _ => r.rData
                    | _ => s.lastAssuanInquireData })

/-- What the program does, and what the functions of the context do. -/
def effect (b : Build) (s : Interacting δ τ) : Event δ τ → Option (Response × Interacting δ τ)
  | .newEditor n data =>
      some (.nothing,
        { s with editors := s.editors.make (.caller n) (EditInteractor.start data) })
  | .newTransaction n t =>
      some (.nothing, { s with transactions := s.transactions.make (.caller n) t })
  | .resetEditor n => some (.nothing, { s with editors := s.editors.reset (.caller n) none })
  | .resetTransaction n =>
      some (.nothing, { s with transactions := s.transactions.reset (.caller n) none })
  | .edit card start n err ended =>
      let s' := beginEdit card start n err ended s
      some (if s'.blocked then .nothing else .returned s'.d.lasterr, s')
  | .assuan start n err ended =>
      let s' := beginAssuan b start n err ended s
      some (if s'.blocked then .nothing else .returned s'.d.lasterr, s')
  | .lastEditor card => some (.pointer (s.editors.held (slot card)), s)
  | .lastTransaction => some (.pointer (s.transactions.held .lastAssuanTransaction), s)
  | .takeEditor card n =>
      some (.nothing, { s with editors := s.editors.move (slot card) (.caller n) })
  | .takeTransaction n =>
      some (.nothing,
        { s with transactions := s.transactions.move .lastAssuanTransaction (.caller n) })
  | .method m err ended =>
      if interacts m then none
      else
        some (.returned (m.run b s.d err).1,
          { s with d := (m.run b s.d err).2, pending := if ended then none else s.pending })
  | .unrelated ended => some (.nothing, { s with pending := if ended then none else s.pending })
  | .destroy => some (.nothing, destroyed s)
  | .finished _ | .editCallback _ | .assuanCallback _ => none

/-- The program is not waiting, and the context is there if it is needed. -/
def possible (s : Interacting δ τ) : Event δ τ → Bool
  | .newEditor _ _ | .newTransaction _ _ | .resetEditor _ | .resetTransaction _ => !s.blocked
  | _ => !s.blocked && s.alive

/-- One step. -/
def step (b : Build) (charSigned : Bool) (I : EditInteractor δ) (T : AssuanTransaction τ)
    (s : Interacting δ τ) (e : Event δ τ) : Except Fault (Response × Interacting δ τ) :=
  match e with
  | .editCallback c =>
      match s.pending with
      | some (.edit (some o)) => editCallback I s o c
      | _ => .error .impossible
  | .assuanCallback c =>
      match s.pending with
      | some (.assuan o) => assuanCallback charSigned T s o c
      | _ => .error .impossible
  | .finished err =>
      if s.alive then
        .ok (.returned err, { s with d := complete s.d err, pending := none, blocked := false })
      else .error .impossible
  | e =>
      if possible s e then
        match effect b s e with
        | some r => .ok r
        | none => .error .impossible
      else .error .impossible

/-! ## Steps -/

section Steps
variable {b : Build} {charSigned : Bool} {I : EditInteractor δ} {T : AssuanTransaction τ}
  {s s' : Interacting δ τ} {e : Event δ τ} {r : Response}

/-- What a step can do, event by event. -/
inductive Stepped (b : Build) (charSigned : Bool) (I : EditInteractor δ) (T : AssuanTransaction τ)
    (s : Interacting δ τ) : Event δ τ → Interacting δ τ → Prop
  | newEditor (n : ℕ) (data : δ) : Stepped b charSigned I T s (.newEditor n data)
      { s with editors := s.editors.make (.caller n) (EditInteractor.start data) }
  | newTransaction (n : ℕ) (t : τ) : Stepped b charSigned I T s (.newTransaction n t)
      { s with transactions := s.transactions.make (.caller n) t }
  | resetEditor (n : ℕ) : Stepped b charSigned I T s (.resetEditor n)
      { s with editors := s.editors.reset (.caller n) none }
  | resetTransaction (n : ℕ) : Stepped b charSigned I T s (.resetTransaction n)
      { s with transactions := s.transactions.reset (.caller n) none }
  | edit (card start : Bool) (n : ℕ) (err : Error) (ended : Bool) (ha : s.alive = true) :
      Stepped b charSigned I T s (.edit card start n err ended)
        (beginEdit card start n err ended s)
  | assuan (start : Bool) (n : ℕ) (err : Error) (ended : Bool) (ha : s.alive = true) :
      Stepped b charSigned I T s (.assuan start n err ended)
        (beginAssuan b start n err ended s)
  | lastEditor (card : Bool) : Stepped b charSigned I T s (.lastEditor card) s
  | lastTransaction : Stepped b charSigned I T s .lastTransaction s
  | takeEditor (card : Bool) (n : ℕ) : Stepped b charSigned I T s (.takeEditor card n)
      { s with editors := s.editors.move (slot card) (.caller n) }
  | takeTransaction (n : ℕ) : Stepped b charSigned I T s (.takeTransaction n)
      { s with transactions := s.transactions.move .lastAssuanTransaction (.caller n) }
  | method (m : Method) (err : Error) (ended : Bool) :
      Stepped b charSigned I T s (.method m err ended)
        { s with d := (m.run b s.d err).2, pending := if ended then none else s.pending }
  | unrelated (ended : Bool) : Stepped b charSigned I T s (.unrelated ended)
      { s with pending := if ended then none else s.pending }
  | finished (err : Error) : Stepped b charSigned I T s (.finished err)
      { s with d := complete s.d err, pending := none, blocked := false }
  | destroy : Stepped b charSigned I T s .destroy (destroyed s)
  | editCallback {o : ℕ} {ei ei' : EditState δ} {c : Gpgmepp.Call} {a : Answer}
      (hp : s.pending = some (.edit (some o))) (ho : s.editors.object o = some ei)
      (hc : EditInteractor.editInteractorCallbackImpl I ei c = .ok (a, ei')) :
      Stepped b charSigned I T s (.editCallback c) { s with editors := s.editors.modify o ei' }
  | assuanCallback {o : ℕ} {t t' : τ} {c : AssuanCall} {a : AssuanReply} {data : Option ℕ}
      (hp : ∃ x, s.pending = some (.assuan x) ∧
        (o = x ∨ s.transactions.held .lastAssuanTransaction = some o))
      (ho : s.transactions.object o = some t)
      (hc : AssuanTransaction.deliver charSigned T t c = .ok (a, t')) :
      Stepped b charSigned I T s (.assuanCallback c)
        { s with transactions := s.transactions.modify o t', lastAssuanInquireData := data }

/-- The callbacks apart, a step is what `effect` says. -/
theorem stepped_of_effect (hp : possible s e = true) (h : effect b s e = some (r, s')) :
    Stepped b charSigned I T s e s' := by
  cases e with
  | newEditor n data => cases h; exact .newEditor n data
  | newTransaction n t => cases h; exact .newTransaction n t
  | resetEditor n => cases h; exact .resetEditor n
  | resetTransaction n => cases h; exact .resetTransaction n
  | edit card start n err ended =>
      cases h
      exact .edit card start n err ended (by simp_all [possible])
  | assuan start n err ended =>
      cases h
      exact .assuan start n err ended (by simp_all [possible])
  | lastEditor card => cases h; exact .lastEditor card
  | lastTransaction => cases h; exact .lastTransaction
  | takeEditor card n => cases h; exact .takeEditor card n
  | takeTransaction n => cases h; exact .takeTransaction n
  | method m err ended =>
      simp only [effect] at h
      split at h
      · cases h
      · cases h
        exact .method m err ended
  | unrelated ended => cases h; exact .unrelated ended
  | destroy => cases h; exact .destroy
  | finished err => cases h
  | editCallback c => cases h
  | assuanCallback c => cases h

/-- **A step, inverted.** -/
theorem stepped_of_step (h : step b charSigned I T s e = .ok (r, s')) :
    Stepped b charSigned I T s e s' := by
  simp only [step] at h
  split at h
  · next c =>
      split at h
      · next o hp =>
          simp only [Interacting.editCallback] at h
          cases ho : s.editors.object o with
          | none => simp [ho] at h
          | some ei =>
              rcases hc : EditInteractor.editInteractorCallbackImpl I ei c with f | ⟨a, ei'⟩
              · cases f <;> simp [ho, hc] at h
              · simp only [ho, hc, Except.ok.injEq, Prod.mk.injEq] at h
                obtain ⟨-, rfl⟩ := h
                exact .editCallback hp ho hc
      · cases h
  · next c =>
      split at h
      · next x hp =>
          simp only [Interacting.assuanCallback] at h
          cases htarget : target s x c with
          | none => simp [htarget] at h
          | some o =>
              cases ho : s.transactions.object o with
              | none => simp [htarget, ho] at h
              | some t =>
                  rcases hc : AssuanTransaction.deliver charSigned T t c with f | ⟨a, t'⟩
                  · simp [htarget, ho, hc] at h
                  · simp only [htarget, ho, hc, Except.ok.injEq, Prod.mk.injEq] at h
                    obtain ⟨-, rfl⟩ := h
                    refine .assuanCallback ⟨x, hp, ?_⟩ ho hc
                    cases c with
                    | data data => exact .inl (Option.some.inj htarget).symm
                    | inquire request => exact .inr htarget
                    | status status args => exact .inl (Option.some.inj htarget).symm
      · cases h
  · next err =>
      split at h
      · cases h
        exact .finished err
      · cases h
  · split at h
    · next hp =>
      split at h
      · next r' heffect =>
          cases h
          exact stepped_of_effect hp heffect
      · cases h
    · cases h

end Steps

end Interacting

end Gpgmepp.Context
