import Gpgmepp.EditInteractor.Failure

/-!
# Delivery of a reply

A callback that sends a reply `r` should hand the descriptor `r` and one newline, by
any number of attempts, or, when an attempt fails, a beginning of that and an error.
`RepliesInFull` states it.

The loop that writes the reply offers its buffer from the start after every short
write, so this holds only when no piece taken later shows the difference.  And the loop
returns the count of what it wrote as an `int`, which the callback compares with the count
itself: a reply of `2 ^ 31` bytes or more that was written seems not to be.
`repliesInFull_iff` says that there is nothing else: a shorter reply that the first attempt
takes as a whole arrives.

## Main definitions

* `Sends` — the callback has a reply to send.
* `RepliesInFull` — the reply arrives, or the callback fails.
-/

namespace Gpgmepp.EditInteractor

open LibGpgError

variable [LibGpgError] {δ : Type}

/-- The callback gets as far as sending the reply `r`. -/
def Sends (I : EditInteractor δ) (ei : EditState δ) (c : Call) (r : CString) : Prop :=
  (statusToError c.status).toBool = false ∧ ei.error.code = 0 ∧
    ∃ s e d e' d', I.nextState ei.state ei.error ei.data c.status c.args
        (statusToError c.status) = (s, e, d) ∧ e.toBool = false ∧ s ≠ ei.state ∧
      I.action s ei.error d e = .ok (some r, e', d') ∧ e'.toBool = false

/-- The descriptor gets `r` and a newline; if one of the attempts fails it gets a
beginning of them, the callback returns an error and the interactor is in its error
state. -/
def RepliesInFull (I : EditInteractor δ) (ei : EditState δ) (c : Call) (r : CString) : Prop :=
  ∃ a ei', editInteractorCallbackImpl I ei c = .ok (a, ei') ∧
    (a.fd.refused = false → a.fd.accepted = r.line) ∧
    (a.fd.refused = true →
      a.fd.accepted <+: r.line ∧ errCode a.ret ≠ 0 ∧ ei'.state = errorState)

/-- What the writing of a newline does to a descriptor. -/
theorem writeNewline_spec (fd : Fd) (err : Error) :
    ∃ e fd', writeNewline fd err = some (e, fd') ∧
      ((fd'.accepted = fd.accepted ++ [newline] ∧ fd'.refused = fd.refused ∧ e = err) ∨
        (fd'.accepted = fd.accepted ∧ fd'.refused = true ∧ e.toBool = true)) := by
  obtain ⟨w, hw, ⟨hacc, hret, href⟩ | ⟨hacc, hret, href⟩⟩ := writeAll_byte fd 0 newline
  · refine ⟨err, w.fd, ?_, .inl ⟨hacc, href, rfl⟩⟩
    simp [writeNewline, hw, hret]
  · have hne : w.ret ≠ 1 := by omega
    refine ⟨.fromSystemError w.errno, w.fd, ?_, .inr ⟨hacc, href, Error.toBool_fromSystemError _⟩⟩
    simp [writeNewline, hw, hne]

/-- **What the writing of a reply does**: the descriptor gets some bytes `x` of the text,
which read like it exactly under `ResumesAlike`.  If it took as many as there are and an `int`
can count them, the newline follows.  Whenever something is missing an attempt has failed, and
the error counts, but for a text that is too long. -/
theorem writeReply_spec (attempts : ℕ → Attempt) (r : CString) (err : Error)
    (hint : FitsInt r.bytes.length attempts) :
    ∃ x e fd, writeReply (.fresh attempts) r err = some (e, fd) ∧
      (x <+: r.bytes ↔ ResumesAlike r.bytes 0 attempts) ∧ x.length ≤ r.bytes.length ∧
      ((r.Short ∧ fd.accepted = x ++ [newline] ∧ x.length = r.bytes.length ∧
          fd.refused = false) ∨
        ((r.Short ∨ Interrupted r.bytes.length attempts) ∧ fd.accepted = x ∧
          fd.refused = true ∧ e.toBool = true) ∨
        (¬ r.Short ∧ ¬ Interrupted r.bytes.length attempts ∧ fd.accepted = x ∧
          fd.refused = false)) := by
  by_cases hr : r.bytes = []
  · have hshort : r.Short := by simp [CString.Short, hr]
    obtain ⟨e, fd, hw, hend⟩ := writeNewline_spec (.fresh attempts) err
    refine ⟨[], e, fd, by simpa [writeReply, hr] using hw, ?_, Nat.zero_le _, ?_⟩
    · exact ⟨fun _ => .done (by simp [hr]), fun _ => List.nil_prefix⟩
    · rcases hend with ⟨hacc, href, _⟩ | ⟨hacc, href, htrue⟩
      · exact .inl ⟨hshort, hacc, by rw [hr], href⟩
      · exact .inr (.inl ⟨.inl hshort, hacc, href, htrue⟩)
  · obtain ⟨x, w, hw, hacc, -, halike, hend⟩ := writeAll_spec (.fresh attempts) 0 r.bytes hint
    have hacc : w.fd.accepted = x := by simpa [Fd.fresh] using hacc
    rcases hend with ⟨hno, hx, hret, href⟩ | ⟨hyes, hx, hret, href⟩
    · by_cases hshort : r.Short
      · -- everything is taken, and counted
        obtain ⟨e, fd, hnl, hend⟩ := writeNewline_spec w.fd err
        have hwr : writeReply (.fresh attempts) r err = some (e, fd) := by
          simp [writeReply, hr, hw, hret, toInt_of_lt hshort, hnl]
        refine ⟨x, e, fd, hwr, halike, hx.le, ?_⟩
        rcases hend with ⟨hacc', href', _⟩ | ⟨hacc', href', htrue⟩
        · exact .inl ⟨hshort, by rw [hacc', hacc], hx, href'.trans href⟩
        · exact .inr (.inl ⟨.inl hshort, by rw [hacc', hacc], href', htrue⟩)
      · -- everything is taken, and its number is not that of the result
        have hne : w.ret ≠ r.bytes.length := fun h => hshort (toInt_eq_iff.mp (hret ▸ h))
        refine ⟨x, .fromSystemError w.errno, w.fd, ?_, halike, hx.le,
          .inr (.inr ⟨hshort, hno, hacc, href⟩)⟩
        simp [writeReply, hr, hw, hne]
    · have hne : w.ret ≠ r.bytes.length := by omega
      refine ⟨x, _, w.fd, ?_, halike, hx,
        .inr (.inl ⟨.inr hyes, hacc, href, Error.toBool_fromSystemError w.errno⟩)⟩
      simp [writeReply, hr, hw, hne]

/-- **A reply arrives if and only if** the repeated starts of the writing loop go unnoticed,
every piece of the reply that the descriptor takes, up to the first failing attempt, reading
like the beginning of the reply, and the reply is not so long that its number of bytes is no
`int`, or is broken off. -/
theorem repliesInFull_iff (I : EditInteractor δ) (ei : EditState δ) (c : Call) (r : CString)
    (h : Sends I ei c r) (hint : FitsInt r.bytes.length c.attempts) :
    RepliesInFull I ei c r ↔ ResumesAlike r.bytes 0 c.attempts ∧
      (r.Short ∨ Interrupted r.bytes.length c.attempts) := by
  obtain ⟨hst, h0, s, e, d, e', d', hnext, he, hs, hact, he'⟩ := h
  obtain ⟨x, e'', fd, hw, halike, hlen, hend⟩ := writeReply_spec c.attempts r e' hint
  have hcall := (Outcome.replied hst hnext he hs h0 hact he' hw).callback_eq
  rw [← halike]
  rcases hend with ⟨hshort, hacc, hlen, href⟩ | ⟨hcounts, hacc, href, htrue⟩ |
    ⟨hlong, hno, hacc, href⟩
  · -- no attempt failed, and the reply is counted
    constructor
    · rintro ⟨a, ei', hcall', hfull, _⟩
      obtain ⟨rfl, -⟩ := Prod.mk.inj (Except.ok.inj (hcall.symm.trans hcall'))
      have hx : x ++ [newline] = r.bytes ++ [newline] := hacc.symm.trans (hfull href)
      exact ⟨(List.append_left_injective _ hx) ▸ List.prefix_rfl, .inl hshort⟩
    · rintro ⟨hx, -⟩
      refine ⟨_, _, hcall, fun _ => ?_, fun htrue => ?_⟩
      · rw [hacc, hx.eq_of_length hlen, CString.line]
      · rw [href] at htrue; cases htrue
  · -- an attempt failed, so the descriptor has at most the text
    constructor
    · rintro ⟨a, ei', hcall', _, hpre⟩
      obtain ⟨rfl, -⟩ := Prod.mk.inj (Except.ok.inj (hcall.symm.trans hcall'))
      have hx : x <+: r.bytes ++ [newline] := hacc ▸ (hpre href).1
      exact ⟨List.prefix_of_prefix_length_le hx (List.prefix_append _ _) hlen, hcounts⟩
    · rintro ⟨hx, -⟩
      refine ⟨_, _, hcall, fun hfalse => ?_, fun _ => ⟨?_, ?_, ?_⟩⟩
      · rw [href] at hfalse; cases hfalse
      · rw [hacc]
        exact hx.trans (List.prefix_append _ _)
      · rw [finish_of_toBool htrue]
        rcases writeReply_error hw with herr | ⟨errno, herr⟩
        · rw [herr, he'] at htrue; cases htrue
        · rw [herr]
          change (Error.fromSystemError errno).code ≠ 0
          simpa using (codeFromSyserror_ne errno).1
      · rw [finish_of_toBool htrue]
  · -- no attempt failed, and there is no newline
    constructor
    · rintro ⟨a, ei', hcall', hfull, _⟩
      obtain ⟨rfl, -⟩ := Prod.mk.inj (Except.ok.inj (hcall.symm.trans hcall'))
      have hx : x = r.bytes ++ [newline] := hacc.symm.trans (hfull href)
      rw [hx, List.length_append, List.length_singleton] at hlen
      omega
    · rintro ⟨-, hshort | hyes⟩
      · exact absurd hshort hlong
      · exact absurd hyes hno

/-- Attempts that take a byte first and then everything. -/
def shortFirst : ℕ → Attempt
  | 0 => .accepts 5
  | _ => .accepts 0

omit [LibGpgError] in
/-- The first callback of the interactor for expiry times, on a willing descriptor. -/
theorem sends_expire (attempts : ℕ → Attempt) :
    letI := documented
    Sends (gpgSetExpiryTimeEditInteractor []) (start ())
      ⟨.getLine, .lit "keyedit.prompt", attempts⟩ (.lit "expire") := by
  let := documented
  exact ⟨Error.toBool_none, Error.code_none, 1, .none, (), .none, (), rfl, Error.toBool_none,
    by decide, rfl, Error.toBool_none⟩

omit [LibGpgError] in
theorem repliesInFull_expire :
    letI := documented
    RepliesInFull (gpgSetExpiryTimeEditInteractor []) (start ())
        ⟨.getLine, .lit "keyedit.prompt", Fd.willing⟩ (.lit "expire") ↔
      ResumesAlike (CString.lit "expire").bytes 0 Fd.willing ∧
        ((CString.lit "expire").Short ∨
          Interrupted (CString.lit "expire").bytes.length Fd.willing) :=
  letI := documented
  repliesInFull_iff _ _ _ _ (sends_expire Fd.willing) (fitsInt_of_lt (by decide) _)

/-- The reply starts over after its first byte. -/
theorem writeReply_shortFirst (err : Error) :
    writeReply (.fresh shortFirst) (.lit "expire") err =
      some (err, ⟨Fd.willing, ascii "eexpir\n", false⟩) := by
  have hfirst : Fd.writeAllLoop (CString.lit "expire").bytes 6 6 0 (.fresh shortFirst) =
      Fd.writeAllLoop (CString.lit "expire").bytes 6 5 0 ⟨Fd.willing, ascii "e", false⟩ :=
    writeAllLoop_taken (show 0 < 6 by decide) (rfl : shortFirst 0 = .accepts 5)
      (show taken 5 6 < 2 ^ 31 by decide)
  have hsecond : Fd.writeAllLoop (CString.lit "expire").bytes 6 5 0 ⟨Fd.willing, ascii "e", false⟩ =
      Fd.writeAllLoop (CString.lit "expire").bytes 6 0 0 ⟨Fd.willing, ascii "eexpir", false⟩ :=
    writeAllLoop_taken (show 0 < 5 by decide) (rfl : Fd.willing 0 = .accepts 0)
      (show taken 0 5 < 2 ^ 31 by decide)
  have hwritten : writeAll (.fresh shortFirst) 0 (CString.lit "expire").bytes
      (CString.lit "expire").bytes.length =
        some ⟨6, 0, ⟨Fd.willing, ascii "eexpir", false⟩⟩ :=
    hfirst.trans (hsecond.trans writeAllLoop_done)
  have hnewline : writeAll ⟨Fd.willing, ascii "eexpir", false⟩ 0 [newline] 1 =
      some ⟨1, 0, ⟨Fd.willing, ascii "eexpir\n", false⟩⟩ :=
    writeAll_willing (ascii "eexpir") false 0 (by decide)
  have hne : (CString.lit "expire").bytes ≠ [] := by decide
  have hlen : ((CString.lit "expire").bytes.length : ℤ) = 6 := rfl
  simp [writeReply, writeNewline, hne, hlen, hwritten, hnewline]

omit [LibGpgError] in
/-- When the first attempt takes a single byte, gpg reads `eexpir`. -/
theorem not_repliesInFull_shortFirst :
    letI := documented
    ¬ ∀ (I : EditInteractor Unit) (ei : EditState Unit) (c : Call) (r : CString),
      Sends I ei c r → RepliesInFull I ei c r := by
  let := documented
  intro h
  obtain ⟨a, ei', hcall, hfull, _⟩ := h _ _ _ _ (sends_expire shortFirst)
  have hwritten := (@Outcome.replied _ _ (gpgSetExpiryTimeEditInteractor []) (start ())
    ⟨.getLine, .lit "keyedit.prompt", shortFirst⟩ _ _ _ _ _ _ Error.toBool_none rfl
    Error.toBool_none (by decide) Error.code_none rfl Error.toBool_none _ _
    (writeReply_shortFirst .none)).callback_eq
  obtain ⟨rfl, -⟩ := Prod.mk.inj (Except.ok.inj (hwritten.symm.trans hcall))
  exact absurd (hfull rfl) (by decide)

end Gpgmepp.EditInteractor
