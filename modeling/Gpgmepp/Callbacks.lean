import Gpgmepp.Descriptor
import Gpgmepp.Error

/-!
# The passphrase callback

`passphrase_callback` asks a `PassphraseProvider` for the passphrase, writes it to the
descriptor, wipes and frees the buffer it came in, and ends the line with a newline.  The writing
loop goes on behind what the descriptor has taken, until it has taken everything or fails.

The result of the last write is not looked at: when the newline cannot be written the callback
reports success, although gpg waits for the end of the line.

## Main definitions

* `PassphraseAnswer`, `PassphraseProvider` — what the user is asked for.
* `passphraseCallback` — the callback.
* `Transfer` — what the writing of some bytes piece by piece meets.
* `Writes` — what the writing loop comes to.
* `AnswersPassphrase` — the law of the callback.
* `passphraseCallback_answers_iff` — when it obeys its law.
-/

namespace Gpgmepp

open LibGpgError

/-- What a provider returns: the passphrase or a null pointer, and whether the user canceled. -/
structure PassphraseAnswer where
  passphrase : Option CString
  canceled : Bool

/-- `PassphraseProvider::getPassphrase`, from a hint at the user ID, a description and whether
the previous passphrase was bad. -/
abbrev PassphraseProvider := Option CString → Option CString → Bool → PassphraseAnswer

/-- `strlen`, of memory that holds a string. -/
def strlen (buf : List UInt8) : ℕ := (buf.takeWhile (· != 0)).length

/-- `wipememory2`: `set` is written to `vlen` places from `vptr` on. -/
def wipememory2 (set : UInt8) : (vlen vptr : ℕ) → List UInt8 → List UInt8
  | 0, _, mem => mem
  | vlen + 1, vptr, mem => wipememory2 set vlen (vptr + 1) (mem.set vptr set)

/-- `wipememory`. -/
def wipememory (mem : List UInt8) (len : ℕ) : List UInt8 := wipememory2 0 len 0 mem

/-- What the callback returns, what it did to the descriptor, and the memory it has freed, as
it was then. -/
structure PassphraseReply where
  ret : UInt32
  fd : Fd
  freed : Option (List UInt8)

variable [LibGpgError]

/-- The loop that writes the passphrase; `none` if `rounds` are not enough. -/
def writePassphrase (passphrase : List UInt8) (passphraseLength : ℕ) :
    (rounds written errno : ℕ) → Fd → Option (Error × Fd)
  | 0, _, _, _ => none
  | rounds + 1, written, errno, fd =>
      let w := fd.write errno (passphrase.drop written) (passphraseLength - written)
      if w.ret < 0 then some (.fromSystemError w.errno, w.fd)
      else if written + w.ret.toNat < passphraseLength then
        writePassphrase passphrase passphraseLength rounds (written + w.ret.toNat) w.errno w.fd
      else some (.none, w.fd)

/-- What the callback gets from its provider, which may be a null pointer. -/
def askPassphrase (provider : Option PassphraseProvider) (uidHint desc : Option CString)
    (prevWasBad : ℤ) : PassphraseAnswer :=
  match provider with
  | some getPassphrase => getPassphrase uidHint desc (prevWasBad != 0)
  | none => ⟨none, false⟩

/-- The branch that sends the passphrase: `if (passphrase && *passphrase)` it is written. -/
def sendPassphrase (passphrase : Option (List UInt8)) (errno : ℕ) (fd : Fd) (rounds : ℕ) :
    Option (Error × Fd) :=
  match passphrase with
  | some buf =>
      if buf.headD 0 ≠ 0 then writePassphrase buf (strlen buf) rounds 0 errno fd
      else some (.none, fd)
  | none => some (.none, fd)

/-- `passphrase_callback`, with at most `rounds` rounds of its loop. -/
def passphraseCallback (provider : Option PassphraseProvider) (uidHint desc : Option CString)
    (prevWasBad : ℤ) (errno : ℕ) (fd : Fd) (rounds : ℕ) : Option PassphraseReply :=
  let answer := askPassphrase provider uidHint desc prevWasBad
  -- the buffer of the passphrase ends with its terminator
  let passphrase := answer.passphrase.map fun p => p.bytes ++ [0]
  match if answer.canceled then some (.fromCode .canceled, fd)
    else sendPassphrase passphrase errno fd rounds with
  | none => none
  | some (err, fd) =>
      let freed := passphrase.map fun buf =>
        if buf.headD 0 ≠ 0 then wipememory buf (strlen buf) else buf
      -- the result of the last write is ignored
      some ⟨err.encodedError, (fd.write errno [newline] 1).fd, freed⟩

/-! ## Writing piece by piece -/

/-- What the writing of `n` bytes piece by piece meets: the `errno` of the attempt that fails,
or, when all are taken, the attempts to come. -/
inductive Transfer : ℕ → (ℕ → Attempt) → Except ℕ (ℕ → Attempt) → Prop
  | done (attempts : ℕ → Attempt) : Transfer 0 attempts (.ok attempts)
  | failed {n errno : ℕ} {ret : Fin 0x80000000} {attempts : ℕ → Attempt} (hn : 0 < n)
      (h : attempts 0 = .fails ret errno) : Transfer n attempts (.error errno)
  | taken {n left : ℕ} {attempts : ℕ → Attempt} {r : Except ℕ (ℕ → Attempt)} (hn : 0 < n)
      (h : attempts 0 = .accepts left)
      (hrest : Transfer (n - taken left n) (fun i => attempts (i + 1)) r) : Transfer n attempts r

omit [LibGpgError] in
theorem Transfer.unique {n : ℕ} {attempts : ℕ → Attempt} {r r' : Except ℕ (ℕ → Attempt)}
    (h : Transfer n attempts r) (h' : Transfer n attempts r') : r = r' := by
  induction h with
  | done =>
      cases h' with
      | done => rfl
      | failed hn | taken hn => exact absurd hn (lt_irrefl 0)
  | failed hn h =>
      cases h' with
      | done => exact absurd hn (lt_irrefl 0)
      | failed _ h₂ => cases h.symm.trans h₂; rfl
      | taken _ h₂ => cases h.symm.trans h₂
  | taken hn h _ ih =>
      cases h' with
      | done => exact absurd hn (lt_irrefl 0)
      | failed _ h₂ => cases h.symm.trans h₂
      | taken _ h₂ hrest => cases h.symm.trans h₂; exact ih hrest

/-- A round in which something is taken: the piece lies before the terminator, and there is a
next round if bytes are missing. -/
theorem writePassphrase_taken {p : List UInt8} {written left : ℕ} {fd : Fd}
    (hlt : written < p.length) (hatt : fd.attempts 0 = .accepts left) (errno rounds : ℕ) :
    writePassphrase (p ++ [0]) p.length (rounds + 1) written errno fd =
      let k := taken left (p.length - written)
      let fd : Fd := ⟨fun i => fd.attempts (i + 1),
        fd.accepted ++ (p.drop written).take k, fd.refused⟩
      if written + k < p.length then
        writePassphrase (p ++ [0]) p.length rounds (written + k) errno fd
      else some (.none, fd) := by
  have hkn : taken left (p.length - written) ≤ p.length - written := taken_le (by omega)
  generalize hk : taken left (p.length - written) = k at hkn
  have hneg : ¬ ((k : ℤ) < 0) := by omega
  have hpiece : ((p ++ [0]).drop written).take k = (p.drop written).take k := by
    rw [List.drop_append_of_le_length hlt.le,
      List.take_append_of_le_length (by simpa using hkn)]
  simp only [writePassphrase, Fd.write, hatt, hk, if_neg hneg, Int.toNat_natCast, hpiece]

/-- What the loop comes to when `written` bytes of `p` are out, with as many rounds as bytes are
missing, or more.  It ends, and the descriptor has got the rest of `p`, or, after a failure, only
the beginning of the rest. -/
def Writes (p : List UInt8) (written errno : ℕ) (fd : Fd) : Prop :=
  (∃ rest, Transfer (p.length - written) fd.attempts (.ok rest) ∧
    ∀ rounds, p.length - written ≤ rounds →
      writePassphrase (p ++ [0]) p.length rounds written errno fd =
        some (.none, ⟨rest, fd.accepted ++ p.drop written, fd.refused⟩)) ∨
  ∃ e x rest, Transfer (p.length - written) fd.attempts (.error e) ∧
    x <+: p.drop written ∧ x ≠ p.drop written ∧
    ∀ rounds, p.length - written ≤ rounds →
      writePassphrase (p ++ [0]) p.length rounds written errno fd =
        some (.fromSystemError e, ⟨rest, fd.accepted ++ x, true⟩)

section Rounds
variable {p : List UInt8} {written left errno : ℕ} {fd : Fd}

omit [LibGpgError] in
theorem exists_round (hlt : written < p.length) {rounds : ℕ} (hr : p.length - written ≤ rounds) :
    ∃ m, rounds = m + 1 :=
  Nat.exists_eq_add_one_of_ne_zero (by omega)

/-- A failure ends the loop. -/
theorem writes_of_failed {ret : Fin 0x80000000} {e : ℕ} (hlt : written < p.length)
    (hatt : fd.attempts 0 = .fails ret e) : Writes p written errno fd := by
  have hne : p.drop written ≠ [] := by simpa using hlt
  refine .inr ⟨e, [], fun i => fd.attempts (i + 1), .failed (by omega) hatt, List.nil_prefix,
    hne.symm, fun rounds hr => ?_⟩
  obtain ⟨rounds, rfl⟩ := exists_round hlt hr
  simp [writePassphrase, Fd.write, hatt, Int.negSucc_lt_zero]

/-- The last piece ends the loop, too. -/
theorem writes_of_last (hlt : written < p.length) (hatt : fd.attempts 0 = .accepts left)
    (hlast : ¬ written + taken left (p.length - written) < p.length) :
    Writes p written errno fd := by
  have hround := writePassphrase_taken hlt hatt errno
  simp only [if_neg hlast] at hround
  have hend : p.length - written - taken left (p.length - written) = 0 := by omega
  have htake : (p.drop written).take (taken left (p.length - written)) = p.drop written :=
    List.take_of_length_le (by simp; omega)
  refine .inl ⟨fun i => fd.attempts (i + 1), .taken (by omega) hatt ?_, fun rounds hr => ?_⟩
  · rw [hend]
    exact .done _
  · obtain ⟨rounds, rfl⟩ := exists_round hlt hr
    rw [hround, htake]

/-- After any other piece the loop goes on. -/
theorem writes_of_taken (hlt : written < p.length) (hatt : fd.attempts 0 = .accepts left)
    (hmore : written + taken left (p.length - written) < p.length)
    (h : Writes p (written + taken left (p.length - written)) errno
      ⟨fun i => fd.attempts (i + 1),
        fd.accepted ++ (p.drop written).take (taken left (p.length - written)), fd.refused⟩) :
    Writes p written errno fd := by
  have hround := writePassphrase_taken hlt hatt errno
  have hk1 := taken_pos left (p.length - written)
  simp only [if_pos hmore] at hround
  generalize hk : taken left (p.length - written) = k at hk1 hround hmore h
  have hsplit : (p.drop written).take k ++ p.drop (written + k) = p.drop written := by
    rw [← List.drop_drop, List.take_append_drop]
  have hsub : p.length - written - k = p.length - (written + k) := by omega
  rcases h with ⟨rest, htransfer, hloop⟩ | ⟨e, x, rest, htransfer, hx, hxne, hloop⟩
  · refine .inl ⟨rest, .taken (by omega) hatt ?_, fun rounds hr => ?_⟩
    · rwa [hk, hsub]
    · obtain ⟨rounds, rfl⟩ := exists_round hlt hr
      rw [hround, hloop rounds (by omega), List.append_assoc, hsplit]
  · have hprefix := (List.prefix_append_right_inj ((p.drop written).take k)).mpr hx
    rw [hsplit] at hprefix
    refine .inr ⟨e, (p.drop written).take k ++ x, rest, .taken (by omega) hatt ?_, hprefix, ?_,
      fun rounds hr => ?_⟩
    · rwa [hk, hsub]
    · exact fun heq => hxne (List.append_cancel_left (heq.trans hsplit.symm))
    · obtain ⟨rounds, rfl⟩ := exists_round hlt hr
      rw [hround, hloop rounds (by omega), List.append_assoc]

end Rounds

/-- **The writing loop.** -/
theorem writePassphrase_spec (p : List UInt8) :
    ∀ (n written errno : ℕ) (fd : Fd), p.length - written ≤ n → written < p.length →
      Writes p written errno fd := by
  intro n
  induction n with
  | zero => intro written errno fd hn hlt; omega
  | succ n ih =>
      intro written errno fd hn hlt
      cases hatt : fd.attempts 0 with
      | fails ret e => exact writes_of_failed hlt hatt
      | accepts left =>
          have hk1 := taken_pos left (p.length - written)
          by_cases hmore : written + taken left (p.length - written) < p.length
          · exact writes_of_taken hlt hatt hmore (ih _ errno _ (by omega) hmore)
          · exact writes_of_last hlt hatt hmore

/-! ## Wiping -/

omit [LibGpgError] in
theorem strlen_buffer (p : CString) : strlen (p.bytes ++ [0]) = p.bytes.length := by
  have htake : (p.bytes ++ [0]).takeWhile (· != 0) = p.bytes := by
    rw [List.takeWhile_append_of_pos]
    · simp
    · intro b hb
      simp only [bne_iff_ne, ne_eq]
      rintro rfl
      exact p.noNul hb
  rw [strlen, htake]

omit [LibGpgError] in
/-- The wiping loop overwrites what it passes and leaves the rest. -/
theorem wipememory2_append (set : UInt8) :
    ∀ (xs pre post : List UInt8), wipememory2 set xs.length pre.length (pre ++ (xs ++ post)) =
      pre ++ (List.replicate xs.length set ++ post) := by
  intro xs
  induction xs with
  | nil => intro pre post; rfl
  | cons x xs ih =>
      intro pre post
      have h := ih (pre ++ [set]) post
      simp only [List.length_append, List.length_singleton, List.append_assoc,
        List.singleton_append] at h
      simpa [wipememory2, List.replicate_succ] using h

omit [LibGpgError] in
/-- A wiped passphrase is zero throughout, its terminator included. -/
theorem wipememory_buffer (p : CString) :
    wipememory (p.bytes ++ [0]) (strlen (p.bytes ++ [0])) =
      List.replicate (p.bytes.length + 1) 0 := by
  have h := wipememory2_append 0 p.bytes [] [0]
  rw [List.nil_append, List.nil_append] at h
  rw [strlen_buffer, wipememory]
  exact h.trans List.replicate_succ'.symm

/-! ## The callback -/

omit [LibGpgError] in
/-- The bytes of the passphrase, none for a null pointer. -/
def PassphraseAnswer.text (answer : PassphraseAnswer) : List UInt8 :=
  (answer.passphrase.map CString.bytes).getD []

/-- **The law of the callback.**  A passphrase that no failing write breaks off arrives with a
newline, and there is no error.  Of one that is broken off only a beginning arrives before the
newline, and the error is that of the system.  Nothing but a newline is written after a
cancellation.  The buffer is all zero when it is freed. -/
structure AnswersPassphrase (answer : PassphraseAnswer) (attempts : ℕ → Attempt)
    (r : PassphraseReply) : Prop where
  delivered : answer.canceled = false → ∀ rest, Transfer answer.text.length attempts (.ok rest) →
    r.fd.accepted = answer.text ++ [newline] ∧ r.ret = 0
  brokenOff : answer.canceled = false →
    ∀ e, Transfer answer.text.length attempts (.error e) →
      r.ret = (Error.fromSystemError e).mErr ∧
      ∃ x, x <+: answer.text ∧ x ≠ answer.text ∧
        (r.fd.accepted = x ∨ r.fd.accepted = x ++ [newline])
  canceled : answer.canceled = true →
    errCode r.ret = number .canceled ∧ (r.fd.accepted = [] ∨ r.fd.accepted = [newline])
  wiped : ∀ mem, r.freed = some mem → ∀ b ∈ mem, b = 0
  freed : r.freed.map List.length = answer.passphrase.map fun p => p.bytes.length + 1

omit [LibGpgError] in
theorem headD_buffer (p : CString) : (p.bytes ++ [0]).headD 0 ≠ 0 ↔ p.bytes ≠ [] := by
  obtain ⟨bytes, hnul⟩ := p
  cases bytes with
  | nil => simp
  | cons b bytes =>
      have hb : b ≠ 0 := fun h => hnul (h ▸ List.mem_cons_self)
      simp [hb]

/-- The branch that sends the passphrase ends, and all of it is out, or a beginning. -/
theorem sendPassphrase_spec (answer : PassphraseAnswer) (errno : ℕ) (fd : Fd) :
    (∃ rest, Transfer answer.text.length fd.attempts (.ok rest) ∧
        ∀ rounds, answer.text.length ≤ rounds →
          sendPassphrase (answer.passphrase.map fun p => p.bytes ++ [0]) errno fd rounds =
            some (.none, ⟨rest, fd.accepted ++ answer.text, fd.refused⟩)) ∨
      ∃ e x rest, Transfer answer.text.length fd.attempts (.error e) ∧
        x <+: answer.text ∧ x ≠ answer.text ∧
        ∀ rounds, answer.text.length ≤ rounds →
          sendPassphrase (answer.passphrase.map fun p => p.bytes ++ [0]) errno fd rounds =
            some (.fromSystemError e, ⟨rest, fd.accepted ++ x, true⟩) := by
  obtain ⟨passphrase, canceled⟩ := answer
  rcases passphrase with _ | p
  · exact .inl ⟨fd.attempts, .done _, by simp [sendPassphrase, PassphraseAnswer.text]⟩
  · by_cases hempty : p.bytes = []
    · refine .inl ⟨fd.attempts, ?_, ?_⟩
      · simpa [PassphraseAnswer.text, hempty] using Transfer.done fd.attempts
      · simp [sendPassphrase, PassphraseAnswer.text, hempty]
    · have hpos : 0 < p.bytes.length := List.length_pos_iff.mpr hempty
      have hsend : ∀ rounds, sendPassphrase (some (p.bytes ++ [0])) errno fd rounds =
          writePassphrase (p.bytes ++ [0]) p.bytes.length rounds 0 errno fd := by
        intro rounds
        rw [sendPassphrase, if_pos ((headD_buffer p).mpr hempty), strlen_buffer]
      have hspec := writePassphrase_spec p.bytes p.bytes.length 0 errno fd (by omega) hpos
      simpa only [Writes, PassphraseAnswer.text, Option.map_some, Option.getD_some, hsend,
        Nat.sub_zero, List.drop_zero] using hspec

omit [LibGpgError] in
/-- The memory that is freed is zero. -/
theorem wiped_buffer (p : CString) :
    (if (p.bytes ++ [0]).headD 0 ≠ 0 then
      wipememory (p.bytes ++ [0]) (strlen (p.bytes ++ [0])) else p.bytes ++ [0]) =
      List.replicate (p.bytes.length + 1) 0 := by
  split
  · exact wipememory_buffer p
  · next h =>
      have hempty : p.bytes = [] := by simpa only [headD_buffer, not_not] using h
      rw [hempty]
      rfl

omit [LibGpgError] in
/-- The newline is taken, or its attempt fails. -/
theorem write_newline (fd : Fd) (errno : ℕ) :
    ((∀ ret e, fd.attempts 0 ≠ .fails ret e) ∧
        (fd.write errno [newline] 1).fd.accepted = fd.accepted ++ [newline]) ∨
      ((∃ ret e, fd.attempts 0 = .fails ret e) ∧
        (fd.write errno [newline] 1).fd.accepted = fd.accepted) := by
  cases hatt : fd.attempts 0 with
  | accepts left =>
      have htaken : taken left 1 = 1 := by simp only [taken]; omega
      exact .inl ⟨by simp, by simp [Fd.write, hatt, htaken]⟩
  | fails ret e => exact .inr ⟨⟨ret, e, rfl⟩, by simp [Fd.write, hatt]⟩

/-- What the callback does when it is done with the passphrase. -/
theorem passphraseCallback_eq {provider : Option PassphraseProvider}
    {uidHint desc : Option CString} {prevWasBad : ℤ} {answer : PassphraseAnswer}
    (hanswer : askPassphrase provider uidHint desc prevWasBad = answer) {errno rounds : ℕ}
    {fd fd' : Fd} {err : Error}
    (h : (if answer.canceled then some (.fromCode .canceled, fd) else sendPassphrase
      (answer.passphrase.map fun p => p.bytes ++ [0]) errno fd rounds) = some (err, fd')) :
    passphraseCallback provider uidHint desc prevWasBad errno fd rounds =
      some ⟨err.mErr, (fd'.write errno [newline] 1).fd,
        answer.passphrase.map fun p => List.replicate (p.bytes.length + 1) 0⟩ := by
  simp only [passphraseCallback, hanswer, h, Error.encodedError, Option.map_map]
  congr 3
  funext p
  exact wiped_buffer p

omit [LibGpgError] in
theorem eq_zero_of_wiped {passphrase : Option CString} {mem : List UInt8}
    (h : (passphrase.map fun p => List.replicate (p.bytes.length + 1) (0 : UInt8)) = some mem) :
    ∀ b ∈ mem, b = 0 := by
  obtain ⟨p, -, rfl⟩ := Option.map_eq_some_iff.mp h
  exact fun b hb => List.eq_of_mem_replicate hb

omit [LibGpgError] in
/-- The buffer that is freed is as long as it was. -/
theorem length_wiped (passphrase : Option CString) :
    (passphrase.map fun p => List.replicate (p.bytes.length + 1) (0 : UInt8)).map List.length =
      passphrase.map fun p => p.bytes.length + 1 := by
  cases passphrase with
  | none => rfl
  | some p => simp

section Answers
variable {answer : PassphraseAnswer} {attempts rest : ℕ → Attempt} {errno e : ℕ} {x : List UInt8}

/-- The law, after a cancellation. -/
theorem answers_of_canceled (hcanceled : answer.canceled = true) :
    AnswersPassphrase answer attempts ⟨(Error.fromCode .canceled).encodedError,
      ((Fd.fresh attempts).write errno [newline] 1).fd,
      answer.passphrase.map fun p => List.replicate (p.bytes.length + 1) 0⟩ := by
  refine ⟨?_, ?_, fun _ => ⟨Error.code_fromCode _ .canceled, ?_⟩, fun mem => eq_zero_of_wiped,
    length_wiped _⟩
  · exact fun h => absurd (hcanceled.symm.trans h) (by simp)
  · exact fun h => absurd (hcanceled.symm.trans h) (by simp)
  · rcases write_newline (.fresh attempts) errno with ⟨-, hacc⟩ | ⟨-, hacc⟩
    · exact .inr hacc
    · exact .inl hacc

/-- The law, after all of the passphrase was sent. -/
theorem answers_iff_of_sent (hcanceled : answer.canceled = false)
    (htransfer : Transfer answer.text.length attempts (.ok rest)) :
    AnswersPassphrase answer attempts ⟨Error.none.encodedError,
        ((⟨rest, answer.text, false⟩ : Fd).write errno [newline] 1).fd,
        answer.passphrase.map fun p => List.replicate (p.bytes.length + 1) 0⟩ ↔
      ∀ ret e, rest 0 ≠ .fails ret e := by
  have hend := write_newline ⟨rest, answer.text, false⟩ errno
  constructor
  · intro hlaw ret e hfails
    rcases hend with ⟨hne, -⟩ | ⟨-, hacc⟩
    · exact hne ret e hfails
    · have hall := hacc.symm.trans (hlaw.delivered hcanceled rest htransfer).1
      exact absurd (congrArg List.length hall) (by simp)
  · intro hnewline
    refine ⟨fun _ _ _ => ⟨?_, rfl⟩, ?_, ?_, fun mem => eq_zero_of_wiped, length_wiped _⟩
    · rcases hend with ⟨-, hacc⟩ | ⟨⟨ret, e, hfails⟩, -⟩
      · exact hacc
      · exact absurd hfails (hnewline ret e)
    · exact fun _ e h => absurd (htransfer.unique h) (by simp)
    · exact fun h => absurd (hcanceled.symm.trans h) (by simp)

/-- The law, after a write of the passphrase has failed. -/
theorem answers_of_brokenOff (hcanceled : answer.canceled = false)
    (htransfer : Transfer answer.text.length attempts (.error e)) (hx : x <+: answer.text)
    (hxne : x ≠ answer.text) :
    AnswersPassphrase answer attempts ⟨(Error.fromSystemError e).encodedError,
      ((⟨rest, x, true⟩ : Fd).write errno [newline] 1).fd,
      answer.passphrase.map fun p => List.replicate (p.bytes.length + 1) 0⟩ := by
  refine ⟨?_, fun _ e' h => ?_, ?_, fun mem => eq_zero_of_wiped, length_wiped _⟩
  · exact fun _ rest' h => absurd (htransfer.unique h) (by simp)
  · obtain rfl : e = e' := Except.error.inj (htransfer.unique h)
    refine ⟨rfl, x, hx, hxne, ?_⟩
    rcases write_newline ⟨rest, x, true⟩ errno with ⟨-, hacc⟩ | ⟨-, hacc⟩
    · exact .inr hacc
    · exact .inl hacc
  · exact fun h => absurd (hcanceled.symm.trans h) (by simp)

end Answers

/-- **The callback ends, and obeys its law exactly if** the passphrase is not sent completely, by
a cancellation or a failure, or the newline that follows it can be written. -/
theorem passphraseCallback_answers_iff (provider : Option PassphraseProvider)
    (uidHint desc : Option CString) (prevWasBad : ℤ) (errno : ℕ) (attempts : ℕ → Attempt) :
    ∃ r, (∀ rounds, (askPassphrase provider uidHint desc prevWasBad).text.length ≤ rounds →
        passphraseCallback provider uidHint desc prevWasBad errno (.fresh attempts) rounds =
          some r) ∧
      (AnswersPassphrase (askPassphrase provider uidHint desc prevWasBad) attempts r ↔
        ((askPassphrase provider uidHint desc prevWasBad).canceled = false → ∀ rest ret e,
          Transfer (askPassphrase provider uidHint desc prevWasBad).text.length attempts
            (.ok rest) → rest 0 ≠ .fails ret e)) := by
  generalize hanswer : askPassphrase provider uidHint desc prevWasBad = answer
  cases hcanceled : answer.canceled with
  | true =>
      refine ⟨_, fun rounds _ => passphraseCallback_eq hanswer (by rw [hcanceled]; rfl), ?_⟩
      exact iff_of_true (answers_of_canceled hcanceled) (by simp)
  | false =>
      rcases sendPassphrase_spec answer errno (.fresh attempts) with
        ⟨rest, htransfer, hsend⟩ | ⟨e, x, rest, htransfer, hx, hxne, hsend⟩
      · refine ⟨_, fun rounds hr => passphraseCallback_eq hanswer
          (by rw [hcanceled]; exact hsend rounds hr), ?_⟩
        refine (answers_iff_of_sent hcanceled htransfer).trans ⟨?_, ?_⟩
        · intro hnewline _ rest' ret e htransfer'
          obtain rfl : rest = rest' := Except.ok.inj (htransfer.unique htransfer')
          exact hnewline ret e
        · exact fun h ret e => h rfl rest ret e htransfer
      · refine ⟨_, fun rounds hr => passphraseCallback_eq hanswer
          (by rw [hcanceled]; exact hsend rounds hr), ?_⟩
        refine iff_of_true (answers_of_brokenOff hcanceled htransfer hx hxne) ?_
        exact fun _ rest' _ _ h => absurd (htransfer.unique h) (by simp)

/-- Attempts that take everything once and then fail. -/
def onceThenFail : ℕ → Attempt
  | 0 => .accepts 0
  | _ => .fails 0 5

omit [LibGpgError] in
/-- When the newline cannot be written the callback reports success. -/
theorem not_passphraseCallback_answers_newline :
    letI := documented
    ¬ ∀ (provider : Option PassphraseProvider) (attempts : ℕ → Attempt),
      ∃ r, (∀ rounds, (askPassphrase provider none none 0).text.length ≤ rounds →
          passphraseCallback provider none none 0 0 (.fresh attempts) rounds = some r) ∧
        AnswersPassphrase (askPassphrase provider none none 0) attempts r := by
  let := documented
  intro h
  obtain ⟨r, hr, hlaw⟩ := h (some fun _ _ _ => ⟨some (.lit "secret"), false⟩) onceThenFail
  have hacc := (hlaw.delivered rfl _ (.taken (by decide) rfl (.done _))).1
  obtain rfl := Option.some.inj (hr 6 (by decide))
  exact absurd hacc (by decide)

end Gpgmepp
