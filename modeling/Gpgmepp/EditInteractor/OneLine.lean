import Gpgmepp.EditInteractor.Delivery
import Gpgmepp.EditInteractor.Dialogues

/-!
# One line for each prompt

gpg reads the answers to its prompts line by line.  A callback ends the reply of `action`
with a newline, so that it answers one prompt, provided that there is no newline inside the
reply.  The interactors for expiry dates and for user IDs send what they were configured with
just as it is: a line feed in a date, a name, an email address or a comment makes several lines
of it, and gpg takes the second for the answer to whatever it asks next.  And when a string has
more bytes than an `int` can count, no newline follows it at all.

## Main definitions

* `IsLine`, `OneLineEach` — at most one line for each callback, and one prompt for each line.
* `SendsOneLineEach` — so it is in every run.
* `RepliesOneLine` — the subclasses for which it is so.
* `sendsOneLineEach_iff` — which dates and user IDs are sent so.
-/

namespace Gpgmepp.EditInteractor

open StateMachine Dialogue

/-- Bytes with a line feed at the end and nowhere else. -/
def IsLine (bs : List UInt8) : Prop := ∃ l, newline ∉ l ∧ bs = l ++ [newline]

theorem isLine_line_iff (r : CString) : IsLine r.line ↔ r.OneLine := by
  constructor
  · rintro ⟨l, hl, hline⟩
    have hbytes : r.bytes = l := List.append_left_injective _ hline
    rwa [CString.OneLine, hbytes]
  · intro h
    exact ⟨r.bytes, h, rfl⟩

section Law
variable {δ : Type}

/-- The callback has answered a prompt. -/
def answered (t : Exchange δ) : Bool := needsResponse (message t) && t.output.ret == 0

/-- Every callback sends a line or nothing, and there are no more lines than answered
prompts. -/
structure OneLineEach (ts : List (Exchange δ)) : Prop where
  each : ∀ t ∈ ts, sent t = [] ∨ IsLine (sent t)
  total : (ts.map sent).flatten.count newline ≤ (ts.filter answered).length

/-- Lines that each answer a prompt are no more than the prompts. -/
theorem oneLineEach_of_forall {ts : List (Exchange δ)}
    (h : ∀ t ∈ ts, sent t = [] ∨ (IsLine (sent t) ∧ answered t = true)) : OneLineEach ts := by
  constructor
  · intro t ht
    exact (h t ht).imp_right And.left
  · induction ts with
    | nil => simp
    | cons t ts ih =>
        have hrest := ih fun u hu => h u (List.mem_cons_of_mem t hu)
        rw [List.map_cons, List.flatten_cons, List.count_append]
        rcases h t List.mem_cons_self with hnil | ⟨⟨l, hl, hline⟩, hanswered⟩
        · rw [hnil, List.count_nil, Nat.zero_add]
          exact hrest.trans ((List.sublist_cons_self t ts).filter _).length_le
        · have hcount : (sent t).count newline = 1 := by
            rw [hline, List.count_append, List.count_eq_zero_of_not_mem hl]
            simp
          rw [List.filter_cons_of_pos hanswered, List.length_cons, hcount]
          omega

end Law

variable [LibGpgError] {δ : Type}

/-- In every run in which no write fails, each callback sends one line at most. -/
def SendsOneLineEach (I : EditInteractor δ) (ei : EditState δ) : Prop :=
  ∀ ts ei', Run (editInteractorCallbackImpl I) ei ts ei' →
    (∀ t ∈ ts, t.output.fd.refused = false) → OneLineEach ts

/-! ## Replies of one line -/

omit [LibGpgError] in
/-- The loop of `writeAll` writes nothing that is not in its buffer. -/
theorem mem_writeAllLoop {buf : List UInt8} {count n errno : ℕ} {b : UInt8} {fd : Fd}
    {w : Written} (h : Fd.writeAllLoop buf count n errno fd = some w) :
    b ∈ w.fd.accepted → b ∈ fd.accepted ∨ b ∈ buf := by
  refine Fd.writeAllLoop.partial_correctness buf count
    (fun _ _ fd w => b ∈ w.fd.accepted → b ∈ fd.accepted ∨ b ∈ buf) ?_ n errno fd w h
  intro loop ih toWrite errno fd w hw hmem
  have hround : b ∈ (fd.write errno buf toWrite).fd.accepted → b ∈ fd.accepted ∨ b ∈ buf := by
    cases hatt : fd.attempts 0 with
    | accepts left =>
        intro hmem
        simp only [Fd.write, hatt, List.mem_append] at hmem
        exact hmem.imp_right List.mem_of_mem_take
    | fails ret e =>
        intro hmem
        simp only [Fd.write, hatt] at hmem
        exact .inl hmem
  simp only at hw
  split_ifs at hw
  · rw [← Option.some.inj hw] at hmem
    exact hround hmem
  · rcases ih _ _ _ _ hw hmem with hacc | hbuf
    · exact hround hacc
    · exact .inr hbuf
  · rw [← Option.some.inj hw] at hmem
    exact .inl hmem

/-- A short reply without a newline arrives as a line, however the attempts cut it, unless one
of them fails. -/
theorem isLine_writeReply {attempts : ℕ → Attempt} {r : CString} {err e : Error} {fd : Fd}
    (hr : r.OneLine) (hshort : r.Short)
    (hw : writeReply (.fresh attempts) r err = some (e, fd)) (href : fd.refused = false) :
    IsLine fd.accepted ∧ e = err := by
  by_cases hempty : r.bytes = []
  · obtain ⟨e', fd', hnl, hend⟩ := writeNewline_spec (.fresh attempts) err
    rw [writeReply, if_pos hempty, hnl] at hw
    obtain ⟨rfl, rfl⟩ := Prod.mk.inj (Option.some.inj hw)
    rcases hend with ⟨hacc, -, herr⟩ | ⟨-, htrue, -⟩
    · exact ⟨⟨[], List.not_mem_nil, hacc⟩, herr⟩
    · exact absurd (href.symm.trans htrue) (by simp)
  · obtain ⟨x, w, hwritten, -, -, -, hend⟩ :=
      writeAll_spec (.fresh attempts) 0 r.bytes (fitsInt_of_lt hshort attempts)
    rw [writeReply, if_neg hempty, hwritten, Option.bind_some] at hw
    rcases hend with ⟨-, -, hret, -⟩ | ⟨-, -, hret, htrue⟩
    · obtain ⟨e', fd', hnl, hend⟩ := writeNewline_spec w.fd err
      have hcounted : ¬ w.ret ≠ r.bytes.length := by rw [hret, toInt_of_lt hshort, not_not]
      rw [if_neg hcounted, hnl] at hw
      obtain ⟨rfl, rfl⟩ := Prod.mk.inj (Option.some.inj hw)
      rcases hend with ⟨hacc, -, herr⟩ | ⟨-, htrue, -⟩
      · refine ⟨⟨w.fd.accepted, ?_, hacc⟩, herr⟩
        intro hmem
        rcases mem_writeAllLoop hwritten hmem with h | h
        · exact absurd h (by simp [Fd.fresh])
        · exact hr h
      · exact absurd (href.symm.trans htrue) (by simp)
    · have hne : w.ret ≠ r.bytes.length := by omega
      rw [if_pos hne] at hw
      obtain ⟨-, rfl⟩ := Prod.mk.inj (Option.some.inj hw)
      exact absurd (href.symm.trans htrue) (by simp)

/-- A subclass that answers prompts only, each with a short reply of one line. -/
structure RepliesOneLine (I : EditInteractor δ) : Prop where
  responsive : Responsive I
  oneLine : ∀ {s le d err r err' d'}, I.action s le d err = .ok (some r, err', d') → r.OneLine
  /-- A status that needs no response leaves the state alone. -/
  ignores : ∀ {s le d st args err}, needsNoResponse st = true →
    (I.nextState s le d st args err).1 = s

/-- One callback of such a subclass. -/
theorem RepliesOneLine.callback {I : EditInteractor δ} (hI : RepliesOneLine I)
    {ei ei' : EditState δ} {c : Call} {a : Answer} (hwf : ei.error.WellFormed)
    (hcall : editInteractorCallbackImpl I ei c = .ok (a, ei')) (href : a.fd.refused = false) :
    ei'.error.WellFormed ∧
      (a.fd.accepted = [] ∨
        (IsLine a.fd.accepted ∧ needsNoResponse c.status = false ∧ a.ret = 0)) := by
  have hst := wellFormed_statusToError c.status
  cases outcome_of_callback hcall with
  | mapped => exact ⟨hst, .inl rfl⟩
  | rejected _ hnext => exact ⟨hI.responsive.wellFormed.of_nextState hnext hwf hst, .inl rfl⟩
  | idle => exact ⟨hwf, .inl rfl⟩
  | failed _ hnext _ _ _ hact =>
      have he := hI.responsive.wellFormed.of_nextState hnext hwf hst
      exact ⟨hI.responsive.wellFormed.action hwf he hact, .inl rfl⟩
  | silent => exact ⟨hwf, .inl rfl⟩
  | @replied s e e' d d' r _ hnext _ hs h0 hact he' e'' fd hw =>
      obtain ⟨hline, herr⟩ :=
        isLine_writeReply (hI.oneLine hact) (hI.responsive.short hact) hw href
      have hzero : ei.error.mErr = 0 := by
        by_contra hne
        exact hwf hne h0
      rw [herr, finish_of_not he']
      refine ⟨hwf, .inr ⟨hline, ?_, hzero⟩⟩
      cases hresp : needsNoResponse c.status with
      | false => rfl
      | true =>
          have hsame : (I.nextState ei.state ei.error ei.data c.status c.args
              (statusToError c.status)).1 = ei.state := hI.ignores hresp
          rw [hnext] at hsame
          exact absurd hsame hs

/-- **Replies of one line are sent as one line each**, in every run. -/
theorem RepliesOneLine.sendsOneLineEach {I : EditInteractor δ} (hI : RepliesOneLine I)
    {ei : EditState δ} (hwf : ei.error.WellFormed) : SendsOneLineEach I ei := by
  intro ts ei' hrun href
  refine oneLineEach_of_forall (hrun.absorbing_of (fun ei => ei.error.WellFormed)
    (fun t => t.output.fd.refused = false) _ hwf href ?_).2
  intro ei c a ei' hwf hcall href
  obtain ⟨hwf', hsent⟩ := hI.callback hwf hcall href
  refine ⟨hwf', hsent.imp_right ?_⟩
  rintro ⟨hline, hresp, hret⟩
  exact ⟨hline, by simp [answered, message, needsResponse, hresp, hret]⟩

/-! ## Replies that break the law -/

/-- The descriptor that takes a byte at a time gets a long reply as copies of its first byte, and
the callback fails without a newline. -/
theorem writeReply_byteByByte {r : CString} (hr : ¬ r.Short) (err : Error) :
    ∃ b e fd, writeReply (.fresh fun _ => .accepts r.bytes.length) r err = some (e, fd) ∧
      fd.refused = false ∧ fd.accepted = List.replicate r.bytes.length b := by
  cases hbytes : r.bytes with
  | nil => exact absurd (by simp [CString.Short, hbytes]) hr
  | cons b bs =>
      have hlen : (b :: bs).length = r.bytes.length := by rw [hbytes]
      have hne : toInt (b :: bs).length ≠ (b :: bs).length := by
        rw [hlen]
        exact fun h => hr (toInt_eq_iff.mp h)
      have hw := writeAllLoop_byteByByte b bs (b :: bs).length (b :: bs).length 0 false
        (b :: bs).length [] (Nat.le_succ _)
      rw [List.nil_append] at hw
      refine ⟨b, .fromSystemError 0, ⟨fun _ => .accepts (b :: bs).length,
        List.replicate (b :: bs).length b, false⟩, ?_, rfl, rfl⟩
      rw [writeReply, hbytes, if_neg (List.cons_ne_nil b bs), writeAll, Fd.fresh, hw,
        Option.bind_some, if_pos hne]

/-- If each callback sends one line at most, the replies are short. -/
theorem SendsOneLineEach.short {I : EditInteractor δ} {ei₀ ei : EditState δ}
    (hlines : SendsOneLineEach I ei₀) {ts : List (Exchange δ)}
    (hrun : Run (editInteractorCallbackImpl I) ei₀ ts ei)
    (href : ∀ t ∈ ts, t.output.fd.refused = false) {m : Message} {r : CString}
    (hsends : ∀ attempts, Sends I ei ⟨m.1, m.2, attempts⟩ r) : r.Short := by
  by_contra hlong
  obtain ⟨hst, h0, s, e, d, e', d', hnext, he, hs, hact, he'⟩ :=
    hsends fun _ => .accepts r.bytes.length
  obtain ⟨b, e'', fd, hw, hfd, hacc⟩ := writeReply_byteByByte hlong e'
  have hcall := (Outcome.replied hst hnext he hs h0 hact he' hw).callback_eq
  have hall := hlines _ _ (hrun.append (.single hcall)) (by
    intro t ht
    rcases List.mem_append.mp ht with ht | ht
    · exact href t ht
    · rw [List.mem_singleton.mp ht]
      exact hfd)
  have hlast := hall.each _ (List.mem_append_right _ List.mem_cons_self)
  have hlen : 2 ^ 31 ≤ r.bytes.length := by simpa [CString.Short] using hlong
  have hsent : sent ⟨ei, ⟨m.1, m.2, fun _ => .accepts r.bytes.length⟩,
      ⟨(finish e'' ⟨s, ei.error, d'⟩).error.mErr, fd, true⟩, finish e'' ⟨s, ei.error, d'⟩⟩ =
        List.replicate r.bytes.length b := hacc
  rw [hsent] at hlast
  rcases hlast with hnil | ⟨l, hl, hline⟩
  · rw [List.replicate_eq_nil_iff] at hnil
    omega
  · -- a newline at the end is one at the beginning
    have hmem : newline ∈ List.replicate r.bytes.length b := by
      rw [hline]
      exact List.mem_append_right l List.mem_cons_self
    have hb : newline = b := List.eq_of_mem_replicate hmem
    have hcount := congrArg (List.count newline) hline
    rw [hb, List.count_replicate_self, ← hb, List.count_append, List.count_eq_zero_of_not_mem hl,
      List.count_singleton_self] at hcount
    omega

/-! ## Runs along a script -/

/-- A descriptor that takes everything refuses nothing. -/
theorem refused_serve {I : EditInteractor δ} (hI : Responsive I) {ei ei' : EditState δ}
    {m : Message} {a : Answer} (hcall : editInteractorCallbackImpl I ei (serve m) = .ok (a, ei')) :
    a.fd.refused = false := by
  cases outcome_of_callback hcall with
  | mapped | rejected | idle | failed | silent => rfl
  | @replied s e e' d d' r _ _ _ _ _ hact _ e'' fd hw =>
      obtain ⟨-, rfl⟩ := Prod.mk.inj
        (Option.some.inj (hw.symm.trans (writeReply_willing (hI.short hact) e')))
      rfl

/-- If each callback sends one line at most, so do the replies of the scripts. -/
theorem SendsOneLineEach.oneLine_of_script {I : EditInteractor δ} (hI : Responsive I)
    {ei : EditState δ} {ds : List Script} (hlines : SendsOneLineEach I ei)
    (h : SpeaksDialogue I ei ds) {d : Script} (hd : d ∈ ds)
    (hresp : ∀ p ∈ d, needsResponse p.1 = true ∧ isError p.1 = false) {m : Message} {r : CString}
    (hr : (m, r.line) ∈ d) : r.OneLine := by
  obtain ⟨ts, ei', hrun, hin, hsent, -⟩ := h.run_script hd hresp
  have href : ∀ t ∈ ts, t.output.fd.refused = false := by
    intro t ht
    obtain ⟨pre, post, rfl⟩ := List.append_of_mem ht
    obtain ⟨m, -, hm⟩ := List.mem_map.mp (hin ▸ List.mem_map_of_mem (f := Transition.input) ht)
    exact refused_serve hI (hm ▸ hrun.cut.2.1)
  obtain ⟨t, ht, hline⟩ : ∃ t ∈ ts, sent t = r.line :=
    List.mem_map.mp (hsent ▸ List.mem_map_of_mem (f := Prod.snd) hr)
  rcases (hlines ts ei' hrun href).each t ht with hnil | hone
  · exact absurd (hline.symm.trans hnil) r.line_ne_nil
  · exact (isLine_line_iff r).mp (hline ▸ hone)

/-! ## The two interactors -/

omit [LibGpgError] in
theorem oneLine_lit {s : String} (h : newline ∉ ascii s) : (CString.lit s).OneLine :=
  fun hmem => h ((List.takeWhile_sublist _).subset hmem)

theorem repliesOneLine_setExpiryTime {strtime : StdString} (h : (CString.cStr strtime).OneLine)
    (hshort : (CString.cStr strtime).Short) :
    RepliesOneLine (gpgSetExpiryTimeEditInteractor strtime) where
  responsive := responsive_setExpiryTime hshort
  oneLine := by
    intro s le d err r err' d' hact
    obtain ⟨hr, -⟩ := Prod.mk.inj (Except.ok.inj hact)
    revert hr
    fun_cases GpgSetExpiryTimeEditInteractor.action strtime s err <;> intro hr <;>
      first
      | exact Option.some.inj hr ▸ h
      | exact Option.some.inj hr ▸ oneLine_lit (by decide)
      | cases hr
  ignores := by
    intro s le d st args err hst
    simp [gpgSetExpiryTimeEditInteractor, GpgSetExpiryTimeEditInteractor.nextState, hst]

theorem repliesOneLine_addUserID {m : GpgAddUserIDEditInteractor.UserIDParts}
    (hI : Responsive (gpgAddUserIDEditInteractor m)) (hname : (CString.cStr m.name).OneLine)
    (hemail : (CString.cStr m.email).OneLine) (hcomment : (CString.cStr m.comment).OneLine) :
    RepliesOneLine (gpgAddUserIDEditInteractor m) where
  responsive := hI
  oneLine := by
    intro s le d err r err' d' hact
    obtain ⟨hr, -⟩ := Prod.mk.inj (Except.ok.inj hact)
    revert hr
    fun_cases GpgAddUserIDEditInteractor.action m s err <;> intro hr <;>
      first
      | exact Option.some.inj hr ▸ hname
      | exact Option.some.inj hr ▸ hemail
      | exact Option.some.inj hr ▸ hcomment
      | exact Option.some.inj hr ▸ oneLine_lit (by decide)
      | cases hr
  ignores := by
    intro s le d st args err hst
    simp [gpgAddUserIDEditInteractor, GpgAddUserIDEditInteractor.nextState, hst]

/-- A date that is sent as one line is short and has no line feed. -/
theorem oneLine_strtime {strtime : StdString}
    (h : SendsOneLineEach (gpgSetExpiryTimeEditInteractor strtime) (start ())) :
    (CString.cStr strtime).OneLine ∧ (CString.cStr strtime).Short := by
  have hcommand : editInteractorCallbackImpl (gpgSetExpiryTimeEditInteractor strtime) (start ())
      (serve (getLine "keyedit.prompt")) =
        .ok (⟨0, ⟨Fd.willing, (CString.lit "expire").line, false⟩, true⟩, ⟨1, .none, ()⟩) :=
    callback_replied Error.toBool_none rfl Error.toBool_none (by simp [start, startState])
      Error.code_none rfl Error.toBool_none (by decide)
  have hshort : (CString.cStr strtime).Short := by
    refine h.short (.single hcommand) (by simp) (m := getLine "keygen.valid") fun attempts => ?_
    exact ⟨Error.toBool_none, Error.code_none, 2, .none, (), .none, (), rfl, Error.toBool_none,
      by simp, rfl, Error.toBool_none⟩
  refine ⟨?_, hshort⟩
  exact h.oneLine_of_script (responsive_setExpiryTime hshort) (speaksDialogue_expiry hshort)
    List.mem_cons_self (prompts_expiryScript strtime) (m := getLine "keygen.valid")
    (by simp [expiryScript])

/-- The callback of the interactor for user IDs that sends the next short part. -/
theorem callback_userID {m : GpgAddUserIDEditInteractor.UserIDParts} {s t : ℕ} {p : Message}
    {r : CString} (hst : statusToError p.1 = .none) (hs : t ≠ s)
    (hnext : (gpgAddUserIDEditInteractor m).nextState s .none () p.1 p.2 .none = (t, .none, ()))
    (hact : (gpgAddUserIDEditInteractor m).action t .none () .none = .ok (some r, .none, ()))
    (hr : r.Short) :
    editInteractorCallbackImpl (gpgAddUserIDEditInteractor m) ⟨s, .none, ()⟩ (serve p) =
      .ok (⟨0, ⟨Fd.willing, r.line, false⟩, true⟩, ⟨t, .none, ()⟩) :=
  callback_replied (by rw [hst]; exact Error.toBool_none) (by rw [hst]; exact hnext)
    Error.toBool_none hs Error.code_none hact Error.toBool_none hr

/-- A user ID whose parts are sent as one line each has short ones: the first long one would break
the law. -/
theorem short_userIDParts {m : GpgAddUserIDEditInteractor.UserIDParts}
    (h : SendsOneLineEach (gpgAddUserIDEditInteractor m) (start ())) :
    (CString.cStr m.name).Short ∧ (CString.cStr m.email).Short ∧
      (CString.cStr m.comment).Short := by
  have hcommand := callback_userID (m := m) (p := getLine "keyedit.prompt") (s := 0) (t := 1) rfl
    (by decide) rfl rfl (by decide : (CString.lit "adduid").Short)
  have hname : (CString.cStr m.name).Short := by
    refine h.short (.single hcommand) (by simp) (m := getLine "keygen.name") fun attempts => ?_
    exact ⟨Error.toBool_none, Error.code_none, 2, .none, (), .none, (), rfl, Error.toBool_none,
      by simp, rfl, Error.toBool_none⟩
  have hsent := callback_userID (m := m) (p := getLine "keygen.name") (s := 1) (t := 2) rfl
    (by decide) rfl rfl hname
  have hemail : (CString.cStr m.email).Short := by
    refine h.short (.cons hcommand (.single hsent)) (by simp) (m := getLine "keygen.email")
      fun attempts => ?_
    exact ⟨Error.toBool_none, Error.code_none, 3, .none, (), .none, (), rfl, Error.toBool_none,
      by simp, rfl, Error.toBool_none⟩
  have hsent' := callback_userID (m := m) (p := getLine "keygen.email") (s := 2) (t := 3) rfl
    (by decide) rfl rfl hemail
  refine ⟨hname, hemail, ?_⟩
  refine h.short (.cons hcommand (.cons hsent (.single hsent'))) (by simp)
    (m := getLine "keygen.comment") fun attempts => ?_
  exact ⟨Error.toBool_none, Error.code_none, 4, .none, (), .none, (), rfl, Error.toBool_none,
    by simp, rfl, Error.toBool_none⟩

/-- A user ID whose parts are sent as one line each has no line feed. -/
theorem oneLine_userIDParts {m : GpgAddUserIDEditInteractor.UserIDParts}
    (h : SendsOneLineEach (gpgAddUserIDEditInteractor m) (start ())) :
    ∀ part ∈ [m.name, m.email, m.comment],
      (CString.cStr part).OneLine ∧ (CString.cStr part).Short := by
  obtain ⟨hname, hemail, hcomment⟩ := short_userIDParts h
  have hI := responsive_addUserID hname hemail hcomment
  have hspeaks := speaksDialogue_userID hname hemail hcomment
  have hline {p : Message} {r : CString} (hr : (p, r.line) ∈ userIDScript m) : r.OneLine :=
    h.oneLine_of_script hI hspeaks List.mem_cons_self (prompts_userIDScript m) hr
  intro part hpart
  simp only [List.mem_cons, List.not_mem_nil, or_false] at hpart
  rcases hpart with rfl | rfl | rfl
  · exact ⟨hline (p := getLine "keygen.name") (by simp [userIDScript]), hname⟩
  · exact ⟨hline (p := getLine "keygen.email") (by simp [userIDScript]), hemail⟩
  · exact ⟨hline (p := getLine "keygen.comment") (by simp [userIDScript]), hcomment⟩

/-- **What is configured reaches gpg as one line each, exactly if** it has no line feed, and less
than `2 ^ 31` bytes, before its first zero byte. -/
theorem sendsOneLineEach_iff :
    (∀ strtime, SendsOneLineEach (gpgSetExpiryTimeEditInteractor strtime) (start ()) ↔
      (CString.cStr strtime).OneLine ∧ (CString.cStr strtime).Short) ∧
    ∀ m, SendsOneLineEach (gpgAddUserIDEditInteractor m) (start ()) ↔
      ∀ part ∈ [m.name, m.email, m.comment],
        (CString.cStr part).OneLine ∧ (CString.cStr part).Short := by
  constructor
  · intro strtime
    refine ⟨oneLine_strtime, fun ⟨hline, hshort⟩ => ?_⟩
    exact (repliesOneLine_setExpiryTime hline hshort).sendsOneLineEach Error.wellFormed_none
  · intro m
    refine ⟨oneLine_userIDParts, fun h => ?_⟩
    obtain ⟨hname, hshort⟩ := h m.name (by simp)
    obtain ⟨hemail, hshort'⟩ := h m.email (by simp)
    obtain ⟨hcomment, hshort''⟩ := h m.comment (by simp)
    have hI := responsive_addUserID hshort hshort' hshort''
    exact (repliesOneLine_addUserID hI hname hemail hcomment).sendsOneLineEach
      Error.wellFormed_none

omit [LibGpgError] in
/-- The second line of a name answers the prompt for the email address. -/
theorem not_sendsOneLineEach_twoLines :
    letI := LibGpgError.documented
    ¬ ∀ m, SendsOneLineEach (gpgAddUserIDEditInteractor m) (start ()) := by
  let := LibGpgError.documented
  intro h
  exact absurd (oneLine_userIDParts (h ⟨ascii "a\nb", [], []⟩) _ List.mem_cons_self).1 (by decide)

end Gpgmepp.EditInteractor
