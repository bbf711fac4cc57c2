import Gpgmepp.Lib.Run
import Gpgmepp.PercentUnescape
import Gpgmepp.Error

/-!
# Assuan transactions

While gpgme talks to an Assuan server it hands on what the server sends to an
`AssuanTransaction`: pieces of data, inquiries, and status lines.  The arguments of a status line
are percent-escaped on the wire; the callback decodes them, and passes them on as a C string.

`DefaultAssuanTransaction` keeps everything.  What it has in the end is what the server sent, with
one exception: the arguments of a status line end at their first zero byte.

## Main definitions

* `AssuanTransaction`, `AssuanCall` — a subclass, and the callbacks of gpgme.
* `deliver` — one callback.
* `DefaultAssuanTransaction` — the class of the sources.
* `StatusesSent`, `bytesSent` — what a server sends by way of some callbacks.
* `DefaultAssuanTransaction.collects` — what the transaction has after them.
-/

namespace Gpgmepp

open StateMachine PercentUnescape

/-- The virtual functions of a subclass of `AssuanTransaction` with the data `τ`.  Of the `Data`
object that `inquire` returns there is only which one it is; `none` is `Data::null`. -/
structure AssuanTransaction (τ : Type) where
  data : τ → List UInt8 → Error × τ
  /-- `inquire(name, args, err)`, with what `err` is before. -/
  inquire : τ → CString → CString → Error → Option ℕ × Error × τ
  status : τ → CString → CString → Error × τ

/-- A callback of gpgme.  An inquiry without a name ends the one before. -/
inductive AssuanCall
  | data (data : List UInt8)
  | inquire (request : Option (CString × CString))
  | status (status args : CString)

/-- What a callback returns, and the data that it hands out. -/
structure AssuanReply where
  err : Error
  rData : Option ℕ
  deriving DecidableEq

namespace AssuanTransaction

variable {τ : Type}

/-- `assuan_transaction_status_callback`, on a platform where `char` is signed or not. -/
def statusCallback (charSigned : Bool) (T : AssuanTransaction τ) (t : τ) (status args : CString) :
    Except Stuck (Error × τ) :=
  match percentUnescape charSigned true args.bytes with
  | .error f => .error f
  | .ok a => .ok (T.status t status (CString.cStr a))

/-- A callback, as far as the transaction goes. -/
def deliver (charSigned : Bool) (T : AssuanTransaction τ) (t : τ) :
    AssuanCall → Except Stuck (AssuanReply × τ)
  | .data data => .ok (⟨(T.data t data).1, none⟩, (T.data t data).2)
  | .inquire none => .ok (⟨.none, none⟩, t)
  | .inquire (some (name, args)) =>
      let (rData, err, t) := T.inquire t name args .none
      .ok (⟨err, rData⟩, t)
  | .status status args =>
      match statusCallback charSigned T t status args with
      | .error f => .error f
      | .ok (err, t) => .ok (⟨err, none⟩, t)

/-- `percent_unescape` gives every string a value. -/
theorem percentUnescape_eq_decode (charSigned : Bool) (s : StdString) :
    percentUnescape charSigned true s = .ok (decode charSigned true s) := by
  obtain ⟨c, hloop, h, hend, hwritten⟩ := loop_spec charSigned true s.length
    (inOrder_begin s) (by simp [PercentUnescape.begin, InPlace.Cursors.unread])
  have hresult : c.buffer.take c.dest = decode charSigned true s := by
    simpa [PercentUnescape.begin, InPlace.Cursors.written, InPlace.Cursors.unread] using hwritten
  simp only [percentUnescape, hloop, hresult]

theorem statusCallback_eq (charSigned : Bool) (T : AssuanTransaction τ) (t : τ)
    (status args : CString) :
    statusCallback charSigned T t status args =
      .ok (T.status t status (CString.cStr (decode charSigned true args.bytes))) := by
  rw [statusCallback, percentUnescape_eq_decode]

/-- No callback of gpgme fails. -/
theorem exists_deliver (charSigned : Bool) (T : AssuanTransaction τ) (t : τ) (c : AssuanCall) :
    ∃ r t', deliver charSigned T t c = .ok (r, t') := by
  cases c with
  | data data => exact ⟨_, _, rfl⟩
  | inquire request =>
      cases request with
      | none => exact ⟨_, _, rfl⟩
      | some request => exact ⟨_, _, rfl⟩
  | status status args => exact ⟨_, _, by rw [deliver, statusCallback_eq]⟩

end AssuanTransaction

/-! ## What a server sends -/

/-- The data, in whatever pieces. -/
def bytesSent : List AssuanCall → StdString
  | [] => []
  | .data data :: calls => data ++ bytesSent calls
  | _ :: calls => bytesSent calls

/-- The calls hand on status lines with these keywords and texts, in some encoding, and other
things in between. -/
inductive StatusesSent : List (CString × StdString) → List AssuanCall → Prop
  | nil : StatusesSent [] []
  | data {lines : List (CString × StdString)} {calls : List AssuanCall} (data : List UInt8)
      (h : StatusesSent lines calls) : StatusesSent lines (.data data :: calls)
  | inquire {lines : List (CString × StdString)} {calls : List AssuanCall}
      (request : Option (CString × CString)) (h : StatusesSent lines calls) :
      StatusesSent lines (.inquire request :: calls)
  | status {lines : List (CString × StdString)} {calls : List AssuanCall} {keyword args : CString}
      {text : StdString} (henc : Encodes true text args.bytes) (h : StatusesSent lines calls) :
      StatusesSent ((keyword, text) :: lines) (.status keyword args :: calls)

/-- The texts of the status lines with a keyword. -/
def textsOf (tag : CString) (lines : List (CString × StdString)) : List StdString :=
  (lines.filter (·.1 = tag)).map Prod.snd

/-! ## The default -/

/-- `DefaultAssuanTransaction`: its members `m_status` and `m_data`. -/
structure DefaultAssuanTransaction where
  status : List (StdString × StdString)
  data : StdString
  deriving DecidableEq

namespace DefaultAssuanTransaction

/-- The constructor. -/
def new : DefaultAssuanTransaction := ⟨[], []⟩

/-- The virtual functions of the class. -/
def virtual : AssuanTransaction DefaultAssuanTransaction where
  data t data := (.none, { t with data := t.data ++ data })
  inquire t _ _ err := (none, err, t)
  status t status args := (.none, { t with status := t.status ++ [(status.bytes, args.bytes)] })

/-- `DefaultAssuanTransaction::statusLine`. -/
def statusLine (t : DefaultAssuanTransaction) (tag : CString) : List StdString :=
  (t.status.filter (·.1 = tag.bytes)).map Prod.snd

/-- `DefaultAssuanTransaction::firstStatusLine`. -/
def firstStatusLine (t : DefaultAssuanTransaction) (tag : CString) : StdString :=
  match t.status.find? (·.1 = tag.bytes) with
  | some line => line.2
  | none => []

variable {charSigned : Bool}

/-- A completed callback. -/
abbrev Delivered := Transition DefaultAssuanTransaction AssuanCall AssuanReply

/-- A status line as it is kept: its text ends at the first zero byte. -/
def kept (line : CString × StdString) : StdString × StdString :=
  (line.1.bytes, (CString.cStr line.2).bytes)

/-- One callback adds to the transaction what was sent with it, and returns nothing. -/
theorem run_collects {t t' : DefaultAssuanTransaction} {lines : List (CString × StdString)}
    {ts : List Delivered} (h : Run (AssuanTransaction.deliver charSigned virtual) t ts t')
    (hsent : StatusesSent lines (ts.map Transition.input)) :
    t'.data = t.data ++ bytesSent (ts.map Transition.input) ∧
      t'.status = t.status ++ lines.map kept ∧ ∀ x ∈ ts, x.output = ⟨.none, none⟩ := by
  induction h generalizing lines with
  | nil t =>
      cases hsent
      simp [bytesSent]
  | @cons t c r t₁ ts t' hstep hrun ih =>
      simp only [List.map_cons] at hsent
      cases hsent with
      | data data hsent =>
          obtain ⟨rfl, rfl⟩ := Prod.mk.inj (Except.ok.inj hstep)
          obtain ⟨hdata, hstatus, hout⟩ := ih hsent
          refine ⟨?_, hstatus, List.forall_mem_cons.mpr ⟨rfl, hout⟩⟩
          rw [hdata, List.map_cons, bytesSent]
          exact List.append_assoc _ _ _
      | inquire request hsent =>
          have hsame : r = ⟨.none, none⟩ ∧ t = t₁ := by
            rcases request with _ | ⟨name, args⟩
            · obtain ⟨rfl, rfl⟩ := Prod.mk.inj (Except.ok.inj hstep)
              exact ⟨rfl, rfl⟩
            · obtain ⟨rfl, rfl⟩ := Prod.mk.inj (Except.ok.inj hstep)
              exact ⟨rfl, rfl⟩
          obtain ⟨rfl, rfl⟩ := hsame
          obtain ⟨hdata, hstatus, hout⟩ := ih hsent
          exact ⟨hdata, hstatus, List.forall_mem_cons.mpr ⟨rfl, hout⟩⟩
      | @status lines calls keyword args text henc hsent =>
          rw [AssuanTransaction.deliver, AssuanTransaction.statusCallback_eq,
            decode_of_encodes charSigned henc] at hstep
          obtain ⟨rfl, rfl⟩ := Prod.mk.inj (Except.ok.inj hstep)
          obtain ⟨hdata, hstatus, hout⟩ := ih hsent
          refine ⟨hdata, ?_, List.forall_mem_cons.mpr ⟨rfl, hout⟩⟩
          rw [hstatus]
          simp [virtual, kept]

theorem statusLine_eq {t : DefaultAssuanTransaction} {lines : List (CString × StdString)}
    (h : t.status = lines.map kept) (tag : CString) :
    t.statusLine tag = (textsOf tag lines).map fun text => (CString.cStr text).bytes := by
  have htag : ((fun line : StdString × StdString => decide (line.1 = tag.bytes)) ∘ kept) =
      fun line => decide (line.1 = tag) := by
    funext line
    simp [kept, CString.bytes_inj]
  rw [statusLine, h, textsOf, List.filter_map, List.map_map, List.map_map, htag]
  rfl

theorem firstStatusLine_eq (t : DefaultAssuanTransaction) (tag : CString) :
    t.firstStatusLine tag = (t.statusLine tag).head?.getD [] := by
  rw [firstStatusLine, statusLine, List.head?_map, List.head?_filter]
  cases t.status.find? (·.1 = tag.bytes) <;> rfl

/-- **What a transaction has collected** in the end, whatever came in between and however it was
cut and encoded: all data in order, and of each keyword the texts in order, each up to its first
zero byte.  So the texts are those that were sent exactly if none has a zero byte.  No callback
returns an error, or hands out data. -/
theorem collects (charSigned : Bool) {t : DefaultAssuanTransaction}
    {lines : List (CString × StdString)}
    {ts : List Delivered} (h : Run (AssuanTransaction.deliver charSigned virtual) new ts t)
    (hsent : StatusesSent lines (ts.map Transition.input)) :
    t.data = bytesSent (ts.map Transition.input) ∧
      (∀ tag, t.statusLine tag = (textsOf tag lines).map fun text => (CString.cStr text).bytes) ∧
      (∀ tag, t.firstStatusLine tag = (t.statusLine tag).head?.getD []) ∧
      ((∀ tag, t.statusLine tag = textsOf tag lines) ↔ ∀ line ∈ lines, 0 ∉ line.2) ∧
      ∀ x ∈ ts, x.output = ⟨.none, none⟩ := by
  obtain ⟨hdata, hstatus, hout⟩ := run_collects h hsent
  have hkept : t.status = lines.map kept := by simpa [new] using hstatus
  have hlines := statusLine_eq hkept
  refine ⟨by simpa [new] using hdata, hlines, firstStatusLine_eq t, ?_, hout⟩
  simp only [hlines]
  constructor
  · intro hall line hline
    have hsame := hall line.1
    have hmem : line.2 ∈ textsOf line.1 lines :=
      List.mem_map.mpr ⟨line, List.mem_filter.mpr ⟨hline, by simp⟩, rfl⟩
    have hid : ∀ text ∈ textsOf line.1 lines, (CString.cStr text).bytes = text :=
      List.map_inj_left.mp (hsame.trans (List.map_id _).symm)
    exact CString.bytes_cStr_iff.mp (hid _ hmem)
  · intro hno tag
    refine (List.map_inj_left.mpr fun text htext => ?_).trans (List.map_id _)
    obtain ⟨line, hline, rfl⟩ := List.mem_map.mp htext
    exact CString.bytes_cStr_iff.mpr (hno line (List.mem_filter.mp hline).1)

/-- Data in two pieces, and a status line between them with an escaped zero byte. -/
def interleaved : List AssuanCall :=
  [.data (ascii "ab"), .status (.lit "SERIALNO") (.lit "D2%00x"), .data (ascii "c")]

theorem statusesSent_interleaved :
    StatusesSent [(.lit "SERIALNO", ascii "D2" ++ [0] ++ ascii "x")] interleaved := by
  have henc : Encodes true (ascii "D2" ++ [0] ++ ascii "x") (CString.lit "D2%00x").bytes := by
    apply Encodes.literal (by decide) (by decide)
    apply Encodes.literal (by decide) (by decide)
    exact .escape (show hexValue 0x30 = some 0 from rfl) (show hexValue 0x30 = some 0 from rfl) rfl
      (.literal (by decide) (by decide) .nil)
  exact .data _ (.status henc (.data _ .nil))

theorem collects_interleaved :
    ∃ (ts : List Delivered) (t : DefaultAssuanTransaction),
      ts.map Transition.input = interleaved ∧
      t.data = bytesSent (ts.map Transition.input) ∧
      (∀ tag, t.statusLine tag =
        (textsOf tag [(.lit "SERIALNO", ascii "D2" ++ [0] ++ ascii "x")]).map
          fun text => (CString.cStr text).bytes) ∧
      (∀ tag, t.firstStatusLine tag = (t.statusLine tag).head?.getD []) ∧
      ((∀ tag, t.statusLine tag =
          textsOf tag [(.lit "SERIALNO", ascii "D2" ++ [0] ++ ascii "x")]) ↔
        ∀ line ∈ [(CString.lit "SERIALNO", ascii "D2" ++ [0] ++ ascii "x")], 0 ∉ line.2) ∧
      ∀ x ∈ ts, x.output = ⟨.none, none⟩ := by
  obtain ⟨ts, t, hrun, hin⟩ :=
    exists_run (AssuanTransaction.exists_deliver true virtual) interleaved new
  exact ⟨ts, t, hin, collects true hrun (hin ▸ statusesSent_interleaved)⟩

end DefaultAssuanTransaction

end Gpgmepp
