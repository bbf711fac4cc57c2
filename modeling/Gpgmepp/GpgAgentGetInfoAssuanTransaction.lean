import Gpgmepp.AssuanTransaction
import Gpgmepp.ScdGetInfoAssuanTransaction
import Gpgmepp.Lib.Decimal

/-!
# What `GETINFO` answers

A `GETINFO` transaction asks gpg-agent, or scdaemon, for one item, and collects the data that are
sent.  It has a function for each item, which returns what has come if it is the item that was asked
for.  A process ID is read from the text that it comes as.

What the functions return in the end depends on the data only: not on how they are cut, and not on
the inquiries and status lines in between.

## Main definitions

* `toPid` — the number of a process in a text.
* `GpgAgentGetInfoAssuanTransaction` — the request to gpg-agent, with its functions.
* `TakesData` — the transactions that collect the data, and do nothing else.
* `getInfo_answered` — what the functions return.
-/

namespace Gpgmepp

open StateMachine Decimal Tokens

/-- `to_pid`, with what the library makes of a text behind a minus sign. -/
def toPid (negative : StdString → Option UInt32) (s : StdString) : UInt32 :=
  (extractUnsigned negative s).getD 0

/-- The number of a process is read back from its digits, if it fits: behind white space, and in
front of anything but a digit. -/
theorem toPid_digits (negative : StdString → Option UInt32) {space rest : StdString}
    (hspace : ∀ b ∈ space, isSpace b = true) (n : ℕ)
    (hrest : ∀ b ∈ rest.head?, isDigit b = false) :
    toPid negative (space ++ (digits n ++ rest)) = if n < 2 ^ 32 then UInt32.ofNat n else 0 := by
  rw [toPid, extractUnsigned_digits negative hspace n hrest]
  split <;> rfl

/-! ## Transactions that collect data -/

/-- The transaction takes the data, and hands out nothing. -/
structure AssuanTransaction.TakesData {τ : Type} (T : AssuanTransaction τ)
    (append : τ → StdString → τ) : Prop where
  data : ∀ t d, T.data t d = (.none, append t d)
  inquire : ∀ t name args err, T.inquire t name args err = (none, err, t)
  status : ∀ t status args, T.status t status args = (.none, t)
  append_nil : ∀ t, append t [] = t
  append_append : ∀ t d d', append (append t d) d' = append t (d ++ d')

/-- After a run it has all data that were sent. -/
theorem AssuanTransaction.TakesData.run {τ : Type} {T : AssuanTransaction τ}
    {append : τ → StdString → τ} (h : T.TakesData append) {charSigned : Bool} {t t' : τ}
    {ts : List (Transition τ AssuanCall AssuanReply)}
    (hrun : Run (AssuanTransaction.deliver charSigned T) t ts t') :
    t' = append t (bytesSent (ts.map Transition.input)) ∧
      ∀ x ∈ ts, x.output = ⟨.none, none⟩ := by
  induction hrun with
  | nil t => exact ⟨(h.append_nil t).symm, by simp⟩
  | @cons t c r t₁ ts t' hstep _ ih =>
      obtain ⟨hend, hout⟩ := ih
      suffices hone : t₁ = append t (bytesSent [c]) ∧ r = ⟨.none, none⟩ by
        obtain ⟨rfl, rfl⟩ := hone
        refine ⟨?_, List.forall_mem_cons.mpr ⟨rfl, hout⟩⟩
        have hsplit : bytesSent (c :: ts.map Transition.input) =
            bytesSent [c] ++ bytesSent (ts.map Transition.input) := by
          cases c <;> simp [bytesSent]
        rw [hend, h.append_append, List.map_cons, hsplit]
      cases c with
      | data d =>
          simp only [AssuanTransaction.deliver, h.data] at hstep
          cases hstep
          exact ⟨by simp [bytesSent], rfl⟩
      | inquire request =>
          rcases request with _ | ⟨name, args⟩
          · cases hstep
            exact ⟨(h.append_nil t).symm, rfl⟩
          · simp only [AssuanTransaction.deliver, h.inquire] at hstep
            cases hstep
            exact ⟨(h.append_nil t).symm, rfl⟩
      | status status args =>
          simp only [AssuanTransaction.deliver, AssuanTransaction.statusCallback_eq,
            h.status] at hstep
          cases hstep
          exact ⟨(h.append_nil t).symm, rfl⟩

/-! ## gpg-agent -/

/-- `GpgAgentGetInfoAssuanTransaction::InfoItem`. -/
inductive AgentInfoItem | version | pid | socketName | sshSocketName | scdRunning
  deriving DecidableEq

structure GpgAgentGetInfoAssuanTransaction where
  item : AgentInfoItem
  command : StdString
  data : StdString

namespace GpgAgentGetInfoAssuanTransaction

/-- The constructor. -/
def new (item : AgentInfoItem) : GpgAgentGetInfoAssuanTransaction := ⟨item, [], []⟩

/-- The tokens of `gpgagent_getinfo_tokens`. -/
def gpgagentGetinfoTokens : AgentInfoItem → StdString
  | .version => ascii "version"
  | .pid => ascii "pid"
  | .socketName => ascii "socket_name"
  | .sshSocketName => ascii "ssh_socket_name"
  | .scdRunning => ascii "scd_running"

/-- `GpgAgentGetInfoAssuanTransaction::makeCommand`. -/
def makeCommand (t : GpgAgentGetInfoAssuanTransaction) : GpgAgentGetInfoAssuanTransaction :=
  { t with command := ascii "GETINFO " ++ gpgagentGetinfoTokens t.item }

/-- The virtual functions of the class. -/
def virtual : AssuanTransaction GpgAgentGetInfoAssuanTransaction where
  data t data := (.none, { t with data := t.data ++ data })
  inquire t _ _ err := (none, err, t)
  status t _ _ := (.none, t)

/-- `GpgAgentGetInfoAssuanTransaction::version`. -/
def version (t : GpgAgentGetInfoAssuanTransaction) : StdString :=
  if t.item = .version then t.data else []

/-- `GpgAgentGetInfoAssuanTransaction::pid`. -/
def pid (negative : StdString → Option UInt32) (t : GpgAgentGetInfoAssuanTransaction) : UInt32 :=
  if t.item = .pid then toPid negative t.data else 0

/-- `GpgAgentGetInfoAssuanTransaction::socketName`. -/
def socketName (t : GpgAgentGetInfoAssuanTransaction) : StdString :=
  if t.item = .socketName then t.data else []

/-- `GpgAgentGetInfoAssuanTransaction::sshSocketName`. -/
def sshSocketName (t : GpgAgentGetInfoAssuanTransaction) : StdString :=
  if t.item = .sshSocketName then t.data else []

theorem takesData_virtual : virtual.TakesData fun t d => { t with data := t.data ++ d } where
  data _ _ := rfl
  inquire _ _ _ _ := rfl
  status _ _ _ := rfl
  append_nil t := by simp
  append_append t d d' := by simp

end GpgAgentGetInfoAssuanTransaction

namespace ScdGetInfoAssuanTransaction

/-- The virtual functions of the class. -/
def virtual : AssuanTransaction ScdGetInfoAssuanTransaction where
  data t data := t.appendData data
  inquire t _ _ err := (none, err, t)
  status t _ _ := (.none, t)

/-- `ScdGetInfoAssuanTransaction::version`. -/
def version (t : ScdGetInfoAssuanTransaction) : StdString :=
  if t.item = .version then t.data else []

/-- `ScdGetInfoAssuanTransaction::pid`. -/
def pid (negative : StdString → Option UInt32) (t : ScdGetInfoAssuanTransaction) : UInt32 :=
  if t.item = .pid then toPid negative t.data else 0

/-- `ScdGetInfoAssuanTransaction::socketName`. -/
def socketName (t : ScdGetInfoAssuanTransaction) : StdString :=
  if t.item = .socketName then t.data else []

/-- `ScdGetInfoAssuanTransaction::status() const`: a character, or a zero byte. -/
def statusChar (t : ScdGetInfoAssuanTransaction) : UInt8 :=
  if t.item = .status then t.data.head?.getD 0 else 0

theorem takesData_virtual : virtual.TakesData fun t d => { t with data := t.data ++ d } where
  data _ _ := rfl
  inquire _ _ _ _ := rfl
  status _ _ _ := rfl
  append_nil t := by simp
  append_append t d d' := by simp

end ScdGetInfoAssuanTransaction

/-! ## The answers -/

/-- What the functions of a request to gpg-agent return when `sent` was sent. -/
structure GpgAgentGetInfoAssuanTransaction.Shows (negative : StdString → Option UInt32)
    (item : AgentInfoItem) (sent : StdString) (t : GpgAgentGetInfoAssuanTransaction) : Prop where
  command : t.command = ascii "GETINFO " ++ gpgagentGetinfoTokens item
  version : t.version = if item = .version then sent else []
  socketName : t.socketName = if item = .socketName then sent else []
  sshSocketName : t.sshSocketName = if item = .sshSocketName then sent else []
  pid : t.pid negative = if item = .pid then toPid negative sent else 0

/-- What the functions of a request to scdaemon return. -/
structure ScdGetInfoAssuanTransaction.Shows [CompressingSplit UInt8]
    (negative : StdString → Option UInt32) (item : InfoItem) (sent : StdString)
    (t : ScdGetInfoAssuanTransaction) : Prop where
  command : t.command = ascii "SCD GETINFO " ++ scdGetinfoTokens item
  version : t.version = if item = .version then sent else []
  socketName : t.socketName = if item = .socketName then sent else []
  status : t.statusChar = if item = .status then sent.head?.getD 0 else 0
  pid : t.pid negative = if item = .pid then toPid negative sent else 0
  readerList : t.readerList =
    if item = .readerList then CompressingSplit.split (· == newline) sent else []
  applicationList : t.applicationList =
    if item = .applicationList then CompressingSplit.split (· == newline) sent else []

section Answers
variable [CompressingSplit UInt8]

/-- **What is answered to `GETINFO`.**  Whatever comes in between, and however it is cut: a
transaction never returns an error or data to gpgme, and afterwards the function for the item that
was asked for returns what was sent, and the others return nothing.  Of a status that is the first
character; of a process ID the number that was sent in decimal, or zero if it does not fit; and of a
list its tokens, which are the names that were sent, and an empty one behind them. -/
theorem getInfo_answered (negative : StdString → Option UInt32) (charSigned : Bool)
    (calls : List AssuanCall) :
    (∀ item, ∃ ts t,
      Run (AssuanTransaction.deliver charSigned GpgAgentGetInfoAssuanTransaction.virtual)
        (GpgAgentGetInfoAssuanTransaction.new item).makeCommand ts t ∧
      ts.map Transition.input = calls ∧ (∀ x ∈ ts, x.output = ⟨.none, none⟩) ∧
      t.Shows negative item (bytesSent calls)) ∧
    (∀ item, ∃ ts t,
      Run (AssuanTransaction.deliver charSigned ScdGetInfoAssuanTransaction.virtual)
        (ScdGetInfoAssuanTransaction.new item).makeCommand ts t ∧
      ts.map Transition.input = calls ∧ (∀ x ∈ ts, x.output = ⟨.none, none⟩) ∧
      t.Shows negative item (bytesSent calls)) ∧
    (∀ space n rest, (∀ b ∈ space, isSpace b = true) → (∀ b ∈ rest.head?, isDigit b = false) →
      bytesSent calls = space ++ (digits n ++ rest) →
      toPid negative (bytesSent calls) = if n < 2 ^ 32 then UInt32.ofNat n else 0) ∧
    ∀ names : List StdString, (∀ n ∈ names, n ≠ [] ∧ newline ∉ n) →
      bytesSent calls = terminated newline names →
      CompressingSplit.split (· == newline) (bytesSent calls) = names ++ [[]] := by
  refine ⟨fun item => ?_, fun item => ?_, fun space n rest hspace hrest hsent => ?_,
    fun names hnames hsent => ?_⟩
  · obtain ⟨ts, t, hrun, hin⟩ := exists_run (AssuanTransaction.exists_deliver charSigned
      GpgAgentGetInfoAssuanTransaction.virtual) calls
      (GpgAgentGetInfoAssuanTransaction.new item).makeCommand
    obtain ⟨ht, hout⟩ := GpgAgentGetInfoAssuanTransaction.takesData_virtual.run hrun
    rw [hin] at ht
    refine ⟨ts, t, hrun, hin, hout, ?_⟩
    subst ht
    exact ⟨rfl, rfl, rfl, rfl, rfl⟩
  · obtain ⟨ts, t, hrun, hin⟩ := exists_run (AssuanTransaction.exists_deliver charSigned
      ScdGetInfoAssuanTransaction.virtual) calls
      (ScdGetInfoAssuanTransaction.new item).makeCommand
    obtain ⟨ht, hout⟩ := ScdGetInfoAssuanTransaction.takesData_virtual.run hrun
    rw [hin] at ht
    refine ⟨ts, t, hrun, hin, hout, ?_⟩
    subst ht
    exact ⟨rfl, rfl, rfl, rfl, rfl, rfl, rfl⟩
  · rw [hsent]
    exact toPid_digits negative hspace n hrest
  · rw [hsent]
    exact ScdGetInfoAssuanTransaction.toReaderList_terminated hnames

end Answers

/-- Two pieces of data, with a status line and an inquiry between them. -/
def inPieces (first second : String) : List AssuanCall :=
  [.data (ascii first), .status (.lit "PROGRESS") (.lit "x"),
    .inquire (some (.lit "NEEDPIN", .lit "")), .data (ascii second)]

/-- The process ID 1234 of gpg-agent, and the list of two readers of scdaemon. -/
theorem getInfo_answered_pieces :
    letI := CompressingSplit.documented (α := UInt8)
    (∃ ts t, Run (AssuanTransaction.deliver true GpgAgentGetInfoAssuanTransaction.virtual)
        (GpgAgentGetInfoAssuanTransaction.new .pid).makeCommand ts t ∧
      ts.map Transition.input = inPieces "12" "34\n" ∧
      t.pid (fun _ => none) = 1234 ∧ t.version = []) ∧
    ∃ ts t, Run (AssuanTransaction.deliver true ScdGetInfoAssuanTransaction.virtual)
        (ScdGetInfoAssuanTransaction.new .readerList).makeCommand ts t ∧
      ts.map Transition.input = inPieces "CCID" " 0\nCCID 1\n" ∧
      t.readerList = [ascii "CCID 0", ascii "CCID 1", []] ∧ t.applicationList = [] := by
  let := CompressingSplit.documented (α := UInt8)
  constructor
  · obtain ⟨hagent, -, hpid, -⟩ :=
      getInfo_answered (fun _ => none) true (inPieces "12" "34\n")
    obtain ⟨ts, t, hrun, hin, -, hshows⟩ := hagent .pid
    have hsent : bytesSent (inPieces "12" "34\n") = [] ++ (digits 1234 ++ [newline]) := rfl
    have hnumber := hpid [] 1234 [newline] (by simp) (by simp [newline, isDigit]) hsent
    rw [if_pos (by omega)] at hnumber
    exact ⟨ts, t, hrun, hin, hshows.pid.trans ((if_pos rfl).trans hnumber), hshows.version⟩
  · obtain ⟨-, hscd, -, hlist⟩ :=
      getInfo_answered (fun _ => none) true (inPieces "CCID" " 0\nCCID 1\n")
    obtain ⟨ts, t, hrun, hin, -, hshows⟩ := hscd .readerList
    have hnames := hlist [ascii "CCID 0", ascii "CCID 1"] (by decide) rfl
    exact ⟨ts, t, hrun, hin, hshows.readerList.trans ((if_pos rfl).trans hnames),
      hshows.applicationList⟩

end Gpgmepp
