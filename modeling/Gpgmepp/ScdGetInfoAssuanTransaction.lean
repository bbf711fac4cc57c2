import Gpgmepp.CString
import Gpgmepp.Error
import Gpgmepp.Lib.Tokens

/-!
# `ScdGetInfoAssuanTransaction`

A `GETINFO` request to scdaemon.  The answer arrives in pieces of any size, which `data`
collects; the readers and the applications are listed in it, each followed by a newline.

`to_reader_list` splits the answer at its newlines with the option `token_compress_on`.  That
takes adjacent newlines together, but leaves an empty token behind the last: every list gets one
name too many, and so does the list without names.

## Main definitions

* `InfoItem`, `ScdGetInfoAssuanTransaction` — what is asked for, and what has come.
* `readerList`, `applicationList` — the lists.
* `receive` — the transaction after some pieces of data.
* `lists_never` — the lists are never those of scdaemon.
-/

namespace Gpgmepp

open Tokens

/-- What `GETINFO` is asked for. -/
inductive InfoItem
  | version | pid | socketName | status | readerList | denyAdmin | applicationList
  deriving DecidableEq

structure ScdGetInfoAssuanTransaction where
  item : InfoItem
  command : StdString
  data : StdString

namespace ScdGetInfoAssuanTransaction

/-- The constructor. -/
def new (item : InfoItem) : ScdGetInfoAssuanTransaction := ⟨item, [], []⟩

/-- `ScdGetInfoAssuanTransaction::data`. -/
def appendData (t : ScdGetInfoAssuanTransaction) (data : List UInt8) :
    Error × ScdGetInfoAssuanTransaction :=
  (.none, { t with data := t.data ++ data })

/-- The tokens of `scd_getinfo_tokens`. -/
def scdGetinfoTokens : InfoItem → StdString
  | .version => ascii "version"
  | .pid => ascii "pid"
  | .socketName => ascii "socket_name"
  | .status => ascii "status"
  | .readerList => ascii "reader_list"
  | .denyAdmin => ascii "deny_admin"
  | .applicationList => ascii "app_list"

/-- `ScdGetInfoAssuanTransaction::makeCommand`. -/
def makeCommand (t : ScdGetInfoAssuanTransaction) : ScdGetInfoAssuanTransaction :=
  { t with command := ascii "SCD GETINFO " ++ scdGetinfoTokens t.item }

variable [CompressingSplit UInt8]

/-- `to_reader_list`. -/
def toReaderList (s : StdString) : List StdString := CompressingSplit.split (· == newline) s

/-- `to_app_list`. -/
def toAppList (s : StdString) : List StdString := toReaderList s

/-- `ScdGetInfoAssuanTransaction::readerList`. -/
def readerList (t : ScdGetInfoAssuanTransaction) : List StdString :=
  if t.item = .readerList then toReaderList t.data else []

/-- `ScdGetInfoAssuanTransaction::applicationList`. -/
def applicationList (t : ScdGetInfoAssuanTransaction) : List StdString :=
  if t.item = .applicationList then toAppList t.data else []

/-! ## The lists -/

omit [CompressingSplit UInt8] in
/-- The transaction for an item when the pieces of the answer have arrived. -/
def receive (item : InfoItem) (pieces : List (List UInt8)) : ScdGetInfoAssuanTransaction :=
  pieces.foldl (fun t data => (t.appendData data).2) (new item).makeCommand

omit [CompressingSplit UInt8] in
/-- It does not matter how the answer is cut. -/
theorem receive_eq (item : InfoItem) (pieces : List (List UInt8)) :
    receive item pieces = { (new item).makeCommand with data := pieces.flatten } := by
  have hfold : ∀ t : ScdGetInfoAssuanTransaction,
      pieces.foldl (fun t data => (t.appendData data).2) t =
        { t with data := t.data ++ pieces.flatten } := by
    induction pieces with
    | nil => intro t; simp
    | cons data pieces ih =>
        intro t
        rw [List.foldl_cons, ih]
        simp [appendData]
  rw [receive, hfold]
  rfl

/-- The list of an answer has an empty name behind the others. -/
theorem toReaderList_terminated {names : List StdString}
    (hnames : ∀ n ∈ names, n ≠ [] ∧ newline ∉ n) :
    toReaderList (terminated newline names) = names ++ [[]] := by
  refine split_terminated (by simp) fun n hn => ⟨(hnames n hn).1, fun b hb => ?_⟩
  simp only [beq_eq_false_iff_ne, ne_eq]
  rintro rfl
  exact (hnames n hn).2 hb

/-- **No list is the one that scdaemon has sent**, whatever the names and however the answer is
cut: there is an empty name at its end. -/
theorem lists_never {names : List StdString} (hnames : ∀ n ∈ names, n ≠ [] ∧ newline ∉ n)
    {pieces : List (List UInt8)} (hpieces : pieces.flatten = terminated newline names) :
    ((receive .readerList pieces).readerList = names ++ [[]] ∧
        (receive .readerList pieces).readerList ≠ names) ∧
      (receive .applicationList pieces).applicationList = names ++ [[]] ∧
        (receive .applicationList pieces).applicationList ≠ names := by
  have hne : names ++ [[]] ≠ names := by simp
  have hreader : (receive .readerList pieces).readerList = names ++ [[]] := by
    rw [receive_eq, hpieces]
    exact toReaderList_terminated hnames
  have happlication : (receive .applicationList pieces).applicationList = names ++ [[]] := by
    rw [receive_eq, hpieces]
    exact toReaderList_terminated hnames
  exact ⟨⟨hreader, hreader ▸ hne⟩, happlication, happlication ▸ hne⟩

omit [CompressingSplit UInt8] in
/-- The names of two readers, in three pieces. -/
theorem lists_never_reader :
    letI := CompressingSplit.documented (α := UInt8)
    let pieces := [ascii "rea", ascii "der\nblue", ascii "tooth\n"]
    let names := [ascii "reader", ascii "bluetooth"]
    ((receive .readerList pieces).readerList = names ++ [[]] ∧
        (receive .readerList pieces).readerList ≠ names) ∧
      (receive .applicationList pieces).applicationList = names ++ [[]] ∧
        (receive .applicationList pieces).applicationList ≠ names := by
  let := CompressingSplit.documented (α := UInt8)
  exact lists_never (by decide) (by decide)

omit [CompressingSplit UInt8] in
/-- Without any name there is an empty one. -/
theorem not_lists_none :
    letI := CompressingSplit.documented (α := UInt8)
    ¬ ∀ (names : List StdString) (pieces : List (List UInt8)),
      (∀ n ∈ names, n ≠ [] ∧ newline ∉ n) → pieces.flatten = terminated newline names →
        (receive .readerList pieces).readerList = names := by
  let := CompressingSplit.documented (α := UInt8)
  intro h
  exact absurd (h [] [] (by simp) rfl) (by decide)

end ScdGetInfoAssuanTransaction

end Gpgmepp
