import Gpgmepp.Data
import Gpgmepp.Features
import Gpgmepp.Lib.Owners
import Gpgmepp.Lib.Shared

/-!
# The lives of data

Copies of a `Data` share a `Data::Private`, and the last of them releases the data object of gpgme
that it has.  If this was made of a provider, gpgme has a pointer to the callbacks, which are a part
of the `Data::Private`, and one to the provider, which belongs to the program.

An operation that goes on uses data objects of gpgme, too, but keeps no `Data`.

## Main definitions

* `World` — the `Data` objects, the data objects of gpgme, the providers, and the operations.
* `call` — what gpgme does with a callback.
* `construct`, `ofProvider`, `drop` — the constructors and the destructor.
* `step` — a program and gpgme, as a machine.
* `Safe` — what gpgme may use is there.
* `Op.Endangers` — a step takes it away.
-/

namespace Gpgmepp.DataObjects

open Shared Owning StateMachine

/-- `Data`, with its shared pointer. -/
structure DataHandle where
  d : Option ℕ

instance : Owner DataHandle where
  ptr v := v.d
  withPtr _ p := ⟨p⟩
  ptr_withPtr _ _ := rfl

/-- What a data object of gpgme is made of. -/
inductive Material
  /-- Memory, a file, a stream or a descriptor. -/
  | storage
  /-- The callbacks of a `Data::Private`, and the provider that they are called with. -/
  | callbacks (cbs provider : ℕ)
  deriving DecidableEq

/-- Whether the callback for an operation is not null. -/
def has (cbs : DataCbs) : DataProvider.Operation → Bool
  | .read => cbs.read
  | .write => cbs.write
  | .seek => cbs.seek
  | .release => cbs.release

/-- `data_provider_callbacks`. -/
def dataProviderCallbacks : DataCbs := ⟨true, true, true, true⟩

/-- An operation that a provider was called for. -/
abbrev Called := ℕ × DataProvider.Operation

/-- The objects that there are. -/
structure World where
  /-- The `Data` objects.  The records are the `cbs` of each `Data::Private`. -/
  store : Store DataHandle DataCbs
  /-- The data objects of gpgme, each in the `data` of a `Data::Private`. -/
  gpgme : Owners ℕ Material
  /-- The providers, with the operations that they support. -/
  providers : ℕ → Option DataCbs
  /-- The provider that is made next. -/
  next : ℕ
  /-- What the operations that go on use, by their contexts. -/
  pending : ℕ → List ℕ

def start : World where
  store := ⟨[], fun _ => dataProviderCallbacks, 0⟩
  gpgme := .empty
  providers := fun _ => none
  next := 0
  pending := fun _ => []

/-- Why there is no step. -/
inductive Failure
  /-- Something is used that is gone. -/
  | dangling
  /-- A pointer is used that was never set. -/
  | indeterminate
  /-- There is no such object. -/
  | impossible
  deriving DecidableEq

/-- gpgme calls the provider of a data object, if there is one and the callback is not null. -/
def call (w : World) (g : ℕ) (op : DataProvider.Operation) : Except Failure (List Called) :=
  match w.gpgme.object g with
  | none => .error .dangling
  | some .storage => .ok []
  | some (.callbacks cbs provider) =>
      if w.store.useCount cbs = 0 then .error .dangling
      else if !has (w.store.record cbs) op then .ok []
      else
        match w.providers provider with
        | none => .error .dangling
        | some _ => .ok [(provider, op)]

/-- `d.reset(new Private(..))`, of a new `Data`. -/
def construct (w : World) (cbs : DataCbs) (data : Option Material) : World :=
  { w with
    store := (w.store.new cbs).push ⟨some w.store.next⟩
    gpgme :=
      match data with
      | none => w.gpgme
      | some m => w.gpgme.make w.store.next m }

/-- `~Data`, of an object that is not in the `store` any more.  The callbacks are still there when
`~Private` releases the data. -/
def drop (w : World) (store : Store DataHandle DataCbs) :
    Option ℕ → Except Failure (List Called × World)
  | none => .ok ([], { w with store := store })
  | some r =>
      if store.useCount r = 0 then
        match w.gpgme.held r with
        | none => .ok ([], { w with store := store })
        | some g =>
            match call w g .release with
            | .error f => .error f
            | .ok out => .ok (out, { w with store := store, gpgme := w.gpgme.reset r none })
      else .ok ([], { w with store := store })

section Functions
variable (found : Capability → Bool)

/-- `Data(DataProvider *)`, with what `gpgme_data_new_from_cbs` returns. -/
def ofProvider (w : World) (dp : Option ℕ) (e : UInt32) : Except Failure (List Called × World) :=
  match dp with
  | none => .ok ([], construct w dataProviderCallbacks none)
  | some p =>
      match w.providers p with
      | none => .error .impossible
      | some cbs =>
          let made := construct w cbs (if e = 0 then some (.callbacks w.store.next p) else none)
          if found .dataSetFlag && cbs.seek && e = 0 then
            match call made w.gpgme.next .seek with
            | .error f => .error f
            | .ok size =>
                match call made w.gpgme.next .seek with
                | .error f => .error f
                | .ok back => .ok (size ++ back, made)
          else .ok ([], made)

/-- `Data(const char *, size_t, bool)`, with what `gpgme_data_new_from_mem` returns.  The flag is
set before that is looked at. -/
def ofBuffer (w : World) (e : UInt32) : Except Failure (List Called × World) :=
  if found .dataSetFlag && e ≠ 0 then .error .indeterminate
  else .ok ([], construct w dataProviderCallbacks (if e = 0 then some .storage else none))

/-- `impl()->data`, of the object at a place. -/
def dataOf (w : World) (x : ℕ) : Option ℕ :=
  ((w.store.get x).bind DataHandle.d).bind w.gpgme.held

/-- What happens. -/
inductive Op
  /-- `Data(Data::null)`. -/
  | null
  /-- The other constructors for memory, files, streams and descriptors, with what gpgme returns;
  and `Data(gpgme_data_t)`, of data that nobody else has. -/
  | new (e : UInt32)
  | ofBuffer (e : UInt32)
  | ofProvider (dp : Option ℕ) (e : UInt32)
  | copy (x : ℕ)
  | assign (x y : ℕ)
  | swap (x y : ℕ)
  | destroy (x : ℕ)
  /-- `Data::read`, `Data::write` and `Data::seek`. -/
  | transfer (x : ℕ) (op : DataProvider.Operation)
  | newProvider (supported : DataCbs)
  | deleteProvider (p : ℕ)
  /-- A context starts an operation with the objects at these places. -/
  | startOperation (ctx : ℕ) (xs : List ℕ)
  /-- The operation uses its data. -/
  | operationUses (ctx g : ℕ) (op : DataProvider.Operation)
  | operationDone (ctx : ℕ)

/-- One step, and what providers are called for in it. -/
def step (w : World) : Op → Except Failure (List Called × World)
  | .null => .ok ([], construct w dataProviderCallbacks none)
  | .new e => .ok ([], construct w dataProviderCallbacks (if e = 0 then some .storage else none))
  | .ofBuffer e => ofBuffer found w e
  | .ofProvider dp e => ofProvider found w dp e
  | .copy x =>
      match w.store.get x with
      | none => .error .impossible
      | some v => .ok ([], { w with store := w.store.push v })
  | .assign x y =>
      match w.store.get x, w.store.get y with
      | some v, some u => drop w (w.store.put x u) v.d
      | _, _ => .error .impossible
  | .swap x y =>
      match w.store.get x, w.store.get y with
      | some v, some u => .ok ([], { w with store := (w.store.put x u).put y v })
      | _, _ => .error .impossible
  | .destroy x =>
      match w.store.get x with
      | none => .error .impossible
      | some v => drop w (w.store.destroy x) v.d
  | .transfer x op =>
      if op = .release then .error .impossible
      else
        match w.store.get x, dataOf w x with
        | none, _ => .error .impossible
        | some _, none => .ok ([], w)
        | some _, some g => (call w g op).map fun out => (out, w)
  | .newProvider supported =>
      .ok ([], { w with
        providers := Function.update w.providers w.next (some supported), next := w.next + 1 })
  | .deleteProvider p =>
      if (w.providers p).isNone then .error .impossible
      else .ok ([], { w with providers := Function.update w.providers p none })
  | .startOperation ctx xs =>
      .ok ([], { w with pending := Function.update w.pending ctx (xs.filterMap (dataOf w)) })
  | .operationUses ctx g op =>
      if op = .release ∨ g ∉ w.pending ctx then .error .impossible
      else (call w g op).map fun out => (out, w)
  | .operationDone ctx => .ok ([], { w with pending := Function.update w.pending ctx [] })

end Functions

/-- What gpgme may use is there. -/
structure Safe (w : World) : Prop where
  callbacks : ∀ g, (w.gpgme.object g).isSome → ∀ op, call w g op ≠ .error .dangling
  pending : ∀ ctx, ∀ g ∈ w.pending ctx, (w.gpgme.object g).isSome

/-- The object at a place is the last that has the data object of gpgme. -/
def LastWith (w : World) (x g : ℕ) : Prop :=
  ∃ v r, w.store.get x = some v ∧ v.d = some r ∧ w.store.useCount r = 1 ∧ w.gpgme.held r = some g

/-- The step takes away what gpgme may use: a provider of data that is still there, or the data of
an operation that goes on. -/
def Op.Endangers (w : World) : Op → Prop
  | .deleteProvider p => ∃ g cbs op, w.gpgme.object g = some (.callbacks cbs p) ∧
      has (w.store.record cbs) op = true
  | .destroy x => ∃ ctx g, g ∈ w.pending ctx ∧ LastWith w x g
  | .assign x y => ∃ ctx g, g ∈ w.pending ctx ∧ LastWith w x g ∧ dataOf w y ≠ some g
  | _ => False

/-- The step makes a data object of the provider, which is told of the end of it. -/
def Op.tells (w : World) (p : ℕ) : Op → Bool
  | .ofProvider dp e => dp = some p && e = 0 && (w.providers p).any DataCbs.release
  | _ => false

end Gpgmepp.DataObjects
