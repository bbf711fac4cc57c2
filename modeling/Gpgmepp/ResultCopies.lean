import Gpgmepp.Error
import Gpgmepp.CString
import Gpgmepp.Lib.Memory
import Gpgmepp.Lib.Run
import Gpgmepp.Lib.Shared

/-!
# The results of operations

The result of an operation belongs to gpgme, which frees it with the next operation, or with the
context.  The result classes copy it: structure by structure, and every string by `strdup`.  The
copy belongs to the objects that refer to it, the result and those for its parts, and goes with the
last of them.  The classes differ in what the structures have in them, and in whether a null pointer
is tested for before it is copied.

`World` is gpgme's result, the copies, and the strings of both.  `Abstract` is the same with values
instead of pointers, so that an object is what gpgme had when it was made, but for the strings for
which `strdup` had no memory.

## Main definitions

* `Entry`, `Contents` — the structures of a result, with strings or with pointers to them.
* `Contents.traverse`, `copyString`, `keepString` — the loops of the constructors, with pointers
  and with values.
* `World`, `Op`, `step` — the copies of a program, and what it does with them.
* `Abstract`, `Abstract.step` — what they are for.
-/

namespace Gpgmepp.ResultCopies

open Blocks Shared StateMachine

/-- A structure of gpgme: its strings, and the rest. -/
structure Entry (σ S : Type) where
  data : σ
  strings : List S

/-- A result: the structure itself, and up to two lists that hang on it. -/
structure Contents (κ σ σ' S : Type) where
  res : Entry κ S
  first : List (Entry σ S)
  second : List (Entry σ' S)

/-- What an object is about: a result, or a member of one of its lists. -/
inductive Part
  | res
  | first (idx : ℕ)
  | second (idx : ℕ)
  deriving DecidableEq

/-- The data of one structure. -/
inductive Data (κ σ σ' : Type)
  | res (data : κ)
  | first (data : σ)
  | second (data : σ')

section Traversal
variable {κ σ σ' S S' M : Type}

namespace Entry

/-- The strings are replaced, from the first to the last. -/
def traverse (f : S → M → Except Blocks.Fault (S' × M)) (e : Entry σ S) (m : M) :
    Except Blocks.Fault (Entry σ S' × M) :=
  match mapAll f e.strings m with
  | .error f => .error f
  | .ok (strings, m) => .ok (⟨e.data, strings⟩, m)

/-- Two structures with the same data, and strings that correspond. -/
structure Rel (R : S → S' → Prop) (e : Entry σ S) (e' : Entry σ S') : Prop where
  data : e.data = e'.data
  strings : List.Forall₂ R e.strings e'.strings

end Entry

namespace Contents

/-- All strings of a result. -/
def strings (c : Contents κ σ σ' S) : List S :=
  c.res.strings ++ c.first.flatMap Entry.strings ++ c.second.flatMap Entry.strings

/-- The structures are gone through in order. -/
def traverse (f : S → M → Except Blocks.Fault (S' × M)) (c : Contents κ σ σ' S) (m : M) :
    Except Blocks.Fault (Contents κ σ σ' S' × M) :=
  match c.res.traverse f m with
  | .error f => .error f
  | .ok (res, m) =>
      match mapAll (Entry.traverse f) c.first m with
      | .error f => .error f
      | .ok (first, m) =>
          match mapAll (Entry.traverse f) c.second m with
          | .error f => .error f
          | .ok (second, m) => .ok (⟨res, first, second⟩, m)

/-- The strings of a part, unless there is no such part. -/
def stringsOf (c : Contents κ σ σ' S) : Part → Option (List S)
  | .res => some c.res.strings
  | .first idx => c.first[idx]?.map Entry.strings
  | .second idx => c.second[idx]?.map Entry.strings

/-- The data of a part. -/
def dataOf (c : Contents κ σ σ' S) : Part → Option (Data κ σ σ')
  | .res => some (.res c.res.data)
  | .first idx => c.first[idx]?.map fun e => .first e.data
  | .second idx => c.second[idx]?.map fun e => .second e.data

/-- Two results with the same data, and strings that correspond. -/
structure Rel (R : S → S' → Prop) (c : Contents κ σ σ' S) (c' : Contents κ σ σ' S') : Prop where
  res : c.res.Rel R c'.res
  first : List.Forall₂ (Entry.Rel R) c.first c'.first
  second : List.Forall₂ (Entry.Rel R) c.second c'.second

end Contents

end Traversal

/-! ## Strings -/

/-- gpgme makes a string of its own. -/
def makeString (s : Option CString) (m : Memory CString) :
    Except Blocks.Fault (Option ℕ × Memory CString) :=
  match s with
  | none => .ok (none, m)
  | some s => .ok (some m.next, m.place s)

/-- `copy->fpr = strdup(ik->fpr)`, after a test of the pointer or without one. -/
def copyString (tested : Bool) (p : Option ℕ) (m : Memory CString) :
    Except Blocks.Fault (Option ℕ × Memory CString) :=
  match p with
  | none => if tested then .ok (none, m) else .error .nullPointer
  | some p => m.duplicate p

/-- The same, of the string itself: without a test there must be one, and without memory it is
lost. -/
def keepString (tested : Bool) (s : Option CString) (room : ℕ → Bool) :
    Except Blocks.Fault (Option CString × (ℕ → Bool)) :=
  match s with
  | none => if tested then .ok (none, room) else .error .nullPointer
  | some s => .ok (if room 0 then some s else none, fun n => room (n + 1))

/-! ## The copies of a program -/

/-- An object: its error, what it is about, and the copy that it refers to. -/
structure Object where
  error : Error
  part : Part
  d : Option ℕ
  deriving DecidableEq

instance : Owner Object where
  ptr v := v.d
  withPtr v p := { v with d := p }
  ptr_withPtr _ _ := rfl

/-- The result that gpgme has now, the copies, and the strings. -/
structure World (κ σ σ' : Type) where
  memory : Memory CString
  current : Option (Contents κ σ σ' (Option ℕ))
  store : Store Object (Contents κ σ σ' (Option ℕ))

/-- What happens. -/
inductive Op (κ σ σ' : Type)
  /-- gpgme carries out an operation, with a result of the kind or without, or the context is
  released. -/
  | operation (res : Option (Contents κ σ σ' (Option CString)))
  /-- The constructor that is given the context. -/
  | ofContext (error : Error)
  /-- The constructor that is given an error, or nothing. -/
  | ofError (error : Error)
  | copy (x : ℕ)
  | assign (x y : ℕ)
  | destroy (x : ℕ)
  /-- The object for a part of the result. -/
  | child (x : ℕ) (part : Part)
  -- the accessors: strings by their places in the structure
  | string (x k : ℕ)
  | data (x : ℕ)
  | counts (x : ℕ)
  | error (x : ℕ)

/-- What an accessor returns. -/
inductive Output (κ σ σ' : Type)
  | done
  | string (s : Option CString)
  | data (data : Option (Data κ σ σ'))
  | counts (first second : ℕ)
  | error (error : Error)

/-- Why there is no step. -/
inductive Failure
  | fault (f : Blocks.Fault)
  /-- There is no such object. -/
  | noObject

section Machine
variable {κ σ σ' : Type}

/-- The strings of a result are freed. -/
def freeStrings (c : Contents κ σ σ' (Option ℕ)) (m : Memory CString) :
    Except Blocks.Fault (Memory CString) :=
  Memory.freeAll c.strings m

/-- gpgme frees its result and has another one. -/
def operation (w : World κ σ σ') (res : Option (Contents κ σ σ' (Option CString))) :
    Except Blocks.Fault (World κ σ σ') :=
  match w.current.elim (.ok w.memory) fun c => freeStrings c w.memory with
  | .error f => .error f
  | .ok m =>
      match res with
      | none => .ok { w with memory := m, current := none }
      | some c =>
          match c.traverse makeString m with
          | .error f => .error f
          | .ok (c, m) => .ok { w with memory := m, current := some c }

/-- The constructor that is given the context: `init`, and the constructor of `Private`. -/
def ofContext (tested : Bool) (w : World κ σ σ') (error : Error) :
    Except Blocks.Fault (World κ σ σ') :=
  match w.current with
  | none => .ok { w with store := w.store.push ⟨error, .res, none⟩ }
  | some c =>
      match c.traverse (copyString tested) w.memory with
      | .error f => .error f
      | .ok (c, m) =>
          .ok
            { w with
              memory := m
              store := (w.store.new c).push ⟨error, .res, some w.store.next⟩ }

/-- `~Private`, if an object was the last that referred to a copy. -/
def release (w : World κ σ σ') (store : Store Object (Contents κ σ σ' (Option ℕ)))
    (d : Option ℕ) : Except Blocks.Fault (World κ σ σ') :=
  match d with
  | none => .ok { w with store := store }
  | some r =>
      if store.useCount r = 0 then
        match freeStrings (store.record r) w.memory with
        | .error f => .error f
        | .ok m => .ok { w with memory := m, store := store }
      else .ok { w with store := store }

/-- A string of the part that an object is about; null if there is none. -/
def string (w : World κ σ σ') (v : Object) (k : ℕ) : Except Blocks.Fault (Option CString) :=
  match v.d.bind fun r => (w.store.record r).stringsOf v.part with
  | none => .ok none
  | some strings =>
      match strings[k]?.join with
      | none => .ok none
      | some p =>
          match w.memory.block p with
          | none => .error .dangling
          | some s => .ok (some s)

/-- The data of the part; null if there is none. -/
def data (w : World κ σ σ') (v : Object) : Option (Data κ σ σ') :=
  v.d.bind fun r => (w.store.record r).dataOf v.part

/-- The lengths of the lists. -/
def counts (w : World κ σ σ') (v : Object) : Output κ σ σ' :=
  match v.d with
  | none => .counts 0 0
  | some r => .counts (w.store.record r).first.length (w.store.record r).second.length

/-- A step that returns nothing. -/
def finished (r : Except Blocks.Fault (World κ σ σ')) :
    Except Failure (Output κ σ σ' × World κ σ σ') :=
  match r with
  | .error f => .error (.fault f)
  | .ok w => .ok (.done, w)

/-- One step. -/
def step (tested : Bool) (w : World κ σ σ') :
    Op κ σ σ' → Except Failure (Output κ σ σ' × World κ σ σ')
  | .operation res => finished (operation w res)
  | .ofContext error => finished (ofContext tested w error)
  | .ofError error => .ok (.done, { w with store := w.store.push ⟨error, .res, none⟩ })
  | .copy x =>
      match w.store.get x with
      | none => .error .noObject
      | some v => .ok (.done, { w with store := w.store.push v })
  | .assign x y =>
      match w.store.get x, w.store.get y with
      | some v, some u => finished (release w (w.store.put x u) v.d)
      | _, _ => .error .noObject
  | .destroy x =>
      match w.store.get x with
      | none => .error .noObject
      | some v => finished (release w (w.store.destroy x) v.d)
  | .child x part =>
      match w.store.get x with
      | none => .error .noObject
      | some v => .ok (.done, { w with store := w.store.push ⟨.none, part, v.d⟩ })
  | .string x k =>
      match w.store.get x with
      | none => .error .noObject
      | some v =>
          match string w v k with
          | .error f => .error (.fault f)
          | .ok s => .ok (.string s, w)
  | .data x =>
      match w.store.get x with
      | none => .error .noObject
      | some v => .ok (.data (data w v), w)
  | .counts x =>
      match w.store.get x with
      | none => .error .noObject
      | some v => .ok (counts w v, w)
  | .error x =>
      match w.store.get x with
      | none => .error .noObject
      | some v => .ok (.error v.error, w)

/-- Nothing was done yet. -/
def start [Inhabited κ] (room : ℕ → Bool) : World κ σ σ' where
  memory := .empty room
  current := none
  store := ⟨[], fun _ => ⟨⟨default, []⟩, [], []⟩, 0⟩

end Machine

/-! ## What the objects are for -/

/-- An object with a value of its own. -/
structure Snapshot (κ σ σ' : Type) where
  error : Error
  part : Part
  contents : Option (Contents κ σ σ' (Option CString))

/-- The result that gpgme has now, the objects, and the answers to the requests for memory to
come. -/
structure Abstract (κ σ σ' : Type) where
  current : Option (Contents κ σ σ' (Option CString))
  objects : List (Option (Snapshot κ σ σ'))
  room : ℕ → Bool

namespace Abstract

variable {κ σ σ' : Type}

/-- The object at a place. -/
def get (a : Abstract κ σ σ') (x : ℕ) : Option (Snapshot κ σ σ') := a.objects[x]?.join

/-- There is another object. -/
def push (a : Abstract κ σ σ') (v : Snapshot κ σ σ') : Abstract κ σ σ' :=
  { a with objects := a.objects ++ [some v] }

/-- What an accessor returns of an object. -/
def query (v : Snapshot κ σ σ') : Op κ σ σ' → Output κ σ σ'
  | .string _ k => .string ((v.contents.bind fun c => c.stringsOf v.part).bind fun l => l[k]?.join)
  | .data _ => .data (v.contents.bind fun c => c.dataOf v.part)
  | .counts _ =>
      match v.contents with
      | none => .counts 0 0
      | some c => .counts c.first.length c.second.length
  | .error _ => .error v.error
  | _ => .done

/-- One step: gpgme's result is replaced, an object is a copy of it as it is now, and the accessors
read the objects. -/
def step (tested : Bool) (a : Abstract κ σ σ') (i : Op κ σ σ') :
    Except Failure (Output κ σ σ' × Abstract κ σ σ') :=
  match i with
  | .operation res => .ok (.done, { a with current := res })
  | .ofContext error =>
      match a.current with
      | none => .ok (.done, a.push ⟨error, .res, none⟩)
      | some c =>
          match c.traverse (keepString tested) a.room with
          | .error f => .error (.fault f)
          | .ok (c, room) => .ok (.done, { a with room := room }.push ⟨error, .res, some c⟩)
  | .ofError error => .ok (.done, a.push ⟨error, .res, none⟩)
  | .copy x =>
      match a.get x with
      | none => .error .noObject
      | some v => .ok (.done, a.push v)
  | .assign x y =>
      match a.get x, a.get y with
      | some _, some u => .ok (.done, { a with objects := a.objects.set x (some u) })
      | _, _ => .error .noObject
  | .destroy x =>
      match a.get x with
      | none => .error .noObject
      | some _ => .ok (.done, { a with objects := a.objects.set x none })
  | .child x part =>
      match a.get x with
      | none => .error .noObject
      | some v => .ok (.done, a.push ⟨.none, part, v.contents⟩)
  | .string x _ | .data x | .counts x | .error x =>
      match a.get x with
      | none => .error .noObject
      | some v => .ok (query v i, a)

/-- Nothing was done yet. -/
def start (room : ℕ → Bool) : Abstract κ σ σ' := ⟨none, [], room⟩

end Abstract

end Gpgmepp.ResultCopies
