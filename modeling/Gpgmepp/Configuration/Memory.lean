import Gpgmepp.Configuration.Allocation
import Gpgmepp.Lib.Places

/-!
# The memory of arguments

An `Argument` has a pointer to a list of nodes of its own, which it makes, copies and releases.
The lists of an option record are gpgme's; those that the sources pass to `gpgme_conf_opt_change`
are gpgme's from then on.

Here are the programs of `Configuration.step` with pointers in the place of lists.  The state of
such a program has no list in it.  What a member function returns is read from the nodes in memory,
and the use of an address at which there is no node is a fault.

## Main definitions

* `World.bare` — what there is of a world without lists and arguments.
* `Field` — the lists of an option record.
* `ArgumentAt`, `Memory`, `Program` — arguments, the nodes in memory and the pointers to them.
* `Getter.runAt`, `Factory.runAt`, `Accessor.runAt` — the member functions, with memory.
* `Program.step` — one operation.
-/

namespace Gpgmepp.Configuration

open LinkedList

/-! ## What is not in memory -/

/-- A record without its lists. -/
def OptRecord.bare (rec : OptRecord) : OptRecord :=
  { rec with defaultValue := [], noArgValue := [], value := [], newValue := [] }

/-- The components and options of a world, without lists, and without arguments. -/
def World.bare (w : World) : World where
  comps c := { w.comps c with options := (w.comps c).options.map OptRecord.bare }
  options := w.options
  arguments _ := none

@[simp] theorem World.bare_bare (w : World) : w.bare.bare = w.bare := by
  simp only [World.bare, List.map_map]
  rfl

/-! ## Memory -/

/-- The lists of an option record. -/
inductive Field | defaultValue | noArgValue | value | newValue
  deriving DecidableEq

/-- What is in the list. -/
def Field.select : Field → (rec : OptRecord) → List (Node rec.altType)
  | .defaultValue => OptRecord.defaultValue
  | .noArgValue => OptRecord.noArgValue
  | .value => OptRecord.value
  | .newValue => OptRecord.newValue

/-- `class Argument`, with a pointer to its list. -/
structure ArgumentAt where
  comp : Option ℕ
  opt : Option Ref
  arg : Option ℕ

/-- The nodes in memory, the arguments, and the pointers to nodes that gpgme has. -/
structure Memory where
  heap : NodeHeap
  /-- The variables of type `Argument` that are constructed. -/
  arguments : ℕ → Option ArgumentAt
  /-- The pointers of the option records. -/
  conf : Ref → Field → Option ℕ
  /-- What was passed to `gpgme_conf_opt_change`, in its order. -/
  given : List (Option ℕ)

/-- `arg` of each argument. -/
def Memory.arg (m : Memory) (x : ℕ) : Option ℕ := (m.arguments x).bind ArgumentAt.arg

/-- The variable `x` is what it is said to be, and the nodes are those of `heap`. -/
def Memory.setArgument (m : Memory) (x : ℕ) (a : Option ArgumentAt) (heap : NodeHeap) : Memory :=
  { m with heap, arguments := Function.update m.arguments x a }

theorem Memory.arg_setArgument (m : Memory) (x : ℕ) (a : Option ArgumentAt) (heap : NodeHeap) :
    (m.setArgument x a heap).arg = Function.update m.arg x (a.bind ArgumentAt.arg) := by
  funext y
  by_cases hy : y = x
  · subst hy
    simp [arg, setArgument]
  · simp [arg, setArgument, hy]

/-- A program: its components and options, and its memory. -/
structure Program where
  world : World
  memory : Memory
  /-- All lists and arguments are in memory. -/
  bare : world.bare = world

/-- The lists and arguments of a world are left out. -/
def Program.of (w : World) (m : Memory) : Program := ⟨w.bare, m, w.bare_bare⟩

@[simp] theorem Program.world_of (w : World) (m : Memory) : (Program.of w m).world = w.bare := rfl

@[simp] theorem Program.memory_of (w : World) (m : Memory) : (Program.of w m).memory = m := rfl

/-! ## Arguments -/

/-- The loop of `gpgme_conf_arg_release(arg, type)`: the type tells what the nodes hold. -/
def confArgReleaseLoop (type : ConfType) :
    (fuel : ℕ) → NodeHeap → Option ℕ → Except ConfFault NodeHeap
  | _, h, none => .ok h
  | 0, _, some _ => .error .noObject
  | fuel + 1, h, some a =>
      match h.cells a with
      | none => .error .noObject
      | some node =>
          if node.content.1.member = type.member then
            confArgReleaseLoop type fuel (h.erase a) node.next
          else .error .wrongMember

/-- `gpgme_conf_arg_release(arg, type)`. -/
def confArgReleaseAt (type : ConfType) (h : NodeHeap) (arg : Option ℕ) :
    Except ConfFault NodeHeap :=
  confArgReleaseLoop type h.fresh h arg

/-- The node that is reached from `p` when `idx` was counted down, if there is one. -/
def nodeAt (h : NodeHeap) (p : Option ℕ) (idx : ℕ) :
    Except ConfFault (Option ((type : ConfType) × Node type)) :=
  match h.advance idx p with
  | none => .error .noObject
  | some none => .ok none
  | some (some a) =>
      match h.cells a with
      | none => .error .noObject
      | some node => .ok (some node.content)

/-- `for (a = arg ; a ; a = a->next) result.push_back(a->value...);` -/
def valuesAt {α : Type} (h : NodeHeap) (arg : Option ℕ)
    (read : ((type : ConfType) × Node type) → Except ConfFault α) : Except ConfFault (List α) :=
  h.forEach .noObject (fun result a => do return result ++ [← read a]) [] arg

namespace ArgumentAt

/-- `Argument()`. -/
def null : ArgumentAt := ⟨none, none, none⟩

/-- `Argument::isNull`. -/
def isNull (w : World) (a : ArgumentAt) : Bool :=
  w.expired a.comp || a.opt.isNone || a.arg.isNone

/-- `Argument::parent`. -/
def parent (w : World) (a : ArgumentAt) : ConfOption := ⟨w.lock a.comp, a.opt⟩

/-- `~Argument`. -/
def release (w : World) (a : ArgumentAt) (h : NodeHeap) : Except ConfFault NodeHeap := do
  let type ← w.typeOf a.opt
  confArgReleaseAt type h a.arg

/-- The guard of the accessors for one type: `isNull() || opt->alt_type != type`. -/
def guarded (w : World) (a : ArgumentAt) (type : ConfType) : Except ConfFault (Option ℕ) := do
  if a.isNull w then return none
  let alt ← w.typeOf a.opt
  return if alt = type then a.arg else none

/-- `Argument::numElements`. -/
def numElements (w : World) (h : NodeHeap) (a : ArgumentAt) : Except ConfFault UInt32 :=
  if a.isNull w then .ok 0 else h.forEach .noObject (fun result _ => .ok (result + 1)) 0 a.arg

/-- `Argument::stringValue(idx)`. -/
def stringValue (w : World) (h : NodeHeap) (a : ArgumentAt) (idx : UInt32) :
    Except ConfFault (Option CString) := do
  match ← nodeAt h (← a.guarded w .string) idx.toNat with
  | none => return none
  | some n => n.2.string

/-- `Argument::intValue(idx)`. -/
def intValue (w : World) (h : NodeHeap) (a : ArgumentAt) (idx : UInt32) :
    Except ConfFault Int32 := do
  match ← nodeAt h (← a.guarded w .int32) idx.toNat with
  | none => return 0
  | some n => n.2.int32

/-- `Argument::uintValue(idx)`. -/
def uintValue (w : World) (h : NodeHeap) (a : ArgumentAt) (idx : UInt32) :
    Except ConfFault UInt32 := do
  match ← nodeAt h (← a.guarded w .uint32) idx.toNat with
  | none => return 0
  | some n => n.2.uint32

/-- `Argument::numberOfTimesSet`. -/
def numberOfTimesSet (w : World) (h : NodeHeap) (a : ArgumentAt) : Except ConfFault UInt32 := do
  match ← nodeAt h (← a.guarded w .none) 0 with
  | none => return 0
  | some n => n.2.count

/-- `Argument::boolValue`. -/
def boolValue (w : World) (h : NodeHeap) (a : ArgumentAt) : Except ConfFault Bool := do
  return (← a.numberOfTimesSet w h) != 0

/-- `Argument::stringValues`. -/
def stringValues (w : World) (h : NodeHeap) (a : ArgumentAt) :
    Except ConfFault (List (Option CString)) := do
  valuesAt h (← a.guarded w .string) fun n => n.2.string

/-- `Argument::intValues`. -/
def intValues (w : World) (h : NodeHeap) (a : ArgumentAt) : Except ConfFault (List Int32) := do
  valuesAt h (← a.guarded w .int32) fun n => n.2.int32

/-- `Argument::uintValues`. -/
def uintValues (w : World) (h : NodeHeap) (a : ArgumentAt) : Except ConfFault (List UInt32) := do
  valuesAt h (← a.guarded w .uint32) fun n => n.2.uint32

end ArgumentAt

/-- The member function that an accessor names. -/
def Accessor.runAt (w : World) (h : NodeHeap) (a : ArgumentAt) : Accessor → Except ConfFault Output
  | .numElements => return .uint (← a.numElements w h)
  | .numberOfTimesSet => return .uint (← a.numberOfTimesSet w h)
  | .boolValue => return .bool (← a.boolValue w h)
  | .stringValue idx => return .chars (← a.stringValue w h idx)
  | .intValue idx => return .int (← a.intValue w h idx)
  | .uintValue idx => return .uint (← a.uintValue w h idx)
  | .stringValues => return .strings (← a.stringValues w h)
  | .intValues => return .ints (← a.intValues w h)
  | .uintValues => return .uints (← a.uintValues w h)

/-! ## Options -/

/-- The member function that a property names. -/
def Property.runAt (w : World) (m : Memory) (o : ConfOption) : Property → Except ConfFault Output
  | .set => do
      match ← o.record w with
      | none => return .bool false
      | some (r, rec) =>
          return .bool (m.conf r (if rec.changeValue then .newValue else .value)).isSome
  | property => property.run w o

/-- The list that a getter copies. -/
def Getter.pointer (rec : OptRecord) (conf : Field → Option ℕ) : Getter → Option ℕ
  | .defaultValue => conf .defaultValue
  | .noArgumentValue => conf .noArgValue
  | .activeValue => conf .value
  | .currentValue =>
      -- `a ? a : b`
      if rec.changeValue then (conf .newValue).or (conf .defaultValue)
      else (conf .value).or (conf .defaultValue)
  | .newValue => conf .newValue

section Functions
variable [GpgmeConf]

/-- `Argument(comp, opt, arg, false)`, and with the same list the copy constructor. -/
def ArgumentAt.copyOf (w : World) (comp : Option ℕ) (opt : Option Ref) (arg : Option ℕ)
    (memory : ℕ → Bool) (h : NodeHeap) : Except ConfFault (ArgumentAt × NodeHeap) := do
  let type ← w.typeOf opt
  let (arg, h) ← copyAt type memory h arg
  return (⟨comp, opt, arg⟩, h)

/-- `Argument(const Argument &other)`. -/
def ArgumentAt.copy (w : World) (other : ArgumentAt) (memory : ℕ → Bool) (h : NodeHeap) :
    Except ConfFault (ArgumentAt × NodeHeap) :=
  copyOf w other.comp other.opt other.arg memory h

/-- The getters. -/
def Getter.runAt (w : World) (o : ConfOption) (memory : ℕ → Bool) (m : Memory) (getter : Getter) :
    Except ConfFault (ArgumentAt × NodeHeap) := do
  match ← o.record w with
  | none => return (.null, m.heap)
  | some (r, rec) =>
      ArgumentAt.copyOf w (w.lock o.comp) o.opt (getter.pointer rec (m.conf r)) memory m.heap

/-- `Argument(comp.lock(), opt, arg, true)`, for a list that was just made. -/
def ConfOption.owningAt (w : World) (o : ConfOption) (made : Option ℕ × NodeHeap) :
    ArgumentAt × NodeHeap :=
  (⟨w.lock o.comp, o.opt, made.1⟩, made.2)

/-- The functions that make an argument with one value. -/
def createArgumentAt (w : World) (o : ConfOption) (type : ConfType)
    (value : Option (TypedValue type)) (memory : ℕ → Bool) (h : NodeHeap) :
    Except ConfFault (ArgumentAt × NodeHeap) := do
  if o.isNull w then return (.null, h)
  if (← o.alternateType w) ≠ type then return (.null, h)
  return o.owningAt w (confArgNewAt h type value (memory 0))

/-- The functions that make an argument with a list of values. -/
def createListArgumentAt (w : World) (o : ConfOption) (type : ConfType)
    (values : List (Option (TypedValue type))) (memory : ℕ → Bool) (h : NodeHeap) :
    Except ConfFault (ArgumentAt × NodeHeap) :=
  match makeArgumentAt type memory h values with
  | none => .error .noObject
  | some made => .ok (o.owningAt w made)

/-- `Option::createNoneListArgument(count)`. -/
def createNoneListArgumentAt (w : World) (o : ConfOption) (count : UInt32) (memory : ℕ → Bool)
    (h : NodeHeap) : ArgumentAt × NodeHeap :=
  if count ≠ 0 then
    o.owningAt w
      (confArgNewAt h .none (some ⟨.count count, member_count count⟩) (memory 0))
  else (.null, h)

/-- `Option::createNoneArgument(set)`. -/
def createNoneArgumentAt (w : World) (o : ConfOption) (set : Bool) (memory : ℕ → Bool)
    (h : NodeHeap) : Except ConfFault (ArgumentAt × NodeHeap) := do
  if o.isNull w then return (.null, h)
  if (← o.alternateType w) ≠ .none then return (.null, h)
  return if set then createNoneListArgumentAt w o 1 memory h else (.null, h)

/-- The functions that make arguments. -/
def Factory.runAt (w : World) (o : ConfOption) (memory : ℕ → Bool) (h : NodeHeap) :
    Factory → Except ConfFault (ArgumentAt × NodeHeap)
  | .none set => createNoneArgumentAt w o set memory h
  | .string value => createArgumentAt w o .string (ConfOption.ofChars value) memory h
  | .stdString value =>
      createArgumentAt w o .string (ConfOption.ofChars (some (.cStr value))) memory h
  | .int value => createArgumentAt w o .int32 (some ⟨.int32 value, member_int32 value⟩) memory h
  | .uint value => createArgumentAt w o .uint32 (some ⟨.uint32 value, member_uint32 value⟩) memory h
  | .noneList count => .ok (createNoneListArgumentAt w o count memory h)
  | .stringList value => createListArgumentAt w o .string (value.map ConfOption.ofChars) memory h
  | .stdStringList value =>
      createListArgumentAt w o .string (value.map fun s => ConfOption.ofChars (some (.cStr s)))
        memory h
  | .intList values =>
      createListArgumentAt w o .int32 (values.map fun n => some ⟨.int32 n, member_int32 n⟩) memory h
  | .uintList values =>
      createListArgumentAt w o .uint32 (values.map fun n => some ⟨.uint32 n, member_uint32 n⟩)
        memory h

/-! ## Programs -/

namespace Program

/-- The argument named `x`. -/
def argument (s : Program) (x : ℕ) : Except ConfFault ArgumentAt :=
  match s.memory.arguments x with
  | some a => .ok a
  | none => .error .noObject

/-- The variable `x` is what it is said to be, and the nodes are those of `heap`. -/
def setArgument (s : Program) (x : ℕ) (a : Option ArgumentAt) (heap : NodeHeap) : Program :=
  { s with memory := s.memory.setArgument x a heap }

/-- Argument `x` is constructed, which it must not be already. -/
def construct (s : Program) (x : ℕ) (made : ArgumentAt × NodeHeap) :
    Except ConfFault (Output × Program) :=
  match s.memory.arguments x with
  | some _ => .error .noObject
  | none => .ok (.done, s.setArgument x (some made.1) made.2)

variable [LibGpgError]

/-- `gpgme_conf_opt_change(opt, reset, arg)` on the record at `r`. -/
def change (s : Program) (r : Ref) (rec : OptRecord) (reset : Bool) (arg : Option ℕ) :
    Error × Program :=
  let (err, rec) := GpgmeConf.confOptChange rec reset []
  let conf := Function.update (s.memory.conf r) .newValue (if reset then none else arg)
  (⟨err⟩, .of (s.world.setRecord r rec)
    { s.memory with conf := Function.update s.memory.conf r conf })

/-- `Option::resetToDefaultValue`. -/
def resetToDefaultValue (s : Program) (o : ConfOption) : Except ConfFault (Error × Program) := do
  match ← o.record s.world with
  | none => return (.fromCode .invArg, s)
  | some (r, rec) => return s.change r rec false none

/-- `Option::resetToActiveValue`. -/
def resetToActiveValue (s : Program) (o : ConfOption) : Except ConfFault (Error × Program) := do
  match ← o.record s.world with
  | none => return (.fromCode .invArg, s)
  | some (r, rec) => return s.change r rec true none

/-- `Option::setNewValue(argument)`. -/
def setNewValue (s : Program) (o : ConfOption) (argument : ArgumentAt) (memory : ℕ → Bool) :
    Except ConfFault (Error × Program) := do
  match ← o.record s.world with
  | none => return (.fromCode .invArg, s)
  | some (r, rec) =>
      if argument.isNull s.world then s.resetToDefaultValue o
      else
        let (arg, heap) ← copyAt rec.altType memory s.memory.heap argument.arg
        match arg with
        | none => return (.fromCode .enomem, { s with memory := { s.memory with heap } })
        | some arg =>
            let given := s.memory.given ++ [some arg]
            return change { s with memory := { s.memory with heap, given } } r rec false (some arg)

/-- One operation. -/
def step (s : Program) : Op → Except ConfFault (Output × Program)
  | .parent v x => do
      let a ← s.argument x
      return (.done, .of (s.world.setOption v (a.parent s.world)) s.memory)
  | .property v property => do
      return (← property.runAt s.world s.memory (s.world.options v), s)
  | .setNewValue v x memory => do
      let a ← s.argument x
      let (e, s) ← s.setNewValue (s.world.options v) a memory
      return (.error e, s)
  | .resetToDefaultValue v => do
      let (e, s) ← s.resetToDefaultValue (s.world.options v)
      return (.error e, s)
  | .resetToActiveValue v => do
      let (e, s) ← s.resetToActiveValue (s.world.options v)
      return (.error e, s)
  | .newArgument x => s.construct x (.null, s.memory.heap)
  | .get x v getter memory => do
      let made ← getter.runAt s.world (s.world.options v) memory s.memory
      s.construct x made
  | .create x v factory memory => do
      let made ← factory.runAt s.world (s.world.options v) memory s.memory.heap
      s.construct x made
  | .copy x y memory => do
      let b ← s.argument y
      let made ← b.copy s.world memory s.memory.heap
      s.construct x made
  | .assign x y memory => do
      let a ← s.argument x
      let b ← s.argument y
      if x = y then return (.done, s)
      -- the copy and `x` are swapped, and the copy is destroyed with the old value
      let (copy, heap) ← b.copy s.world memory s.memory.heap
      let heap ← a.release s.world heap
      return (.done, s.setArgument x (some copy) heap)
  | .swap x y => do
      let a ← s.argument x
      let b ← s.argument y
      let heap := s.memory.heap
      return (.done, (s.setArgument x (some b) heap).setArgument y (some a) heap)
  | .destroy x => do
      let a ← s.argument x
      let heap ← a.release s.world s.memory.heap
      return (.done, s.setArgument x none heap)
  | .access x accessor => do
      let a ← s.argument x
      return (← accessor.runAt s.world s.memory.heap a, s)
  -- the other operations are about components and options only
  | op => do
      let (o, w) ← Configuration.step s.world op
      return (o, .of w s.memory)

end Program

end Functions

end Gpgmepp.Configuration
