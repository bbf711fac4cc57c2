import Gpgmepp.Configuration.Node
import Gpgmepp.Error
import Mathlib.Logic.Function.Basic

/-!
# Components, options and arguments

The option records of a gpgconf component live as long as some `Component` holds the
component.  An `Option` and an `Argument` hold a weak pointer to it and a plain pointer
to the record; an `Argument` also owns a list of nodes.  Using a record that is gone is
a fault.

The member functions are those of the source, in a world that says which components are
held.  `ConfOption.record` is the guard with which most of them begin, `isNull()`.  The
lifetime functions of `Argument`, `copy` and `release`, have no guard.

## Main definitions

* `World`, `ConfOption`, `Argument` — the objects of a program.
* `World.deref` — the use of an option record.
* `ConfOption.createNoneArgument` and so on — the functions that make arguments.
-/

namespace Gpgmepp.Configuration

/-- `gpgme_conf_opt_t`: the place of an option in a component. -/
structure Ref where
  comp : ℕ
  index : ℕ
  deriving DecidableEq

/-- `gpgme_conf_comp_t`, with the number of shared pointers that hold it. -/
structure Comp where
  handles : ℕ
  options : List OptRecord

/-- `class Option`: a weak and a plain pointer, either of which may be null. -/
structure ConfOption where
  comp : Option ℕ
  opt : Option Ref

/-- `gpgme_conf_arg_t`: a list of nodes that were made with one type; null if empty. -/
structure ArgList where
  type : ConfType
  nodes : List (Node type)

/-- `class Argument`. -/
structure Argument where
  comp : Option ℕ
  opt : Option Ref
  arg : ArgList

/-- The objects of a program: the components that were loaded, the variables of type
`Option`, and those of type `Argument` that are constructed. -/
structure World where
  comps : ℕ → Comp
  options : ℕ → ConfOption
  arguments : ℕ → Option Argument

namespace World

/-- The component is held. -/
def Alive (w : World) (c : ℕ) : Prop := 0 < (w.comps c).handles

instance (w : World) (c : ℕ) : Decidable (w.Alive c) := inferInstanceAs (Decidable (_ < _))

/-- `weak_ptr::lock`. -/
def lock (w : World) : Option ℕ → Option ℕ
  | none => none
  | some c => if w.Alive c then some c else none

/-- `weak_ptr::expired`. -/
def expired (w : World) (comp : Option ℕ) : Bool := (w.lock comp).isNone

/-- The use of an option record. -/
def deref (w : World) (r : Ref) : Except ConfFault OptRecord :=
  if w.Alive r.comp then
    match (w.comps r.comp).options[r.index]? with
    | some rec => .ok rec
    | none => .error .noObject
  else .error .freedOption

/-- `opt ? opt->alt_type : GPGME_CONF_NONE`. -/
def typeOf (w : World) : Option Ref → Except ConfFault ConfType
  | none => .ok .none
  | some r => (w.deref r).map OptRecord.altType

/-- A world in which the record `r` was changed. -/
def setRecord (w : World) (r : Ref) (rec : OptRecord) : World :=
  let comp := w.comps r.comp
  { w with
    comps := Function.update w.comps r.comp
      { comp with options := comp.options.set r.index rec } }

end World

/-! ## Arguments -/

namespace Argument

/-- `Argument()`. -/
def null : Argument := ⟨none, none, ⟨.none, []⟩⟩

/-- `Argument::isNull`. -/
def isNull (w : World) (a : Argument) : Bool :=
  w.expired a.comp || a.opt.isNone || a.arg.nodes.isEmpty

/-- `Argument::parent`. -/
def parent (w : World) (a : Argument) : ConfOption := ⟨w.lock a.comp, a.opt⟩

/-- `Argument(comp, opt, arg, false)`, and with the same list the copy constructor: the
list is copied with the alternate type of the option. -/
def copyOf [GpgmeConf] (w : World) (comp : Option ℕ) (opt : Option Ref) (arg : ArgList)
    (memory : ℕ → Bool) : Except ConfFault Argument := do
  let type ← w.typeOf opt
  let nodes ← mygpgmeConfArgCopy type memory arg.nodes
  return ⟨comp, opt, ⟨type, nodes⟩⟩

/-- `Argument(const Argument &other)`. -/
def copy [GpgmeConf] (w : World) (other : Argument) (memory : ℕ → Bool) :
    Except ConfFault Argument :=
  copyOf w other.comp other.opt other.arg memory

/-- `~Argument`. -/
def release (w : World) (a : Argument) : Except ConfFault Unit := do
  let type ← w.typeOf a.opt
  gpgmeConfArgRelease type a.arg.nodes

/-- The guard of the accessors for one type: `isNull() || opt->alt_type != type`. -/
def guarded (w : World) (a : Argument) (type : ConfType) :
    Except ConfFault (List (Node a.arg.type)) := do
  if a.isNull w then return []
  let alt ← w.typeOf a.opt
  return if alt = type then a.arg.nodes else []

/-- The accessors for the type of the option see the nodes. -/
theorem guarded_eq {w : World} {a : Argument} {type : ConfType} (hnull : a.isNull w = false)
    (htype : w.typeOf a.opt = .ok type) : a.guarded w type = .ok a.arg.nodes := by
  simp only [guarded, hnull, htype]
  show Except.ok (if type = type then a.arg.nodes else []) = _
  rw [if_pos rfl]

/-- `Argument::numElements`. -/
def numElements (w : World) (a : Argument) : UInt32 :=
  if a.isNull w then 0 else UInt32.ofNat a.arg.nodes.length

/-- `Argument::stringValue(idx)`. -/
def stringValue (w : World) (a : Argument) (idx : UInt32) :
    Except ConfFault (Option CString) := do
  match (← a.guarded w .string)[idx.toNat]? with
  | none => return none
  | some n => n.string

/-- `Argument::intValue(idx)`. -/
def intValue (w : World) (a : Argument) (idx : UInt32) : Except ConfFault Int32 := do
  match (← a.guarded w .int32)[idx.toNat]? with
  | none => return 0
  | some n => n.int32

/-- `Argument::uintValue(idx)`. -/
def uintValue (w : World) (a : Argument) (idx : UInt32) : Except ConfFault UInt32 := do
  match (← a.guarded w .uint32)[idx.toNat]? with
  | none => return 0
  | some n => n.uint32

/-- `Argument::numberOfTimesSet`. -/
def numberOfTimesSet (w : World) (a : Argument) : Except ConfFault UInt32 := do
  match (← a.guarded w .none)[0]? with
  | none => return 0
  | some n => n.count

/-- `Argument::boolValue`. -/
def boolValue (w : World) (a : Argument) : Except ConfFault Bool := do
  return (← a.numberOfTimesSet w) != 0

/-- `Argument::stringValues`. -/
def stringValues (w : World) (a : Argument) : Except ConfFault (List (Option CString)) := do
  (← a.guarded w .string).mapM Node.string

/-- `Argument::intValues`. -/
def intValues (w : World) (a : Argument) : Except ConfFault (List Int32) := do
  (← a.guarded w .int32).mapM Node.int32

/-- `Argument::uintValues`. -/
def uintValues (w : World) (a : Argument) : Except ConfFault (List UInt32) := do
  (← a.guarded w .uint32).mapM Node.uint32

end Argument

/-! ## Options -/

namespace ConfOption

/-- `Option()`. -/
def null : ConfOption := ⟨none, none⟩

/-- `Option::isNull`. -/
def isNull (w : World) (o : ConfOption) : Bool := w.expired o.comp || o.opt.isNone

/-- The guard of the member functions: `isNull()`, and else the record. -/
def record (w : World) (o : ConfOption) : Except ConfFault (Option (Ref × OptRecord)) :=
  if o.isNull w then .ok none
  else
    match o.opt with
    | none => .ok none
    | some r => (w.deref r).map fun rec => some (r, rec)

/-- The member functions that return what a record says, with a default for options that
are null. -/
def field {α : Type} (w : World) (o : ConfOption) (default : α) (select : OptRecord → α) :
    Except ConfFault α := do
  match ← o.record w with
  | none => return default
  | some (_, rec) => return select rec

/-- `Option::flags`. -/
def flags (w : World) (o : ConfOption) : Except ConfFault UInt32 := o.field w 0 OptRecord.flags

/-- `Option::level`. -/
def level (w : World) (o : ConfOption) : Except ConfFault Level :=
  o.field w .internal OptRecord.level

/-- `Option::name`. -/
def name (w : World) (o : ConfOption) : Except ConfFault (Option CString) :=
  o.field w none OptRecord.name

/-- `Option::description`. -/
def description (w : World) (o : ConfOption) : Except ConfFault (Option CString) :=
  o.field w none OptRecord.description

/-- `Option::argumentName`. -/
def argumentName (w : World) (o : ConfOption) : Except ConfFault (Option CString) :=
  o.field w none OptRecord.argname

/-- `Option::type`. -/
def type (w : World) (o : ConfOption) : Except ConfFault ConfType :=
  o.field w .none OptRecord.type

/-- `Option::alternateType`. -/
def alternateType (w : World) (o : ConfOption) : Except ConfFault ConfType :=
  o.field w .none OptRecord.altType

/-- `Option::defaultDescription`. -/
def defaultDescription (w : World) (o : ConfOption) : Except ConfFault (Option CString) :=
  o.field w none OptRecord.defaultDescription

/-- `Option::noArgumentDescription`. -/
def noArgumentDescription (w : World) (o : ConfOption) : Except ConfFault (Option CString) :=
  o.field w none OptRecord.noArgDescription

/-- `Option::set`. -/
def set (w : World) (o : ConfOption) : Except ConfFault Bool :=
  o.field w false fun rec => if rec.changeValue then !rec.newValue.isEmpty else !rec.value.isEmpty

/-- `Option::dirty`. -/
def dirty (w : World) (o : ConfOption) : Except ConfFault Bool :=
  o.field w false OptRecord.changeValue

section Values
variable [GpgmeConf]

/-- The member functions that return one of the values of the record. -/
def valueOf (w : World) (o : ConfOption) (select : (rec : OptRecord) → List (Node rec.altType))
    (memory : ℕ → Bool) : Except ConfFault Argument := do
  match ← o.record w with
  | none => return .null
  | some (_, rec) => Argument.copyOf w (w.lock o.comp) o.opt ⟨rec.altType, select rec⟩ memory

/-- `Option::defaultValue`. -/
def defaultValue (w : World) (o : ConfOption) (memory : ℕ → Bool) : Except ConfFault Argument :=
  o.valueOf w OptRecord.defaultValue memory

/-- `Option::noArgumentValue`. -/
def noArgumentValue (w : World) (o : ConfOption) (memory : ℕ → Bool) :
    Except ConfFault Argument :=
  o.valueOf w OptRecord.noArgValue memory

/-- `Option::activeValue`. -/
def activeValue (w : World) (o : ConfOption) (memory : ℕ → Bool) : Except ConfFault Argument :=
  o.valueOf w OptRecord.value memory

/-- The value that `currentValue` chooses. -/
def current (rec : OptRecord) : List (Node rec.altType) :=
  if rec.changeValue then
    if rec.newValue.isEmpty then rec.defaultValue else rec.newValue
  else if rec.value.isEmpty then rec.defaultValue else rec.value

/-- `Option::currentValue`. -/
def currentValue (w : World) (o : ConfOption) (memory : ℕ → Bool) : Except ConfFault Argument :=
  o.valueOf w current memory

/-- `Option::newValue`. -/
def newValue (w : World) (o : ConfOption) (memory : ℕ → Bool) : Except ConfFault Argument :=
  o.valueOf w OptRecord.newValue memory

variable [LibGpgError]

/-- `gpgme_conf_opt_change(opt, reset, arg)` on the record at `r`. -/
def change (w : World) (r : Ref) (rec : OptRecord) (reset : Bool)
    (arg : List (Node rec.altType)) : Error × World :=
  let (err, rec) := GpgmeConf.confOptChange rec reset arg
  (⟨err⟩, w.setRecord r rec)

/-- `Option::resetToDefaultValue`. -/
def resetToDefaultValue (w : World) (o : ConfOption) : Except ConfFault (Error × World) := do
  match ← o.record w with
  | none => return (.fromCode .invArg, w)
  | some (r, rec) => return change w r rec false []

/-- `Option::resetToActiveValue`. -/
def resetToActiveValue (w : World) (o : ConfOption) : Except ConfFault (Error × World) := do
  match ← o.record w with
  | none => return (.fromCode .invArg, w)
  | some (r, rec) => return change w r rec true []

/-- `Option::setNewValue(argument)`. -/
def setNewValue (w : World) (o : ConfOption) (argument : Argument) (memory : ℕ → Bool) :
    Except ConfFault (Error × World) := do
  match ← o.record w with
  | none => return (.fromCode .invArg, w)
  | some (r, rec) =>
      if argument.isNull w then o.resetToDefaultValue w
      else
        let arg ← mygpgmeConfArgCopy rec.altType memory argument.arg.nodes
        if arg.isEmpty then return (.fromCode .enomem, w) else return change w r rec false arg

end Values

/-! The functions that make arguments. -/

section Factories
variable [GpgmeConf]

/-- `Argument(comp.lock(), opt, arg, true)`. -/
def owning (w : World) (o : ConfOption) (arg : ArgList) : Argument := ⟨w.lock o.comp, o.opt, arg⟩

/-- The functions that make an argument with one value: none for an option that is null
or of another type. -/
def createArgument (w : World) (o : ConfOption) (type : ConfType)
    (value : Option (TypedValue type)) (memory : ℕ → Bool) : Except ConfFault Argument := do
  if o.isNull w then return .null
  if (← o.alternateType w) ≠ type then return .null
  return o.owning w ⟨type, makeArgument type (memory 0) value⟩

/-- The functions that make an argument with a list of values; they do not look at the
option. -/
def createListArgument (w : World) (o : ConfOption) (type : ConfType)
    (values : List (Option (TypedValue type))) (memory : ℕ → Bool) : Argument :=
  o.owning w ⟨type, makeArgumentList type memory values⟩

/-- `to_void_star(const char *)`. -/
def ofChars (s : Option CString) : Option (TypedValue .string) := s.map (.chars rfl)

/-- `Option::createNoneListArgument(count)`. -/
def createNoneListArgument (w : World) (o : ConfOption) (count : UInt32) (memory : ℕ → Bool) :
    Argument :=
  if count ≠ 0 then
    o.owning w ⟨.none, makeArgument .none (memory 0) (some ⟨.count count, rfl⟩)⟩
  else .null

/-- `Option::createNoneArgument(set)`. -/
def createNoneArgument (w : World) (o : ConfOption) (set : Bool) (memory : ℕ → Bool) :
    Except ConfFault Argument := do
  if o.isNull w then return .null
  if (← o.alternateType w) ≠ .none then return .null
  return if set then o.createNoneListArgument w 1 memory else .null

/-- `Option::createStringArgument(const char *)`. -/
def createStringArgument (w : World) (o : ConfOption) (value : Option CString)
    (memory : ℕ → Bool) : Except ConfFault Argument :=
  o.createArgument w .string (ofChars value) memory

/-- `Option::createStringArgument(const std::string &)`. -/
def createStdStringArgument (w : World) (o : ConfOption) (value : StdString)
    (memory : ℕ → Bool) : Except ConfFault Argument :=
  o.createArgument w .string (ofChars (some (.cStr value))) memory

/-- `Option::createIntArgument(value)`. -/
def createIntArgument (w : World) (o : ConfOption) (value : Int32) (memory : ℕ → Bool) :
    Except ConfFault Argument :=
  o.createArgument w .int32 (some ⟨.int32 value, rfl⟩) memory

/-- `Option::createUIntArgument(value)`. -/
def createUIntArgument (w : World) (o : ConfOption) (value : UInt32) (memory : ℕ → Bool) :
    Except ConfFault Argument :=
  o.createArgument w .uint32 (some ⟨.uint32 value, rfl⟩) memory

/-- `Option::createStringListArgument(const std::vector<const char *> &)`. -/
def createStringListArgument (w : World) (o : ConfOption) (value : List (Option CString))
    (memory : ℕ → Bool) : Argument :=
  o.createListArgument w .string (value.map ofChars) memory

/-- `Option::createStringListArgument(const std::vector<std::string> &)`. -/
def createStdStringListArgument (w : World) (o : ConfOption) (value : List StdString)
    (memory : ℕ → Bool) : Argument :=
  o.createListArgument w .string (value.map fun s => ofChars (some (.cStr s))) memory

/-- `Option::createIntListArgument(values)`. -/
def createIntListArgument (w : World) (o : ConfOption) (values : List Int32)
    (memory : ℕ → Bool) : Argument :=
  o.createListArgument w .int32 (values.map fun v => some ⟨.int32 v, rfl⟩) memory

/-- `Option::createUIntListArgument(values)`. -/
def createUIntListArgument (w : World) (o : ConfOption) (values : List UInt32)
    (memory : ℕ → Bool) : Argument :=
  o.createListArgument w .uint32 (values.map fun v => some ⟨.uint32 v, rfl⟩) memory

end Factories

end ConfOption

end Gpgmepp.Configuration
