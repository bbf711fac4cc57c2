import Gpgmepp.Configuration.Objects

/-!
# Programs that use a configuration

Everything a program can do with components, options and arguments, in any order, as a
machine: hold and drop components, obtain, copy, assign and destroy options and
arguments, and call their member functions.  A step that uses a freed option record or
the wrong member of a union is a fault, and so is one that names an argument that is not
constructed.

## Main definitions

* `Op`, `step` — the operations and what they do.
* `World.Initial` — a world in which nothing was done yet.
-/

namespace Gpgmepp.Configuration

/-- The member functions that return what an option is like. -/
inductive Property
  | flags | level | name | description | argumentName | type | alternateType
  | defaultDescription | noArgumentDescription | set | dirty

/-- The member functions that return a value of an option. -/
inductive Getter | defaultValue | noArgumentValue | activeValue | currentValue | newValue

/-- The member functions that make an argument, with their parameters. -/
inductive Factory
  | none (set : Bool)
  | string (value : Option CString)
  | stdString (value : StdString)
  | int (value : Int32)
  | uint (value : UInt32)
  | noneList (count : UInt32)
  | stringList (value : List (Option CString))
  | stdStringList (value : List StdString)
  | intList (values : List Int32)
  | uintList (values : List UInt32)

/-- The member functions that read an argument. -/
inductive Accessor
  | numElements | numberOfTimesSet | boolValue
  | stringValue (idx : UInt32) | intValue (idx : UInt32) | uintValue (idx : UInt32)
  | stringValues | intValues | uintValues

/-- Options and arguments are named by numbers.  `memory` says which of the calls of
`gpgme_conf_arg_new` during the operation find memory. -/
inductive Op
  /-- Copy a `Component`, or destroy one. -/
  | hold (c : ℕ)
  | drop (c : ℕ)
  /-- `option v = component c . option(i)`, and the assignment of options. -/
  | option (v c i : ℕ)
  | assignOption (v u : ℕ)
  /-- Hold the parent of option `v`, and `option v = argument x . parent()`. -/
  | optionParent (v : ℕ)
  | parent (v x : ℕ)
  | property (v : ℕ) (property : Property)
  | setNewValue (v x : ℕ) (memory : ℕ → Bool)
  | resetToDefaultValue (v : ℕ)
  | resetToActiveValue (v : ℕ)
  /-- Construct argument `x`. -/
  | newArgument (x : ℕ)
  | get (x v : ℕ) (getter : Getter) (memory : ℕ → Bool)
  | create (x v : ℕ) (factory : Factory) (memory : ℕ → Bool)
  | copy (x y : ℕ) (memory : ℕ → Bool)
  /-- `argument x = argument y`. -/
  | assign (x y : ℕ) (memory : ℕ → Bool)
  | swap (x y : ℕ)
  | destroy (x : ℕ)
  | access (x : ℕ) (accessor : Accessor)

/-- What an operation returns. -/
inductive Output
  | done
  | bool (b : Bool)
  | int (n : Int32)
  | uint (n : UInt32)
  | chars (s : Option CString)
  | ints (ns : List Int32)
  | uints (ns : List UInt32)
  | strings (ss : List (Option CString))
  | type (t : ConfType)
  | level (l : Level)
  | error (e : Error)

/-- The member function that a property names. -/
def Property.run (w : World) (o : ConfOption) : Property → Except ConfFault Output
  | .flags => return .uint (← o.flags w)
  | .level => return .level (← o.level w)
  | .name => return .chars (← o.name w)
  | .description => return .chars (← o.description w)
  | .argumentName => return .chars (← o.argumentName w)
  | .type => return .type (← o.type w)
  | .alternateType => return .type (← o.alternateType w)
  | .defaultDescription => return .chars (← o.defaultDescription w)
  | .noArgumentDescription => return .chars (← o.noArgumentDescription w)
  | .set => return .bool (← o.set w)
  | .dirty => return .bool (← o.dirty w)

/-- The member function that an accessor names. -/
def Accessor.run (w : World) (a : Argument) : Accessor → Except ConfFault Output
  | .numElements => return .uint (a.numElements w)
  | .numberOfTimesSet => return .uint (← a.numberOfTimesSet w)
  | .boolValue => return .bool (← a.boolValue w)
  | .stringValue idx => return .chars (← a.stringValue w idx)
  | .intValue idx => return .int (← a.intValue w idx)
  | .uintValue idx => return .uint (← a.uintValue w idx)
  | .stringValues => return .strings (← a.stringValues w)
  | .intValues => return .ints (← a.intValues w)
  | .uintValues => return .uints (← a.uintValues w)

section Run
variable [GpgmeConf]

/-- The member function that a getter names. -/
def Getter.run (w : World) (o : ConfOption) (memory : ℕ → Bool) :
    Getter → Except ConfFault Argument
  | .defaultValue => o.defaultValue w memory
  | .noArgumentValue => o.noArgumentValue w memory
  | .activeValue => o.activeValue w memory
  | .currentValue => o.currentValue w memory
  | .newValue => o.newValue w memory

/-- The member function that a factory names. -/
def Factory.run (w : World) (o : ConfOption) (memory : ℕ → Bool) :
    Factory → Except ConfFault Argument
  | .none set => o.createNoneArgument w set memory
  | .string value => o.createStringArgument w value memory
  | .stdString value => o.createStdStringArgument w value memory
  | .int value => o.createIntArgument w value memory
  | .uint value => o.createUIntArgument w value memory
  | .noneList count => .ok (o.createNoneListArgument w count memory)
  | .stringList value => .ok (o.createStringListArgument w value memory)
  | .stdStringList value => .ok (o.createStdStringListArgument w value memory)
  | .intList values => .ok (o.createIntListArgument w values memory)
  | .uintList values => .ok (o.createUIntListArgument w values memory)

end Run

namespace World

/-- Nothing was obtained yet. -/
structure Initial (w : World) : Prop where
  options : ∀ v, w.options v = .null
  arguments : ∀ x, w.arguments x = none

/-- A world with one option in each component, of the given type and with the given value,
of which nothing was obtained yet. -/
def ofOption (altType : ConfType) (value : List (Node altType)) : World where
  comps _ :=
    { handles := 1
      options := [{
        name := none
        flags := 0
        level := .basic
        description := none
        type := altType
        altType := altType
        argname := none
        defaultValue := []
        defaultDescription := none
        noArgValue := []
        noArgDescription := none
        value := value
        changeValue := false
        newValue := [] }] }
  options _ := .null
  arguments _ := none

theorem ofOption_initial (altType : ConfType) (value : List (Node altType)) :
    (ofOption altType value).Initial :=
  ⟨fun _ => rfl, fun _ => rfl⟩

/-- The argument named `x`. -/
def argument (w : World) (x : ℕ) : Except ConfFault Argument :=
  match w.arguments x with
  | some a => .ok a
  | none => .error .noObject

def setHandles (w : World) (c n : ℕ) : World :=
  { w with comps := Function.update w.comps c { w.comps c with handles := n } }

def setOption (w : World) (v : ℕ) (o : ConfOption) : World :=
  { w with options := Function.update w.options v o }

def setArgument (w : World) (x : ℕ) (a : Option Argument) : World :=
  { w with arguments := Function.update w.arguments x a }

/-- A world in which argument 0 is a number, and belongs to an option of component 0. -/
def obtained : World :=
  ((ofOption .int32 [⟨false, .int32 1, rfl⟩]).setOption 0 ⟨some 0, some ⟨0, 0⟩⟩).setArgument 0
    (some ⟨some 0, some ⟨0, 0⟩, ⟨.int32, [⟨false, .int32 1, rfl⟩]⟩⟩)

/-- Argument `x` is constructed, which it must not be already. -/
def construct (w : World) (x : ℕ) (a : Argument) : Except ConfFault (Output × World) :=
  match w.arguments x with
  | some _ => .error .noObject
  | none => .ok (.done, w.setArgument x (some a))

end World

variable [GpgmeConf] [LibGpgError]

/-- One operation. -/
def step (w : World) : Op → Except ConfFault (Output × World)
  | .hold c =>
      if w.Alive c then .ok (.done, w.setHandles c ((w.comps c).handles + 1))
      else .error .noObject
  | .drop c =>
      if w.Alive c then .ok (.done, w.setHandles c ((w.comps c).handles - 1))
      else .error .noObject
  | .option v c i =>
      if w.Alive c then
        .ok (.done, w.setOption v
          (if i < (w.comps c).options.length then ⟨some c, some ⟨c, i⟩⟩ else .null))
      else .error .noObject
  | .assignOption v u => .ok (.done, w.setOption v (w.options u))
  | .optionParent v =>
      match w.lock (w.options v).comp with
      | none => .ok (.done, w)
      | some c => .ok (.done, w.setHandles c ((w.comps c).handles + 1))
  | .parent v x => do
      let a ← w.argument x
      return (.done, w.setOption v (a.parent w))
  | .property v property => do return (← property.run w (w.options v), w)
  | .setNewValue v x memory => do
      let a ← w.argument x
      let (e, w) ← (w.options v).setNewValue w a memory
      return (.error e, w)
  | .resetToDefaultValue v => do
      let (e, w) ← (w.options v).resetToDefaultValue w
      return (.error e, w)
  | .resetToActiveValue v => do
      let (e, w) ← (w.options v).resetToActiveValue w
      return (.error e, w)
  | .newArgument x => w.construct x .null
  | .get x v getter memory => do
      let a ← getter.run w (w.options v) memory
      w.construct x a
  | .create x v factory memory => do
      let a ← factory.run w (w.options v) memory
      w.construct x a
  | .copy x y memory => do
      let b ← w.argument y
      let a ← b.copy w memory
      w.construct x a
  | .assign x y memory => do
      let a ← w.argument x
      let b ← w.argument y
      if x = y then return (.done, w)
      -- the copy and `x` are swapped, and the copy is destroyed with the old value
      let copy ← b.copy w memory
      a.release w
      return (.done, w.setArgument x (some copy))
  | .swap x y => do
      let a ← w.argument x
      let b ← w.argument y
      return (.done, (w.setArgument x (some b)).setArgument y (some a))
  | .destroy x => do
      let a ← w.argument x
      a.release w
      return (.done, w.setArgument x none)
  | .access x accessor => do
      let a ← w.argument x
      return (← accessor.run w a, w)

end Gpgmepp.Configuration
