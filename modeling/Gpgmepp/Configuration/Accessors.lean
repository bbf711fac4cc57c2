import Gpgmepp.Configuration.Objects
import Gpgmepp.Lib.Walk

/-!
# The lists of components and arguments

A component has a list of options, and an argument one of values.  Like the functions for the
lists of a key, one counts, one returns a vector, and one takes an index.  The functions for values
have a guard: they return nothing for an argument that is null, or of another type.

Here they are as the loops of the sources.  What the loops come to is what the functions of
`Argument` are defined as: `Loop.stringValue_eq` and so on.

## Main definitions

* `Component.option`, `Component.numOptions`, `Component.options` — the options.
* `Argument.Loop.valueAt`, `Argument.Loop.valuesOf` — the loops of the functions for values.
-/

namespace Gpgmepp.Configuration

open Walk

/-! ## Options -/

namespace Component

/-- The list `comp->options`, with a component that may be null. -/
def optionList (w : World) (comp : Option ℕ) : List Ref :=
  match comp with
  | none => []
  | some c => (List.range (w.comps c).options.length).map (Ref.mk c)

/-- `Component::option(idx)`. -/
def option (w : World) (comp : Option ℕ) (idx : UInt32) : ConfOption :=
  match (advance (optionList w comp) idx).head? with
  | some opt => ⟨comp, some opt⟩
  | none => .null

/-- `Component::numOptions`. -/
def numOptions (w : World) (comp : Option ℕ) : UInt32 :=
  count (fun _ => true) (optionList w comp) 0

/-- `Component::options`. -/
def options (w : World) (comp : Option ℕ) : List ConfOption :=
  collect (fun _ => true) (fun opt => ⟨comp, some opt⟩) (optionList w comp)

end Component

theorem agree_options (w : World) (comp : Option ℕ) :
    Agree (fun o => o.isNull w = true) (Component.numOptions w comp) (Component.options w comp)
      (Component.option w comp) := by
  have hnull : ConfOption.null.isNull w = true := rfl
  let make : Option Ref → ConfOption
    | some opt => ⟨comp, some opt⟩
    | none => .null
  have hoption : Component.option w comp =
      fun idx => make (advance (Component.optionList w comp) idx).head? := by
    funext idx
    simp only [Component.option, make]
  rw [hoption]
  exact agree_advance make hnull fun opt _ => rfl

/-! ## Values -/

namespace Argument

variable {α : Type}

namespace Loop

/-- `Argument::numElements`. -/
def numElements (w : World) (a : Argument) : UInt32 :=
  if a.isNull w then 0 else count (fun _ => true) a.arg.nodes 0

/-- The functions that return the value for an index, or a default. -/
def valueAt (w : World) (a : Argument) (type : ConfType)
    (read : Node a.arg.type → Except ConfFault α) (default : α) (idx : UInt32) :
    Except ConfFault α := do
  match (advance (← a.guarded w type) idx).head? with
  | some n => read n
  | none => return default

/-- The functions that return all values. -/
def valuesOf (w : World) (a : Argument) (type : ConfType)
    (read : Node a.arg.type → Except ConfFault α) : Except ConfFault (List α) := do
  (← a.guarded w type).foldlM (fun result n => do return result ++ [← read n]) []

/-- `Argument::stringValue`. -/
def stringValue (w : World) (a : Argument) (idx : UInt32) : Except ConfFault (Option CString) :=
  valueAt w a .string Node.string none idx

/-- `Argument::intValue`. -/
def intValue (w : World) (a : Argument) (idx : UInt32) : Except ConfFault Int32 :=
  valueAt w a .int32 Node.int32 0 idx

/-- `Argument::uintValue`. -/
def uintValue (w : World) (a : Argument) (idx : UInt32) : Except ConfFault UInt32 :=
  valueAt w a .uint32 Node.uint32 0 idx

/-- `Argument::stringValues`. -/
def stringValues (w : World) (a : Argument) : Except ConfFault (List (Option CString)) :=
  valuesOf w a .string Node.string

/-- `Argument::intValues`. -/
def intValues (w : World) (a : Argument) : Except ConfFault (List Int32) :=
  valuesOf w a .int32 Node.int32

/-- `Argument::uintValues`. -/
def uintValues (w : World) (a : Argument) : Except ConfFault (List UInt32) :=
  valuesOf w a .uint32 Node.uint32

end Loop

/-! What the loops come to. -/

section Loop
variable {w : World} {a : Argument} {type : ConfType} {read : Node a.arg.type → Except ConfFault α}
  {default : α} {idx : UInt32}

theorem Loop.valueAt_eq :
    Loop.valueAt w a type read default idx = (do
      match (← a.guarded w type)[idx.toNat]? with
      | none => return default
      | some n => read n) := by
  simp only [valueAt, advance_eq, List.head?_drop]
  congr 1
  funext nodes
  cases nodes[idx.toNat]? <;> rfl

theorem Loop.valuesOf_eq :
    Loop.valuesOf w a type read = (do (← a.guarded w type).mapM read) := by
  simp only [valuesOf, Except.foldlM_append]
  congr 1
  funext nodes
  cases nodes.mapM read <;> rfl

theorem Loop.numElements_eq (w : World) (a : Argument) :
    Loop.numElements w a = a.numElements w := by
  simp only [Loop.numElements, Argument.numElements]
  split_ifs
  · rfl
  · apply UInt32.toNat.inj
    rw [toNat_count, List.countP_true]
    simp

theorem Loop.stringValue_eq : Loop.stringValue w a idx = a.stringValue w idx := valueAt_eq

theorem Loop.intValue_eq : Loop.intValue w a idx = a.intValue w idx := valueAt_eq

theorem Loop.uintValue_eq : Loop.uintValue w a idx = a.uintValue w idx := valueAt_eq

theorem Loop.stringValues_eq : Loop.stringValues w a = a.stringValues w := valuesOf_eq

theorem Loop.intValues_eq : Loop.intValues w a = a.intValues w := valuesOf_eq

theorem Loop.uintValues_eq : Loop.uintValues w a = a.uintValues w := valuesOf_eq

end Loop

/-- The type is the alternate type of the option that the argument belongs to.  A null argument
need not belong to any. -/
def OfType (w : World) (a : Argument) (type : ConfType) : Prop :=
  a.isNull w = true ∨ w.typeOf a.opt = .ok type

/-- The nodes of the argument can be read as values of a type. -/
def Readable (w : World) (a : Argument) (type : ConfType) : Prop :=
  a.isNull w = true ∨ a.arg.type.member = type.member

/-- The functions for the values of one type agree, and return if the nodes can be read. -/
structure ValuesAgree (w : World) (a : Argument) (type : ConfType)
    (values : Except ConfFault (List α)) (value : UInt32 → Except ConfFault α) (default : α) :
    Prop where
  returns : Readable w a type → ∃ l, values = .ok l
  agree : ∀ l, values = .ok l →
    Agree (· = .ok default) (Loop.numElements w a) (l.map .ok) value

section Agreement
variable {w : World} {a : Argument} {type : ConfType}

/-- The nodes that the functions for the right type see are those that are counted. -/
theorem guarded_of_ofType (h : OfType w a type) : ∃ nodes, a.guarded w type = .ok nodes ∧
    Loop.numElements w a = count (fun _ => true) nodes 0 ∧
      (Readable w a type → nodes = [] ∨ a.arg.type.member = type.member) := by
  cases hnull : a.isNull w with
  | true =>
      refine ⟨[], ?_, ?_, fun _ => .inl rfl⟩
      · simp only [guarded, hnull]
        rfl
      · simp only [Loop.numElements, hnull, if_true]
        rfl
  | false =>
      have htype : w.typeOf a.opt = .ok type := by
        rcases h with hnull' | htype
        · rw [hnull] at hnull'
          cases hnull'
        · exact htype
      refine ⟨a.arg.nodes, ?_, ?_, ?_⟩
      · exact guarded_eq hnull htype
      · simp only [Loop.numElements, hnull, Bool.false_eq_true, if_false]
      · rintro (hnull' | hmember)
        · rw [hnull] at hnull'
          cases hnull'
        · exact .inr hmember

/-- The loops agree, for a type whose member of the union can be read from its nodes. -/
theorem valuesAgree_of {read : Node a.arg.type → Except ConfFault α} (default : α)
    (hread : ∀ n, Ensures (fun f => f = .wrongMember ∧ a.arg.type.member ≠ type.member) (read n)
      fun _ => a.arg.type.member = type.member)
    (h : OfType w a type) :
    ValuesAgree w a type (Loop.valuesOf w a type read)
      (fun idx => Loop.valueAt w a type read default idx) default := by
  obtain ⟨nodes, hguarded, hnum, hreadable⟩ := guarded_of_ofType h
  have hvalues : Loop.valuesOf w a type read = nodes.mapM read := by
    rw [Loop.valuesOf_eq, hguarded]
    rfl
  refine ⟨fun hr => ?_, fun l hl => ?_⟩
  · have hall : ∀ n ∈ nodes, Ensures (fun _ => False) (read n) fun _ => True := by
      intro n hn
      rcases hreadable hr with hnil | hmember
      · rw [hnil] at hn
        cases hn
      · exact (hread n).imp (fun _ hf => hf.2 hmember) fun _ _ => trivial
    obtain ⟨l, hl, -⟩ := (Ensures.mapM hall).exists_ok
    exact ⟨l, hvalues.trans hl⟩
  · let make : Option (Node a.arg.type) → Except ConfFault α
      | some n => read n
      | none => .ok default
    have hvalue : (fun idx => Loop.valueAt w a type read default idx) =
        fun idx => make (advance nodes idx).head? := by
      funext idx
      simp only [Loop.valueAt, hguarded, make]
      show (match (advance nodes idx).head? with
        | some n => read n
        | none => pure default) = _
      cases (advance nodes idx).head? <;> rfl
    have hcollect : l.map .ok = collect (fun _ => true) read nodes := by
      rw [hvalues, Except.mapM_eq_ok_iff] at hl
      rw [collect_eq, List.filter_true, hl]
    rw [hnum, hcollect, hvalue]
    exact agree_advance make rfl fun n _ => rfl

theorem agree_strings (h : OfType w a .string) :
    ValuesAgree w a .string (Loop.stringValues w a) (Loop.stringValue w a) none :=
  valuesAgree_of none Node.ensures_string h

theorem agree_ints (h : OfType w a .int32) :
    ValuesAgree w a .int32 (Loop.intValues w a) (Loop.intValue w a) 0 :=
  valuesAgree_of 0 Node.ensures_int32 h

theorem agree_uints (h : OfType w a .uint32) :
    ValuesAgree w a .uint32 (Loop.uintValues w a) (Loop.uintValue w a) 0 :=
  valuesAgree_of 0 Node.ensures_uint32 h

end Agreement

end Argument

end Gpgmepp.Configuration
