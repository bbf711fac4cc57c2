import Gpgmepp.CString
import Gpgmepp.Lib.Ensures

/-!
# Argument lists of gpgconf options

gpgme keeps the value of a gpgconf option in a list of nodes.  Each node has a union,
and which of its members is in use depends on the type the node was made with, which
the node does not tell: whoever reads, copies or releases it passes a type.  Here the
type is part of the node, `Node type`, and reading another member of the union is a
fault.

The functions of gpgme that make nodes are a parameter, `GpgmeConf`, with their
documented behaviour.

## Main definitions

* `ConfType`, `Value`, `Node`, `OptRecord` — types, unions, nodes and option records.
* `GpgmeConf` — gpgme as the sources use it; `GpgmeConf.documented` is one such library.
* `mygpgmeConfArgCopy`, `makeArgument`, `makeArgumentList`, `gpgmeConfArgRelease` — whole lists.
-/

namespace Gpgmepp.Configuration

/-- `gpgme_conf_type_t`, and `Configuration::Type`, which has the same values. -/
inductive ConfType
  | none | string | int32 | uint32
  | filename | ldapServer | keyFpr | pubKey | secKey | aliasList
  deriving DecidableEq

/-- The members of the union `value` of a node. -/
inductive Member | count | uint32 | int32 | string
  deriving DecidableEq

/-- The member that a type uses. -/
def ConfType.member : ConfType → Member
  | .none => .count
  | .uint32 => .uint32
  | .int32 => .int32
  | _ => .string

/-- The basic types, of which the alternate type of every option is one. -/
def ConfType.Basic (type : ConfType) : Prop := type ∈ [none, string, int32, uint32]

instance (type : ConfType) : Decidable type.Basic := inferInstanceAs (Decidable (_ ∈ _))

/-- The union `value`, with the member that was written last. -/
inductive Value
  | count (n : UInt32)
  | uint32 (n : UInt32)
  | int32 (n : Int32)
  /-- The string may be a null pointer. -/
  | string (s : Option CString)
  deriving DecidableEq

namespace Value

/-- The member in use. -/
def member : Value → Member
  | .count _ => .count
  | .uint32 _ => .uint32
  | .int32 _ => .int32
  | .string _ => .string

/-- A union of zero bytes. -/
def zero : Member → Value
  | .count => .count 0
  | .uint32 => .uint32 0
  | .int32 => .int32 0
  | .string => .string Option.none

@[simp] theorem member_zero (m : Member) : (zero m).member = m := by cases m <;> rfl

end Value

/-- A value of the member that `type` uses. -/
structure TypedValue (type : ConfType) where
  value : Value
  wf : value.member = type.member

/-- A node that was made with `type`. -/
structure Node (type : ConfType) where
  noArg : Bool
  value : Value
  wf : value.member = type.member

/-- `gpgme_conf_level_t`, and `Configuration::Level`, which has the same values. -/
inductive Level | basic | advanced | expert | invisible | internal
  deriving DecidableEq

/-- `struct gpgme_conf_opt`: an option with its values.  gpgme makes the nodes of all of
them with the alternate type. -/
structure OptRecord where
  name : Option CString
  flags : UInt32
  level : Level
  description : Option CString
  type : ConfType
  altType : ConfType
  argname : Option CString
  defaultValue : List (Node altType)
  defaultDescription : Option CString
  noArgValue : List (Node altType)
  noArgDescription : Option CString
  value : List (Node altType)
  changeValue : Bool
  newValue : List (Node altType)

/-- What a program must not do: use an option that was freed, read a member of a union
that is not in use, or name an object that does not exist. -/
inductive ConfFault | freedOption | wrongMember | noObject
  deriving DecidableEq

/-- The functions of gpgme for nodes and option records. -/
class GpgmeConf where
  /-- `gpgme_conf_arg_new(&arg, type, value)`, where `value` may be null; `memory` says
  whether there is memory for the node. -/
  confArgNew : (type : ConfType) → Option (TypedValue type) → (memory : Bool) →
    Option (Node type)
  confArgNew_noMemory : ∀ type value, confArgNew type value false = Option.none
  /-- A node without an argument is zero. -/
  confArgNew_null : ∀ type,
    confArgNew type Option.none true = some ⟨true, .zero type.member, Value.member_zero _⟩
  confArgNew_value : ∀ type v, confArgNew type (some v) true = some ⟨false, v.value, v.wf⟩
  /-- `gpgme_conf_opt_change(opt, reset, arg)`: its result, and the option after it. -/
  confOptChange : (opt : OptRecord) → (reset : Bool) → List (Node opt.altType) →
    UInt32 × OptRecord
  confOptChange_change : ∀ opt arg,
    confOptChange opt false arg = (0, { opt with changeValue := true, newValue := arg })
  confOptChange_reset : ∀ opt arg,
    confOptChange opt true arg = (0, { opt with changeValue := false, newValue := [] })

/-- gpgme as it is documented, to evaluate instances with. -/
abbrev GpgmeConf.documented : GpgmeConf where
  confArgNew type value memory :=
    match memory, value with
    | false, _ => Option.none
    | true, Option.none => some ⟨true, .zero type.member, Value.member_zero _⟩
    | true, some v => some ⟨false, v.value, v.wf⟩
  confArgNew_noMemory _ _ := rfl
  confArgNew_null _ := rfl
  confArgNew_value _ _ := rfl
  confOptChange opt reset arg :=
    if reset then (0, { opt with changeValue := false, newValue := [] })
    else (0, { opt with changeValue := true, newValue := arg })
  confOptChange_change _ _ := rfl
  confOptChange_reset _ _ := rfl

/-- With memory there is a node. -/
theorem GpgmeConf.exists_confArgNew [GpgmeConf] (type : ConfType)
    (value : Option (TypedValue type)) : ∃ arg, confArgNew type value true = some arg := by
  cases value with
  | none => exact ⟨_, confArgNew_null type⟩
  | some v => exact ⟨_, confArgNew_value type v⟩

/-- A string that is not null, as a value of a type that uses the string. -/
def TypedValue.chars {type : ConfType} (h : type.member = .string) (s : CString) :
    TypedValue type := ⟨.string (some s), h.symm⟩

/-! ## Reading a union -/

namespace Node

variable {type : ConfType}

/-- The value of a node, if it is in the member that `select` reads. -/
def read {α : Type} (select : Value → Option α) (a : Node type) : Except ConfFault α :=
  match select a.value with
  | some v => .ok v
  | Option.none => .error .wrongMember

/-- `a->value.string`. -/
def string (a : Node type) : Except ConfFault (Option CString) :=
  a.read fun | .string s => some s | _ => Option.none

/-- `a->value.int32`. -/
def int32 (a : Node type) : Except ConfFault Int32 :=
  a.read fun | .int32 n => some n | _ => Option.none

/-- `a->value.uint32`. -/
def uint32 (a : Node type) : Except ConfFault UInt32 :=
  a.read fun | .uint32 n => some n | _ => Option.none

/-- `a->value.count`. -/
def count (a : Node type) : Except ConfFault UInt32 :=
  a.read fun | .count n => some n | _ => Option.none

/-- What `mygpgme_conf_arg_copy` passes on of a node when it copies with the type `type'`:
null, the string, or the address of the union, which is right only for the types whose
value is in the union itself. -/
def passed (a : Node type) (type' : ConfType) : Except ConfFault (Option (TypedValue type')) :=
  if a.noArg then .ok Option.none
  else if h : type' = .string then
    match a.string with
    | .error f => .error f
    | .ok s => .ok (s.map (.chars (by rw [h]; rfl)))
  else if h : a.value.member = type'.member ∧ type'.member ≠ .string then
    .ok (some ⟨a.value, h.1⟩)
  else .error .wrongMember

/-- Reading member `m` is possible exactly for the types that use it. -/
theorem ensures_read {α : Type} {select : Value → Option α} {m : Member}
    (hselect : ∀ v, (select v).isSome ↔ v.member = m) (a : Node type) :
    Ensures (fun f => f = .wrongMember ∧ type.member ≠ m) (a.read select)
      fun _ => type.member = m := by
  have hwf := a.wf
  have hsome := hselect a.value
  simp only [read]
  cases hv : select a.value with
  | some v => simpa [hv, hwf] using hsome
  | none => simpa [hv, hwf] using hsome

theorem ensures_string (a : Node type) :
    Ensures (fun f => f = .wrongMember ∧ type.member ≠ .string) a.string
      fun _ => type.member = .string :=
  ensures_read (by rintro (_ | _ | _ | _) <;> simp [Value.member]) a

theorem ensures_int32 (a : Node type) :
    Ensures (fun f => f = .wrongMember ∧ type.member ≠ .int32) a.int32
      fun _ => type.member = .int32 :=
  ensures_read (by rintro (_ | _ | _ | _) <;> simp [Value.member]) a

theorem ensures_uint32 (a : Node type) :
    Ensures (fun f => f = .wrongMember ∧ type.member ≠ .uint32) a.uint32
      fun _ => type.member = .uint32 :=
  ensures_read (by rintro (_ | _ | _ | _) <;> simp [Value.member]) a

theorem ensures_count (a : Node type) :
    Ensures (fun f => f = .wrongMember ∧ type.member ≠ .count) a.count
      fun _ => type.member = .count :=
  ensures_read (by rintro (_ | _ | _ | _) <;> simp [Value.member]) a

/-- A node can be passed on with `type'`: it has no argument, or `type'` is basic and
uses the same member. -/
def Passable (a : Node type) (type' : ConfType) : Prop :=
  a.noArg = true ∨ (type.member = type'.member ∧ type'.Basic)

theorem ensures_passed (a : Node type) (type' : ConfType) :
    Ensures (fun f => f = .wrongMember ∧ ¬ a.Passable type') (a.passed type')
      fun _ => a.Passable type' := by
  have hwf := a.wf
  simp only [passed, Passable]
  split_ifs with hnoArg hstring hmember
  · exact .inl hnoArg
  · subst hstring
    have h := a.ensures_string
    cases hs : a.string with
    | ok s =>
        rw [hs] at h
        exact .inr ⟨h, by decide⟩
    | error f =>
        rw [hs] at h
        refine ⟨h.1, ?_⟩
        rintro (h' | h')
        · exact hnoArg h'
        · exact h.2 h'.1
  · refine .inr ⟨hwf.symm.trans hmember.1, ?_⟩
    revert hmember
    cases type' <;> simp [ConfType.member, ConfType.Basic]
  · refine ⟨rfl, ?_⟩
    rintro (h' | ⟨h', hbasic⟩)
    · exact hnoArg h'
    · refine hmember ⟨hwf.trans h', ?_⟩
      revert hbasic hstring
      cases type' <;> simp [ConfType.member, ConfType.Basic]

end Node

/-! ## Lists -/

section Lists
variable [GpgmeConf]

/-- The loop of `mygpgme_conf_arg_copy`, with the copies made so far.  `memory` says for
each call of `gpgme_conf_arg_new` whether there is memory.  When there is none, the
copies are released and the result is null. -/
def mygpgmeConfArgCopyLoop {s : ConfType} (type : ConfType) (memory : ℕ → Bool)
    (result : List (Node type)) : List (Node s) → Except ConfFault (List (Node type))
  | [] => .ok result
  | a :: as =>
      match a.passed type with
      | .error f => .error f
      | .ok value =>
          match GpgmeConf.confArgNew type value (memory result.length) with
          | Option.none => .ok []
          | some arg => mygpgmeConfArgCopyLoop type memory (result ++ [arg]) as

/-- `mygpgme_conf_arg_copy(other, type)`. -/
def mygpgmeConfArgCopy {s : ConfType} (type : ConfType) (memory : ℕ → Bool)
    (other : List (Node s)) : Except ConfFault (List (Node type)) :=
  mygpgmeConfArgCopyLoop type memory [] other

/-- `make_argument(type, value)`. -/
def makeArgument (type : ConfType) (memory : Bool) (value : Option (TypedValue type)) :
    List (Node type) :=
  (GpgmeConf.confArgNew type value memory).toList

/-- `make_argument(type, vector)`: the elements for which there is no memory are left
out. -/
def makeArgumentList (type : ConfType) : (memory : ℕ → Bool) → List (Option (TypedValue type)) →
    List (Node type)
  | _, [] => []
  | memory, v :: vs =>
      makeArgument type (memory 0) v ++ makeArgumentList type (fun i => memory (i + 1)) vs

/-- The nodes that the copy of a list comes to can be passed on with `type`. -/
def Copied {s : ConfType} (type : ConfType) (memory : ℕ → Bool) (other : List (Node s)) : Prop :=
  ∀ i a, other[i]? = some a → (∀ j < i, memory j = true) → a.Passable type

omit [GpgmeConf] in
theorem copied_cons {s type : ConfType} {memory : ℕ → Bool} {a : Node s} {as : List (Node s)} :
    Copied type memory (a :: as) ↔
      a.Passable type ∧ (memory 0 = true → Copied type (fun i => memory (i + 1)) as) := by
  constructor
  · intro h
    refine ⟨h 0 a rfl (by simp), ?_⟩
    intro h0 i b hb hmem
    apply h (i + 1) b hb
    rintro (_ | j) hj
    · exact h0
    · exact hmem j (by omega)
  · rintro ⟨ha, has⟩ (_ | i) b hb hmem
    · cases hb
      exact ha
    · exact has (hmem 0 (by omega)) i b hb fun j hj => hmem (j + 1) (by omega)

/-- **A list is copied, perhaps to null, exactly if the nodes that the copy comes to can be
passed on.** -/
theorem ensures_confArgCopy {s : ConfType} (type : ConfType) (memory : ℕ → Bool)
    (other : List (Node s)) :
    Ensures (fun f => f = .wrongMember ∧ ¬ Copied type memory other)
      (mygpgmeConfArgCopy type memory other) fun _ => Copied type memory other := by
  have hloop : ∀ result : List (Node type),
      Ensures (fun f => f = .wrongMember ∧
          ¬ Copied type (fun i => memory (result.length + i)) other)
        (mygpgmeConfArgCopyLoop type memory result other)
        fun _ => Copied type (fun i => memory (result.length + i)) other := by
    induction other with
    | nil => intro result; simp [mygpgmeConfArgCopyLoop, Copied]
    | cons a as ih =>
        intro result
        have ha := a.ensures_passed type
        simp only [mygpgmeConfArgCopyLoop, copied_cons, Nat.add_zero]
        cases hv : a.passed type with
        | error f =>
            rw [hv] at ha
            exact ⟨ha.1, fun h => ha.2 h.1⟩
        | ok v =>
            rw [hv, Ensures.ok_iff] at ha
            cases hm : memory result.length with
            | false =>
                simp only [GpgmeConf.confArgNew_noMemory]
                exact ⟨ha, by simp⟩
            | true =>
                obtain ⟨arg, harg⟩ := GpgmeConf.exists_confArgNew type v
                have hshift : (fun i => memory ((result ++ [arg]).length + i)) =
                    fun i => memory (result.length + (i + 1)) := by
                  funext i
                  simp only [List.length_append, List.length_singleton]
                  congr 1
                  omega
                have := ih (result ++ [arg])
                rw [hshift] at this
                simpa [harg, ha] using this
  simpa [mygpgmeConfArgCopy] using hloop []

theorem makeArgument_noMemory {type : ConfType} (value : Option (TypedValue type)) :
    makeArgument type false value = [] := by
  rw [makeArgument, GpgmeConf.confArgNew_noMemory]
  rfl

/-- A list that is made from values has a node if one of them finds memory. -/
theorem makeArgumentList_ne_nil {type : ConfType} {memory : ℕ → Bool}
    {vs : List (Option (TypedValue type))} :
    makeArgumentList type memory vs ≠ [] ↔ ∃ i < vs.length, memory i = true := by
  induction vs generalizing memory with
  | nil => simp [makeArgumentList]
  | cons v vs ih =>
      cases h0 : memory 0 with
      | true =>
          obtain ⟨arg, harg⟩ := GpgmeConf.exists_confArgNew type v
          simp only [makeArgumentList, makeArgument, h0, harg]
          exact ⟨fun _ => ⟨0, by simp, h0⟩, fun _ => by simp⟩
      | false =>
          rw [makeArgumentList, h0, makeArgument_noMemory, List.nil_append, ih]
          constructor
          · rintro ⟨i, hi, hmem⟩
            exact ⟨i + 1, by simpa using hi, hmem⟩
          · rintro ⟨_ | i, hi, hmem⟩
            · simp [h0] at hmem
            · exact ⟨i, by simpa using hi, hmem⟩

end Lists

/-- `gpgme_conf_arg_release(arg, type)`: the type tells what the nodes hold. -/
def gpgmeConfArgRelease {s : ConfType} (type : ConfType) (arg : List (Node s)) :
    Except ConfFault Unit :=
  if arg = [] ∨ s.member = type.member then .ok () else .error .wrongMember

end Gpgmepp.Configuration
