import Gpgmepp.Configuration.Values
import Mathlib.Data.Finset.Image
import Mathlib.Logic.Equiv.Basic

/-!
# Lists of values, there and back

A list of values is made into an argument, an option is set to it, and the new value of the
option is read.  The list goes through the function that makes its nodes, through a copy on
the way in and one on the way out, and through any number of copies and assignments after
that, and comes back as it was.  Two things do not come back: a `std::string` is handed to gpgme
up to its first zero byte, and the elements are counted in an `unsigned int`.

## Main definitions

* `ListValue` — the lists that arguments are made of, with their types and functions.
* `copiesOf` — the arguments that were copied or assigned from one, directly or not.
* `RoundTrips` — a list comes back, and all copies have it.
* `roundTrips_iff` — the lists that do.
-/

namespace Gpgmepp.Configuration

open StateMachine

/-- Every allocation finds memory. -/
def plenty : ℕ → Bool := fun _ => true

/-- What the functions that make a list are given. -/
inductive ListValue
  /-- How often an option without argument is set. -/
  | count (n : UInt32)
  | strings (vs : List (Option CString))
  | stdStrings (vs : List StdString)
  | ints (vs : List Int32)
  | uints (vs : List UInt32)

/-- The values of an argument, read all at once, counted, and read one by one, are `vs`. -/
structure Argument.Reads {α : Type} (w : World) (a : Argument)
    (values : Except ConfFault (List α)) (value : UInt32 → Except ConfFault α) (default : α)
    (vs : List α) : Prop where
  values : values = .ok vs
  numElements : (a.numElements w).toNat = vs.length
  value : ∀ idx, value idx = .ok (vs[idx.toNat]?.getD default)

namespace ListValue

/-- The type of the options that such lists are for. -/
def type : ListValue → ConfType
  | count _ => .none
  | strings _ => .string
  | stdStrings _ => .string
  | ints _ => .int32
  | uints _ => .uint32

/-- The function that makes an argument of the list. -/
def factory : ListValue → Factory
  | count n => .noneList n
  | strings vs => .stringList vs
  | stdStrings vs => .stdStringList vs
  | ints vs => .intList vs
  | uints vs => .uintList vs

/-- The list has an element, or the option is set at least once. -/
def NonEmpty : ListValue → Prop
  | count n => n ≠ 0
  | strings vs => vs ≠ []
  | stdStrings vs => vs ≠ []
  | ints vs => vs ≠ []
  | uints vs => vs ≠ []

/-- The argument reads as the list. -/
def ReadBy (w : World) (a : Argument) : ListValue → Prop
  | count n => a.numberOfTimesSet w = .ok n
  | strings vs => a.Reads w (a.stringValues w) (a.stringValue w) none vs
  | stdStrings vs => ∃ css : List CString, css.map CString.bytes = vs ∧
      a.Reads w (a.stringValues w) (a.stringValue w) none (css.map some)
  | ints vs => a.Reads w (a.intValues w) (a.intValue w) 0 vs
  | uints vs => a.Reads w (a.uintValues w) (a.uintValue w) 0 vs

/-- The list can be counted in an `unsigned int`, and its strings are C strings. -/
def Held : ListValue → Prop
  | count _ => True
  | strings vs => vs.length < 2 ^ 32
  | stdStrings vs => vs.length < 2 ^ 32 ∧ ∀ s ∈ vs, 0 ∉ s
  | ints vs => vs.length < 2 ^ 32
  | uints vs => vs.length < 2 ^ 32

end ListValue

/-! ## The nodes of a list -/

/-! Values are in the member of their type. -/

theorem member_zero_type (type : ConfType) : (Value.zero type.member).member = type.member :=
  Value.member_zero _

theorem member_count (n : UInt32) : (Value.count n).member = ConfType.none.member := rfl

theorem member_int32 (n : Int32) : (Value.int32 n).member = ConfType.int32.member := rfl

theorem member_uint32 (n : UInt32) : (Value.uint32 n).member = ConfType.uint32.member := rfl

/-- The node that gpgme makes of a value. -/
def Node.of {type : ConfType} : Option (TypedValue type) → Node type
  | none => ⟨true, .zero type.member, member_zero_type type⟩
  | some v => ⟨false, v.value, v.wf⟩

/-- Nodes that were made of values are read one by one. -/
theorem map_nodes {α β : Type} {type : ConfType} (encode : β → Option (TypedValue type))
    (read : Node type → Except ConfFault α) {decode : β → α}
    (h : ∀ v, read (Node.of (encode v)) = .ok (decode v)) (vs : List β) :
    ((vs.map encode).map Node.of).map read = vs.map fun v => .ok (decode v) := by
  simp [h]

namespace ListValue

/-- The values that are handed to gpgme. -/
def passed : (value : ListValue) → List (Option (TypedValue value.type))
  | count n => [some ⟨.count n, member_count n⟩]
  | strings vs => vs.map ConfOption.ofChars
  | stdStrings vs => vs.map fun s => ConfOption.ofChars (some (.cStr s))
  | ints vs => vs.map fun v => some ⟨.int32 v, member_int32 v⟩
  | uints vs => vs.map fun v => some ⟨.uint32 v, member_uint32 v⟩

/-- The list of gpgme. -/
def arg (value : ListValue) : ArgList := ⟨value.type, value.passed.map Node.of⟩

variable {value : ListValue}

theorem type_basic : value.type.Basic := by
  cases value <;> simp [type, ConfType.Basic]

theorem nodes_ne_nil (h : value.NonEmpty) : value.arg.nodes ≠ [] := by
  cases value with
  | count n => simp [arg, passed]
  | _ => simpa [arg, passed, type, NonEmpty] using h

end ListValue

/-! ## Copies -/

/-- No allocation of a copy or an assignment fails. -/
def Op.Plenty : Op → Prop
  | .copy _ _ memory => memory = plenty
  | .assign _ _ memory => memory = plenty
  | _ => True

/-- The copies of an argument after an operation, when they were `copies` before it. -/
def copiesAfter (copies : Finset ℕ) : Op → Finset ℕ
  | .copy x y _ => if y ∈ copies then insert x copies else copies
  | .assign x y _ => if y ∈ copies then insert x copies else copies.erase x
  | .swap x y => copies.image (Equiv.swap x y)
  | .destroy x => copies.erase x
  | _ => copies

/-- The copies of argument `y`, itself included, after some operations. -/
def copiesOf (y : ℕ) (ts : List Called) : Finset ℕ :=
  (ts.map Transition.input).foldl copiesAfter {y}

section RoundTrip
variable [GpgmeConf]

/-- Argument `z` is a faithful copy of `b`: it has the same list, and while the component is held
it reads as the list and can be copied again. -/
structure KeptBy (value : ListValue) (b : Argument) (u : World) (z : ℕ) : Prop where
  same : u.arguments z = some b
  read : u.expired b.comp = false → value.ReadBy u b
  copy : u.expired b.comp = false → b.copy u plenty = .ok b

/-- **The round trip** of a list through an option: the new and the current value of the option
read as the list, and so do all copies of them, whatever is done to other objects meanwhile. -/
def RoundTrips [LibGpgError] (w : World) (o : ConfOption) (value : ListValue) : Prop :=
  ∃ a w', value.factory.run w o plenty = .ok a ∧ o.setNewValue w a plenty = .ok (.none, w') ∧
    ∀ getter ∈ [Getter.newValue, .currentValue], ∃ b, getter.run w' o plenty = .ok b ∧
      value.ReadBy w' b ∧
      ∀ y ts u, Run step (w'.setArgument y (some b)) ts u → (∀ t ∈ ts, t.input.Plenty) →
        ∀ z ∈ copiesOf y ts, KeptBy value b u z

theorem confArgNew_true {type : ConfType} (value : Option (TypedValue type)) :
    GpgmeConf.confArgNew type value true = some (Node.of value) := by
  cases value with
  | none => exact GpgmeConf.confArgNew_null type
  | some v => exact GpgmeConf.confArgNew_value type v

theorem makeArgument_true {type : ConfType} (value : Option (TypedValue type)) :
    makeArgument type true value = [Node.of value] := by
  rw [makeArgument, confArgNew_true]
  rfl

theorem length_makeArgumentList_le {type : ConfType} (memory : ℕ → Bool)
    (vs : List (Option (TypedValue type))) :
    (makeArgumentList type memory vs).length ≤ vs.length := by
  induction vs generalizing memory with
  | nil => exact le_rfl
  | cons v vs ih =>
      have htail := ih fun i => memory (i + 1)
      have hhead : (makeArgument type (memory 0) v).length ≤ 1 := Option.length_toList_le
      rw [makeArgumentList, List.length_append, List.length_cons]
      omega

/-- All nodes are made exactly if there is memory for all of them. -/
theorem makeArgumentList_eq_iff {type : ConfType} {memory : ℕ → Bool}
    {vs : List (Option (TypedValue type))} :
    makeArgumentList type memory vs = vs.map Node.of ↔ ∀ i < vs.length, memory i = true := by
  induction vs generalizing memory with
  | nil => simp [makeArgumentList]
  | cons v vs ih =>
      rw [makeArgumentList, List.map_cons]
      cases h0 : memory 0 with
      | false =>
          rw [makeArgument_noMemory, List.nil_append]
          refine iff_of_false (fun heq => ?_) fun hall => ?_
          · have hle := length_makeArgumentList_le (fun i => memory (i + 1)) vs
            rw [heq, List.length_cons, List.length_map] at hle
            omega
          · have := hall 0 (by simp)
            rw [h0] at this
            cases this
      | true =>
          rw [makeArgument_true, List.singleton_append, List.cons.injEq, ih]
          simp only [true_and]
          constructor
          · rintro hall (_ | i) hi
            · exact h0
            · exact hall i (by simpa using hi)
          · exact fun hall i hi => hall (i + 1) (by simpa using hi)

theorem makeArgumentList_plenty {type : ConfType} (vs : List (Option (TypedValue type))) :
    makeArgumentList type plenty vs = vs.map Node.of :=
  makeArgumentList_eq_iff.mpr fun _ _ => rfl

namespace ListValue

/-- The list that is made of the values. -/
theorem run_factory {value : ListValue} (w : World) (o : ConfOption) (h : value.NonEmpty) :
    value.factory.run w o plenty = .ok (o.owning w value.arg) := by
  cases value with
  | count n =>
      have hcount : n ≠ 0 := h
      simp only [factory, Factory.run, ConfOption.createNoneListArgument, if_pos hcount,
        makeArgument, plenty, confArgNew_true]
      rfl
  | _ =>
      simp only [factory, Factory.run, ConfOption.createStringListArgument,
        ConfOption.createStdStringListArgument, ConfOption.createIntListArgument,
        ConfOption.createUIntListArgument, ConfOption.createListArgument, makeArgumentList_plenty]
      rfl

/-- The nodes of the list are made by gpgme. -/
theorem made (value : ListValue) : Made value.arg.nodes := by
  have hvalue : ∀ p ∈ value.passed, ∀ v, p = some v → v.value ≠ .string none := by
    cases value with
    | count n => simp [passed]
    | strings vs =>
        intro p hp
        obtain ⟨s, -, rfl⟩ := List.mem_map.mp hp
        exact ne_null_ofChars s
    | stdStrings vs =>
        intro p hp
        obtain ⟨s, -, rfl⟩ := List.mem_map.mp hp
        exact ne_null_ofChars (some (.cStr s))
    | ints vs => simp [passed]
    | uints vs => simp [passed]
  intro a ha
  obtain ⟨p, hp, rfl⟩ := List.mem_map.mp ha
  exact made_confArgNew (confArgNew_true p) (hvalue p hp)

end ListValue

/-- With memory, a list that was made by gpgme with a basic type can be copied. -/
theorem copyable_of_made {type : ConfType} {l : List (Node type)} (hl : Made l)
    (htype : type.Basic) : Copyable l := by
  intro memory hmemory
  refine confArgCopyLoop_eq hl (fun a _ => ?_) (by simpa using hmemory)
  have hpassable := a.ensures_passed type
  cases hpassed : a.passed type with
  | ok value => exact ⟨value, rfl⟩
  | error f =>
      rw [hpassed] at hpassable
      exact absurd (.inr ⟨rfl, htype⟩) hpassable.2

/-! ## Reading a list -/

section Read
omit [GpgmeConf]

variable {w : World} {a : Argument}

/-- All nodes are read at once. -/
theorem values_eq_of_nodes {α : Type} {type : ConfType}
    {read : Node a.arg.type → Except ConfFault α} {vs : List α} (hnull : a.isNull w = false)
    (htype : w.typeOf a.opt = .ok type)
    (hread : a.arg.nodes.map read = vs.map .ok) :
    (a.guarded w type >>= fun nodes => nodes.mapM read) = .ok vs := by
  rw [Argument.guarded_eq hnull htype]
  exact Except.mapM_eq_ok_iff.mpr hread

/-- The accessors of one type read a list of values exactly if it can be counted. -/
theorem reads_iff {α : Type} {type : ConfType} {read : Node a.arg.type → Except ConfFault α}
    {vs : List α} (default : α) (hnull : a.isNull w = false) (htype : w.typeOf a.opt = .ok type)
    (hread : a.arg.nodes.map read = vs.map .ok) :
    a.Reads w (a.guarded w type >>= fun nodes => nodes.mapM read)
        (fun idx => a.guarded w type >>= fun nodes =>
          match nodes[idx.toNat]? with
          | none => pure default
          | some n => read n) default vs ↔ vs.length < 2 ^ 32 := by
  have hlength : a.arg.nodes.length = vs.length := by simpa using congrArg List.length hread
  have hcount : (a.numElements w).toNat = vs.length % 2 ^ 32 := by
    simp [Argument.numElements, hnull, hlength]
  constructor
  · intro h
    have := h.numElements
    rw [hcount] at this
    omega
  · intro hcounted
    refine ⟨values_eq_of_nodes hnull htype hread, hcount.trans (Nat.mod_eq_of_lt hcounted), ?_⟩
    intro idx
    have hget : (a.arg.nodes[idx.toNat]?).map read = (vs[idx.toNat]?).map .ok := by
      rw [← List.getElem?_map, hread, List.getElem?_map]
    rw [Argument.guarded_eq hnull htype]
    show (match a.arg.nodes[idx.toNat]? with
      | none => pure default
      | some n => read n) = _
    cases hnode : a.arg.nodes[idx.toNat]? with
    | none =>
        cases hv : vs[idx.toNat]? with
        | none => rfl
        | some v => simp [hnode, hv] at hget
    | some n =>
        cases hv : vs[idx.toNat]? with
        | none => simp [hnode, hv] at hget
        | some v => simpa [hnode, hv] using hget

/-- The pointer that the source has for a string, in a node, is read back. -/
theorem string_ofChars (s : Option CString) :
    (Node.of (ConfOption.ofChars s)).string = .ok s := by
  cases s with
  | none => rfl
  | some s => rfl

/-- An argument with C strings in place of strings reads as the strings exactly if they can be
counted and are the same. -/
theorem readBy_stdStrings_iff {vs : List StdString} (hnull : a.isNull w = false)
    (htype : w.typeOf a.opt = .ok .string)
    (hread : a.arg.nodes.map Node.string =
      (vs.map fun s => some (CString.cStr s)).map .ok) :
    (ListValue.stdStrings vs).ReadBy w a ↔ (ListValue.stdStrings vs).Held := by
  have hcounted := reads_iff none hnull htype hread
  rw [List.length_map] at hcounted
  have hself : (vs.map CString.cStr).map CString.bytes = vs ↔ ∀ s ∈ vs, 0 ∉ s := by
    rw [List.map_map]
    nth_rewrite 2 [← List.map_id vs]
    rw [List.map_inj_left]
    exact forall₂_congr fun _ _ => CString.bytes_cStr_iff
  constructor
  · rintro ⟨css, hbytes, h⟩
    have hcss : vs.map (fun s => some (CString.cStr s)) = css.map some :=
      Except.ok.inj ((values_eq_of_nodes hnull htype hread).symm.trans h.values)
    have hcss' : vs.map CString.cStr = css := by
      refine List.map_injective_iff.mpr (Option.some_injective _) ?_
      rw [List.map_map]
      exact hcss
    rw [← hcss'] at hbytes
    exact ⟨hcounted.mp (hcss ▸ h), hself.mp hbytes⟩
  · rintro ⟨hlength, hstrings⟩
    refine ⟨vs.map CString.cStr, hself.mpr hstrings, ?_⟩
    rw [List.map_map]
    exact hcounted.mpr hlength

/-- **An argument with a list of values reads as the list** exactly if the list can be counted and
its strings are C strings. -/
theorem readBy_iff {value : ListValue} (harg : a.arg = value.arg) (hnull : a.isNull w = false)
    (htype : w.typeOf a.opt = .ok value.type) : value.ReadBy w a ↔ value.Held := by
  obtain ⟨comp, opt, arg⟩ := a
  simp only at harg
  cases value with
  | count n =>
      refine iff_of_true ?_ trivial
      have hguarded := Argument.guarded_eq hnull htype
      subst harg
      exact congrArg (· >>= _) hguarded
  | strings vs =>
      apply reads_iff _ hnull htype
      subst harg
      exact map_nodes ConfOption.ofChars Node.string string_ofChars vs
  | stdStrings vs =>
      apply readBy_stdStrings_iff hnull htype
      subst harg
      rw [List.map_map]
      exact map_nodes (fun s => ConfOption.ofChars (some (.cStr s))) Node.string
        (fun s => string_ofChars (some (.cStr s))) vs
  | ints vs =>
      apply reads_iff _ hnull htype
      subst harg
      exact map_nodes (fun v => some ⟨.int32 v, rfl⟩) Node.int32 (fun _ => rfl) vs
  | uints vs =>
      apply reads_iff _ hnull htype
      subst harg
      exact map_nodes (fun v => some ⟨.uint32 v, rfl⟩) Node.uint32 (fun _ => rfl) vs

end Read

/-! ## Setting an option, and getting the value -/

section Set
variable {w : World} {o : ConfOption} {r : Ref} {rec : OptRecord} {arg : ArgList}

omit [GpgmeConf] in
theorem lock_setRecord (r : Ref) (rec : OptRecord) (comp : Option ℕ) :
    (w.setRecord r rec).lock comp = w.lock comp := by
  cases comp with
  | none => rfl
  | some c => simp only [World.lock, alive_setRecord]

omit [GpgmeConf] in
/-- An argument that an option makes of a list is not null. -/
theorem isNull_owning (hlive : o.isNull w = false) (hne : arg.nodes ≠ []) :
    (o.owning w arg).isNull w = false := by
  simp only [ConfOption.isNull, Bool.or_eq_false_iff, World.expired] at hlive
  simp [Argument.isNull, ConfOption.owning, World.expired, hlive, hne]

/-- **An option that is set to a list of its type** has the list as its new and its current
value. -/
theorem setNewValue_owning [LibGpgError] (hlive : o.isNull w = false)
    (hrecord : o.record w = .ok (some (r, rec))) (htype : arg.type = rec.altType)
    (hne : arg.nodes ≠ []) (hcopy : Copyable arg.nodes) :
    ∃ rec', rec'.altType = rec.altType ∧
      o.setNewValue w (o.owning w arg) plenty = .ok (.none, w.setRecord r rec') ∧
      ∀ getter ∈ [Getter.newValue, .currentValue],
        getter.run (w.setRecord r rec') o plenty = .ok (o.owning w arg) := by
  have hnull := isNull_owning hlive hne
  obtain ⟨type, nodes⟩ := arg
  subst htype
  let rec' := { rec with changeValue := true, newValue := nodes }
  obtain ⟨hopt, hrec⟩ := ConfOption.deref_of_record hrecord
  have hrecord' : o.record (w.setRecord r rec') = .ok (some (r, rec')) := by
    refine record_eq hopt ?_ (deref_setRecord_self hrec)
    simpa only [ConfOption.isNull, World.expired, lock_setRecord] using hlive
  have hempty : nodes.isEmpty = false := by simpa using hne
  refine ⟨rec', rfl, ?_, ?_⟩
  · have hcopied : mygpgmeConfArgCopy rec.altType plenty
        (o.owning w ⟨rec.altType, nodes⟩).arg.nodes = .ok nodes := hcopy plenty fun _ _ => rfl
    simp only [ConfOption.setNewValue, hrecord, bind, Except.bind, hnull, hcopied, hempty,
      Bool.false_eq_true, if_false, (change_eq w r rec nodes).1]
    rfl
  · have hcopied : mygpgmeConfArgCopy rec'.altType plenty rec'.newValue = .ok nodes :=
      hcopy plenty fun _ _ => rfl
    have hcurrent : ConfOption.current rec' = rec'.newValue := by
      simp [ConfOption.current, rec', hne]
    have hnew : o.newValue (w.setRecord r rec') plenty =
        .ok (o.owning w ⟨rec.altType, nodes⟩) := by
      rw [ConfOption.newValue, valueOf_eq hrecord', hcopied, lock_setRecord]
      rfl
    intro getter hgetter
    rcases List.mem_pair.mp hgetter with rfl | rfl
    · exact hnew
    · exact (valueOf_congr hrecord' hcurrent plenty).trans hnew

end Set

/-! ## Copies over runs -/

section Runs
variable {w w' : World} {b : Argument} {copies : Finset ℕ} {op : Op} {out : Output}

/-- With memory, a copy is the same argument. -/
theorem copy_eq (hcopy : Copyable b.arg.nodes) (htype : w.typeOf b.opt = .ok b.arg.type) :
    b.copy w plenty = .ok b := by
  simp only [Argument.copy, Argument.copyOf, htype, bind, Except.bind,
    hcopy plenty fun _ _ => rfl]
  rfl

/-- A copy of an argument of the type of its option is the same argument, or not made. -/
theorem ensures_copy (hcopy : Copyable b.arg.nodes)
    (htyped : w.Usable b.opt → w.typeOf b.opt = .ok b.arg.type) :
    Ensures (fun _ => True) (b.copy w plenty) fun a => a = b := by
  by_cases husable : w.Usable b.opt
  · rw [copy_eq hcopy (htyped husable)]
    rfl
  · refine Ensures.value.bind fun type htype => ?_
    exact absurd (World.usable_of_typeOf htype) husable

omit [GpgmeConf] in
theorem arguments_setArgument (w : World) (x : ℕ) (a : Option Argument) (z : ℕ) :
    (w.setArgument x a).arguments z = if z = x then a else w.arguments z :=
  Function.update_apply ..

omit [GpgmeConf] in
/-- A new argument is none of those that there are. -/
theorem ensures_construct_other (hcopies : ∀ z ∈ copies, w.arguments z = some b) (x : ℕ)
    (a : Argument) : Ensures (fun _ => True) (w.construct x a) fun p =>
      p.2.arguments x = some a ∧ ∀ z ∈ copies, p.2.arguments z = some b := by
  simp only [World.construct]
  cases hx : w.arguments x with
  | some a' => trivial
  | none =>
      refine ⟨by simp [arguments_setArgument], fun z hz => ?_⟩
      have hzx : z ≠ x := by
        rintro rfl
        cases hx.symm.trans (hcopies z hz)
      simp [arguments_setArgument, hzx, hcopies z hz]

omit [GpgmeConf] in
/-- Setting an argument leaves the others. -/
theorem arguments_of_mem_erase (hcopies : ∀ z ∈ copies, w.arguments z = some b) (x : ℕ)
    (a : Option Argument) : ∀ z ∈ copies.erase x, (w.setArgument x a).arguments z = some b := by
  intro z hz
  obtain ⟨hzx, hz⟩ := Finset.mem_erase.mp hz
  rw [arguments_setArgument, if_neg hzx, hcopies z hz]

section Step
variable [LibGpgError]

/-- A copy of a copy is one. -/
theorem ensures_copies_copy (hcopy : Copyable b.arg.nodes)
    (htyped : w.Usable b.opt → w.typeOf b.opt = .ok b.arg.type)
    (hcopies : ∀ z ∈ copies, w.arguments z = some b) (x y : ℕ) :
    Ensures (fun _ => True) (step w (.copy x y plenty)) fun p =>
      ∀ z ∈ copiesAfter copies (.copy x y plenty), p.2.arguments z = some b := by
  refine (ensures_argument trivial y).bind fun b' hb' => ?_
  by_cases hy : y ∈ copies
  · obtain rfl := Option.some.inj ((hcopies y hy).symm.trans hb')
    refine (ensures_copy hcopy htyped).bind ?_
    rintro _ rfl
    refine (ensures_construct_other hcopies x _).mono fun p h => ?_
    simpa [copiesAfter, hy] using h
  · refine Ensures.any.bind fun a _ => ?_
    refine (ensures_construct_other hcopies x a).mono fun p h => ?_
    simpa [copiesAfter, hy] using h.2

/-- An argument that is assigned a copy is one, and one that is assigned something else is not. -/
theorem ensures_copies_assign (hcopy : Copyable b.arg.nodes)
    (htyped : w.Usable b.opt → w.typeOf b.opt = .ok b.arg.type)
    (hcopies : ∀ z ∈ copies, w.arguments z = some b) (x y : ℕ) :
    Ensures (fun _ => True) (step w (.assign x y plenty)) fun p =>
      ∀ z ∈ copiesAfter copies (.assign x y plenty), p.2.arguments z = some b := by
  refine Ensures.any.bind fun _ _ => (ensures_argument trivial y).bind fun b' hb' => ?_
  by_cases hxy : x = y
  · subst hxy
    simp only [if_true]
    intro z hz
    apply hcopies z
    by_cases hx : x ∈ copies
    · simpa [copiesAfter, hx] using hz
    · simpa [copiesAfter, hx] using hz
  · simp only [hxy]
    by_cases hy : y ∈ copies
    · obtain rfl := Option.some.inj ((hcopies y hy).symm.trans hb')
      refine (ensures_copy hcopy htyped).bind ?_
      rintro _ rfl
      refine Ensures.any.bind fun _ _ z hz => ?_
      by_cases hzx : z = x
      · simp [arguments_setArgument, hzx]
      · exact arguments_of_mem_erase hcopies x _ z (by simpa [copiesAfter, hy, hzx] using hz)
    · refine Ensures.any.bind fun _ _ => Ensures.any.bind fun _ _ z hz => ?_
      exact arguments_of_mem_erase hcopies x _ z (by simpa [copiesAfter, hy] using hz)

/-- Arguments that are swapped change places. -/
theorem ensures_copies_swap (hcopies : ∀ z ∈ copies, w.arguments z = some b) (x y : ℕ) :
    Ensures (fun _ => True) (step w (.swap x y)) fun p =>
      ∀ z ∈ copiesAfter copies (.swap x y), p.2.arguments z = some b := by
  refine (ensures_argument trivial x).bind fun a ha => ?_
  refine (ensures_argument trivial y).bind fun a' ha' => ?_
  intro z' hz'
  obtain ⟨z, hz, rfl⟩ := Finset.mem_image.mp hz'
  have hzb := hcopies z hz
  show ((w.setArgument x (some a')).setArgument y (some a)).arguments _ = some b
  by_cases hzx : z = x
  · rw [hzx, Equiv.swap_apply_left, arguments_setArgument, if_pos rfl, ← ha, ← hzx, hzb]
  · by_cases hzy : z = y
    · have hxy : x ≠ y := fun h => hzx (hzy.trans h.symm)
      rw [hzy, Equiv.swap_apply_right, arguments_setArgument, if_neg hxy,
        arguments_setArgument, if_pos rfl, ← ha', ← hzy, hzb]
    · rw [Equiv.swap_apply_of_ne_of_ne hzx hzy, arguments_setArgument, if_neg hzy,
        arguments_setArgument, if_neg hzx, hzb]

/-- An operation that sets or resets an option leaves all arguments. -/
theorem ensures_arguments_of_changes (hmade : w.Made) {v : ℕ} (hv : op.changes = some v) :
    Ensures (fun _ => True) (step w op) fun p => p.2.arguments = w.arguments := by
  refine (settles_step hmade hv).mono ?_
  rintro p (⟨e, -, rfl⟩ | ⟨r, rec, rec', c, -, -, rfl, -⟩)
  · rfl
  · rfl

/-- **One operation**: what was copied is the same argument. -/
theorem ensures_copies (hmade : w.Made) (hcopy : Copyable b.arg.nodes)
    (htyped : w.Usable b.opt → w.typeOf b.opt = .ok b.arg.type)
    (hcopies : ∀ z ∈ copies, w.arguments z = some b) (hop : op.Plenty) :
    Ensures (fun _ => True) (step w op) fun p =>
      ∀ z ∈ copiesAfter copies op, p.2.arguments z = some b := by
  have hany : ∀ {α : Type} {x : Except ConfFault α}
      {f : α → Except ConfFault (Output × World)} {Q : Output × World → Prop},
      (∀ a, Ensures (fun _ => True) (f a) Q) →
      Ensures (fun _ => True) (x >>= f) Q := fun h => Ensures.any.bind fun a _ => h a
  cases op with
  | hold c | drop c =>
      simp only [step]
      split_ifs
      · exact hcopies
      · trivial
  | option v c i =>
      simp only [step]
      split_ifs <;> first | exact hcopies | trivial
  | assignOption v u => exact hcopies
  | optionParent v =>
      simp only [step]
      cases w.lock (w.options v).comp <;> exact hcopies
  | parent v x => exact hany fun _ => hcopies
  | property v property => exact hany fun _ => hcopies
  | setNewValue v x memory =>
      exact (ensures_arguments_of_changes hmade rfl).mono fun p h => by rwa [h]
  | resetToDefaultValue v | resetToActiveValue v =>
      exact (ensures_arguments_of_changes hmade rfl).mono fun p h => by rwa [h]
  | newArgument x => exact (ensures_construct_other hcopies x _).mono fun _ h => h.2
  | get x v getter memory =>
      exact hany fun a => (ensures_construct_other hcopies x a).mono fun _ h => h.2
  | create x v factory memory =>
      exact hany fun a => (ensures_construct_other hcopies x a).mono fun _ h => h.2
  | copy x y memory =>
      obtain rfl : memory = plenty := hop
      exact ensures_copies_copy hcopy htyped hcopies x y
  | assign x y memory =>
      obtain rfl : memory = plenty := hop
      exact ensures_copies_assign hcopy htyped hcopies x y
  | swap x y => exact ensures_copies_swap hcopies x y
  | destroy x => exact hany fun _ => hany fun _ => arguments_of_mem_erase hcopies x none
  | access x accessor => exact hany fun _ => hany fun _ => hcopies

end Step

/-- **Every run**: what was copied is the same argument. -/
theorem copies_of_run [LibGpgError] {y : ℕ} {ts : List Called} (hlinked : w.Linked)
    (hmade : w.Made) (hcopy : Copyable b.arg.nodes) (hne : b.arg.nodes ≠ [])
    (htyped : w.Typed b.opt b.arg) (hy : w.arguments y = some b) (hrun : Run step w ts w')
    (hplenty : ∀ t ∈ ts, t.input.Plenty) :
    (w'.Linked ∧ w'.Typed b.opt b.arg) ∧ ∀ z ∈ copiesOf y ts, w'.arguments z = some b := by
  have hall := hrun.history (fun ts u => (u.Linked ∧ u.Typed b.opt b.arg ∧ u.Made) ∧
    ((∀ t ∈ ts, t.input.Plenty) → ∀ z ∈ copiesOf y ts, u.arguments z = some b)) ?_ ?_
  · exact ⟨⟨hall.1.1, hall.1.2.1⟩, hall.2 hplenty⟩
  · refine ⟨⟨hlinked, htyped, hmade⟩, fun _ z hz => ?_⟩
    obtain rfl : z = y := by simpa [copiesOf] using hz
    exact hy
  · rintro ts u op out u' - ⟨⟨hlinked, htyped, hmade⟩, ih⟩ hstep
    have heffect := (ensures_step hlinked op).of_ok hstep
    refine ⟨⟨heffect.linked hlinked, heffect.later.typed htyped, made_step hmade hstep⟩, ?_⟩
    intro hplenty z hz
    have hcopies := ih fun t ht => hplenty t (by simp [ht])
    refine (ensures_copies hmade hcopy (htyped hne) hcopies ?_).of_ok hstep z ?_
    · exact hplenty ⟨u, op, out, u'⟩ (by simp)
    · simpa [copiesOf] using hz

end Runs

/-! ## The round trip -/

section Law
variable [LibGpgError] {w : World} {o : ConfOption} {value : ListValue}

/-- An argument with a list is made, set, and got back. -/
theorem exists_setNewValue (hlinked : w.Linked) (hmade : w.Made) (hp : w.Points o.comp o.opt)
    (hlive : o.isNull w = false) (htype : o.alternateType w = .ok value.type)
    (hne : value.NonEmpty) :
    ∃ w', (w'.Linked ∧ w'.Made) ∧
      o.setNewValue w (o.owning w value.arg) plenty = .ok (.none, w') ∧
      (∀ getter ∈ [Getter.newValue, .currentValue],
        getter.run w' o plenty = .ok (o.owning w value.arg)) ∧
      w'.Points (w.lock o.comp) o.opt ∧ w'.typeOf o.opt = .ok value.type ∧
      (o.owning w value.arg).isNull w' = false := by
  obtain ⟨p, -, hrecord, hsome⟩ := (ConfOption.ensures_record hp).exists_ok
  obtain ⟨r, rec, rfl⟩ := hsome hlive
  obtain ⟨alt, halt, htypeOf⟩ := (ConfOption.ensures_alternateType hp).exists_ok
  obtain rfl : value.type = alt := Except.ok.inj (htype.symm.trans halt)
  have haltType : value.type = rec.altType :=
    Except.ok.inj ((htypeOf hlive).symm.trans (ConfOption.typeOf_of_record hrecord))
  have hnodes := value.nodes_ne_nil hne
  obtain ⟨rec', haltType', hset, hget⟩ := setNewValue_owning hlive hrecord haltType hnodes
    (copyable_of_made value.made value.type_basic)
  have hrec := (ConfOption.deref_of_record hrecord).2
  have heffect : Effect w (.resetToDefaultValue 0) (w.setRecord r rec') :=
    .record r rec rec' hrec haltType'
  have husable : (w.setRecord r rec').Usable o.opt := by
    intro r' hr'
    rw [alive_setRecord]
    exact World.usable_of_typeOf (htypeOf hlive) r' hr'
  have hlive' : o.isNull (w.setRecord r rec') = false := by
    simpa only [ConfOption.isNull, World.expired, lock_setRecord] using hlive
  have howning : o.owning (w.setRecord r rec') value.arg = o.owning w value.arg := by
    simp only [ConfOption.owning, lock_setRecord]
  refine ⟨w.setRecord r rec', ⟨heffect.linked hlinked, hmade⟩, hset, hget,
    heffect.later.points hp.lock, ?_, howning ▸ isNull_owning hlive' hnodes⟩
  rw [heffect.later.typeOf_eq husable, htypeOf hlive]

/-- The lists that come back. -/
theorem held_of_roundTrips (hlinked : w.Linked) (hmade : w.Made) (hp : w.Points o.comp o.opt)
    (hlive : o.isNull w = false) (htype : o.alternateType w = .ok value.type)
    (hne : value.NonEmpty) (h : RoundTrips w o value) : value.Held := by
  obtain ⟨w', -, hset, hget, -, htype', hnull⟩ :=
    exists_setNewValue hlinked hmade hp hlive htype hne
  obtain ⟨a, w₁, ha, hset₁, hget₁⟩ := h
  obtain rfl := Except.ok.inj ((value.run_factory w o hne).symm.trans ha)
  obtain rfl := (Prod.mk.inj (Except.ok.inj (hset.symm.trans hset₁))).2
  obtain ⟨b, hb, hread, -⟩ := hget₁ .newValue (by simp)
  obtain rfl := Except.ok.inj ((hget .newValue (by simp)).symm.trans hb)
  exact (readBy_iff rfl hnull htype').mp hread

/-- **Every run** from an argument with a list: its copies have the list. -/
theorem keptBy_of_run {w u : World} {b : Argument} {y : ℕ} {ts : List Called} (hlinked : w.Linked)
    (hmade : w.Made) (hp : w.Points b.comp b.opt) (harg : b.arg = value.arg)
    (hnull : b.isNull w = false) (htype : w.typeOf b.opt = .ok value.type) (hne : value.NonEmpty)
    (hheld : value.Held) (hrun : Run step (w.setArgument y (some b)) ts u)
    (hplenty : ∀ t ∈ ts, t.input.Plenty) :
    ∀ z ∈ copiesOf y ts, KeptBy value b u z := by
  have hnodes : b.arg.nodes ≠ [] := harg ▸ value.nodes_ne_nil hne
  have hb : Made b.arg.nodes := harg ▸ value.made
  have hcopy : Copyable b.arg.nodes := copyable_of_made hb (harg ▸ value.type_basic)
  have htyped : w.Typed b.opt b.arg := fun _ _ => harg ▸ htype
  have heffect : Effect w (.newArgument y) (w.setArgument y (some b)) :=
    .construct y b hp fun _ => htyped
  obtain ⟨⟨hlinked', htyped'⟩, hcopies⟩ := copies_of_run (heffect.linked hlinked)
    (hmade.setArgument fun a ha => Option.some.inj ha ▸ hb) hcopy hnodes
    (heffect.later.typed htyped) ((arguments_setArgument ..).trans (if_pos rfl)) hrun hplenty
  intro z hz
  have hzb := hcopies z hz
  have htype' : u.expired b.comp = false → u.typeOf b.opt = .ok b.arg.type := fun hexpired =>
    htyped' hnodes ((hlinked'.arguments z b hzb).usable hexpired)
  refine ⟨hzb, fun hexpired => ?_, fun hexpired => copy_eq hcopy (htype' hexpired)⟩
  refine (readBy_iff harg ?_ ?_).mpr hheld
  · simp only [Argument.isNull, Bool.or_eq_false_iff] at hnull
    simp only [Argument.isNull, hexpired, hnull, Bool.or_self]
  · rw [htype' hexpired, harg]
    rfl

/-- **A list comes back through every live option of its type**, and all copies have it, exactly if
it can be counted in an `unsigned int` and its strings have no zero byte. -/
theorem roundTrips_iff {w₀ : World} {pre : List Called} {v : ℕ} (h0 : w₀.Initial)
    (hpre : Run step w₀ pre w) (hlive : (w.options v).isNull w = false)
    (htype : (w.options v).alternateType w = .ok value.type) (hne : value.NonEmpty) :
    RoundTrips w (w.options v) value ↔ value.Held := by
  have hlinked := linked_of_run h0 hpre
  have hmade := made_of_run h0 hpre
  have hp := hlinked.options v
  refine ⟨held_of_roundTrips hlinked hmade hp hlive htype hne, fun hheld => ?_⟩
  obtain ⟨w', ⟨hlinked', hmade'⟩, hset, hget, hp', htype', hnull⟩ :=
    exists_setNewValue hlinked hmade hp hlive htype hne
  refine ⟨_, w', value.run_factory w _ hne, hset, fun getter hgetter => ?_⟩
  refine ⟨_, hget getter hgetter, ?_⟩
  refine ⟨(readBy_iff rfl hnull htype').mpr hheld, fun y ts u hrun hplenty => ?_⟩
  exact keptBy_of_run hlinked' hmade' hp' rfl hnull htype' hne hheld hrun hplenty

end Law

end RoundTrip

/-- Two numbers, for an option that is a number. -/
theorem roundTrips_ints :
    letI := GpgmeConf.documented
    letI := LibGpgError.documented
    RoundTrips .obtained (World.obtained.options 0) (.ints [1, -2]) := by
  let := GpgmeConf.documented
  let := LibGpgError.documented
  obtain ⟨pre, hpre⟩ := run_obtained
  have hne : (ListValue.ints [1, -2]).NonEmpty := by simp [ListValue.NonEmpty]
  have hheld : (ListValue.ints [1, -2]).Held := by simp [ListValue.Held]
  exact (roundTrips_iff (World.ofOption_initial _ _) hpre rfl rfl hne).mpr hheld

/-- A world in which an option of the given type was obtained. -/
def World.opened (type : ConfType) : World :=
  (ofOption type []).setOption 0 ⟨some 0, some ⟨0, 0⟩⟩

theorem run_opened (type : ConfType) :
    letI := GpgmeConf.documented
    letI := LibGpgError.documented
    ∃ ts, Run step (.ofOption type []) ts (.opened type) := by
  let := GpgmeConf.documented
  let := LibGpgError.documented
  exact ⟨_, .cons (i := .option 0 0 0) rfl (.nil _)⟩

/-- A string with a zero byte does not come back, and too many numbers are counted wrong. -/
theorem not_roundTrips :
    letI := GpgmeConf.documented
    letI := LibGpgError.documented
    ¬ RoundTrips (.opened .string) ((World.opened .string).options 0)
        (.stdStrings [[97, 0, 98]]) ∧
      ¬ RoundTrips (.opened .int32) ((World.opened .int32).options 0)
        (.ints (List.replicate (2 ^ 32) 0)) := by
  let := GpgmeConf.documented
  let := LibGpgError.documented
  have hheld : ∀ value : ListValue, value.NonEmpty →
      RoundTrips (.opened value.type) ((World.opened value.type).options 0) value →
        value.Held := by
    intro value hne h
    obtain ⟨ts, hrun⟩ := run_opened value.type
    have hlinked := linked_of_run (World.ofOption_initial _ _) hrun
    have hmade := made_of_run (World.ofOption_initial _ _) hrun
    exact held_of_roundTrips hlinked hmade (hlinked.options 0) rfl rfl hne h
  have hints : ∀ n, 2 ^ 32 ≤ n →
      ¬ RoundTrips (.opened .int32) ((World.opened .int32).options 0)
        (.ints (List.replicate n 0)) := by
    intro n hn h
    have hne : (ListValue.ints (List.replicate n 0)).NonEmpty := by
      rw [ListValue.NonEmpty, Ne, List.replicate_eq_nil_iff]
      omega
    have hcounted : (List.replicate n (0 : Int32)).length < 2 ^ 32 := hheld _ hne h
    rw [List.length_replicate] at hcounted
    omega
  refine ⟨fun h => ?_, hints _ le_rfl⟩
  have hstrings := hheld (.stdStrings [[97, 0, 98]]) (by simp [ListValue.NonEmpty]) h
  simp [ListValue.Held] at hstrings

end Gpgmepp.Configuration
