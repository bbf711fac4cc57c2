import Gpgmepp.Configuration.RoundTrip
import Gpgmepp.Lib.LinkedList

/-!
# Lists of values in memory

There are two loops that build a list of nodes.  One makes them of values, and one copies another
list.  gpgme may have no memory for any of the nodes.  The loop that copies then releases what it
has, and returns a null pointer; the one that makes a list leaves out the node, and the list is
shorter.

Here the loops are as the sources have them, with memory and links.  They come to the lists that
`makeArgumentList` and `mygpgmeConfArgCopy` say, and leave no node behind that is not in the list:
`makeArgumentAt_spec` and `copyAt_spec`.  So all lists are complete or null, except for those that
are made when there is memory for some of the nodes but not for all: `complete_iff`.

## Main definitions

* `NodeHeap`, `Makes` — nodes in memory, and a list that is all that was made.
* `copyAt`, `makeArgumentAt`, `setNewValueAt` — the loops, and the use of one of them.
* `Complete` — lists are complete or null.
-/

namespace Gpgmepp.Configuration

open LinkedList StateMachine

/-- Nodes in memory, each with the type that it was made with. -/
abbrev NodeHeap := Heap ((type : ConfType) × Node type)

/-- The nodes of a list, as they are in memory. -/
def contents {type : ConfType} (nodes : List (Node type)) : List ((type : ConfType) × Node type) :=
  nodes.map (Sigma.mk type)

/-- At `q` there is the list, and nothing else is left of what was made since `h₀`. -/
def Makes {type : ConfType} (h₀ h : NodeHeap) (q : Option ℕ) (nodes : List (Node type)) : Prop :=
  ∃ as, IsList h q as (contents nodes) ∧ Settled h₀ h as

section Loops
variable [GpgmeConf]

/-- `gpgme_conf_arg_new(&arg, type, value)`: the new node, if there is memory. -/
def confArgNewAt (h : NodeHeap) (type : ConfType) (value : Option (TypedValue type))
    (memory : Bool) : Option ℕ × NodeHeap :=
  match GpgmeConf.confArgNew type value memory with
  | none => (none, h)
  | some arg => (some h.fresh, (h.alloc ⟨type, arg⟩).2)

/-- `if (result) last->next = arg; else result = arg;`, with the result after it. -/
def append (h : NodeHeap) (result last : Option ℕ) (arg : ℕ) : Option (Option ℕ × NodeHeap) :=
  match result with
  | none => some (some arg, h)
  | some result => (last.bind fun last => h.setNext last (some arg)).map fun h => (some result, h)

/-- `if (last) last = last->next = arg; else result = last = arg;`. -/
def appendLast (h : NodeHeap) (result last : Option ℕ) (arg : ℕ) : Option (Option ℕ × NodeHeap) :=
  match last with
  | none => some (some arg, h)
  | some last => (h.setNext last (some arg)).map fun h => (result, h)

/-- The loop of `mygpgme_conf_arg_copy`, after `calls` calls of `gpgme_conf_arg_new`. -/
def copyLoop (type : ConfType) (memory : ℕ → Bool) : (fuel : ℕ) → NodeHeap → (calls : ℕ) →
    (result last a : Option ℕ) → Except ConfFault (Option ℕ × NodeHeap)
  | _, h, _, result, _, none => .ok (result, h)
  | 0, _, _, _, _, some _ => .error .noObject
  | fuel + 1, h, calls, result, last, some a =>
      match h.cells a with
      | none => .error .noObject
      | some node =>
          match node.content.2.passed type with
          | .error f => .error f
          | .ok value =>
              match confArgNewAt h type value (memory calls) with
              | (none, h) =>
                  match h.release result with
                  | none => .error .noObject
                  | some h => .ok (none, h)
              | (some arg, h) =>
                  match append h result last arg with
                  | none => .error .noObject
                  | some (result, h) =>
                      match h.cells a with
                      | none => .error .noObject
                      | some node =>
                          copyLoop type memory fuel h (calls + 1) result (some arg) node.next

/-- `mygpgme_conf_arg_copy(other, type)`. -/
def copyAt (type : ConfType) (memory : ℕ → Bool) (h : NodeHeap) (other : Option ℕ) :
    Except ConfFault (Option ℕ × NodeHeap) :=
  copyLoop type memory h.fresh h 0 none none other

/-- The loop of `make_argument(type, vector)`. -/
def makeArgumentLoop (type : ConfType) (memory : ℕ → Bool) : NodeHeap → (calls : ℕ) →
    (result last : Option ℕ) → List (Option (TypedValue type)) → Option (Option ℕ × NodeHeap)
  | h, _, result, _, [] => some (result, h)
  | h, calls, result, last, v :: vs =>
      match confArgNewAt h type v (memory calls) with
      | (none, h) => makeArgumentLoop type memory h (calls + 1) result last vs
      | (some arg, h) =>
          match appendLast h result last arg with
          | none => none
          | some (result, h) => makeArgumentLoop type memory h (calls + 1) result (some arg) vs

/-- `make_argument(type, vector)`. -/
def makeArgumentAt (type : ConfType) (memory : ℕ → Bool) (h : NodeHeap)
    (values : List (Option (TypedValue type))) : Option (Option ℕ × NodeHeap) :=
  makeArgumentLoop type memory h 0 none none values

/-- What `setNewValue` passes to `gpgme_conf_opt_change`, of an argument whose list is at `p`. -/
def setNewValueAt (w : World) (o : ConfOption) (argument : Argument) (memory : ℕ → Bool)
    (h : NodeHeap) (p : Option ℕ) : Except ConfFault (Option ℕ × NodeHeap) := do
  match ← o.record w with
  | none => return (none, h)
  | some (_, rec) =>
      if argument.isNull w then return (none, h) else copyAt rec.altType memory h p

/-! ## The loops come to the lists -/

variable {h₀ h : NodeHeap} {result last : Option ℕ} {type : ConfType} {done : List (Node type)}
  {memory : ℕ → Bool}

omit [GpgmeConf] in
theorem contents_concat (nodes : List (Node type)) (arg : Node type) :
    contents (nodes ++ [arg]) = contents nodes ++ [⟨type, arg⟩] := by
  simp [contents]

omit [GpgmeConf] in
/-- A new node becomes the last one. -/
theorem append_eq (hb : Built h₀ h result last (contents done)) (arg : Node type) :
    ∃ result' h', append (h.alloc ⟨type, arg⟩).2 result last h.fresh = some (result', h') ∧
      appendLast (h.alloc ⟨type, arg⟩).2 result last h.fresh = some (result', h') ∧
      Built h₀ h' result' (some h.fresh) (contents (done ++ [arg])) := by
  rw [contents_concat]
  by_cases hdone : contents done = []
  · rw [hdone] at hb ⊢
    obtain rfl : result = none := hb.list.eq_nil_iff.mpr rfl
    obtain rfl : last = none := hb.last_eq
    exact ⟨_, _, rfl, rfl, hb.first _⟩
  · obtain ⟨b, rfl, hnext, hb'⟩ := hb.concat hdone ⟨type, arg⟩
    obtain ⟨r, rfl⟩ := Option.ne_none_iff_exists'.mp (mt hb.list.eq_nil_iff.mp hdone)
    refine ⟨_, _, ?_, ?_, hb'⟩
    · simp only [append, Option.bind_some, hnext, Option.map_some]
    · simp only [appendLast, hnext, Option.map_some]

omit [GpgmeConf] in
/-- The list that was built is all that was made. -/
theorem makes_of_built (hb : Built h₀ h result last (contents done)) : Makes h₀ h result done :=
  ⟨_, hb.list, hb.settled⟩

/-- The loop that makes a list of values, from any of its iterations on. -/
theorem makeArgumentLoop_spec (memory : ℕ → Bool) (values : List (Option (TypedValue type))) :
    ∀ (calls : ℕ) {h : NodeHeap} {result last : Option ℕ} {done : List (Node type)},
      Built h₀ h result last (contents done) →
      ∃ q h', makeArgumentLoop type memory h calls result last values = some (q, h') ∧
        Makes h₀ h' q (done ++ makeArgumentList type (fun i => memory (calls + i)) values) := by
  induction values with
  | nil =>
      intro calls h result last done hb
      refine ⟨result, h, rfl, ?_⟩
      rw [makeArgumentList, List.append_nil]
      exact makes_of_built hb
  | cons value values ih =>
      intro calls h result last done hb
      have hcalls : ∀ i, memory (calls + (i + 1)) = memory (calls + 1 + i) := fun i => by
        rw [Nat.add_right_comm, Nat.add_assoc]
      simp only [makeArgumentLoop, makeArgumentList, makeArgument, confArgNewAt, Nat.add_zero,
        hcalls]
      cases hnew : GpgmeConf.confArgNew type value (memory calls) with
      | none => exact ih (calls + 1) hb
      | some arg =>
          obtain ⟨result', h', -, happend, hb'⟩ := append_eq hb arg
          obtain ⟨q, h'', hloop, hmakes⟩ := ih (calls + 1) hb'
          refine ⟨q, h'', ?_, ?_⟩
          · simp only [happend, hloop]
          · simpa using hmakes

/-- **A list that is made of values** is the list of the nodes for which there was memory. -/
theorem makeArgumentAt_spec (type : ConfType) (memory : ℕ → Bool) (h : NodeHeap)
    (values : List (Option (TypedValue type))) :
    ∃ q h', makeArgumentAt type memory h values = some (q, h') ∧
      Makes h h' q (makeArgumentList type memory values) := by
  have hb : Built h h none none (contents ([] : List (Node type))) := .refl h
  obtain ⟨q, h', hloop, hmakes⟩ := makeArgumentLoop_spec memory values 0 hb
  refine ⟨q, h', hloop, ?_⟩
  simpa using hmakes

/-- The loop that copies a list, from any of its iterations on. -/
theorem copyLoop_spec {s : ConfType} {rest : List (Node s)} :
    ∀ {fuel : ℕ} {h : NodeHeap} {result last a : Option ℕ} {as : List ℕ}
      {done nodes : List (Node type)}, as.length ≤ fuel → IsList h₀ a as (contents rest) →
      Built h₀ h result last (contents done) →
      mygpgmeConfArgCopyLoop type memory done rest = .ok nodes →
      ∃ q h', copyLoop type memory fuel h done.length result last a = .ok (q, h') ∧
        Makes h₀ h' q nodes := by
  induction rest with
  | nil =>
      intro fuel h result last a as done nodes _ hlist hb hnodes
      obtain rfl : a = none := hlist.eq_nil_iff.mpr rfl
      obtain rfl := Except.ok.inj hnodes
      exact ⟨result, h, by cases fuel <;> rfl, makes_of_built hb⟩
  | cons n rest ih =>
      intro fuel h result last a as done nodes hfuel hlist hb hnodes
      obtain ⟨a, next, as, rfl, rfl, hcell, hrest⟩ := hlist.exists_of_cons
      obtain ⟨fuel, rfl⟩ : ∃ k, fuel = k + 1 := Nat.exists_eq_succ_of_ne_zero (by
        rw [List.length_cons] at hfuel
        omega)
      -- the list that is copied is not touched
      have hcell' : h.cells a = some ⟨⟨s, n⟩, next⟩ :=
        (hb.frame a (Heap.lt_fresh hcell)).trans hcell
      simp only [mygpgmeConfArgCopyLoop] at hnodes
      simp only [copyLoop, hcell', confArgNewAt]
      cases hpassed : n.passed type with
      | error f =>
          rw [hpassed] at hnodes
          cases hnodes
      | ok value =>
          simp only [hpassed] at hnodes ⊢
          cases hnew : GpgmeConf.confArgNew type value (memory done.length) with
          | none =>
              simp only [hnew] at hnodes ⊢
              obtain rfl := Except.ok.inj hnodes
              obtain ⟨h', hrelease, hsettled⟩ := hb.settled_release
              exact ⟨none, h', by rw [hrelease], [], .nil, hsettled⟩
          | some arg =>
              simp only [hnew] at hnodes ⊢
              obtain ⟨result', h', happend, -, hb'⟩ := append_eq hb arg
              have hcell'' : h'.cells a = some ⟨⟨s, n⟩, next⟩ :=
                (hb'.frame a (Heap.lt_fresh hcell)).trans hcell
              have hlength : done.length + 1 = (done ++ [arg]).length := by simp
              simp only [happend, hcell'', hlength]
              exact ih (by simpa using hfuel) hrest hb' hnodes

/-- **A list that is copied** is complete, or released. -/
theorem copyAt_spec {s : ConfType} {other : List (Node s)} {nodes : List (Node type)}
    {p : Option ℕ} {as : List ℕ} (hlist : IsList h p as (contents other))
    (hnodes : mygpgmeConfArgCopy type memory other = .ok nodes) :
    ∃ q h', copyAt type memory h p = .ok (q, h') ∧ Makes h h' q nodes := by
  have hb : Built h h none none (contents ([] : List (Node type))) := .refl h
  exact copyLoop_spec hlist.length_le_fresh hlist hb hnodes

omit [GpgmeConf] in
/-- Nothing was made. -/
theorem makes_nil (h : NodeHeap) : Makes h h none ([] : List (Node type)) :=
  makes_of_built (.refl h)

omit [GpgmeConf] in
/-- An empty list is a null pointer, and all that was made was released. -/
theorem Makes.of_nil {q : Option ℕ} (hmakes : Makes h₀ h q ([] : List (Node type))) :
    q = none ∧ Settled h₀ h [] := by
  obtain ⟨as, hlist, hsettled⟩ := hmakes
  obtain rfl : q = none := hlist.eq_nil_iff.mpr rfl
  cases hlist
  exact ⟨rfl, hsettled⟩

end Loops

/-! ## Complete lists -/

/-- Two nodes have the same value, or both none. -/
def Node.Same {s type : ConfType} (a : Node s) (b : Node type) : Prop :=
  b.noArg = a.noArg ∧ (a.noArg = false → b.value = a.value)

/-- The list that an argument has to offer. -/
def Argument.listIn (w : World) (a : Argument) : List (Node a.arg.type) :=
  if a.isNull w then [] else a.arg.nodes

/-- The argument is a list of a function that makes lists. -/
def ListValue.IsVector : ListValue → Prop
  | count _ => False
  | _ => True

section Law
variable [GpgmeConf]

/-- What `setNewValue` should come to: a complete list, all that was made, or an error, and then
nothing. -/
inductive Sets (w : World) (o : ConfOption) (a : Argument) (memory : ℕ → Bool) :
    Error → World → Prop
  | installed (r : Ref) (rec : OptRecord) (nodes : List (Node rec.altType))
      (hrecord : o.record w = .ok (some (r, rec)))
      (hsame : List.Forall₂ Node.Same (a.listIn w) nodes)
      (hmakes : ∀ h p as, IsList h p as (contents a.arg.nodes) →
        ∃ q h', setNewValueAt w o a memory h p = .ok (q, h') ∧ Makes h h' q nodes) :
      Sets w o a memory .none (w.setRecord r { rec with changeValue := true, newValue := nodes })
  | failed (e : Error) (he : e.mErr ≠ 0)
      (hmakes : ∀ h p as, IsList h p as (contents a.arg.nodes) →
        ∃ h', setNewValueAt w o a memory h p = .ok (none, h') ∧ Settled h h' []) :
      Sets w o a memory e w

/-- The lists are complete or null, and all that was made: the argument that is made of a list of
values, every copy of an argument, and what an option is set to. -/
structure Complete [LibGpgError] (w : World) (o : ConfOption) (value : ListValue)
    (memory : ℕ → Bool) (a : Argument) : Prop where
  creates : ∃ b, value.factory.run w o memory = .ok b ∧ (b.isNull w = true ∨ b.arg = value.arg) ∧
    ∀ h, ∃ q h', makeArgumentAt value.type memory h value.passed = some (q, h') ∧
      Makes h h' q b.arg.nodes
  copies : ∀ memory b, a.copy w memory = .ok b →
    (b.arg.nodes = [] ∨ List.Forall₂ Node.Same a.arg.nodes b.arg.nodes) ∧
      ∀ h p as, IsList h p as (contents a.arg.nodes) →
        ∃ q h', copyAt b.arg.type memory h p = .ok (q, h') ∧ Makes h h' q b.arg.nodes
  sets : ∀ memory e w', o.setNewValue w a memory = .ok (e, w') → Sets w o a memory e w'

variable {w : World} {o : ConfOption} {a : Argument} {value : ListValue} {memory : ℕ → Bool}
  {s type : ConfType}

/-! What is made. -/

/-- What the functions that make lists return. -/
theorem run_vector (w : World) (o : ConfOption) (memory : ℕ → Bool) (h : value.IsVector) :
    value.factory.run w o memory =
      .ok (o.owning w ⟨value.type, makeArgumentList value.type memory value.passed⟩) := by
  cases value with
  | count n => exact h.elim
  | _ => rfl

omit [GpgmeConf] in
theorem isNull_owning_iff (w : World) (o : ConfOption) (arg : ArgList) :
    (o.owning w arg).isNull w = true ↔ o.isNull w = true ∨ arg.nodes = [] := by
  simp only [Argument.isNull, ConfOption.owning, ConfOption.isNull, World.expired, World.lock_lock,
    Bool.or_eq_true, List.isEmpty_iff]

/-- **The lists that are made** are complete or null exactly if the option is null, or there is
memory for all nodes or for none. -/
theorem creates_iff (hvalue : value.IsVector) :
    (∃ b, value.factory.run w o memory = .ok b ∧ (b.isNull w = true ∨ b.arg = value.arg) ∧
        ∀ h, ∃ q h', makeArgumentAt value.type memory h value.passed = some (q, h') ∧
          Makes h h' q b.arg.nodes) ↔
      o.isNull w = true ∨ (∀ i < value.passed.length, memory i = true) ∨
        ∀ i < value.passed.length, memory i = false := by
  have hnil : makeArgumentList value.type memory value.passed = [] ↔
      ∀ i < value.passed.length, memory i = false := by
    rw [← not_iff_not, ← ne_eq, makeArgumentList_ne_nil]
    simp
  have harg : (⟨value.type, makeArgumentList value.type memory value.passed⟩ : ArgList) =
      value.arg ↔ ∀ i < value.passed.length, memory i = true := by
    rw [← makeArgumentList_eq_iff, ListValue.arg, ArgList.mk.injEq]
    simp
  have hspec := fun h => makeArgumentAt_spec value.type memory h value.passed
  have hnull := isNull_owning_iff w o ⟨value.type, makeArgumentList value.type memory value.passed⟩
  rw [run_vector w o memory hvalue]
  constructor
  · rintro ⟨b, hb, hcomplete, -⟩
    obtain rfl := Except.ok.inj hb
    rcases hcomplete with hcomplete | hcomplete
    · rcases hnull.mp hcomplete with ho | hempty
      · exact .inl ho
      · exact .inr (.inr (hnil.mp hempty))
    · exact .inr (.inl (harg.mp hcomplete))
  · intro h
    refine ⟨_, rfl, ?_, hspec⟩
    rcases h with ho | hall | hnone
    · exact .inl (hnull.mpr (.inl ho))
    · exact .inr (harg.mpr hall)
    · exact .inl (hnull.mpr (.inr (hnil.mpr hnone)))

/-! What is copied. -/

omit [GpgmeConf] in
/-- A node that is made of what is passed on of another one has the same value. -/
theorem Node.same_of_passed {n : Node s} (hn : n.Made) {v : Option (TypedValue type)}
    (hpassed : n.passed type = .ok v) : n.Same (Node.of v) := by
  obtain ⟨noArg, v', wf⟩ := n
  simp only [Node.passed] at hpassed
  split_ifs at hpassed with hnoArg hstring hmember
  · obtain rfl := Except.ok.inj hpassed
    refine ⟨hnoArg.symm, fun hfalse => ?_⟩
    rw [hnoArg] at hfalse
    cases hfalse
  · have hnoArg' : noArg = false := by simpa using hnoArg
    subst hnoArg'
    cases v' with
    | string s =>
        cases s with
        | none => exact absurd (hn.2 rfl) hnoArg
        | some s =>
            obtain rfl := Except.ok.inj hpassed
            exact ⟨rfl, fun _ => rfl⟩
    | _ => simp [Node.string, Node.read] at hpassed
  · have hnoArg' : noArg = false := by simpa using hnoArg
    subst hnoArg'
    obtain rfl := Except.ok.inj hpassed
    exact ⟨rfl, fun _ => rfl⟩

/-- **A copy** of a list that was made by gpgme is complete or null. -/
theorem same_of_confArgCopy {l : List (Node s)} {nodes : List (Node type)} (hl : Made l)
    (h : mygpgmeConfArgCopy type memory l = .ok nodes) :
    nodes = [] ∨ List.Forall₂ Node.Same l nodes := by
  have hloop : ∀ result, mygpgmeConfArgCopyLoop type memory result l = .ok nodes →
      nodes = [] ∨ ∃ copied, nodes = result ++ copied ∧ List.Forall₂ Node.Same l copied := by
    clear h
    induction l with
    | nil =>
        intro result h
        obtain rfl := Except.ok.inj h
        exact .inr ⟨[], by simp, .nil⟩
    | cons n l ih =>
        intro result h
        obtain ⟨hn, hl⟩ := List.forall_mem_cons.mp hl
        simp only [mygpgmeConfArgCopyLoop] at h
        cases hpassed : n.passed type with
        | error f => simp [hpassed] at h
        | ok v =>
            cases hmem : memory result.length with
            | false =>
                simp only [hpassed, hmem, GpgmeConf.confArgNew_noMemory, Except.ok.injEq] at h
                exact .inl h.symm
            | true =>
                simp only [hpassed, hmem, confArgNew_true] at h
                rcases ih hl _ h with hnil | ⟨copied, hcopied, hsame⟩
                · exact .inl hnil
                · refine .inr ⟨Node.of v :: copied, by simpa using hcopied, .cons ?_ hsame⟩
                  exact Node.same_of_passed hn hpassed
  rcases hloop [] h with hnil | ⟨copied, hcopied, hsame⟩
  · exact .inl hnil
  · rw [List.nil_append] at hcopied
    exact .inr (hcopied ▸ hsame)

/-- Copies of an argument. -/
theorem copies_complete (ha : Made a.arg.nodes) {b : Argument} (hcopy : a.copy w memory = .ok b) :
    (b.arg.nodes = [] ∨ List.Forall₂ Node.Same a.arg.nodes b.arg.nodes) ∧
      ∀ h p as, IsList h p as (contents a.arg.nodes) →
        ∃ q h', copyAt b.arg.type memory h p = .ok (q, h') ∧ Makes h h' q b.arg.nodes := by
  have hcopied : Ensures (fun _ => True) (a.copy w memory) fun b =>
      mygpgmeConfArgCopy b.arg.type memory a.arg.nodes = .ok b.arg.nodes :=
    Ensures.any.bind fun type _ => Ensures.value.bind fun nodes hnodes => hnodes
  have hnodes := hcopied.of_ok hcopy
  exact ⟨same_of_confArgCopy ha hnodes, fun h p as hlist => copyAt_spec hlist hnodes⟩

/-! What options are set to. -/

section Setting
variable {r : Ref} {rec : OptRecord}

/-- A null argument resets the option, and there is nothing to be copied. -/
theorem sets_of_isNull (hrecord : o.record w = .ok (some (r, rec))) (hnull : a.isNull w = true) :
    Sets w o a memory .none (w.setRecord r { rec with changeValue := true, newValue := [] }) := by
  refine .installed r rec [] hrecord ?_ fun h p as _ => ⟨none, h, ?_, makes_nil h⟩
  · rw [Argument.listIn, if_pos hnull]
    exact .nil
  · simp only [setNewValueAt, hrecord, hnull]
    rfl

/-- Any other argument is copied. -/
theorem setNewValueAt_spec (hrecord : o.record w = .ok (some (r, rec)))
    (hnull : ¬ a.isNull w = true) {nodes : List (Node rec.altType)}
    (hcopy : mygpgmeConfArgCopy rec.altType memory a.arg.nodes = .ok nodes) {h : NodeHeap}
    {p : Option ℕ} {as : List ℕ} (hlist : IsList h p as (contents a.arg.nodes)) :
    ∃ q h', setNewValueAt w o a memory h p = .ok (q, h') ∧ Makes h h' q nodes := by
  obtain ⟨q, h', hcopyAt, hmakes⟩ := copyAt_spec hlist hcopy
  refine ⟨q, h', ?_, hmakes⟩
  simp only [setNewValueAt, hrecord, hnull]
  exact hcopyAt

/-- **A call of `setNewValue`** sets the option to a complete list, or fails and changes nothing. -/
theorem ensures_sets [LibGpgError] (ha : Made a.arg.nodes) :
    Ensures (fun _ => True) (o.setNewValue w a memory) fun p => Sets w o a memory p.1 p.2 := by
  refine Ensures.value.bind ?_
  rintro (_ | ⟨r, rec⟩) hrecord
  · refine .failed _ (Error.mErr_fromCode (by simp)) fun h p as _ => ?_
    exact ⟨h, by simp only [setNewValueAt, hrecord]; rfl, (@makes_nil .none h).of_nil.2⟩
  · by_cases hnull : a.isNull w = true
    · have hreset : o.resetToDefaultValue w = .ok (ConfOption.change w r rec false []) := by
        simp only [ConfOption.resetToDefaultValue, hrecord]
        rfl
      simp only [hnull, if_true, hreset, change_eq]
      exact sets_of_isNull hrecord hnull
    · simp only [hnull]
      refine Ensures.value.bind fun nodes hcopy => ?_
      rcases same_of_confArgCopy ha hcopy with rfl | hsame
      · refine .failed _ (Error.mErr_fromCode (by simp)) fun h p as hlist => ?_
        obtain ⟨q, h', hq, hmakes⟩ := setNewValueAt_spec hrecord hnull hcopy hlist
        obtain ⟨rfl, hsettled⟩ := hmakes.of_nil
        exact ⟨h', hq, hsettled⟩
      · have hnodes : a.arg.nodes ≠ [] := fun hnil => hnull (by simp [Argument.isNull, hnil])
        have hpos := List.length_pos_iff.mpr hnodes
        have hne : nodes.isEmpty = false := by
          rw [hsame.length_eq] at hpos
          simpa using List.length_pos_iff.mp hpos
        simp only [hne, change_eq]
        refine .installed r rec nodes hrecord ?_ fun h p as hlist =>
          setNewValueAt_spec hrecord hnull hcopy hlist
        rwa [Argument.listIn, if_neg hnull]

end Setting

/-- **In every run**, all lists are complete or null exactly if those that are made of values are:
if the option is null, or there is memory for all nodes or for none. -/
theorem complete_iff [LibGpgError] {w₀ w : World} {ts : List Called} {v x : ℕ} {a : Argument}
    {value : ListValue} (h0 : w₀.Initial) (hrun : Run step w₀ ts w) (hvalue : value.IsVector)
    (hx : w.arguments x = some a) (memory : ℕ → Bool) :
    Complete w (w.options v) value memory a ↔
      (w.options v).isNull w = true ∨ (∀ i < value.passed.length, memory i = true) ∨
        ∀ i < value.passed.length, memory i = false := by
  have ha : Made a.arg.nodes := made_of_run h0 hrun x a hx
  rw [← creates_iff hvalue]
  refine ⟨Complete.creates, fun hcreates => ⟨hcreates, ?_, ?_⟩⟩
  · exact fun _ _ hcopy => copies_complete ha hcopy
  · exact fun _ _ _ hset => (ensures_sets ha).of_ok hset

end Law

/-- Two numbers, and memory for both. -/
theorem complete_ints :
    letI := GpgmeConf.documented
    letI := LibGpgError.documented
    Complete .obtained (World.obtained.options 0) (.ints [1, 2]) plenty
      ⟨some 0, some ⟨0, 0⟩, ⟨.int32, [⟨false, .int32 1, rfl⟩]⟩⟩ := by
  let := GpgmeConf.documented
  let := LibGpgError.documented
  obtain ⟨ts, hrun⟩ := run_obtained
  have hvalue : (ListValue.ints [1, 2]).IsVector := trivial
  have hmemory : ∀ i < (ListValue.ints [1, 2]).passed.length, plenty i = true := fun _ _ => rfl
  exact (complete_iff (x := 0) (World.ofOption_initial _ _) hrun hvalue rfl plenty).mpr
    (.inr (.inl hmemory))

/-- Two numbers, and memory for the first: the argument has only that one. -/
theorem not_complete_ints :
    letI := GpgmeConf.documented
    letI := LibGpgError.documented
    ¬ Complete .obtained (World.obtained.options 0) (.ints [1, 2]) (· == 0)
      ⟨some 0, some ⟨0, 0⟩, ⟨.int32, [⟨false, .int32 1, rfl⟩]⟩⟩ := by
  let := GpgmeConf.documented
  let := LibGpgError.documented
  intro h
  obtain ⟨b, hb, hcomplete, -⟩ := h.creates
  cases hb
  rcases hcomplete with hnull | harg
  · exact absurd hnull (by decide)
  · exact absurd (congrArg (fun arg : ArgList => arg.nodes.length) harg) (by decide)

end Gpgmepp.Configuration
