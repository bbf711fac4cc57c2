import Gpgmepp.Configuration.Machine

/-!
# What the objects of a program keep

Two invariants of worlds.  In a `Linked` world the pointers of an object belong
together.  In a `WellTyped` world the nodes of every argument were made with the
alternate type of its option.  Neither is checked by the code, and each is what some of
the operations rely on: `Safe` and `TypedUse` say of an operation that it relies on no
more.

## Main definitions

* `World.Linked`, `World.WellTyped` — the invariants.
* `World.Later` — what becomes of components.
* `Safe`, `TypedUse` — conditions on operations.
-/

namespace Gpgmepp.Configuration

namespace World

variable {w w' : World} {comp : Option ℕ} {opt : Option Ref}

/-! ## Pointers -/

/-- Using the option record reads no freed memory: the pointer is null or its component
is held. -/
def Usable (w : World) (opt : Option Ref) : Prop := ∀ r, opt = some r → w.Alive r.comp

/-- The two pointers of an object belong together: the record is in a component that the
weak pointer tells as much about as one to it would. -/
def Points (w : World) (comp : Option ℕ) (opt : Option Ref) : Prop :=
  ∀ r, opt = some r →
    r.index < (w.comps r.comp).options.length ∧ w.lock comp = w.lock (some r.comp)

/-- The pointers of all objects belong together. -/
structure Linked (w : World) : Prop where
  options : ∀ v, w.Points (w.options v).comp (w.options v).opt
  arguments : ∀ x a, w.arguments x = some a → w.Points a.comp a.opt

@[simp] theorem points_none : w.Points comp none := by
  intro r h
  cases h

theorem Initial.linked (h : w.Initial) : w.Linked where
  options v := by simp [h.options v, ConfOption.null]
  arguments x a hx := by simp [h.arguments x] at hx

theorem lock_eq_some {c : ℕ} : w.lock comp = some c ↔ comp = some c ∧ w.Alive c := by
  cases comp with
  | none => simp [lock]
  | some d =>
      simp only [lock]
      split_ifs with hd
      · simpa using fun h => h ▸ hd
      · simp only [Option.some.injEq, false_iff, not_and]
        rintro rfl
        exact hd

@[simp] theorem lock_lock : w.lock (w.lock comp) = w.lock comp := by
  cases hlock : w.lock comp with
  | none => rfl
  | some c => exact lock_eq_some.mpr ⟨rfl, (lock_eq_some.mp hlock).2⟩

theorem Points.lock (h : w.Points comp opt) : w.Points (w.lock comp) opt := by
  intro r hr
  rw [lock_lock]
  exact h r hr

/-- Unless the record is null, it can be used exactly if the weak pointer is not expired. -/
theorem Points.alive_iff {r : Ref} (h : w.Points comp (some r)) :
    w.Alive r.comp ↔ w.expired comp = false := by
  rw [expired, (h r rfl).2]
  by_cases halive : w.Alive r.comp <;> simp [World.lock, halive]

theorem Points.usable (h : w.Points comp opt) (hexpired : w.expired comp = false) :
    w.Usable opt := by
  rintro r rfl
  exact h.alive_iff.mpr hexpired

/-! ## Option records -/

/-- A record that exists can be used while its component is held. -/
theorem Points.exists_deref {r : Ref} (h : w.Points comp (some r)) (halive : w.Alive r.comp) :
    ∃ rec, w.deref r = .ok rec := by
  have hindex := (h r rfl).1
  exact ⟨(w.comps r.comp).options[r.index], by simp [deref, halive, hindex]⟩

/-- Components are not held again once they are freed, and their options keep their
types. -/
def Later (w w' : World) : Prop :=
  ∀ c, (w'.Alive c → w.Alive c) ∧
    (w'.comps c).options.map OptRecord.altType = (w.comps c).options.map OptRecord.altType

theorem Later.refl (w : World) : w.Later w := fun _ => ⟨id, rfl⟩

theorem Later.usable (h : w.Later w') (hu : w'.Usable opt) : w.Usable opt :=
  fun r hr => (h r.comp).1 (hu r hr)

theorem Later.lock (h : w.Later w') (comp : Option ℕ) :
    w'.lock comp = if w'.expired (w.lock comp) then none else w.lock comp := by
  cases comp with
  | none => rfl
  | some c =>
      by_cases halive : w'.Alive c
      · simp [World.lock, expired, halive, (h c).1 halive]
      · by_cases halive' : w.Alive c <;> simp [World.lock, expired, halive, halive']

theorem Later.points (h : w.Later w') (hp : w.Points comp opt) : w'.Points comp opt := by
  intro r hr
  obtain ⟨hindex, hlock⟩ := hp r hr
  have := congrArg List.length (h r.comp).2
  simp only [List.length_map] at this
  refine ⟨by omega, ?_⟩
  rw [h.lock, hlock, ← h.lock]

/-- The type of a record that can be used depends on the types of the options only. -/
theorem typeOf_eq {r : Ref} (halive : w.Alive r.comp) :
    w.typeOf (some r) =
      match ((w.comps r.comp).options.map OptRecord.altType)[r.index]? with
      | some type => .ok type
      | none => .error .noObject := by
  simp only [typeOf, deref, halive, if_true, List.getElem?_map]
  cases (w.comps r.comp).options[r.index]? <;> rfl

theorem Later.typeOf_eq (h : w.Later w') (hu : w'.Usable opt) : w'.typeOf opt = w.typeOf opt := by
  cases opt with
  | none => rfl
  | some r =>
      have halive := hu r rfl
      rw [World.typeOf_eq halive, World.typeOf_eq ((h r.comp).1 halive), (h r.comp).2]

/-! ## Types -/

/-- The nodes of an argument were made with the alternate type of its option, while there
are nodes and the option is not freed. -/
def Typed (w : World) (opt : Option Ref) (arg : ArgList) : Prop :=
  arg.nodes ≠ [] → w.Usable opt → w.typeOf opt = .ok arg.type

/-- The nodes of all arguments were made with the alternate types of their options. -/
def WellTyped (w : World) : Prop := ∀ x a, w.arguments x = some a → w.Typed a.opt a.arg

theorem Initial.wellTyped (h : w.Initial) : w.WellTyped := by
  intro x a hx
  simp [h.arguments x] at hx

theorem Later.typed {arg : ArgList} (h : w.Later w') (ht : w.Typed opt arg) :
    w'.Typed opt arg := by
  intro hnodes hu
  rw [h.typeOf_eq hu]
  exact ht hnodes (h.usable hu)

end World

/-- The name of an argument stands for it, or the operation fails. -/
theorem ensures_argument {E : ConfFault → Prop} {w : World} (hE : E .noObject) (x : ℕ) :
    Ensures E (w.argument x) fun a => w.arguments x = some a := by
  simp only [World.argument]
  split
  · assumption
  · exact hE

/-! ## Conditions on operations -/

/-- The record of an argument that is copied or destroyed, if there is one, must not be
freed. -/
def Safe (w : World) : Op → Prop
  | .copy _ y _ => ∀ b, w.arguments y = some b → w.Usable b.opt
  | .assign x y _ => x ≠ y →
      ∀ a, w.arguments x = some a ∨ w.arguments y = some a → w.Usable a.opt
  | .destroy x => ∀ a, w.arguments x = some a → w.Usable a.opt
  | _ => True

/-- The value that a getter selects. -/
def Getter.select : Getter → (rec : OptRecord) → List (Node rec.altType)
  | .defaultValue => OptRecord.defaultValue
  | .noArgumentValue => OptRecord.noArgValue
  | .activeValue => OptRecord.value
  | .currentValue => ConfOption.current
  | .newValue => OptRecord.newValue

/-- A function that makes an argument without looking at the option makes no node, or the
option is freed or has the type of the function. -/
def Factory.TypedUse (w : World) (opt : Option Ref) (memory : ℕ → Bool) : Factory → Prop
  | .noneList count => count ≠ 0 → memory 0 = true → OfType .none
  | .stringList value => (∃ i < value.length, memory i = true) → OfType .string
  | .stdStringList value => (∃ i < value.length, memory i = true) → OfType .string
  | .intList values => (∃ i < values.length, memory i = true) → OfType .int32
  | .uintList values => (∃ i < values.length, memory i = true) → OfType .uint32
  | _ => True
where
  OfType (type : ConfType) : Prop := w.Usable opt → w.typeOf opt = .ok type

/-- Lists of values go only to options of their type, and what is copied can be passed
on with the type of the option. -/
def TypedUse (w : World) : Op → Prop
  | .create _ v factory memory => factory.TypedUse w (w.options v).opt memory
  | .get _ v getter memory => ∀ r rec, (w.options v).record w = .ok (some (r, rec)) →
      Copied rec.altType memory (getter.select rec)
  | .copy _ y memory => ∀ b type, w.arguments y = some b → w.typeOf b.opt = .ok type →
      Copied type memory b.arg.nodes
  | .assign x y memory => x ≠ y → ∀ b type, w.arguments y = some b →
      w.typeOf b.opt = .ok type → Copied type memory b.arg.nodes
  | .setNewValue v x memory => ∀ a r rec, w.arguments x = some a → a.isNull w = false →
      (w.options v).record w = .ok (some (r, rec)) → Copied rec.altType memory a.arg.nodes
  | _ => True

end Gpgmepp.Configuration
