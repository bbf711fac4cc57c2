import Gpgmepp.Configuration.Agreement

/-!
# Every node has one owner

A program with lists in memory does what `Configuration.step` says of values (`runsInMemory`): the
answers of its operations are the same, and so are their failures.  Every node that was made since
the program began is in the list of one argument, which has the values that the argument should
have; or it was passed to gpgme as the new value of an option, and is what it was; or it was
released, once.  So nothing is used after it was released, nothing is released twice, and nothing is
lost (`accounted`).

## Main definitions

* `World.listOf` — what is in the list of an argument.
* `Program.Starts`, `Accounts`, `Unchanged` — where a program begins, and what holds after every
  operation.
* `Keeps` — an operation does the same with memory as with values.
-/

namespace Gpgmepp.Configuration

open LinkedList StateMachine

variable {h : NodeHeap} {type : ConfType} {memory : ℕ → Bool} {w : World} {o : ConfOption}

/-! ## What holds after every operation -/

/-- What is in the list of an argument. -/
def World.listOf (w : World) (x : ℕ) : List ((type : ConfType) × Node type) :=
  match w.arguments x with
  | none => []
  | some a => contents a.arg.nodes

/-- Where a program begins: nothing was obtained, and the option records have their lists. -/
structure Program.Starts (w : World) (s : Program) : Prop where
  initial : w.Initial
  world : s.world = w.bare
  arguments : s.memory.arguments = fun _ => none
  given : s.memory.given = []
  released : s.memory.heap.released = []
  conf : ∀ r rec, (w.comps r.comp).options[r.index]? = some rec →
    Describes s.memory.heap (s.memory.conf r) rec

/-- The arguments have lists of their own, every node that was made has an owner, what was passed to
gpgme is there, and the option records have their lists. -/
structure Accounts (base : ℕ) (w : World) (m : Memory) (owner : ℕ → Option Owner) : Prop where
  arguments : ∀ x, Option.Rel (fun a a' => a'.comp = a.comp ∧ a'.opt = a.opt) (w.arguments x)
    (m.arguments x)
  places : Places base m.heap m.arg w.listOf owner
  given : ∃ bs, Owned m.heap m.given bs ∧ bs.Nodup ∧ ∀ n, n ∈ bs ↔ owner n = some .given
  conf : ∀ r rec, (w.comps r.comp).options[r.index]? = some rec → ∀ f : Field,
    ∃ as, IsList m.heap (m.conf r f) as (contents (f.select rec)) ∧ ∀ n ∈ as, Foreign base owner n

/-- What was passed to gpgme is what it was. -/
structure Unchanged (m m' : Memory) : Prop where
  given : m.given <+: m'.given
  list : ∀ p ∈ m.given, ∀ as l, IsList m.heap p as l → IsList m'.heap p as l

theorem Unchanged.refl (m : Memory) : Unchanged m m :=
  ⟨List.prefix_refl _, fun _ _ _ _ hlist => hlist⟩

theorem Unchanged.trans {m m' m'' : Memory} (h : Unchanged m m') (h' : Unchanged m' m'') :
    Unchanged m m'' :=
  ⟨h.given.trans h'.given, fun p hp as l hlist =>
    h'.list p (h.given.subset hp) as l (h.list p hp as l hlist)⟩

theorem Program.Starts.accounts {s : Program} (hs : s.Starts w) :
    Accounts s.memory.heap.fresh w s.memory fun _ => none := by
  have hlists : w.listOf = fun _ => [] := by
    funext x
    rw [World.listOf, hs.initial.arguments x]
  have harg : s.memory.arg = fun _ => none := by
    funext x
    rw [Memory.arg, hs.arguments]
    rfl
  refine ⟨fun x => ?_, ?_, ⟨[], ?_, List.nodup_nil, by simp⟩, fun r rec hrec f => ?_⟩
  · rw [hs.initial.arguments x, hs.arguments]
    exact .none
  · rw [harg, hlists]
    exact Places.start _ hs.released
  · rw [hs.given]
    exact .nil
  · obtain ⟨as, hlist⟩ := hs.conf r rec hrec f
    exact ⟨as, hlist, fun n hn => .inl (hlist.lt_fresh n hn)⟩

variable {base : ℕ} {m : Memory} {owner : ℕ → Option Owner}

theorem Accounts.describes (ha : Accounts base w m owner) {r : Ref} {rec : OptRecord}
    (hrec : w.deref r = .ok rec) : Describes m.heap (m.conf r) rec := by
  intro f
  obtain ⟨as, hlist, -⟩ := ha.conf r rec (deref_eq_ok_iff.mp hrec).2 f
  exact ⟨as, hlist⟩

/-- The argument that a name stands for. -/
theorem Accounts.alike_argument (ha : Accounts base w m owner) (x : ℕ) :
    EndsAlike (fun a a' => w.arguments x = some a ∧ m.arguments x = some a' ∧ ReadsAt m.heap a a')
      (w.argument x) (Program.argument (.of w m) x) := by
  have hrel := ha.arguments x
  obtain ⟨as, hlist, -⟩ := ha.places.list x
  rw [World.argument, Program.argument, Program.memory_of]
  rw [World.listOf, Memory.arg] at hlist
  generalize w.arguments x = a, m.arguments x = a' at hrel hlist
  cases hrel with
  | none => exact .error _
  | some hrel => exact .ok ⟨rfl, rfl, hrel.1, hrel.2, as, hlist⟩

theorem listOf_setArgument (w : World) (x : ℕ) (b : Option Argument) :
    (w.setArgument x b).listOf = Function.update w.listOf x
      (match b with
        | none => []
        | some a => contents a.arg.nodes) := by
  funext y
  by_cases hy : y = x
  · subst hy
    simp [World.listOf, World.setArgument]
  · simp [World.listOf, World.setArgument, hy]

/-- What gpgme has is not touched. -/
theorem Accounts.frame (ha : Accounts base w m owner) {heap : NodeHeap} {owner' : ℕ → Option Owner}
    (hcells : ∀ n, Foreign base owner n → heap.cells n = m.heap.cells n)
    (hgiven : ∀ n, owner' n = some .given ↔ owner n = some .given) :
    (∃ bs, Owned heap m.given bs ∧ bs.Nodup ∧ ∀ n, n ∈ bs ↔ owner' n = some .given) ∧
      ∀ r rec, (w.comps r.comp).options[r.index]? = some rec → ∀ f : Field,
        ∃ as, IsList heap (m.conf r f) as (contents (f.select rec)) ∧
          ∀ n ∈ as, Foreign base owner' n := by
  refine ⟨?_, fun r rec hrec f => ?_⟩
  · obtain ⟨bs, howned, hnodup, hbs⟩ := ha.given
    refine ⟨bs, howned.congr fun n hn => hcells n (.inr ((hbs n).mp hn)), hnodup, fun n => ?_⟩
    rw [hbs n, hgiven n]
  · obtain ⟨as, hlist, hforeign⟩ := ha.conf r rec hrec f
    refine ⟨as, hlist.congr fun n hn => hcells n (hforeign n hn), fun n hn => ?_⟩
    rw [Foreign, hgiven n]
    exact hforeign n hn

/-- What was passed to gpgme is not changed by what leaves its nodes alone. -/
theorem Accounts.unchanged (ha : Accounts base w m owner) {m' : Memory}
    (hcells : ∀ n, Foreign base owner n → m'.heap.cells n = m.heap.cells n)
    (hgiven : m.given <+: m'.given) : Unchanged m m' := by
  refine ⟨hgiven, fun p hp as l hlist => ?_⟩
  obtain ⟨bs, howned, -, hbs⟩ := ha.given
  obtain ⟨as', l', hlist', hsub⟩ := howned.exists_of_mem hp
  obtain ⟨rfl, rfl⟩ := hlist.unique hlist'
  exact hlist.congr fun n hn => hcells n (.inr ((hbs n).mp (hsub hn)))

/-! ## What an operation does -/

/-- An operation returns the same with memory as with values, and leaves the values that it should
in memory, and what was passed to gpgme as it was. -/
structure Keeps {O : Type} (base : ℕ) (m : Memory) (p : O × World) (q : O × Program) : Prop where
  output : q.1 = p.1
  world : q.2.world = p.2.bare
  unchanged : Unchanged m q.2.memory
  accounts : ∃ owner, Accounts base p.2 q.2.memory owner

/-- The answer is put in another form. -/
theorem Keeps.map {O O' : Type} (f : O → O') {p : O × World} {q : O × Program}
    (hk : Keeps base m p q) : Keeps base m (f p.1, p.2) (f q.1, q.2) :=
  ⟨congrArg f hk.output, hk.world, hk.unchanged, hk.accounts⟩

/-- An operation that makes and releases nothing. -/
theorem Accounts.same {w' : World} (ha : Accounts base w m owner)
    (harguments : w'.arguments = w.arguments)
    (hoptions : ∀ c, (w'.comps c).options = (w.comps c).options) : Accounts base w' m owner := by
  have hlists : w'.listOf = w.listOf := by
    funext x
    rw [World.listOf, World.listOf, harguments]
  exact ⟨by rw [harguments]; exact ha.arguments, by rw [hlists]; exact ha.places, ha.given,
    fun r rec hrec => ha.conf r rec (hoptions r.comp ▸ hrec)⟩

theorem Accounts.keeps_same {O : Type} (ha : Accounts base w m owner) (out : O) {w' : World}
    (harguments : w'.arguments = w.arguments)
    (hoptions : ∀ c, (w'.comps c).options = (w.comps c).options) :
    Keeps base m (out, w') (out, .of w' m) :=
  ⟨rfl, rfl, .refl m, owner, ha.same harguments hoptions⟩

theorem Accounts.keeps {O : Type} (ha : Accounts base w m owner) (out : O) :
    Keeps base m (out, w) (out, .of w m) :=
  ha.keeps_same out rfl fun _ => rfl

/-- The arguments, when one of them is set. -/
theorem rel_setArgument
    (hrel : ∀ x, Option.Rel (fun a a' => a'.comp = a.comp ∧ a'.opt = a.opt) (w.arguments x)
      (m.arguments x)) (x : ℕ) {b : Option Argument} {b' : Option ArgumentAt}
    (hb : Option.Rel (fun a a' => a'.comp = a.comp ∧ a'.opt = a.opt) b b') (heap : NodeHeap)
    (y : ℕ) :
    Option.Rel (fun a a' => a'.comp = a.comp ∧ a'.opt = a.opt) ((w.setArgument x b).arguments y)
      ((m.setArgument x b' heap).arguments y) := by
  by_cases hy : y = x
  · subst hy
    simpa [World.setArgument, Memory.setArgument] using hb
  · simpa [World.setArgument, Memory.setArgument, hy] using hrel y

/-- An argument is constructed. -/
theorem Accounts.alike_construct (ha : Accounts base w m owner) (x : ℕ) {a : Argument}
    {made : ArgumentAt × NodeHeap} (hmade : MadeAt m.heap a made) :
    EndsAlike (Keeps base m) (w.construct x a) (Program.construct (.of w m) x made) := by
  obtain ⟨a', heap⟩ := made
  obtain ⟨hcomp, hopt, ⟨as, hlist, hsettled⟩, hle⟩ := hmade
  have hrel := ha.arguments x
  rw [World.construct, Program.construct, Program.memory_of]
  cases hx : w.arguments x with
  | some b =>
      rw [hx] at hrel
      cases hx' : m.arguments x with
      | some b' => exact .error _
      | none =>
          rw [hx'] at hrel
          cases hrel
  | none =>
      rw [hx] at hrel
      cases hx' : m.arguments x with
      | some b' =>
          rw [hx'] at hrel
          cases hrel
      | none =>
          obtain ⟨owner', hplaces, hgiven⟩ := ha.places.make hsettled hle (x := x)
            (by rw [World.listOf, hx]) hlist
          have hcells : ∀ n, Foreign base owner n → heap.cells n = m.heap.cells n :=
            fun n hn => hsettled.frame n (ha.places.lt_of_foreign hn)
          obtain ⟨hgivens, hconf⟩ := ha.frame hcells hgiven
          refine .ok ⟨rfl, rfl, ha.unchanged hcells (List.prefix_refl _), owner',
            rel_setArgument ha.arguments x (.some ⟨hcomp, hopt⟩) heap, ?_, hgivens, hconf⟩
          rw [listOf_setArgument]
          show Places base heap (m.setArgument x (some a') heap).arg _ owner'
          rw [Memory.arg_setArgument]
          exact hplaces

/-- An argument is destroyed. -/
theorem Accounts.destroy (ha : Accounts base w m owner) {x : ℕ} {a' : ArgumentAt}
    (hx : m.arguments x = some a') {heap : NodeHeap}
    (hrelease : m.heap.release a'.arg = some heap) :
    Keeps base m (Output.done, w.setArgument x none)
      (Output.done, (Program.of w m).setArgument x none heap) := by
  obtain ⟨heap', owner', hrelease', -, hcells, hplaces, hgiven⟩ := ha.places.release x
  rw [Memory.arg, hx, Option.bind_some, hrelease] at hrelease'
  obtain rfl := Option.some.inj hrelease'
  obtain ⟨hgivens, hconf⟩ := ha.frame hcells hgiven
  refine ⟨rfl, rfl, ha.unchanged hcells (List.prefix_refl _), owner',
    rel_setArgument ha.arguments x .none heap, ?_, hgivens, hconf⟩
  rw [listOf_setArgument]
  show Places base heap (m.setArgument x none heap).arg _ owner'
  rw [Memory.arg_setArgument]
  exact hplaces

/-- An argument gets another list. -/
theorem Accounts.assign (ha : Accounts base w m owner) {x : ℕ} {a' : ArgumentAt}
    (hx : m.arguments x = some a') {copy : Argument} {made : ArgumentAt × NodeHeap}
    (hmade : MadeAt m.heap copy made) {heap : NodeHeap}
    (hrelease : made.2.release a'.arg = some heap) :
    Keeps base m (Output.done, w.setArgument x (some copy))
      (Output.done, (Program.of w m).setArgument x (some made.1) heap) := by
  obtain ⟨hcomp, hopt, ⟨as, hlist, hsettled⟩, hle⟩ := hmade
  obtain ⟨heap', owner', hrelease', hcells, hplaces, hgiven⟩ :=
    ha.places.replace hsettled hle x hlist
  rw [Memory.arg, hx, Option.bind_some, hrelease] at hrelease'
  obtain rfl := Option.some.inj hrelease'
  obtain ⟨hgivens, hconf⟩ := ha.frame hcells hgiven
  refine ⟨rfl, rfl, ha.unchanged hcells (List.prefix_refl _), owner',
    rel_setArgument ha.arguments x (.some ⟨hcomp, hopt⟩) heap, ?_, hgivens, hconf⟩
  rw [listOf_setArgument]
  show Places base heap (m.setArgument x (some made.1) heap).arg _ owner'
  rw [Memory.arg_setArgument]
  exact hplaces

/-- Two arguments are swapped. -/
theorem Accounts.swap (ha : Accounts base w m owner) {x y : ℕ} {a b : Argument}
    {a' b' : ArgumentAt} (hx : w.arguments x = some a) (hx' : m.arguments x = some a')
    (hy : w.arguments y = some b) (hy' : m.arguments y = some b') (ha' : ReadsAt m.heap a a')
    (hb' : ReadsAt m.heap b b') :
    Keeps base m (Output.done, (w.setArgument x (some b)).setArgument y (some a))
      (Output.done,
        ((Program.of w m).setArgument x (some b') m.heap).setArgument y (some a') m.heap) := by
  obtain ⟨owner', hplaces, hgiven⟩ := ha.places.swap x y
  obtain ⟨hgivens, hconf⟩ := ha.frame (fun _ _ => rfl) hgiven
  have hrel := rel_setArgument ha.arguments x (.some ⟨hb'.comp, hb'.opt⟩) m.heap
  refine ⟨rfl, rfl, ha.unchanged (fun _ _ => rfl) (List.prefix_refl _), owner',
    rel_setArgument hrel y (.some ⟨ha'.comp, ha'.opt⟩) m.heap, ?_, hgivens, hconf⟩
  have hlx : w.listOf x = contents a.arg.nodes := by rw [World.listOf, hx]
  have hly : w.listOf y = contents b.arg.nodes := by rw [World.listOf, hy]
  have hpx : m.arg x = a'.arg := by rw [Memory.arg, hx', Option.bind_some]
  have hpy : m.arg y = b'.arg := by rw [Memory.arg, hy', Option.bind_some]
  rw [listOf_setArgument, listOf_setArgument]
  show Places base m.heap
    ((m.setArgument x (some b') m.heap).setArgument y (some a') m.heap).arg _ owner'
  rw [Memory.arg_setArgument, Memory.arg_setArgument]
  rw [hlx, hly, hpx, hpy] at hplaces
  exact hplaces

/-- The records after one of them was changed. -/
theorem options_setRecord {r r' : Ref} {rec rec' rec'' : OptRecord}
    (hrec : (w.comps r.comp).options[r.index]? = some rec)
    (hget : ((w.setRecord r rec').comps r'.comp).options[r'.index]? = some rec'') :
    (r' = r ∧ rec'' = rec') ∨ (r' ≠ r ∧ (w.comps r'.comp).options[r'.index]? = some rec'') := by
  obtain ⟨c, i⟩ := r
  obtain ⟨c', i'⟩ := r'
  obtain ⟨hindex, -⟩ := List.getElem?_eq_some_iff.mp hrec
  by_cases hc : c' = c
  · subst hc
    by_cases hi : i' = i
    · subst hi
      simp only [World.setRecord, Function.update_self, List.getElem?_set_self hindex] at hget
      exact .inl ⟨rfl, (Option.some.inj hget).symm⟩
    · simp only [World.setRecord, Function.update_self] at hget
      rw [List.getElem?_set_ne (Ne.symm hi)] at hget
      exact .inr ⟨by simp [hi], hget⟩
  · simp only [World.setRecord, Function.update_of_ne hc] at hget
    exact .inr ⟨by simp [hc], hget⟩

/-- A record gets a new list, or none. -/
theorem Accounts.set (ha : Accounts base w m owner) {r : Ref} {rec : OptRecord}
    (hrec : w.deref r = .ok rec) (b : Bool) {nodes : List (Node rec.altType)} {q : Option ℕ}
    {as : List ℕ} (hlist : IsList m.heap q as (contents nodes))
    (hforeign : ∀ n ∈ as, Foreign base owner n) :
    Accounts base (w.setRecord r { rec with changeValue := b, newValue := nodes })
      { m with conf := Function.update m.conf r (Function.update (m.conf r) .newValue q) }
      owner := by
  refine ⟨ha.arguments, ha.places, ha.given, fun r' rec' hrec' f => ?_⟩
  rcases options_setRecord (deref_eq_ok_iff.mp hrec).2 hrec' with ⟨rfl, rfl⟩ | ⟨hne, hold⟩
  · have hother := ha.conf r' rec (deref_eq_ok_iff.mp hrec).2
    cases f with
    | newValue => exact ⟨as, by simpa [Field.select] using hlist, hforeign⟩
    | defaultValue => simpa [Field.select] using hother .defaultValue
    | noArgValue => simpa [Field.select] using hother .noArgValue
    | value => simpa [Field.select] using hother .value
  · simpa [hne] using ha.conf r' rec' hold f

section Step
variable [GpgmeConf]

/-- `gpgme_conf_opt_change` gets a new value for a record. -/
theorem Accounts.change (ha : Accounts base w m owner) {r : Ref} {rec : OptRecord}
    (hrec : w.deref r = .ok rec) {nodes : List (Node rec.altType)} {q : Option ℕ} {as : List ℕ}
    (hlist : IsList m.heap q as (contents nodes)) (hforeign : ∀ n ∈ as, Foreign base owner n) :
    Keeps base m (ConfOption.change w r rec false nodes)
      ((Program.of w m).change r rec.bare false q) := by
  rw [(change_eq w r rec nodes).1]
  simp only [Program.change, GpgmeConf.confOptChange_change]
  exact ⟨rfl, bare_setRecord w r rfl, ha.unchanged (fun _ _ => rfl) (List.prefix_refl _), owner,
    ha.set hrec true hlist hforeign⟩

/-- `gpgme_conf_opt_change` drops the new value of a record. -/
theorem Accounts.reset (ha : Accounts base w m owner) {r : Ref} {rec : OptRecord}
    (hrec : w.deref r = .ok rec) :
    Keeps base m (ConfOption.change w r rec true [])
      ((Program.of w m).change r rec.bare true none) := by
  rw [(change_eq w r rec []).2]
  simp only [Program.change, GpgmeConf.confOptChange_reset]
  exact ⟨rfl, bare_setRecord w r rfl, ha.unchanged (fun _ _ => rfl) (List.prefix_refl _), owner,
    ha.set hrec false .nil (by simp)⟩

omit [GpgmeConf] in
/-- A list that was just made is passed to gpgme. -/
theorem Accounts.give (ha : Accounts base w m owner) {q : Option ℕ} {nodes : List (Node type)}
    (hobtains : Obtains m.heap h q nodes) :
    ∃ owner' as, IsList h q as (contents nodes) ∧ (∀ n ∈ as, Foreign base owner' n) ∧
      Unchanged m { m with heap := h, given := m.given ++ [q] } ∧
      Accounts base w { m with heap := h, given := m.given ++ [q] } owner' := by
  obtain ⟨⟨as, hlist, hsettled⟩, hle⟩ := hobtains
  obtain ⟨owner', hplaces, hgiven⟩ := ha.places.give hsettled hle
  have hcells : ∀ n, Foreign base owner n → h.cells n = m.heap.cells n :=
    fun n hn => hsettled.frame n (ha.places.lt_of_foreign hn)
  have hforeign : ∀ n, Foreign base owner n → Foreign base owner' n :=
    fun n hn => hn.imp_right fun hn => (hgiven n).mpr (.inl hn)
  refine ⟨owner', as, hlist, fun n hn => .inr ((hgiven n).mpr (.inr hn)),
    ha.unchanged hcells (List.prefix_append ..), ha.arguments, hplaces, ?_, ?_⟩
  · obtain ⟨bs, howned, hnodup, hbs⟩ := ha.given
    refine ⟨bs ++ (as ++ []), ?_, ?_, fun n => ?_⟩
    · exact (howned.congr fun n hn => hcells n (.inr ((hbs n).mp hn))).append (.cons hlist .nil)
    · rw [List.append_nil, List.nodup_append]
      refine ⟨hnodup, hlist.nodup, ?_⟩
      rintro n hn m hm rfl
      exact (ha.places.given_iff hsettled n).mpr ((hbs n).mp hn) |>.2 hm
    · rw [List.append_nil, List.mem_append, hbs n, hgiven n]
  · intro r rec hrec f
    obtain ⟨bs, hconf, hbs⟩ := ha.conf r rec hrec f
    exact ⟨bs, hconf.congr fun n hn => hcells n (hbs n hn), fun n hn => hforeign n (hbs n hn)⟩

omit [GpgmeConf] in
/-- Nothing is kept of what was made. -/
theorem Accounts.settle {O : Type} (ha : Accounts base w m owner) (out : O) {q : Option ℕ}
    (hobtains : Obtains m.heap h q ([] : List (Node type))) :
    Keeps base m (out, w) (out, .of w { m with heap := h }) := by
  obtain ⟨-, hsettled⟩ := hobtains.makes.of_nil
  obtain ⟨owner', hplaces, hgiven⟩ := ha.places.give hsettled hobtains.fresh_le
  have hcells : ∀ n, Foreign base owner n → h.cells n = m.heap.cells n :=
    fun n hn => hsettled.frame n (ha.places.lt_of_foreign hn)
  obtain ⟨hgivens, hconf⟩ := ha.frame hcells fun n => by simpa using hgiven n
  exact ⟨rfl, rfl, ha.unchanged hcells (List.prefix_refl _), owner', ha.arguments, hplaces, hgivens,
    hconf⟩

variable [LibGpgError]

theorem Accounts.alike_resetToDefaultValue (ha : Accounts base w m owner) (o : ConfOption) :
    EndsAlike (Keeps base m) (o.resetToDefaultValue w)
      ((Program.of w m).resetToDefaultValue o) := by
  refine (alike_record w o).bind ?_
  rintro p q ⟨hrecord, rfl⟩
  cases p with
  | none => exact .ok (ha.keeps _)
  | some p => exact .ok (ha.change (ConfOption.deref_of_record hrecord).2 .nil (by simp))

theorem Accounts.alike_resetToActiveValue (ha : Accounts base w m owner) (o : ConfOption) :
    EndsAlike (Keeps base m) (o.resetToActiveValue w) ((Program.of w m).resetToActiveValue o) := by
  refine (alike_record w o).bind ?_
  rintro p q ⟨hrecord, rfl⟩
  cases p with
  | none => exact .ok (ha.keeps _)
  | some p => exact .ok (ha.reset (ConfOption.deref_of_record hrecord).2)

theorem Accounts.alike_setNewValue (ha : Accounts base w m owner) (o : ConfOption) {a : Argument}
    {a' : ArgumentAt} (hr : ReadsAt m.heap a a') :
    EndsAlike (Keeps base m) (o.setNewValue w a memory)
      ((Program.of w m).setNewValue o a' memory) := by
  refine (alike_record w o).bind ?_
  rintro p q ⟨hrecord, rfl⟩
  cases p with
  | none => exact .ok (ha.keeps _)
  | some p =>
      obtain ⟨r, rec⟩ := p
      simp only [Option.map_some, Prod.map_apply, id, Program.world_of, hr.isNull w]
      split
      · exact ha.alike_resetToDefaultValue o
      obtain ⟨as, hlist⟩ := hr.list
      refine (alike_copyAt hlist).bind ?_
      rintro nodes ⟨q, heap⟩ hobtains
      cases nodes with
      | nil =>
          obtain ⟨rfl, -⟩ := hobtains.makes.of_nil
          exact .ok (ha.settle _ hobtains)
      | cons n ns =>
          obtain ⟨owner', bs, hlist', hforeign, hunchanged, haccounts⟩ := ha.give hobtains
          obtain ⟨b, rfl⟩ := Option.ne_none_iff_exists'.mp
            (mt hlist'.eq_nil_iff.mp (by simp [contents]))
          have hkeeps := haccounts.change (ConfOption.deref_of_record hrecord).2 hlist' hforeign
          exact .ok ⟨hkeeps.output, hkeeps.world, hunchanged.trans hkeeps.unchanged,
            hkeeps.accounts⟩

omit [GpgmeConf] [LibGpgError] in
/-- An operation on components and options only. -/
theorem Accounts.keeps_bare (ha : Accounts base w m owner) {w' w'' : World}
    (harguments : w'.arguments = w.arguments)
    (hoptions : ∀ c, (w'.comps c).options = (w.comps c).options) (hbare : w''.bare = w'.bare) :
    Keeps base m (Output.done, w') (Output.done, .of w'' m) :=
  ⟨rfl, hbare, .refl m, owner, ha.same harguments hoptions⟩

/-- **Every operation** does with memory what it does with values. -/
theorem Accounts.alike_step (ha : Accounts base w m owner) (op : Op) :
    EndsAlike (Keeps base m) (step w op) (Program.step (.of w m) op) := by
  have hconf : ∀ r rec, w.deref r = .ok rec → Describes m.heap (m.conf r) rec :=
    fun r rec hrec => ha.describes hrec
  cases op with
  | hold c =>
      have halive : w.bare.Alive c ↔ w.Alive c := .rfl
      simp only [step, Program.step, Program.world_of, halive]
      split
      · exact .ok (ha.keeps_bare rfl (options_setHandles c _) (bare_setHandles w c _))
      · exact .error _
  | drop c =>
      have halive : w.bare.Alive c ↔ w.Alive c := .rfl
      simp only [step, Program.step, Program.world_of, halive]
      split
      · exact .ok (ha.keeps_bare rfl (options_setHandles c _) (bare_setHandles w c _))
      · exact .error _
  | option v c i =>
      have halive : w.bare.Alive c ↔ w.Alive c := .rfl
      have hlength : (w.bare.comps c).options.length = (w.comps c).options.length :=
        List.length_map _
      simp only [step, Program.step, Program.world_of, halive, hlength]
      split
      · exact .ok (ha.keeps_bare rfl (fun _ => rfl) (bare_setOption w v _))
      · exact .error _
  | assignOption v u => exact .ok (ha.keeps_bare rfl (fun _ => rfl) (bare_setOption w v _))
  | optionParent v =>
      have hoption : w.bare.options v = w.options v := rfl
      simp only [step, Program.step, Program.world_of, lock_bare, hoption]
      split
      · exact .ok (ha.keeps_bare rfl (fun _ => rfl) w.bare_bare)
      · exact .ok (ha.keeps_bare rfl (options_setHandles _ _) (bare_setHandles w _ _))
  | parent v x =>
      refine (ha.alike_argument x).bind ?_
      rintro a a' ⟨-, -, hr⟩
      have hparent : a'.parent w.bare = a.parent w := by
        rw [ArgumentAt.parent, Argument.parent, lock_bare, hr.comp, hr.opt]
      refine .ok (ha.keeps_bare rfl (fun _ => rfl) ?_)
      rw [Program.world_of, hparent]
      exact bare_setOption w v _
  | property v property =>
      refine (alike_property m hconf property).bind ?_
      rintro out _ rfl
      exact .ok (ha.keeps out)
  | setNewValue v x memory =>
      refine (ha.alike_argument x).bind ?_
      rintro a a' ⟨-, -, hr⟩
      refine (ha.alike_setNewValue _ hr).bind ?_
      rintro p q hkeeps
      exact .ok (hkeeps.map Output.error)
  | resetToDefaultValue v =>
      refine (ha.alike_resetToDefaultValue _).bind ?_
      rintro p q hkeeps
      exact .ok (hkeeps.map Output.error)
  | resetToActiveValue v =>
      refine (ha.alike_resetToActiveValue _).bind ?_
      rintro p q hkeeps
      exact .ok (hkeeps.map Output.error)
  | newArgument x => exact ha.alike_construct x (madeAt_null m.heap)
  | get x v getter memory =>
      refine (alike_getter m hconf getter).bind ?_
      intro a made hmade
      exact ha.alike_construct x hmade
  | create x v factory memory =>
      refine (alike_factory m.heap factory).bind ?_
      intro a made hmade
      exact ha.alike_construct x hmade
  | copy x y memory =>
      refine (ha.alike_argument y).bind ?_
      rintro b b' ⟨-, -, hr⟩
      refine (alike_copy hr).bind ?_
      intro a made hmade
      exact ha.alike_construct x hmade
  | assign x y memory =>
      refine (ha.alike_argument x).bind ?_
      rintro a a' ⟨-, hx', hra⟩
      refine (ha.alike_argument y).bind ?_
      rintro b b' ⟨-, -, hrb⟩
      split
      · exact .ok (ha.keeps _)
      refine (alike_copy hrb).bind ?_
      rintro copy ⟨copy', heap⟩ hmade
      obtain ⟨as, -, hsettled⟩ := hmade.obtains.makes
      refine (alike_release (hra.settled hsettled)).bind ?_
      rintro _ heap' hrelease
      exact .ok (ha.assign hx' hmade hrelease)
  | swap x y =>
      refine (ha.alike_argument x).bind ?_
      rintro a a' ⟨hx, hx', hra⟩
      refine (ha.alike_argument y).bind ?_
      rintro b b' ⟨hy, hy', hrb⟩
      exact .ok (ha.swap hx hx' hy hy' hra hrb)
  | destroy x =>
      refine (ha.alike_argument x).bind ?_
      rintro a a' ⟨-, hx', hr⟩
      refine (alike_release hr).bind ?_
      rintro _ heap hrelease
      exact .ok (ha.destroy hx' hrelease)
  | access x accessor =>
      refine (ha.alike_argument x).bind ?_
      rintro a a' ⟨-, -, hr⟩
      refine (alike_accessor hr accessor).bind ?_
      rintro out _ rfl
      exact .ok (ha.keeps out)

/-! ## Programs -/

omit [GpgmeConf] [LibGpgError] in
/-- The program has in memory what the world has as values. -/
structure Program.Holds (base : ℕ) (w : World) (s : Program) : Prop where
  world : s.world = w.bare
  accounts : ∃ owner, Accounts base w s.memory owner

/-- A program does with memory what is done with values. -/
theorem Program.Holds.alike_step {s : Program} (hs : s.Holds base w) (op : Op) :
    EndsAlike (fun p q => q.1 = p.1 ∧ q.2.Holds base p.2 ∧ Unchanged s.memory q.2.memory)
      (Configuration.step w op) (s.step op) := by
  obtain ⟨world, m, hbare⟩ := s
  obtain ⟨rfl, owner, ha⟩ := hs
  exact (ha.alike_step op).imp fun p q hk => ⟨hk.output, ⟨hk.world, hk.accounts⟩, hk.unchanged⟩

omit [GpgmeConf] [LibGpgError] in
theorem Program.Starts.holds {s : Program} (hs : s.Starts w) :
    s.Holds s.memory.heap.fresh w :=
  ⟨hs.world, _, hs.accounts⟩

variable {w₀ : World} {s₀ s : Program}

/-- What a program did, values can do as well. -/
theorem Program.Holds.values {ts : List (Transition Program Op Output)} (h0 : s₀.Holds base w₀)
    (hrun : Run Program.step s₀ ts s) :
    ∃ us w, Run Configuration.step w₀ us w ∧ us.map Transition.input = ts.map Transition.input ∧
      us.map Transition.output = ts.map Transition.output ∧ s.Holds base w ∧
      Unchanged s₀.memory s.memory := by
  have hstep : ∀ (s : Program) (w : World) op o s',
      (s.Holds base w ∧ Unchanged s₀.memory s.memory) → True → s.step op = .ok (o, s') →
      ∃ o' w', Configuration.step w op = .ok (o', w') ∧ o = o' ∧ s'.Holds base w' ∧
        Unchanged s₀.memory s'.memory := by
    rintro s w op o s' ⟨hs, hunchanged⟩ - hstep
    obtain ⟨⟨o', w'⟩, hvalues, hout, hs', hstepped⟩ := (hs.alike_step op).exists_of_right hstep
    exact ⟨o', w', hvalues, hout, hs', hunchanged.trans hstepped⟩
  obtain ⟨us, w, hvalues, hinputs, houtputs, hend⟩ := hrun.simulated
    (fun s w => s.Holds base w ∧ Unchanged s₀.memory s.memory) (fun o o' => o = o')
    (fun _ => True) hstep ⟨h0, .refl _⟩ fun _ _ => trivial
  exact ⟨us, w, hvalues, hinputs, (List.forall₂_eq_eq_eq ▸ houtputs).symm, hend⟩

omit [GpgmeConf] [LibGpgError] in
/-- The account of the nodes that were made from the address `base` on, when the arguments are those
of `w`. -/
structure Accounted (base : ℕ) (w : World) (m : Memory) (owner : ℕ → Option Owner) : Prop where
  made : ∀ n, (owner n).isSome ↔ base ≤ n ∧ n < m.heap.fresh
  argument : ∀ x a, w.arguments x = some a → ∃ a' as, m.arguments x = some a' ∧
    IsList m.heap a'.arg as (contents a.arg.nodes) ∧ ∀ n, n ∈ as ↔ owner n = some (.place x)
  noArgument : ∀ x, w.arguments x = none → ∀ n, owner n ≠ some (.place x)
  given : ∃ bs, Owned m.heap m.given bs ∧ bs.Nodup ∧ ∀ n, n ∈ bs ↔ owner n = some .given
  once : m.heap.released.Nodup
  released : ∀ n, n ∈ m.heap.released ↔ owner n = some .released

omit [GpgmeConf] [LibGpgError] in
theorem Accounts.account (ha : Accounts base w m owner) : Accounted base w m owner where
  made := ha.places.made
  argument x a hx := by
    have hrel := ha.arguments x
    obtain ⟨as, hlist, has⟩ := ha.places.list x
    rw [World.listOf, Memory.arg, hx] at hlist
    rw [hx] at hrel
    cases hx' : m.arguments x with
    | none =>
        rw [hx'] at hrel
        cases hrel
    | some a' =>
        rw [hx'] at hlist
        exact ⟨a', as, rfl, hlist, has⟩
  noArgument x hx n := ha.places.owner_ne (by rw [World.listOf, hx])
  given := ha.given
  once := ha.places.once
  released := ha.places.released

/-- **Every node has one owner.**  In every run, each node that was made is in the list of one
argument, which has the values that the argument should have, or is in a list that was passed to
gpgme and is what it was after the step that passed it, or was released, once.  An operation fails
only where the values say so: none uses or releases a node that was released. -/
theorem accounted {ts : List (Transition Program Op Output)} (h0 : s₀.Starts w₀)
    (hrun : Run Program.step s₀ ts s) :
    ∃ us w, Run step w₀ us w ∧ us.map Transition.input = ts.map Transition.input ∧
      us.map Transition.output = ts.map Transition.output ∧
      (∃ owner, Accounted s₀.memory.heap.fresh w s.memory owner) ∧
      (∀ t ∈ ts, ∀ p ∈ t.target.memory.given, p ∈ s.memory.given ∧
        ∀ as l, IsList t.target.memory.heap p as l → IsList s.memory.heap p as l) ∧
      ∀ op, (s.step op).map Prod.fst = (step w op).map Prod.fst := by
  obtain ⟨us, w, hvalues, hinputs, houtputs, hs, -⟩ := h0.holds.values hrun
  obtain ⟨owner, ha⟩ := hs.accounts
  refine ⟨us, w, hvalues, hinputs, houtputs, ⟨owner, ha.account⟩, fun t ht p hp => ?_,
    fun op => ((hs.alike_step op).map_eq fun _ _ h => h.1.symm).symm⟩
  obtain ⟨before, after, rfl⟩ := List.append_of_mem ht
  obtain ⟨hbefore, hstep, hafter⟩ := hrun.cut
  obtain ⟨-, w', -, -, -, ht', -⟩ := h0.holds.values (hbefore.append (.single hstep))
  obtain ⟨-, -, -, -, -, -, hunchanged⟩ := ht'.values hafter
  exact ⟨hunchanged.given.subset hp, hunchanged.list p hp⟩

omit [GpgmeConf] [LibGpgError] in
/-- A program with the options of `World.ofOption`, whose value is a number in memory. -/
def Program.ofOption (n : Int32) : Program :=
  .of (.ofOption .int32 [⟨false, .int32 n, member_int32 n⟩])
    { heap := (Heap.alloc .empty (Sigma.mk ConfType.int32 ⟨false, .int32 n, member_int32 n⟩)).2
      arguments := fun _ => none
      conf := fun _ f => if f = .value then some 0 else none
      given := [] }

omit [GpgmeConf] [LibGpgError] in
theorem Program.ofOption_starts (n : Int32) :
    (Program.ofOption n).Starts (.ofOption .int32 [⟨false, .int32 n, member_int32 n⟩]) where
  initial := World.ofOption_initial _ _
  world := rfl
  arguments := rfl
  given := rfl
  released := rfl
  conf r rec hrec f := by
    obtain ⟨c, i⟩ := r
    cases i with
    | succ i => cases hrec
    | zero =>
        obtain rfl := Option.some.inj hrec
        cases f with
        | value =>
            have hcell : (Program.ofOption n).memory.heap.cells 0 =
                some ⟨Sigma.mk ConfType.int32 ⟨false, .int32 n, member_int32 n⟩, none⟩ := rfl
            exact ⟨[0], IsList.cons hcell .nil⟩
        | _ => exact ⟨[], .nil⟩

omit [GpgmeConf] [LibGpgError] in
/-- The value is copied, read and set as the new value, and both arguments are destroyed. -/
theorem accounted_ofOption :
    letI := GpgmeConf.documented
    letI := LibGpgError.documented
    ∃ (ts : List (Transition Program Op Output)) (s : Program),
      Run Program.step (.ofOption 1) ts s ∧
      ts.map Transition.input = [.option 0 0 0, .get 0 0 .activeValue fun _ => true,
        .copy 1 0 fun _ => true, .access 1 (.intValue 0), .setNewValue 0 1 fun _ => true,
        .destroy 0, .destroy 1] ∧
      ts.map Transition.output = [.done, .done, .done, .int 1, .error .none, .done, .done] ∧
      s.memory.heap.released = [1, 2] ∧ s.memory.given = [some 3] ∧
      ∃ us w, Run step (.ofOption .int32 [⟨false, .int32 1, rfl⟩]) us w ∧
        us.map Transition.input = ts.map Transition.input ∧
        us.map Transition.output = ts.map Transition.output ∧
        (∃ owner, Accounted (Program.ofOption 1).memory.heap.fresh w s.memory owner) ∧
        (∀ t ∈ ts, ∀ p ∈ t.target.memory.given, p ∈ s.memory.given ∧
          ∀ as l, IsList t.target.memory.heap p as l → IsList s.memory.heap p as l) ∧
        ∀ op, (s.step op).map Prod.fst = (step w op).map Prod.fst := by
  let := GpgmeConf.documented
  let := LibGpgError.documented
  have hrun : ∃ (ts : List (Transition Program Op Output)) (s : Program),
      Run Program.step (.ofOption 1) ts s ∧
      ts.map Transition.input = [.option 0 0 0, .get 0 0 .activeValue fun _ => true,
        .copy 1 0 fun _ => true, .access 1 (.intValue 0), .setNewValue 0 1 fun _ => true,
        .destroy 0, .destroy 1] ∧
      ts.map Transition.output = [.done, .done, .done, .int 1, .error .none, .done, .done] ∧
      s.memory.heap.released = [1, 2] ∧ s.memory.given = [some 3] :=
    ⟨_, _, .cons rfl (.cons rfl (.cons rfl (.cons rfl (.cons rfl (.cons rfl (.cons rfl
      (.nil _))))))), rfl, rfl, rfl, rfl⟩
  obtain ⟨ts, s, hrun, hin, hout, hreleased, hgiven⟩ := hrun
  exact ⟨ts, s, hrun, hin, hout, hreleased, hgiven, accounted (Program.ofOption_starts 1) hrun⟩

/-- **What is done with values is done in memory.**  Every run of operations on values is one of
operations that read, copy and release nodes: they return the same, leave the same lists, and go on
or fail alike. -/
theorem runsInMemory {us : List (Transition World Op Output)} (h0 : s₀.Starts w₀)
    (hrun : Run step w₀ us w) :
    ∃ ts s, Run Program.step s₀ ts s ∧ ts.map Transition.input = us.map Transition.input ∧
      ts.map Transition.output = us.map Transition.output ∧
      (∀ x a, w.arguments x = some a → ∃ a' as, s.memory.arguments x = some a' ∧
        IsList s.memory.heap a'.arg as (contents a.arg.nodes)) ∧
      ∀ op, (s.step op).map Prod.fst = (step w op).map Prod.fst := by
  have hstep : ∀ (w : World) (s : Program) op o w', s.Holds s₀.memory.heap.fresh w → True →
      step w op = .ok (o, w') → ∃ o' s', s.step op = .ok (o', s') ∧ o = o' ∧
        s'.Holds s₀.memory.heap.fresh w' := by
    rintro w s op o w' hs - hstep
    obtain ⟨⟨o', s'⟩, hprogram, hout, hs', -⟩ := (hs.alike_step op).exists_of_left hstep
    exact ⟨o', s', hprogram, hout.symm, hs'⟩
  obtain ⟨ts, s, hprogram, hinputs, houtputs, hs⟩ := hrun.simulated
    (fun (w : World) (s : Program) => s.Holds s₀.memory.heap.fresh w) (fun o o' => o = o')
    (fun _ => True) hstep h0.holds fun _ _ => trivial
  obtain ⟨owner, ha⟩ := hs.accounts
  refine ⟨ts, s, hprogram, hinputs, (List.forall₂_eq_eq_eq ▸ houtputs).symm, fun x a hx => ?_,
    fun op => ((hs.alike_step op).map_eq fun _ _ h => h.1.symm).symm⟩
  obtain ⟨a', as, hx', hlist, -⟩ := ha.account.argument x a hx
  exact ⟨a', as, hx', hlist⟩

omit [GpgmeConf] [LibGpgError] in
/-- Two lists are made, one of them is read, and the other one replaces it. -/
theorem runsInMemory_ofOption :
    letI := GpgmeConf.documented
    letI := LibGpgError.documented
    ∃ (us : List (Transition World Op Output)) (w : World),
      Run step (.ofOption .int32 [⟨false, .int32 1, rfl⟩]) us w ∧
      us.map Transition.input = [.option 0 0 0, .create 0 0 (.intList [5, 6]) fun _ => true,
        .get 1 0 .activeValue fun _ => true, .access 0 (.intValue 1), .access 0 .intValues,
        .assign 0 1 fun _ => true, .access 0 .intValues] ∧
      us.map Transition.output = [.done, .done, .done, .int 6, .ints [5, 6], .done, .ints [1]] ∧
      ∃ ts s, Run Program.step (.ofOption 1) ts s ∧
        ts.map Transition.input = us.map Transition.input ∧
        ts.map Transition.output = us.map Transition.output ∧
        (∀ x a, w.arguments x = some a → ∃ a' as, s.memory.arguments x = some a' ∧
          IsList s.memory.heap a'.arg as (contents a.arg.nodes)) ∧
        ∀ op, (s.step op).map Prod.fst = (step w op).map Prod.fst := by
  let := GpgmeConf.documented
  let := LibGpgError.documented
  have hrun : ∃ (us : List (Transition World Op Output)) (w : World),
      Run step (.ofOption .int32 [⟨false, .int32 1, rfl⟩]) us w ∧
      us.map Transition.input = [.option 0 0 0, .create 0 0 (.intList [5, 6]) fun _ => true,
        .get 1 0 .activeValue fun _ => true, .access 0 (.intValue 1), .access 0 .intValues,
        .assign 0 1 fun _ => true, .access 0 .intValues] ∧
      us.map Transition.output = [.done, .done, .done, .int 6, .ints [5, 6], .done, .ints [1]] :=
    ⟨_, _, .cons rfl (.cons rfl (.cons rfl (.cons rfl (.cons rfl (.cons rfl (.cons rfl
      (.nil _))))))), rfl, rfl⟩
  obtain ⟨us, w, hrun, hin, hout⟩ := hrun
  exact ⟨us, w, hrun, hin, hout, runsInMemory (Program.ofOption_starts 1) hrun⟩

end Step

end Gpgmepp.Configuration
