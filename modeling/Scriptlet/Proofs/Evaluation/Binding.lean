import Scriptlet.Proofs.Evaluation.Simulation
import Scriptlet.Script.Execution

/-!
# Binding by position and by name

Arguments resolve the leading registers of a script. Instead, they may be defined in the context
under the names of those registers and the script be run without arguments: an unresolved register
is looked up by its name, so it reads the same. The two runs keep the same values in different
places, and move further apart with every assignment; what stays the same is what each register
reads as.

* `defineAll` — a context with variables for the arguments;
* `ReadAlike` — the invariant of the two runs;
* `Script.execute_by_name` — the two runs have the same result.

Two registers never share a name, or else an argument would show in both of them on the second side.
-/

namespace Scriptlet

variable {γ : Type} [Context γ]

/-! ### Contexts with arguments -/

/-- The context with every name defined as the argument at its position. -/
def defineAll (context : γ) (names : List String) (args : List Value) : γ :=
  (names.zip args).foldl (fun c entry => Context.set c entry.1 entry.2) context

private theorem defineAll_cons (context : γ) (name : String) (names : List String) (arg : Value)
    (args : List Value) :
    defineAll context (name :: names) (arg :: args) =
      defineAll (Context.set context name arg) names args := rfl

section Lawful

variable [LawfulContext γ]

/-- A name without an argument keeps its meaning. -/
private theorem get_defineAll_of_not_mem (context : γ) {names : List String} {args : List Value}
    {name : String} (h : name ∉ names.take args.length) :
    Context.get (defineAll context names args) name = Context.get context name := by
  induction names generalizing context args with
  | nil => rfl
  | cons head names ih =>
    cases args with
    | nil => rfl
    | cons arg args =>
      rw [List.length_cons, List.take_succ_cons, List.mem_cons, not_or] at h
      rw [defineAll_cons, ih _ h.2, LawfulContext.get_set, if_neg h.1]

/-- A name with an argument means the argument, if no other position has the same name. -/
private theorem get_defineAll (context : γ) {names : List String} {args : List Value}
    (hnames : names.Nodup) {i : Nat} {name : String} {arg : Value} (hname : names[i]? = some name)
    (harg : args[i]? = some arg) : Context.get (defineAll context names args) name = some arg := by
  induction names generalizing context args i with
  | nil => cases hname
  | cons head names ih =>
    obtain ⟨hhead, hnames⟩ := List.nodup_cons.1 hnames
    cases args with
    | nil => cases harg
    | cons arg' args =>
      rw [defineAll_cons]
      -- the first name keeps its argument, since none of the later names is the same
      cases i with
      | zero =>
        obtain rfl : head = name := by simpa using hname
        obtain rfl : arg' = arg := by simpa using harg
        have hlater : head ∉ names.take args.length := fun hmem => hhead (List.mem_of_mem_take hmem)
        rw [get_defineAll_of_not_mem _ hlater, LawfulContext.get_set, if_pos rfl]
      | succ i => exact ih _ hnames (by simpa using hname) (by simpa using harg)

end Lawful

/-! ### The invariant -/

/-- **The invariant of the two runs.** The first `count` registers are resolved on the left; on the
right they hold the same value or, still unresolved, find it in the context. All other registers
have the same slots, and all other names the same meaning. -/
structure ReadAlike (names : List String) (count : Nat) (f g : Frame γ) : Prop where
  left_names : f.registers.names = names
  right_names : g.registers.names = names
  bound : ∀ i < count, ∃ value, f.registers.get? i = some value ∧
    (g.registers.get? i = some value ∨
      g.registers.get? i = none ∧ ∀ name, names[i]? = some name →
        Context.get g.context name = some value)
  unbound : ∀ i, count ≤ i → f.registers.get? i = g.registers.get? i
  context : ∀ name, name ∉ names.take count →
    Context.get f.context name = Context.get g.context name

namespace ReadAlike

variable {names : List String} {count : Nat} {f g : Frame γ}

/-- At the start an argument is in its register on one side, and in the context under the name of
that register on the other. -/
theorem initial [LawfulContext γ] {args : List Value} (hnames : names.Nodup)
    (hargs : args.length ≤ names.length) (context : γ) :
    ReadAlike names args.length ⟨.bind names args, context⟩
      ⟨.bind names [], defineAll context names args⟩ where
  left_names := rfl
  right_names := rfl
  bound i hi := by
    refine ⟨args[i], ?_, .inr ⟨?_, fun name hname => ?_⟩⟩
    · rw [Registers.get?_bind, if_pos (by omega), List.getElem?_eq_getElem hi]
    · rw [Registers.get?_bind, if_pos (by omega), List.getElem?_nil]
    · exact get_defineAll context hnames hname (List.getElem?_eq_getElem hi)
  unbound i hi := by
    rw [Registers.get?_bind, Registers.get?_bind, List.getElem?_nil, List.getElem?_eq_none hi]
  context name hname := (get_defineAll_of_not_mem context hname).symm

theorem length_eq (h : ReadAlike names count f g) : f.registers.length = g.registers.length := by
  rw [Registers.length_eq, Registers.length_eq, h.left_names, h.right_names]

/-- Both sides look a variable up under the same name. -/
private theorem lookupName_eq (h : ReadAlike names count f g) (name : String)
    (register : Option Nat) :
    lookupName f.registers name register = lookupName g.registers name register :=
  lookupName_congr (h.left_names.trans h.right_names.symm) name register

/-- **A variable that no register stands for** reads the same, if its name has no argument. -/
private theorem read?_free (h : ReadAlike names count f g) {name : String} {register : Option Nat}
    (hout : ∀ i, register = some i → names.length ≤ i) (hname : name ∉ names.take count) :
    f.read? name register = g.read? name register := by
  have hunresolved : ∀ {r : Registers}, r.names = names → register.bind r.get? = none := by
    intro r hr
    cases register with
    | none => rfl
    | some i => exact Registers.get?_eq_none_of_le (by rw [r.length_eq, hr]; exact hout i rfl)
  rw [Frame.read?_unresolved (hunresolved h.left_names),
    Frame.read?_unresolved (hunresolved h.right_names),
    lookupName_free (by rwa [h.left_names]), lookupName_free (by rwa [h.right_names])]
  exact h.context name hname

/-- **Every register reads the same** on both sides. -/
private theorem read?_register (h : ReadAlike names count f g) (hnodup : names.Nodup) {i : Nat}
    {declared : String} (hdeclared : names[i]? = some declared) (name : String) :
    f.read? name (some i) = g.read? name (some i) := by
  have hlookup : ∀ {r : Registers}, r.names = names → lookupName r name (some i) = declared :=
    fun hr => lookupName_declared (by rw [hr, hdeclared]) name
  by_cases hi : i < count
  · -- an argument: resolved on the left, in its slot or in the context on the right
    obtain ⟨value, hleft, hright⟩ := h.bound i hi
    rw [Frame.read?_resolved hleft]
    rcases hright with hright | ⟨hright, hcontext⟩
    · rw [Frame.read?_resolved hright]
    · rw [Frame.read?_empty hright, hlookup h.right_names, hcontext declared hdeclared]
  · -- no argument: the same slot on both sides, under a name that is not an argument's
    have hslot := h.unbound i (Nat.le_of_not_lt hi)
    cases hleft : f.registers.get? i with
    | some value => rw [Frame.read?_resolved hleft, Frame.read?_resolved (hslot ▸ hleft)]
    | none =>
      rw [Frame.read?_empty hleft, Frame.read?_empty (hslot ▸ hleft), hlookup h.left_names,
        hlookup h.right_names]
      -- by distinctness, an argument of this name would be this register
      refine h.context declared fun hmem => hi ?_
      obtain ⟨j, hj, hjname⟩ := List.mem_take_iff_getElem.1 hmem
      have hij : names[j]? = names[i]? := by
        rw [hdeclared, List.getElem?_eq_getElem (by omega), hjname]
      rw [List.getElem?_inj (by omega) hnodup] at hij
      omega

/-- **Writing a register** keeps the invariant, whether it is an argument or not. -/
theorem store (register : Nat) (value : Value) :
    Run.Simulates (ReadAlike names count) (Run.store register value : Run γ Unit)
      (Run.store register value) := by
  intro f g h
  -- both sides have the same number of registers, so both succeed or none does
  rcases store_cases register value f with ⟨registers, hstore, hrun⟩ | ⟨hle, hrun⟩
  · rcases store_cases register value g with ⟨registers', hstore', hrun'⟩ | ⟨hle', -⟩
    · rw [hrun, hrun']
      refine .returned () ⟨?_, ?_, fun i hi => ?_, fun i hi => ?_, h.context⟩
      · exact (Registers.names_store? hstore).trans h.left_names
      · exact (Registers.names_store? hstore').trans h.right_names
      · -- an argument that is overwritten is in its slot on both sides from now on
        rw [Registers.get?_store? hstore, Registers.get?_store? hstore']
        by_cases heq : i = register
        · rw [if_pos heq, if_pos heq]
          exact ⟨value, rfl, .inl rfl⟩
        · rw [if_neg heq, if_neg heq]
          exact h.bound i hi
      · rw [Registers.get?_store? hstore, Registers.get?_store? hstore', h.unbound i hi]
    · exact absurd (Registers.lt_of_store? hstore) (by rw [h.length_eq]; omega)
  · rcases store_cases register value g with ⟨registers', hstore', -⟩ | ⟨-, hrun'⟩
    · exact absurd (Registers.lt_of_store? hstore') (by rw [← h.length_eq]; omega)
    · rw [hrun, hrun']
      exact .failed _ h

/-- **Writing the context** keeps the invariant, under a name that has no argument. -/
theorem define [LawfulContext γ] {name : String} (hname : name ∉ names.take count)
    (value : Value) :
    Run.Simulates (ReadAlike names count) (Run.define name value : Run γ Unit)
      (Run.define name value) := by
  intro f g h
  rw [define_apply, define_apply]
  refine .returned ()
    ⟨h.left_names, h.right_names, fun i hi => ?_, h.unbound, fun other hother => ?_⟩
  · obtain ⟨argument, hleft, hright⟩ := h.bound i hi
    refine ⟨argument, hleft, hright.imp_right fun hright => ⟨hright.1, fun other hother => ?_⟩⟩
    -- the name written is not that of an argument, so the argument is still found
    have hne : other ≠ name := by
      rintro rfl
      obtain ⟨hlt, rfl⟩ := List.getElem?_eq_some_iff.1 hother
      exact hname (List.mem_take_iff_getElem.2 ⟨i, by omega, rfl⟩)
    rw [LawfulContext.get_set, if_neg hne]
    exact hright.2 other hother
  · rw [LawfulContext.get_set, LawfulContext.get_set, h.context other hother]

/-- **The invariant is kept by the run of a tree** in which only registers are read and written
under the names of arguments. -/
theorem interpret [LawfulContext γ] (hnodup : names.Nodup) {n : Node}
    (hfree : ∀ m ∈ n.preorder, ∀ name register, m.kind = .identifier name register →
      (∀ i, register = some i → names.length ≤ i) → name ∉ names.take count)
    (policy : Policy) (rounds : Nat) :
    Run.Simulates (ReadAlike names count) (n.interpret policy rounds : Run γ Value)
      (n.interpret policy rounds) := by
  apply Run.Simulates.interpret
  · intro m hm name register hkind f g h
    -- either no register stands for the identifier, or it is one of the script's
    have hread : f.read? name register = g.read? name register := by
      by_cases hout : ∀ i, register = some i → names.length ≤ i
      · exact h.read?_free hout (hfree m hm name register hkind hout)
      · obtain ⟨i, hnot⟩ := Classical.not_forall.1 hout
        obtain ⟨rfl, hi⟩ := Classical.not_imp.1 hnot
        have hdeclared := List.getElem?_eq_getElem (Nat.lt_of_not_le hi)
        exact h.read?_register hnodup hdeclared name
    rw [resolve_apply, resolve_apply, hread, h.lookupName_eq]
    cases g.read? name register with
    | some value => exact .returned value h
    | none =>
      cases policy.strict with
      | true => exact .failed _ h
      | false => exact .returned Value.null h
  -- writing keeps the relation, in a register as well as in the context
  · intro m hm name register hkind value
    cases register with
    | some i => exact store i value
    | none => exact define (hfree m hm name none hkind nofun) value
  · exact store

end ReadAlike

/-! ### Running a script -/

namespace Script

/-- Running the script with the given arguments ends in this outcome. -/
def Ends (policy : Policy) (script : Script) (args : List Value) (context : γ)
    (outcome : Outcome γ Value) : Prop :=
  outcome ≠ .unfinished ∧ ∃ rounds, script.execute policy rounds args context = outcome

/-- Running the script with the given arguments never ends. -/
def Diverges (policy : Policy) (script : Script) (args : List Value) (context : γ) : Prop :=
  ∀ rounds, script.execute policy rounds args context = .unfinished

/-- **Arguments by position and by name.** Running a script with arguments, and running it without
any over the context in which the leading registers' names are defined as those arguments, diverge
together or end with the same result. At the end the contexts agree on all other names, and every
register reads the same. -/
theorem execute_by_name [LawfulContext γ] (script : Script) (policy : Policy) (context : γ)
    (args : List Value) (hargs : args.length ≤ script.registers.length)
    (hfree : ∀ m ∈ script.root.preorder, ∀ name register, m.kind = .identifier name register →
      (∀ i, register = some i → script.registers.length ≤ i) →
        name ∉ script.registers.take args.length) :
    (script.Diverges policy args context ∧
      script.Diverges policy [] (defineAll context script.registers args)) ∨
    ∃ result f g, script.Ends policy args context (.ofResult result f) ∧
      script.Ends policy [] (defineAll context script.registers args) (.ofResult result g) ∧
      (∀ name, name ∉ script.registers.take args.length →
        Context.get f.context name = Context.get g.context name) ∧
      (∀ (i : Nat) name, script.registers[i]? = some name →
        f.read? name (some i) = g.read? name (some i)) := by
  have hruns := Run.Simulates.ends (ReadAlike.interpret script.nodup_registers hfree policy)
    (ReadAlike.initial script.nodup_registers hargs context)
  refine hruns.imp_right ?_
  rintro ⟨result, f, g, hf, hg, h⟩
  exact ⟨result, f, g, hf, hg, h.context, fun i name hname =>
    h.read?_register script.nodup_registers hname name⟩

/-- Of two parameters only `x` gets an argument, is assigned, and then added to the other. -/
def addAfterAssign : Script where
  root := ⟨.script, [
    ⟨.assign, [⟨.identifier "x" (some 0), [], none⟩,
      ⟨.binary .add, [⟨.identifier "x" (some 0), [], none⟩, ⟨.literal (.int 1), [], none⟩], none⟩],
      none⟩,
    ⟨.binary .add, [⟨.identifier "x" (some 0), [], none⟩, ⟨.identifier "y" (some 1), [], none⟩],
      none⟩], none⟩
  registers := ["x", "y"]
  parameterCount := 2
  source := none
  root_kind := rfl
  parameterCount_le := by decide
  nodup_registers := by decide

/-- The argument ends in the slot on both sides, and the context's `y` is read by name. -/
theorem execute_by_name_addAfterAssign :
    ∃ result f g, addAfterAssign.Ends {} [.int 4] (Variables.ofList [("y", .int 2)])
        (.ofResult result f) ∧
      addAfterAssign.Ends {} [] (Variables.ofList [("x", .int 4), ("y", .int 2)])
        (.ofResult result g) ∧ f.read? "x" (some 0) = g.read? "x" (some 0) := by
  have hends : addAfterAssign.root.Ends {}
      (addAfterAssign.frame [.int 4] (Variables.ofList [("y", .int 2)]))
      (.returned (.int 7) (addAfterAssign.frame [.int 5] (Variables.ofList [("y", .int 2)]))) :=
    ⟨nofun, 0, rfl⟩
  have hfree : ∀ m ∈ addAfterAssign.root.preorder, ∀ name register,
      m.kind = .identifier name register →
        (∀ i, register = some i → addAfterAssign.registers.length ≤ i) →
          name ∉ addAfterAssign.registers.take 1 := by
    intro m hm name register hkind hout
    -- every identifier of the tree has a register, and one that exists
    have hregister : ∃ i < 2, register = some i := by
      simp only [addAfterAssign, Node.preorder_mk, Node.preorderAll_eq_flatMap, List.flatMap_cons,
        List.flatMap_nil, List.append_nil, List.cons_append, List.nil_append, List.mem_cons,
        List.not_mem_nil, or_false] at hm
      rcases hm with rfl | rfl | rfl | rfl | rfl | rfl | rfl | rfl | rfl <;> cases hkind <;>
        exact ⟨_, by decide, rfl⟩
    obtain ⟨i, hi, rfl⟩ := hregister
    exact absurd (hout i rfl) (Nat.not_le.2 hi)
  rcases execute_by_name addAfterAssign {} (Variables.ofList [("y", .int 2)]) [.int 4] (by decide)
    hfree with hdiverges | ⟨result, f, g, hf, hg, -, hread⟩
  · exact (hends.not_diverges hdiverges.1).elim
  · exact ⟨result, f, g, hf, hg, hread 0 "x" rfl⟩

end Script

end Scriptlet
