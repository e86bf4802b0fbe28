import Scriptlet.Proofs.Evaluation.Simulation

/-!
# What a run can reach

A run sees of the context only the names under which the identifiers of its tree are looked up.
Which name that is depends on the registers and not on the identifier alone: a resolved register is
never looked up, an unresolved one under the name it was declared with, and only a free variable, or
one whose register does not exist, under its own.

* `Node.contextNames` — the names that a tree looks up, given the registers at the start;
* `AgreeWithin` — the invariant of two runs over contexts that agree on those names;
* `Node.interpret_reach` — such runs do the same, and write to no other name.

Registers may become resolved during the run. This takes names away from what is looked up and adds
none, so that the names found at the start remain an upper bound.
-/

namespace Scriptlet

/-! ### The names looked up -/

/-- The name that a node of this kind looks up in the context, if any. -/
def Kind.contextName? (registers : Registers) : Kind → Option String
  | identifier name none => some name
  | identifier name (some i) =>
    match registers.name? i with
    | some declared => if registers.isResolved i then none else some declared
    | none => some name
  | _ => none

/-- The names that the nodes of a tree look up in the context. -/
def Node.contextNames (registers : Registers) (n : Node) : List String :=
  n.preorder.filterMap fun m => m.kind.contextName? registers

/-- An identifier looks its name up exactly if its slot is not resolved. -/
private theorem Kind.contextName?_identifier (registers : Registers) (name : String)
    (register : Option Nat) :
    (identifier name register).contextName? registers =
      match register.bind registers.get? with
      | some _ => none
      | none => some (lookupName registers name register) := by
  cases register with
  | none => rfl
  | some i =>
    rw [contextName?, lookupName, Option.bind_some, Option.bind_some, Registers.isResolved]
    cases hget : registers.get? i with
    | none => cases registers.name? i <;> rfl
    | some value =>
      -- a register that holds a value has been declared
      cases hname : registers.name? i with
      | none =>
        rw [Registers.get?_eq_none_of_le (Registers.name?_eq_none_iff.1 hname)] at hget
        cases hget
      | some declared => rfl

namespace Node

variable {registers : Registers} {n m : Node}

/-- An identifier without a resolved register is looked up in the context, under one of these
names. -/
private theorem lookupName_mem_contextNames (hm : m ∈ n.preorder) {name : String}
    {register : Option Nat} (hkind : m.kind = .identifier name register)
    (h : register.bind registers.get? = none) :
    lookupName registers name register ∈ n.contextNames registers := by
  refine List.mem_filterMap.2 ⟨m, hm, ?_⟩
  rw [hkind, Kind.contextName?_identifier, h]

/-- **A bound argument hides the variable of its name.** The name of a resolved register is not
looked up if every identifier that would be looked up under it has that register. -/
private theorem not_mem_contextNames {i : Nat} {name : String} (hresolved : registers.isResolved i)
    (hall : ∀ m ∈ n.preorder, ∀ own register, m.kind = .identifier own register →
      lookupName registers own register = name → register = some i) :
    name ∉ n.contextNames registers := by
  intro hmem
  obtain ⟨m, hm, hname⟩ := List.mem_filterMap.1 hmem
  cases hkind : m.kind with
  | identifier own register =>
    rw [hkind, Kind.contextName?_identifier] at hname
    cases hread : register.bind registers.get? with
    | some value =>
      rw [hread] at hname
      cases hname
    | none =>
      -- an identifier that looks the name up has the register, which is resolved
      rw [hread] at hname
      obtain rfl := hall m hm own register hkind (Option.some.inj hname)
      rw [Option.bind_some] at hread
      rw [Registers.isResolved, hread] at hresolved
      cases hresolved
  | _ =>
    rw [hkind] at hname
    cases hname

end Node

/-! ### The invariant -/

variable {γ : Type} [Context γ]

/-- **The invariant of two runs.** Both have the same registers, of which no slot has been given up
since the start; their contexts agree on `names`, and each is as at the start elsewhere. -/
structure AgreeWithin (names : List String) (start : Registers) (c c' : γ) (f g : Frame γ) :
    Prop where
  registers : g.registers = f.registers
  declared : f.registers.names = start.names
  resolved : ∀ i, start.isResolved i → f.registers.isResolved i
  agree : ∀ name ∈ names, Context.get f.context name = Context.get g.context name
  left : ∀ name, name ∉ names → Context.get f.context name = Context.get c name
  right : ∀ name, name ∉ names → Context.get g.context name = Context.get c' name

namespace AgreeWithin

variable {names : List String} {start : Registers} {c c' : γ} {f g : Frame γ}

/-- At the start the frames agree where the contexts do. -/
theorem initial (h : ∀ name ∈ names, Context.get c name = Context.get c' name) :
    AgreeWithin names start c c' ⟨start, c⟩ ⟨start, c'⟩ where
  registers := rfl
  declared := rfl
  resolved _ := id
  agree := h
  left _ _ := rfl
  right _ _ := rfl

/-- What is unresolved now was unresolved at the start. -/
private theorem unresolved (h : AgreeWithin names start c c' f g) {register : Option Nat}
    (hread : register.bind f.registers.get? = none) : register.bind start.get? = none := by
  cases register with
  | none => rfl
  | some i =>
    rw [Option.bind_some] at hread ⊢
    cases hstart : start.get? i with
    | none => rfl
    | some value =>
      have hresolved := h.resolved i (by rw [Registers.isResolved, hstart, Option.isSome_some])
      rw [Registers.isResolved, hread] at hresolved
      cases hresolved

/-- **Reading** a variable whose name counts gives the same on both sides. -/
theorem read?_eq (h : AgreeWithin names start c c' f g) {name : String} {register : Option Nat}
    (hmem : register.bind start.get? = none → lookupName start name register ∈ names) :
    f.read? name register = g.read? name register := by
  rw [Frame.read?, Frame.read?, h.registers]
  cases hread : register.bind f.registers.get? with
  | some value => rw [Option.some_or, Option.some_or]
  | none =>
    rw [Option.none_or, Option.none_or, lookupName_congr h.declared]
    exact h.agree _ (hmem (h.unresolved hread))

/-- **Writing a register** writes the same slot on both sides. -/
theorem store (register : Nat) (value : Value) :
    Run.Simulates (AgreeWithin names start c c') (Run.store register value)
      (Run.store register value) := by
  intro f g h
  rcases store_cases register value f with ⟨registers, hstore, hrun⟩ | ⟨hle, hrun⟩
  · have hrun' : Run.store register value g = .returned () { g with registers := registers } := by
      rw [Run.store, h.registers, hstore]
    rw [hrun, hrun']
    refine .returned () ⟨rfl, ?_, fun i hi => ?_, h.agree, h.left, h.right⟩
    · exact (Registers.names_store? hstore).trans h.declared
    · -- a slot that was written is resolved, and all others are as before
      have hi' := h.resolved i hi
      rw [Registers.isResolved] at hi' ⊢
      rw [Registers.get?_store? hstore]
      split
      · rfl
      · exact hi'
  · have hrun' : Run.store register value g = .failed (.of (.unknownRegister register)) g := by
      rw [Run.store, h.registers, Registers.store?_eq_none_iff.2 hle]
    rw [hrun, hrun']
    exact .failed _ h

/-- **Writing the context** under a name that counts keeps the invariant. -/
theorem define [LawfulContext γ] {name : String} (hname : name ∈ names) (value : Value) :
    Run.Simulates (AgreeWithin names start c c') (Run.define name value)
      (Run.define name value) := by
  intro f g h
  rw [define_apply, define_apply]
  refine .returned () ⟨h.registers, h.declared, h.resolved, ?_, ?_, ?_⟩
  · intro other hother
    rw [LawfulContext.get_set, LawfulContext.get_set, h.agree other hother]
  -- a name that does not count is not the one written
  · intro other hother
    have hne : other ≠ name := fun heq => hother (heq ▸ hname)
    rw [LawfulContext.get_set, if_neg hne, h.left other hother]
  · intro other hother
    have hne : other ≠ name := fun heq => hother (heq ▸ hname)
    rw [LawfulContext.get_set, if_neg hne, h.right other hother]

/-- **The invariant is kept by the run of a tree** whose names count. -/
theorem interpret [LawfulContext γ] (policy : Policy) (n : Node) (rounds : Nat) :
    Run.Simulates (AgreeWithin (n.contextNames start) start c c') (n.interpret policy rounds)
      (n.interpret policy rounds) := by
  apply Run.Simulates.interpret
  · -- reading: the same value, or the same variable is missing
    intro m hm name register hkind f g h
    rw [resolve_apply, resolve_apply, ← h.read?_eq (Node.lookupName_mem_contextNames hm hkind),
      h.registers]
    cases f.read? name register with
    | some value => exact .returned value h
    | none =>
      cases policy.strict with
      | true => exact .failed _ h
      | false => exact .returned Value.null h
  · -- writing: a register, or the context under a name that counts
    intro m hm name register hkind value
    cases register with
    | some i => exact store i value
    | none => exact define (Node.lookupName_mem_contextNames hm hkind rfl) value
  · exact store

end AgreeWithin

/-! ### Runs over agreeing contexts -/

/-- **A run reads and writes only the names it can reach.** Over two contexts that agree on the
names that the tree looks up, the runs diverge together, or end with the same result and registers;
the contexts agree on those names at the end, and elsewhere each is what it was. The name of a bound
argument is not among them unless some identifier looks it up past the register. -/
theorem Node.interpret_reach [LawfulContext γ] (policy : Policy) (n : Node) (registers : Registers)
    (c c' : γ)
    (hagree : ∀ name ∈ n.contextNames registers, Context.get c name = Context.get c' name) :
    ((n.Diverges policy ⟨registers, c⟩ ∧ n.Diverges policy ⟨registers, c'⟩) ∨
      ∃ result final d d', n.Ends policy ⟨registers, c⟩ (.ofResult result ⟨final, d⟩) ∧
        n.Ends policy ⟨registers, c'⟩ (.ofResult result ⟨final, d'⟩) ∧
        (∀ name ∈ n.contextNames registers, Context.get d name = Context.get d' name) ∧
        (∀ name, name ∉ n.contextNames registers →
          Context.get d name = Context.get c name ∧ Context.get d' name = Context.get c' name)) ∧
    (∀ i name, registers.name? i = some name → registers.isResolved i →
      (∀ m ∈ n.preorder, ∀ own register, m.kind = .identifier own register →
        lookupName registers own register = name → register = some i) →
      name ∉ n.contextNames registers) := by
  refine ⟨?_, fun i name _ hresolved hall => not_mem_contextNames hresolved hall⟩
  have hruns := Run.Simulates.ends (AgreeWithin.interpret policy n)
    (AgreeWithin.initial hagree)
  refine hruns.imp_right ?_
  rintro ⟨result, f, ⟨final, d'⟩, hf, hg, h⟩
  obtain rfl := h.registers
  exact ⟨result, f.registers, f.context, d', hf, hg, h.agree, fun name hname =>
    ⟨h.left name hname, h.right name hname⟩⟩

/-- `x + y` over registers of which only `x` is bound: the context's own `x` makes no difference. -/
theorem Node.interpret_reach_bound_argument :
    let n : Node := ⟨.binary .add,
      [⟨.identifier "x" (some 0), [], none⟩, ⟨.identifier "y" (some 1), [], none⟩], none⟩
    let registers := Registers.bind ["x", "y"] [.int 1]
    let c := Variables.ofList [("x", .int 5), ("y", .int 2)]
    let c' := Variables.ofList [("x", .str "other"), ("y", .int 2)]
    ∃ result final d d', n.Ends {} ⟨registers, c⟩ (.ofResult result ⟨final, d⟩) ∧
      n.Ends {} ⟨registers, c'⟩ (.ofResult result ⟨final, d'⟩) := by
  intro n registers c c'
  have hagree : ∀ name ∈ n.contextNames registers, Context.get c name = Context.get c' name := by
    -- the name of the resolved register is not looked up
    have hnames : n.contextNames registers = ["y"] := rfl
    intro name hname
    rw [hnames, List.mem_singleton] at hname
    subst hname
    rfl
  have hends : n.Ends {} ⟨registers, c⟩ (.returned (.int 3) ⟨registers, c⟩) := ⟨nofun, 0, rfl⟩
  rcases (n.interpret_reach {} registers c c' hagree).1 with hdiverges | hruns
  · exact (hends.not_diverges hdiverges.1).elim
  · obtain ⟨result, final, d, d', h, h', -⟩ := hruns
    exact ⟨result, final, d, d', h, h'⟩

end Scriptlet
