import Scriptlet.Proofs.Evaluation.Footprint

/-!
# Well-formed trees

A tree can be wrong in itself: a node has too few children or too many, a register does not exist,
or something other than a variable is assigned to. Evaluation finds this out when it comes to it,
and then fails with a fault that speaks of the tree. A tree that is wrong in none of these ways
never fails so, whatever the values.

* `Fault.isStructural` — the faults that speak of the tree;
* `Node.WellFormed` — trees that are not wrong in themselves, given the number of registers;
* `Node.WellFormed.covers` — the run of such a tree never has a structural fault.

The nodes of a target are not evaluated, so that what is assigned to has to be looked at apart from
the nodes that are.
-/

namespace Scriptlet

/-- Whether a fault speaks of the shape of the tree. -/
def Fault.isStructural : Fault → Bool
  | malformed .. | unknownRegister _ | notAssignable _ => true
  | undefinedVariable _ | divisionByZero | moduloByZero | overflow _ | badOperands ..
  | badOperand .. | notIndexable .. | outOfBounds .. | notSizeable _ | tooDeep _
  | tooManyRounds _ => false

private theorem Fault.isStructural_eq_false {fault : Fault} (h : fault.isOperational) :
    fault.isStructural = false := by
  cases fault with
  | malformed | unknownRegister | notAssignable => cases h
  | _ => rfl

/-- What is complete for a kind is accepted by evaluation. -/
theorem Kind.takes_of_fits {kind : Kind} {count : Nat} (h : kind.fits count) :
    kind.takes count := by
  cases kind with
  | literal | identifier => rfl
  | _ => exact h

/-- The register that a node of the kind reads or writes, if any. -/
def Kind.register? : Kind → Option Nat
  | identifier _ register => register
  | var _ register => some register
  | _ => none

namespace Node

/-- Every register that the tree declares, or that it assigns to, is below `count`. -/
structure RegistersBelow (count : Nat) (n : Node) : Prop where
  declared : ∀ m ∈ n.preorder, ∀ name i, m.kind = .var name i → i < count
  assigned : ∀ m ∈ n.preorder, m.IsTarget n.preorder ∨ m.IsContainer n.preorder →
    ∀ name i, m.kind = .identifier name (some i) → i < count

/-- **Well-formed trees**, over `count` registers. -/
structure WellFormed (count : Nat) (n : Node) : Prop where
  /-- Every node has a number of children that its kind takes. -/
  children : ∀ m ∈ n.preorder, m.kind.takes m.children.length
  /-- What is written to a register is written to one that exists. -/
  registers : n.RegistersBelow count
  /-- What is assigned to is a variable, or an element of one. -/
  targets : ∀ m : Node, m.IsTarget n.preorder → m.place?.isSome

/-- It is enough that every register of the tree exists, even one that is only read. -/
theorem registersBelow_of_register? {count : Nat} {n : Node}
    (h : ∀ m ∈ n.preorder, ∀ i, m.kind.register? = some i → i < count) :
    n.RegistersBelow count where
  declared m hm name i hkind := h m hm i (by rw [hkind]; rfl)
  assigned m hm _ name i hkind := h m hm i (by rw [hkind]; rfl)

/-- What can be assigned to is a variable, or an element of one. -/
private theorem isSome_place?_iff {m : Node} :
    m.place?.isSome ↔
      (∃ name register, m.kind = .identifier name register) ∨
        m.kind = .index ∧ ∃ container position, m.children = [container, position] ∧
          ∃ name register, container.kind = .identifier name register := by
  obtain ⟨kind, children, span⟩ := m
  have hreference {kind : Kind} :
      kind.reference?.isSome ↔ ∃ name register, kind = .identifier name register := by
    cases kind <;> simp [Kind.reference?]
  cases kind with
  | index =>
    match children with
    | [container, position] => simp [place?, hreference]
    | [] | [_] | _ :: _ :: _ :: _ => simp [place?, Kind.reference?]
  | _ => simp [place?, Kind.reference?]

end Node

/-! ### Runs over a number of registers -/

variable {γ : Type} [Context γ] {count : Nat} {allowed : Fault → Prop} {mayGiveUp : Prop}

/-- The contract to have `count` registers throughout. -/
def Contract.ofRegisters (count : Nat) (allowed : Fault → Prop) (mayGiveUp : Prop) : Contract γ :=
  ⟨fun frame => frame.registers.length = count, allowed, mayGiveUp⟩

omit [Context γ] in
/-- A register that exists can be written, and there are as many registers as before. -/
theorem Run.keeps_store_of_lt {i : Nat} (h : i < count) (value : Value) :
    Run.Keeps (.ofRegisters count allowed mayGiveUp) (Run.store i value : Run γ Unit) := by
  apply Run.keeps_store
  · intro frame registers hframe hstore
    exact (Registers.length_store? hstore).trans hframe
  · intro frame hframe hle
    have hlength : frame.registers.length = count := hframe
    omega

namespace Node

variable {n : Node}

/-- Registers that exist can be assigned to, and the context always can. -/
theorem RegistersBelow.keeps_assign (h : n.RegistersBelow count) {m : Node} (hm : m ∈ n.preorder)
    (hplace : m.IsTarget n.preorder ∨ m.IsContainer n.preorder) {name : String}
    {register : Option Nat} (hkind : m.kind = .identifier name register) (value : Value) :
    Run.Keeps (.ofRegisters count allowed mayGiveUp)
      (assignVariable name register value : Run γ Unit) := by
  cases register with
  | some i => exact Run.keeps_store_of_lt (h.assigned m hm hplace name i hkind) value
  | none => exact fun _ hframe => hframe

omit [Context γ] in
/-- A declaration finds its register. -/
theorem RegistersBelow.keeps_declare (h : n.RegistersBelow count) {m : Node} (hm : m ∈ n.preorder)
    {name : String} {i : Nat} (hkind : m.kind = .var name i) (value : Value) :
    Run.Keeps (.ofRegisters count allowed mayGiveUp) (Run.store i value : Run γ Unit) :=
  Run.keeps_store_of_lt (h.declared m hm name i hkind) value

/-- **A well-formed tree has no structural fault.** -/
theorem WellFormed.covers (h : n.WellFormed count) (policy : Policy) :
    (Contract.ofRegisters count (·.isStructural = false) True : Contract γ).Covers policy
      n.preorder where
  depth _ _ := rfl
  undefined _ _ := rfl
  rounds _ _ _ _ _ := rfl
  giveUp _ _ _ _ := trivial
  operation _ hperforms := hperforms.raises.mono fun _ => Fault.isStructural_eq_false
  malformed m hm hcount := by
    rw [h.children m hm] at hcount
    cases hcount
  notAssignable m hplace hkind := by
    rcases hplace with ⟨htarget, hindex⟩ | ⟨target, htarget, hindex, position, hchildren⟩
    · -- a target is a variable or an index, and this one is neither
      rcases isSome_place?_iff.1 (h.targets m htarget) with ⟨name, register, hname⟩ | ⟨hindex', -⟩
      · exact absurd hname (hkind name register)
      · exact absurd hindex' hindex
    · -- a container in a target is a variable, and this one is not
      rcases isSome_place?_iff.1 (h.targets target htarget) with ⟨_, _, hname⟩ | ⟨-, hindexed⟩
      · cases hindex.symm.trans hname
      · obtain ⟨container, _, hchildren', name, register, hname⟩ := hindexed
        cases hchildren.symm.trans hchildren'
        exact absurd hname (hkind name register)
  assign _ hm hplace _ _ hkind value := h.registers.keeps_assign hm hplace hkind value
  store _ hm _ _ _ hkind _ value := h.registers.keeps_declare hm hkind value

end Node

end Scriptlet
