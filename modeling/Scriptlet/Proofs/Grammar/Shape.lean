import Scriptlet.Proofs.Evaluation.WellFormed
import Scriptlet.Proofs.Grammar.Derivations

/-!
# The shape of derived trees

The grammar has few constructs: no loops, no choices, no containers, and five of the operators. The
trees that it derives are made of the corresponding kinds of nodes, each with the children it is
meant to have, and every register in them has been declared before.

* `Kind.isBasic` — the kinds of nodes that the grammar builds;
* `Node.IsBasic` — such a node with its children in place and its register declared;
* `DerivesScript.isBasic` — all nodes of a derived script are of this sort;
* `Node.covers_of_isBasic` — a tree of such nodes always ends, and which faults it may have.
-/

namespace Scriptlet

/-! ### Basic nodes -/

/-- Whether the grammar has a construct for nodes of the kind. -/
def Kind.isBasic : Kind → Bool
  | script | literal _ | identifier .. | var .. | assign => true
  | unary op => op = .neg
  | binary op => op = .add || op = .sub || op = .lt || op = .mul || op = .div
  | block | ternary | branch | loop | array | index | size => false

namespace Node

/-- **A node as the grammar builds it**, over `count` registers. -/
structure IsBasic (count : Nat) (m : Node) : Prop where
  kind : m.kind.isBasic
  children : m.kind.fits m.children.length
  register : ∀ i, m.kind.register? = some i → i < count

variable {count count' : Nat} {n m : Node}

/-- With more registers a node stays basic. -/
theorem IsBasic.mono (h : m.IsBasic count) (hle : count ≤ count') : m.IsBasic count' :=
  ⟨h.kind, h.children, fun i hi => Nat.lt_of_lt_of_le (h.register i hi) hle⟩

/-- A basic tree only refers to registers that exist. -/
theorem registersBelow_of_isBasic (h : ∀ m ∈ n.preorder, m.IsBasic count) :
    n.RegistersBelow count :=
  registersBelow_of_register? fun m hm => (h m hm).register

end Node

/-! ### Runs of basic trees -/

/-- The faults of trees of basic nodes. -/
def Fault.isBasic : Fault → Bool
  | undefinedVariable _ | divisionByZero | overflow _ | badOperands .. | badOperand ..
  | notAssignable _ | tooDeep _ => true
  | moduloByZero | notIndexable .. | outOfBounds .. | unknownRegister _ | notSizeable _
  | tooManyRounds _ | malformed .. => false

/-- The operators of the language raise basic faults only. -/
private theorem BinaryOp.isBasic_of_mayRaise {op : BinaryOp} (hop : (Kind.binary op).isBasic)
    {fault : Fault} (h : op.mayRaise fault) : fault.isBasic := by
  cases fault with
  | overflow | badOperands | divisionByZero => rfl
  | moduloByZero =>
    -- only the remainder has this fault, and it is not among the operators
    obtain rfl : op = .mod := by simpa [mayRaise] using h
    cases hop
  | _ => cases h

/-- So do the signs. -/
private theorem UnaryOp.isBasic_of_mayRaise {op : UnaryOp} {fault : Fault} (h : op.mayRaise fault) :
    fault.isBasic := by
  cases op with
  | not => cases h
  | neg =>
    cases fault with
    | overflow | badOperand => rfl
    | _ => cases h

namespace Node

variable {γ : Type} [Context γ] {count : Nat} {n : Node}

/-- What basic nodes perform fails with basic faults only. -/
private theorem Performs.raises_isBasic {nodes : List Node} (h : ∀ m ∈ nodes, m.kind.isBasic)
    {result : Except Fault Value} (hperforms : Performs nodes result) :
    Raises (·.isBasic) result := by
  cases hperforms with
  | binary hm hkind left right =>
    have hop := h _ hm
    rw [hkind] at hop
    exact (BinaryOp.raises_apply _ left right).mono fun _ => BinaryOp.isBasic_of_mayRaise hop
  | unary hm hkind operand =>
    exact (UnaryOp.raises_apply _ operand).mono fun _ => UnaryOp.isBasic_of_mayRaise
  | element hm hkind =>
    -- nothing of the language indexes or measures anything
    have hindex := h _ hm
    rw [hkind] at hindex
    cases hindex
  | replaceElement hm hkind =>
    have hindex := h _ hm
    rw [hkind] at hindex
    cases hindex
  | size hm hkind =>
    have hsize := h _ hm
    rw [hkind] at hsize
    cases hsize

/-- **A tree of basic nodes always ends**, and fails with basic faults only. -/
theorem covers_of_isBasic (h : ∀ m ∈ n.preorder, m.IsBasic count) (policy : Policy) :
    (Contract.ofRegisters count (·.isBasic) False : Contract γ).Covers policy n.preorder := by
  -- there are no loops, so that nothing is bounded
  have hloop : ∀ m ∈ n.preorder, m.kind ≠ .loop := by
    intro m hm hkind
    have hbasic := (h m hm).kind
    rw [hkind] at hbasic
    cases hbasic
  have hregisters := registersBelow_of_isBasic h
  exact
    { depth := fun _ _ => rfl
      undefined := fun _ _ => rfl
      rounds := fun m hm hkind => absurd hkind (hloop m hm)
      giveUp := fun m hm hkind => absurd hkind (hloop m hm)
      operation := fun _ hperforms => hperforms.raises_isBasic fun m hm => (h m hm).kind
      malformed := by
        intro m hm hcount
        rw [Kind.takes_of_fits (h m hm).children] at hcount
        cases hcount
      notAssignable := fun _ _ _ => rfl
      assign := fun _ hm hplace _ _ hkind value => hregisters.keeps_assign hm hplace hkind value
      store := fun _ hm _ _ _ hkind _ value => hregisters.keeps_declare hm hkind value }

end Node

/-! ### Derived trees -/

namespace Grammar

variable {registers registers' : List String}

/-- A name that is found has a register. -/
private theorem lt_of_registerOf? {name : String} {i : Nat}
    (h : registerOf? registers name = some i) : i < registers.length := by
  rw [registerOf?, Option.filter_eq_some_iff] at h
  obtain ⟨hlt, -⟩ := List.findIdx?_eq_some_iff_getElem.1 h.1
  exact hlt

/-- A declaration keeps the registers before it, and its own is among those after it. -/
private theorem lt_of_declare {name : String} {span : Span} {i : Nat}
    (h : declare registers name span = .ok (i, registers')) :
    i < registers'.length ∧ registers.length ≤ registers'.length := by
  rw [declare] at h
  split at h
  · next hknown =>
    cases h
    exact ⟨lt_of_registerOf? hknown, Nat.le_refl _⟩
  · split at h
    · cases h
      rw [List.length_append, List.length_singleton]
      omega
    · cases h

/-- **All nodes of a derived expression are basic.** -/
theorem Derives.isBasic {tier : Tier} {ls : List Lexeme} {n : Node}
    (h : Derives registers tier ls n) : ∀ m ∈ n.preorder, m.IsBasic registers.length := by
  induction h with
  | @leaf token span kind operand =>
    rw [Node.forall_mem_preorder_mk]
    refine ⟨?_, by simp⟩
    -- of the leaves only a name can refer to a register, and that is one of the table
    cases token with
    | int n =>
      cases operand
      exact ⟨rfl, rfl, nofun⟩
    | str text =>
      cases operand
      exact ⟨rfl, rfl, nofun⟩
    | name text =>
      cases operand
      exact ⟨rfl, rfl, fun i hi => lt_of_registerOf? hi⟩
    | _ => cases operand
  | group _ ih => exact ih
  | atom _ ih => exact ih
  | negate _ ih =>
    rw [negationNode, Node.forall_mem_preorder_mk, List.forall_mem_singleton]
    exact ⟨⟨rfl, rfl, nofun⟩, ih⟩
  | signed _ ih => exact ih
  | @multiply symbol op _ _ _ _ _ operator _ _ ihl ihr =>
    -- every symbol stands for an operator that is basic
    have hop : (Kind.binary op).isBasic := by cases symbol <;> cases operator <;> rfl
    rw [binaryNode, Node.forall_mem_preorder_mk, List.forall_mem_cons, List.forall_mem_singleton]
    exact ⟨⟨hop, rfl, nofun⟩, ihl, ihr⟩
  | product _ ih => exact ih
  | @add symbol op _ _ _ _ _ operator _ _ ihl ihr =>
    have hop : (Kind.binary op).isBasic := by cases symbol <;> cases operator <;> rfl
    rw [binaryNode, Node.forall_mem_preorder_mk, List.forall_mem_cons, List.forall_mem_singleton]
    exact ⟨⟨hop, rfl, nofun⟩, ihl, ihr⟩

/-- **All nodes of a derived statement are basic**, over the registers after it. -/
theorem DerivesStatement.isBasic {ls : List Lexeme} {n : Node}
    (h : DerivesStatement registers ls n registers') :
    (∀ m ∈ n.preorder, m.IsBasic registers'.length) ∧ registers.length ≤ registers'.length := by
  cases h with
  | declare known =>
    -- a declaration has a register of the table behind it
    obtain ⟨hlt, hle⟩ := lt_of_declare known
    refine ⟨Node.forall_mem_preorder_mk.2 ⟨⟨rfl, rfl, ?_⟩, by simp⟩, hle⟩
    rintro i ⟨rfl⟩
    exact hlt
  | define known value =>
    obtain ⟨hlt, hle⟩ := lt_of_declare known
    refine ⟨Node.forall_mem_preorder_mk.2 ⟨⟨rfl, rfl, ?_⟩, ?_⟩, hle⟩
    · rintro i ⟨rfl⟩
      exact hlt
    · exact List.forall_mem_singleton.2 value.isBasic
  | expression whole => exact ⟨whole.isBasic, Nat.le_refl _⟩
  | assign left right =>
    refine ⟨Node.forall_mem_preorder_mk.2 ⟨⟨rfl, rfl, nofun⟩, ?_⟩, Nat.le_refl _⟩
    exact List.forall_mem_cons.2 ⟨left.isBasic, List.forall_mem_singleton.2 right.isBasic⟩

/-- **All nodes of a derived script are basic**, over all its registers. -/
theorem DerivesScript.isBasic {ls : List Lexeme} {ns : List Node}
    (h : DerivesScript registers ls ns registers') :
    (∀ n ∈ ns, ∀ m ∈ n.preorder, m.IsBasic registers'.length) ∧
      registers.length ≤ registers'.length := by
  induction h with
  | nil => exact ⟨nofun, Nat.le_refl _⟩
  | last statement =>
    obtain ⟨hn, hle⟩ := statement.isBasic
    exact ⟨List.forall_mem_singleton.2 hn, hle⟩
  | cons first _ ih =>
    obtain ⟨hn, hle⟩ := first.isBasic
    obtain ⟨hns, hle'⟩ := ih
    -- registers that were there after the first statement are still there at the end
    exact ⟨List.forall_mem_cons.2 ⟨fun m hm => (hn m hm).mono hle', hns⟩, Nat.le_trans hle hle'⟩

/-- **A text is read as a tree of basic nodes.** -/
theorem isBasic_of_parse {parameters : List String} {source : String} {root : Node}
    (h : parse parameters source = .ok (root, registers)) :
    ∀ m ∈ root.preorder, m.IsBasic registers.length := by
  obtain ⟨tokens, ns, -, hderives, rfl⟩ := parse_eq_ok_iff.1 h
  rw [rootNode, Node.forall_mem_preorder_mk]
  exact ⟨⟨rfl, rfl, nofun⟩, hderives.isBasic.1⟩

end Grammar

end Scriptlet
