import Scriptlet.Proofs.Evaluation.Origins

/-!
# What failures report

A failure names what has gone wrong: a variable, a register, an index, a limit, a node. What it says
is true of the tree, of the policy and of the frame that the run has left. For the frame this is not
obvious, since the failure is raised inside other nodes and has to pass through them. None of them
writes anything on the way, so that the frame at the end is the one that the fault was raised over.

* `Fault.HoldsOf` — what each fault says;
* `Node.Performs.raises_holdsOf` — the faults of operations on values;
* `Node.Rejects.holdsOf`, `Node.Breaks.holdsOf` — the faults of the steps of a node;
* `Node.interpret_reports` — the fault of a whole run.
-/

namespace Scriptlet

variable {γ : Type} [Context γ]

/-- **What a fault says** about the nodes of a tree, the policy, and the frame at the end. Faults of
operators speak of values that are gone by then, and say nothing. -/
def Fault.HoldsOf (policy : Policy) (nodes : List Node) (frame : Frame γ) : Fault → Prop
  -- the variable is looked up under this name, which its slot and the context leave undefined
  | undefinedVariable name => policy.strict ∧ Context.get frame.context name = none ∧
      ∃ n ∈ nodes, ∃ own register, n.kind = .identifier own register ∧
        lookupName frame.registers own register = name ∧
        ∀ i, register = some i → i < frame.registers.length → frame.registers.get? i = none
  -- the register does not exist, and a declaration or an assignment writes it
  | unknownRegister index => frame.registers.length ≤ index ∧
      ((∃ n ∈ nodes, ∃ name init, n.kind = .var name index ∧ n.children = [init]) ∨
        ∃ n ∈ nodes, (n.IsTarget nodes ∨ n.IsContainer nodes) ∧
          ∃ name, n.kind = .identifier name (some index))
  | outOfBounds index length => index.toInt < 0 ∨ length ≤ index.toInt
  -- what is assigned to is neither a variable nor an element of one
  | notAssignable target => ∃ n ∈ nodes, (n.IsTarget nodes ∨ n.IsContainer nodes) ∧
      n.kind.name = target ∧ n.kind.reference? = none
  | tooDeep depth => policy.depthLimit = some depth
  | tooManyRounds limit => policy.roundLimit = some limit
  | malformed kind expected found => ∃ n ∈ nodes, n.kind.name = kind ∧ n.kind.arity = expected ∧
      n.children.length = found ∧ n.kind.takes found = false
  | divisionByZero | moduloByZero | overflow _ | badOperands .. | badOperand .. | notIndexable ..
  | notSizeable _ => True

variable {policy : Policy} {nodes nodes' : List Node} {frame mid final : Frame γ} {fault : Fault}

/-- What is said of some nodes is said of more. -/
theorem Fault.HoldsOf.mono (h : fault.HoldsOf policy nodes frame) (hsub : nodes ⊆ nodes') :
    fault.HoldsOf policy nodes' frame := by
  -- only the faults that speak of a node depend on the tree
  cases fault with
  | undefinedVariable name =>
    obtain ⟨hstrict, hcontext, n, hn, hrest⟩ := h
    exact ⟨hstrict, hcontext, n, hsub hn, hrest⟩
  | unknownRegister index =>
    refine ⟨h.1, h.2.imp ?_ ?_⟩
    · rintro ⟨n, hn, hrest⟩
      exact ⟨n, hsub hn, hrest⟩
    · rintro ⟨n, hn, hplace, hrest⟩
      exact ⟨n, hsub hn, hplace.imp (·.mono hsub) (·.mono hsub), hrest⟩
  | notAssignable target =>
    obtain ⟨n, hn, hplace, hrest⟩ := h
    exact ⟨n, hsub hn, hplace.imp (·.mono hsub) (·.mono hsub), hrest⟩
  | malformed kind expected found =>
    obtain ⟨n, hn, hrest⟩ := h
    exact ⟨n, hsub hn, hrest⟩
  | _ => exact h

/-! ### Variables and values -/

/-- A variable that cannot be read is undefined in its slot and in the context. -/
private theorem holdsOf_undefinedVariable {n : Node} {name : String} {register : Option Nat}
    (hstrict : policy.strict) (hn : n ∈ nodes) (hkind : n.kind = .identifier name register)
    (hmissing : frame.read? name register = none) :
    (Fault.undefinedVariable (lookupName frame.registers name register)).HoldsOf policy nodes
      frame := by
  rw [Frame.read?, Option.or_eq_none_iff] at hmissing
  refine ⟨hstrict, hmissing.2, n, hn, name, register, hkind, rfl, ?_⟩
  rintro i rfl -
  exact hmissing.1

/-- An index that is out of bounds is reported with the size it is out of. -/
private theorem raises_position_holdsOf (index : Int64) (length : Nat) :
    Raises (Fault.HoldsOf policy nodes frame) (position index length) := by
  intro fault herror
  obtain ⟨hout, rfl⟩ := position_eq_error_iff.1 herror
  exact hout

/-- **The faults of operations** are true of their values. -/
theorem Node.Performs.raises_holdsOf {result : Except Fault Value} (h : Performs nodes result) :
    Raises (Fault.HoldsOf policy nodes frame) result := by
  -- the faults of operations speak of values, or of an index and a size
  cases h with
  | binary _ _ left right =>
    refine (BinaryOp.raises_apply _ left right).mono fun fault hmay => ?_
    cases fault with
    | overflow | badOperands | divisionByZero | moduloByZero => trivial
    | _ => cases hmay
  | @unary _ op _ _ operand =>
    refine (UnaryOp.raises_apply op operand).mono fun fault hmay => ?_
    cases fault with
    | overflow | badOperand => trivial
    | _ => cases op <;> cases hmay
  | element _ _ container index =>
    rw [Value.element.eq_def]
    split
    · exact (raises_position_holdsOf _ _).bind fun _ => Raises.ok _
    · exact (raises_position_holdsOf _ _).bind fun _ => Raises.ok _
    · exact Raises.error.2 trivial
  | replaceElement _ _ container index value =>
    rw [Value.replaceElement.eq_def]
    split
    · exact (raises_position_holdsOf _ _).bind fun _ => Raises.ok _
    · exact Raises.error.2 trivial
  | size _ _ operand =>
    cases operand with
    | str | array => exact Raises.ok _
    | _ => exact Raises.error.2 trivial

/-! ### The steps of a node -/

namespace Node

variable {rounds depth : Nat} {n m : Node} {start : Frame γ}

private theorem mem_of_isTarget (h : m.IsTarget n.preorder) : m ∈ n.preorder := by
  obtain ⟨a, ha, -, value, hchildren⟩ := h
  have hchild : m ∈ a.children := by simp [hchildren]
  exact preorder_subset_of_mem ha (preorder_subset_of_mem_children hchild m.mem_preorder_self)

private theorem mem_of_isContainer (h : m.IsContainer n.preorder) : m ∈ n.preorder := by
  obtain ⟨target, htarget, -, position, hchildren⟩ := h
  have hchild : m ∈ target.children := by simp [hchildren]
  exact preorder_subset_of_mem (mem_of_isTarget htarget)
    (preorder_subset_of_mem_children hchild m.mem_preorder_self)

/-- **The faults of an assignment** are true of the tree that it belongs to. -/
theorem Rejects.holdsOf {target : Node} {value : Value} (htarget : target.IsTarget n.preorder)
    (hmem : target ∈ n.preorder)
    (h : target.Rejects policy rounds depth value frame fault final) :
    fault.HoldsOf policy n.preorder final := by
  cases h with
  | register hunknown => exact ⟨hunknown, .inr ⟨_, hmem, .inl htarget, _, rfl⟩⟩
  | target _ hvariable => exact ⟨_, hmem, .inl htarget, rfl, hvariable⟩
  | malformed hcount => exact ⟨_, hmem, rfl, rfl, rfl, hcount⟩
  | @container container position _ _ hvariable =>
    have hcontainer : container.IsContainer n.preorder := ⟨_, htarget, rfl, position, rfl⟩
    exact ⟨container, mem_of_isContainer hcontainer, .inr hcontainer, rfl, hvariable⟩
  | @element container position name register _ _ _ i _ hkind _ hunreplaced =>
    -- here the index has been evaluated, and the frame is the one that is left
    have hcontainer : container.IsContainer n.preorder := ⟨_, htarget, rfl, position, rfl⟩
    cases hunreplaced with
    | undefined hstrict hmissing =>
      exact holdsOf_undefinedVariable hstrict (mem_of_isContainer hcontainer) hkind hmissing
    | element _ herror =>
      exact (Performs.replaceElement hmem rfl _ i value).raises_holdsOf fault herror
    | register _ _ hregister hunknown =>
      subst hregister
      have hmem' := mem_of_isContainer hcontainer
      exact ⟨hunknown, .inr ⟨container, hmem', .inr hcontainer, name, hkind⟩⟩

/-- **The faults of a node's own steps** are true when they are raised. -/
theorem Breaks.holdsOf (h : n.Breaks policy rounds depth frame fault final) :
    fault.HoldsOf policy n.preorder final := by
  have hself := n.mem_preorder_self
  cases h with
  | malformed hcount => exact ⟨n, hself, rfl, rfl, rfl, hcount⟩
  | undefined hstrict hmissing => exact holdsOf_undefinedVariable hstrict hself rfl hmissing
  | declared _ hunknown => exact ⟨hunknown, .inl ⟨_, hself, _, _, rfl, rfl⟩⟩
  | assigned _ hrejects =>
    have htarget : IsTarget _ _ := ⟨_, hself, rfl, _, rfl⟩
    exact hrejects.holdsOf htarget (mem_of_isTarget htarget)
  | binary _ _ _ herror => exact (Performs.binary hself rfl _ _).raises_holdsOf fault herror
  | unary _ herror => exact (Performs.unary hself rfl _).raises_holdsOf fault herror
  | rounds hlimit => exact hlimit
  | element _ _ herror => exact (Performs.element hself rfl _ _).raises_holdsOf fault herror
  | size _ herror => exact (Performs.size hself rfl _).raises_holdsOf fault herror

/-- **What a node raises itself holds of the tree** and of the frame at the end. -/
private theorem FailsItself.holdsOf (h : n.FailsItself policy rounds depth frame fault final) :
    fault.HoldsOf policy n.preorder final := by
  cases h with
  | refused hlimit _ => exact hlimit
  | own _ hbreaks => exact hbreaks.holdsOf

/-- **The fault stays true on its way out**: no node of the chain writes anything any more. -/
theorem BreaksAlong.holdsOf {chain : List Node}
    (h : n.BreaksAlong policy rounds depth frame chain fault final) :
    fault.HoldsOf policy n.preorder final := by
  induction h with
  | here hitself => exact hitself.holdsOf
  | inside _ hevaluates _ ih =>
    -- the part brings no nodes of its own
    obtain ⟨c, hc, hpart⟩ := exists_child_of_mem_parts hevaluates.mem_parts
    exact ih.mono (preorder_subset_of_mem (preorder_subset_of_mem_children hc hpart))

/-- **Failures tell the truth.** What the fault of a run says is true of the tree, the policy and
the frame that the run has left. -/
theorem interpret_reports (policy : Policy) (n : Node) (start : Frame γ) {failure : Failure}
    {final : Frame γ} (h : n.Ends policy start (.failed failure final)) :
    failure.fault.HoldsOf policy n.preorder final := by
  obtain ⟨-, rounds, hrun⟩ := h
  obtain ⟨chain, hchain, -⟩ := exists_breaksAlong hrun
  exact hchain.holdsOf

/-- Writes one variable, and then reads another whose register has another name than it has. -/
def readsRenamed : Node :=
  ⟨.script, [⟨.assign, [⟨.identifier "x" none, [], none⟩, ⟨.literal (.int 1), [], none⟩], none⟩,
    ⟨.identifier "sum" (some 0), [], none⟩], none⟩

/-- The failure names the variable as the register has it. It is defined neither in the slot nor in
the context, to which the run has added another one. -/
theorem interpret_reports_readsRenamed :
    ∃ final : Frame Variables,
      readsRenamed.Ends {} ⟨.bind ["total"] [], .empty⟩
        (.failed ⟨.undefinedVariable "total", none⟩ final) ∧
      Context.get final.context "x" = some (.int 1) ∧
      (Fault.undefinedVariable "total").HoldsOf {} readsRenamed.preorder final := by
  have hends : readsRenamed.Ends {} ⟨.bind ["total"] [], Variables.empty⟩
      (.failed ⟨.undefinedVariable "total", none⟩
        ⟨.bind ["total"] [], Variables.ofList [("x", .int 1)]⟩) := ⟨by simp, 0, rfl⟩
  exact ⟨_, hends, rfl, interpret_reports {} readsRenamed _ hends⟩

end Node

end Scriptlet
