import Scriptlet.Proofs.Grammar.Shape
import Scriptlet.Proofs.Grammar.Words
import Scriptlet.Proofs.Script.Reading
import Scriptlet.Script.Execution

/-!
# Safety of scripts

A script can be run as a whole or for its first statement. Either way it runs over as many registers
as it has, so that what holds of runs of its tree over that number of registers holds of the script.

* `Script.execute_meets`, `Script.evaluate_meets` — a script keeps the contracts that cover it;
* `Script.structurally_safe` — a well-formed script never fails because of its shape; and a script
  of the small grammar, well-formed or not, always ends and can fail in seven ways only.

The grammar allows any expression in front of an assignment sign, and so a script that was read may
be wrong in this one respect.
-/

namespace Scriptlet.Script

variable {γ : Type} [Context γ] {c : Contract γ} {policy : Policy} {script : Script}

/-- **A script keeps the contracts that cover it**, run as a whole. -/
theorem execute_meets (h : c.Covers policy script.root.preorder) {args : List Value} {context : γ}
    (hframe : c.invariant (script.frame args context)) (rounds : Nat) :
    (script.execute policy rounds args context).Meets c :=
  h.interpret rounds _ hframe

/-- The same for its first statement. -/
theorem evaluate_meets (h : c.Covers policy script.root.preorder) {context : γ}
    (hframe : c.invariant (script.frame [] context)) (rounds : Nat) :
    (script.evaluate policy rounds context).Meets c := by
  unfold evaluate
  split
  -- there is no statement, and nothing happens
  · exact hframe
  · next first rest hstatements =>
    have hfirst : first ∈ script.root.children := by
      rw [← Script.statements, hstatements]
      exact List.mem_cons_self
    -- the first statement is a part of the tree, and is covered with it
    have hpart : first.preorder ⊆ script.root.preorder :=
      Node.preorder_subset_of_mem_children hfirst
    exact (h.mono hpart).interpret rounds _ hframe

omit [Context γ] in
/-- The frame of a script has as many registers as the script. -/
private theorem length_frame (script : Script) (args : List Value) (context : γ) :
    (script.frame args context).registers.length = script.registers.length :=
  Registers.length_bind script.registers args

/-- **Scripts are structurally safe.** A well-formed script never fails because of a node with the
wrong children, a register that does not exist, or a target that is no variable. A script that was
read has the right children everywhere and refers to existing registers only; it always ends, and
fails only for an undefined variable, a division by zero, an overflow, operands of the wrong types,
a target that is no variable, or too deep a nesting. -/
theorem structurally_safe :
    (∀ script : Script, script.root.WellFormed script.registers.length →
      ∀ policy rounds args (context : γ) fault,
        (script.execute policy rounds args context).fault? = some fault ∨
          (script.evaluate policy rounds context).fault? = some fault →
        fault.isStructural = false) ∧
    (∀ parameters source script,
      Script.read (Grammar.reader parameters) source = .ok script →
        (∀ m ∈ script.root.preorder, m.kind.fits m.children.length) ∧
        script.root.RegistersBelow script.registers.length ∧
        ∀ policy rounds args (context : γ) outcome,
          outcome = script.execute policy rounds args context ∨
            outcome = script.evaluate policy rounds context →
          outcome ≠ .unfinished ∧ ∀ fault, outcome.fault? = some fault → fault.isBasic) := by
  constructor
  · intro script hwell policy rounds args context fault hfault
    have hcovers := hwell.covers (γ := γ) policy
    rcases hfault with hfault | hfault
    · exact (execute_meets hcovers (script.length_frame args context) rounds).allowed hfault
    · exact (evaluate_meets hcovers (script.length_frame [] context) rounds).allowed hfault
  · intro parameters source script hread
    -- what was parsed has few kinds of nodes, and each stands for few faults
    have hbasic := Grammar.isBasic_of_parse (Grammar.read_eq_ok_iff.1 hread).1
    refine ⟨fun m hm => (hbasic m hm).children, Node.registersBelow_of_isBasic hbasic, ?_⟩
    intro policy rounds args context outcome houtcome
    have hcovers := Node.covers_of_isBasic (γ := γ) hbasic policy
    have hmeets : outcome.Meets (.ofRegisters script.registers.length (·.isBasic) False) := by
      rcases houtcome with rfl | rfl
      · exact execute_meets hcovers (script.length_frame args context) rounds
      · exact evaluate_meets hcovers (script.length_frame [] context) rounds
    exact ⟨hmeets.ne_unfinished id, fun fault hfault => hmeets.allowed hfault⟩

/-- Replaces the first element of `xs`. -/
def replaceFirst : Script where
  root := ⟨.script, [⟨.assign, [⟨.index, [⟨.identifier "xs" (some 0), [], none⟩,
    ⟨.literal (.int 0), [], none⟩], none⟩, ⟨.literal (.int 7), [], none⟩], none⟩], none⟩
  registers := ["xs"]
  parameterCount := 1
  source := none
  root_kind := rfl
  parameterCount_le := by decide
  nodup_registers := by decide

/-- The element is the only target in the script. -/
private theorem isTarget_replaceFirst {m : Node} (h : m.IsTarget replaceFirst.root.preorder) :
    m = ⟨.index, [⟨.identifier "xs" (some 0), [], none⟩, ⟨.literal (.int 0), [], none⟩], none⟩ := by
  obtain ⟨a, ha, hkind, value, hchildren⟩ := h
  simp only [replaceFirst, Node.preorder_mk, Node.preorderAll_eq_flatMap, List.flatMap_cons,
    List.flatMap_nil, List.append_nil, List.cons_append, List.nil_append, List.mem_cons,
    List.not_mem_nil, or_false] at ha
  rcases ha with rfl | rfl | rfl | rfl | rfl | rfl <;> cases hkind
  cases hchildren
  rfl

/-- Every part of `replaceFirst` is in order. -/
private theorem wellFormed_replaceFirst : replaceFirst.root.WellFormed 1 where
  children := by decide
  registers := by
    have hregisters : ∀ m ∈ replaceFirst.root.preorder, m.kind.register?.all (· < 1) := by decide
    apply Node.registersBelow_of_register?
    intro m hm i hi
    simpa [hi] using hregisters m hm
  targets m hm := by
    rw [isTarget_replaceFirst hm]
    rfl

/-- A quotient, to be assigned to a number. -/
def quotientToNumber : Script where
  root := ⟨.script, [⟨.assign, [⟨.literal (.int 1), [], some ⟨0, 1⟩⟩,
    ⟨.binary .div, [⟨.identifier "x" (some 0), [], some ⟨4, 5⟩⟩,
      ⟨.identifier "y" none, [], some ⟨8, 9⟩⟩], some ⟨4, 9⟩⟩], some ⟨0, 9⟩⟩], some ⟨0, 9⟩⟩
  registers := ["x"]
  parameterCount := 1
  source := some "1 = x / y"
  root_kind := rfl
  parameterCount_le := by decide
  nodup_registers := by decide

/-- The grammar lets the number stand in front of the assignment sign. -/
private theorem read_quotientToNumber :
    Script.read (Grammar.reader ["x"]) "1 = x / y" = .ok quotientToNumber := by
  have hlex : Grammar.lex "1 = x / y" = .ok
      [⟨.int 1, ⟨0, 1⟩⟩, ⟨.assign, ⟨2, 3⟩⟩, ⟨.name "x", ⟨4, 5⟩⟩, ⟨.op .slash, ⟨6, 7⟩⟩,
        ⟨.name "y", ⟨8, 9⟩⟩] := by
    decide +kernel
  have hone : Grammar.Derives ["x"] .sum [⟨.int 1, ⟨0, 1⟩⟩]
      ⟨.literal (.int 1), [], some ⟨0, 1⟩⟩ := .product (.signed (.atom (.leaf rfl)))
  have hquotient : Grammar.Derives ["x"] .sum
      [⟨.name "x", ⟨4, 5⟩⟩, ⟨.op .slash, ⟨6, 7⟩⟩, ⟨.name "y", ⟨8, 9⟩⟩]
      ⟨.binary .div, [⟨.identifier "x" (some 0), [], some ⟨4, 5⟩⟩,
        ⟨.identifier "y" none, [], some ⟨8, 9⟩⟩], some ⟨4, 9⟩⟩ :=
    .product (.multiply (by rfl) (.signed (.atom (.leaf rfl))) (.atom (.leaf rfl)))
  have hparse : Grammar.parse ["x"] "1 = x / y" =
      .ok (quotientToNumber.root, quotientToNumber.registers) :=
    Grammar.parse_eq_ok_iff.2 ⟨_, _, hlex, .last (.assign hone hquotient), rfl⟩
  exact Grammar.read_eq_ok_iff.2 ⟨hparse, rfl, rfl⟩

/-- The element of an array that is not there is no structural fault; and the grammar does not keep
a number from being assigned to, but the run ends. -/
theorem structurally_safe_replaceFirst :
    (replaceFirst.execute {} 0 [.array []] Variables.empty).fault? = some (.outOfBounds 0 0) ∧
    (Fault.outOfBounds 0 0).isStructural = false ∧
    Script.read (Grammar.reader ["x"]) "1 = x / y" = .ok quotientToNumber ∧
    quotientToNumber.execute {} 0 [.int 6] (Variables.ofList [("y", .int 2)]) ≠ .unfinished ∧
    (quotientToNumber.execute {} 0 [.int 6] (Variables.ofList [("y", .int 2)])).fault? =
      some (.notAssignable "literal") ∧ (Fault.notAssignable "literal").isBasic := by
  have hfault : (replaceFirst.execute {} 0 [.array []] Variables.empty).fault? =
      some (.outOfBounds 0 0) := rfl
  have hfault' : (quotientToNumber.execute {} 0 [.int 6]
      (Variables.ofList [("y", .int 2)])).fault? = some (.notAssignable "literal") := by
    decide +kernel
  have hsafe := structurally_safe.1 replaceFirst wellFormed_replaceFirst {} 0 [.array []]
    Variables.empty _ (.inl hfault)
  obtain ⟨hends, hbasic⟩ := (structurally_safe.2 ["x"] _ _ read_quotientToNumber).2.2 {} 0 [.int 6]
    (Variables.ofList [("y", .int 2)]) _ (.inl rfl)
  exact ⟨hfault, hsafe, read_quotientToNumber, hends, hfault', hbasic _ hfault'⟩

end Scriptlet.Script
