import Scriptlet.Proofs.Evaluation.Foreign
import Scriptlet.Script.Execution

/-!
# Surplus arguments

Arguments resolve the leading registers of a script. The parameters come first among the registers,
but they are not all: the local variables follow, and an argument that has no parameter left
resolves a local variable. Only what goes beyond the last register is ignored.

A script can tell the difference only by reading a local variable that it has not written. One that
always writes its local variables first ignores all arguments beyond its last parameter.

* `Script.writesLocals` — whether every path of the script writes a local variable before it reads
  it;
* `Script.execute_surplus` — which arguments are ignored.
-/

namespace Scriptlet

variable {γ : Type} {α : Type}

/-- What can be seen of an outcome from outside: the result and the context, but no registers. -/
def Outcome.seen : Outcome γ α → Option (Except Failure α × γ)
  | returned value frame => some (.ok value, frame.context)
  | failed failure frame => some (.error failure, frame.context)
  | unfinished => none

/-- Outcomes that differ in registers only look the same. -/
private theorem Outcome.Alike.seen_eq {foreign : List Nat} {outcome outcome' : Outcome γ α}
    (h : Outcome.Alike foreign outcome outcome') : outcome.seen = outcome'.seen := by
  cases h with
  | returned value hagree => rw [seen, seen, hagree.context]
  | failed failure hcontext => rw [seen, seen, hcontext]
  | unfinished => rfl

/-- Arguments beyond the last name are ignored. -/
private theorem Registers.bind_take (names : List String) (args : List Value) :
    bind names (args.take names.length) = bind names args := by
  have hslots : (names.mapIdx fun i _ => (args.take names.length)[i]?) =
      names.mapIdx fun i _ => args[i]? := by
    apply List.ext_getElem (by simp)
    intro i hi _
    rw [List.length_mapIdx] at hi
    rw [List.getElem_mapIdx, List.getElem_mapIdx, List.getElem?_take, if_pos hi]
  simp only [bind, hslots]

namespace Script

/-- The registers of the local variables. -/
def localRegisters (script : Script) : List Nat :=
  List.range' script.parameterCount script.locals.length

/-- Whether every path through the script writes a local variable before it reads it. -/
def writesLocals (script : Script) : Bool :=
  (script.root.foreignAfter script.localRegisters).isSome

/-- The local variables have the registers from the last parameter on. -/
private theorem mem_localRegisters {script : Script} {i : Nat} :
    i ∈ script.localRegisters ↔ script.parameterCount ≤ i ∧ i < script.registers.length := by
  have hle := script.parameterCount_le
  rw [localRegisters, List.mem_range'_1, locals, List.length_drop]
  omega

/-- Before the run, surplus arguments show in the registers of local variables only. -/
private theorem agreeExcept_frame (script : Script) (args : List Value) (context : γ) :
    AgreeExcept script.localRegisters (script.frame args context)
      (script.frame (args.take script.parameterCount) context) where
  names := rfl
  context := rfl
  slots i hi := by
    rw [frame, frame, Registers.get?_bind, Registers.get?_bind]
    -- a register that is no local variable's is a parameter's, or there is none
    by_cases hlt : i < script.registers.length
    · have hparameter : i < script.parameterCount :=
        Nat.lt_of_not_le fun hle => hi (mem_localRegisters.2 ⟨hle, hlt⟩)
      rw [if_pos hlt, if_pos hlt, List.getElem?_take, if_pos hparameter]
    · rw [if_neg hlt, if_neg hlt]

variable [Context γ]

/-- **Surplus arguments.** Arguments beyond the last register are always ignored. So are those
beyond the last parameter if the script has no local variables, or if it writes each of them on
every path before reading it: then the result and the context at the end are the same. -/
theorem execute_surplus (script : Script) (policy : Policy) (rounds : Nat) (args : List Value)
    (context : γ) :
    script.execute policy rounds args context =
      script.execute policy rounds (args.take script.registers.length) context ∧
    (script.locals = [] → script.execute policy rounds args context =
      script.execute policy rounds (args.take script.parameterCount) context) ∧
    (script.writesLocals → (script.execute policy rounds args context).seen =
      (script.execute policy rounds (args.take script.parameterCount) context).seen) := by
  have hregisters : script.execute policy rounds args context =
      script.execute policy rounds (args.take script.registers.length) context := by
    rw [execute, execute, frame, frame, Registers.bind_take]
  refine ⟨hregisters, fun hlocals => ?_, fun hwrites => ?_⟩
  · -- without local variables the last parameter is the last register
    have hcount : script.registers.length ≤ script.parameterCount := List.drop_eq_nil_iff.1 hlocals
    rw [hregisters, Nat.le_antisymm hcount script.parameterCount_le]
  -- the frames agree but for the local registers, and these are written first
  · obtain ⟨after, hafter⟩ := Option.isSome_iff_exists.1 hwrites
    have hclears := (script.root.clears (γ := γ) policy rounds (List.Subset.refl _)).1 _ _ hafter 0
    exact (hclears.alike _ _ (script.agreeExcept_frame args context)).seen_eq

/-- The parameter and the local variable of `doubles` have names of their own. -/
theorem nodup_doubles : ["x", "y"].Nodup := by decide

/-- Doubles its parameter through a local variable. -/
def doubles : Script where
  root := ⟨.script, [
    ⟨.var "y" 1, [⟨.identifier "x" (some 0), [], none⟩], none⟩,
    ⟨.binary .add, [⟨.identifier "x" (some 0), [], none⟩, ⟨.identifier "y" (some 1), [], none⟩],
      none⟩], none⟩
  registers := ["x", "y"]
  parameterCount := 1
  source := none
  root_kind := rfl
  parameterCount_le := by decide
  nodup_registers := nodup_doubles

/-- Doubles its parameter without a local variable. -/
def doublesAtOnce : Script where
  root := ⟨.script, [⟨.binary .mul, [⟨.identifier "x" (some 0), [], none⟩,
    ⟨.literal (.int 2), [], none⟩], none⟩], none⟩
  registers := ["x"]
  parameterCount := 1
  source := none
  root_kind := rfl
  parameterCount_le := Nat.le_refl 1
  nodup_registers := List.pairwise_singleton _ "x"

/-- The second argument has no register, or meets that of `y` and is overwritten before `y` is
read. -/
theorem execute_surplus_doubles :
    doublesAtOnce.locals = [] ∧
      doublesAtOnce.execute {} 0 [.int 4, .int 7] Variables.empty =
        doublesAtOnce.execute {} 0 [.int 4] Variables.empty ∧
    doubles.writesLocals = true ∧
      (doubles.execute {} 0 [.int 4, .int 7] Variables.empty).seen =
        (doubles.execute {} 0 [.int 4] Variables.empty).seen := by
  have hlocals : doublesAtOnce.locals = [] := rfl
  have hwrites : doubles.writesLocals := by decide
  refine ⟨hlocals, ?_, hwrites, ?_⟩
  · exact (doublesAtOnce.execute_surplus {} 0 [.int 4, .int 7] Variables.empty).2.1 hlocals
  · exact (doubles.execute_surplus {} 0 [.int 4, .int 7] Variables.empty).2.2 hwrites

/-- Declares a local variable without a value, and reads it. -/
def readsUnwritten : Script where
  root := ⟨.script, [⟨.var "y" 0, [], some ⟨0, 5⟩⟩,
    ⟨.identifier "y" (some 0), [], some ⟨7, 8⟩⟩], some ⟨0, 8⟩⟩
  registers := ["y"]
  parameterCount := 0
  source := some "var y; y"
  root_kind := rfl
  parameterCount_le := by decide
  nodup_registers := by decide

/-- **An argument beyond the last parameter is not always ignored.** There are no parameters, but
the argument becomes the value of the local variable; without it the variable is undefined. -/
theorem surplus_reaches_local :
    (readsUnwritten.execute {} 0 [.int 1] Variables.empty).seen =
        some (.ok (.int 1), Variables.empty) ∧
      (readsUnwritten.execute {} 0 ([.int 1].take readsUnwritten.parameterCount)
        Variables.empty).seen =
        some (.error ⟨.undefinedVariable "y", some ⟨7, 8⟩⟩, Variables.empty) :=
  ⟨rfl, rfl⟩

end Script

end Scriptlet
