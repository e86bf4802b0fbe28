import Scriptlet.Tree.Node

/-!
# Scripts and their register layout

A script is a tree with a root of kind `script` and a list of registers with distinct names: first
the parameters, then the local variables, so that parameter `i` is register `i`. It may keep the
source text that it was read from; spans in the tree are offsets into that text as it was given.

A script can only be built with a consistent layout, and keeps the proof that it has one.

* `Script.ofRegisters` — the checked constructor, which reports the first condition violated;
* `firstRepeat?_eq_none_iff` — the check for repeated names finds one exactly if there is one.
-/

namespace Scriptlet

/-- Why a root and a list of registers make no script. -/
inductive LayoutError where
  | rootNotScript (found : String)
  | tooManyParameters (parameters registers : Nat)
  | duplicateRegister (name : String)
deriving DecidableEq

/-- The wording of each refusal. -/
def LayoutError.message : LayoutError → String
  | rootNotScript found => s!"script root must be a script node, found {found}"
  | tooManyParameters parameters registers =>
    s!"{parameters} parameters declared but only {registers} registers"
  | duplicateRegister name => s!"duplicate register `{name}`"

/-- The first name that was seen already or occurs earlier in the list. -/
def firstRepeat? (seen : List String) : List String → Option String
  | [] => none
  | name :: names => if name ∈ seen then some name else firstRepeat? (name :: seen) names

/-- Nothing is repeated if the names are distinct, and none has been seen before. -/
theorem firstRepeat?_eq_none_iff {seen names : List String} :
    firstRepeat? seen names = none ↔ names.Nodup ∧ ∀ name ∈ names, name ∉ seen := by
  induction names generalizing seen with
  | nil => simp [firstRepeat?]
  | cons name names ih =>
    by_cases h : name ∈ seen
    · simp [firstRepeat?, h]
    · simp only [firstRepeat?, h, if_false, ih, List.nodup_cons, List.mem_cons, not_or,
        forall_eq_or_imp, not_false_eq_true, true_and]
      constructor
      · rintro ⟨hnodup, hnames⟩
        exact ⟨⟨fun hmem => (hnames name hmem).1 rfl, hnodup⟩, fun n hn => (hnames n hn).2⟩
      · rintro ⟨⟨hname, hnodup⟩, hseen⟩
        exact ⟨hnodup, fun n hn => ⟨fun heq => hname (heq ▸ hn), hseen n hn⟩⟩

/-- A tree with its registers, parameters first, and maybe the text it was read from. -/
structure Script where
  root : Node
  registers : List String
  parameterCount : Nat
  source : Option String
  root_kind : root.kind = .script
  parameterCount_le : parameterCount ≤ registers.length
  nodup_registers : registers.Nodup

namespace Script

/-- The script with the given root and registers, of which the first `parameterCount` are the
parameters. The kind of the root is checked first, then the count, then the names. -/
def ofRegisters (root : Node) (registers : List String) (parameterCount : Nat) :
    Except LayoutError Script :=
  match hroot : root.kind with
  | .script =>
    if hcount : parameterCount ≤ registers.length then
      match hnames : firstRepeat? [] registers with
      | some name => .error (.duplicateRegister name)
      | none =>
        .ok { root, registers, parameterCount, source := none, root_kind := hroot,
              parameterCount_le := hcount
              nodup_registers := (firstRepeat?_eq_none_iff.1 hnames).1 }
    else .error (.tooManyParameters parameterCount registers.length)
  | other => .error (.rootNotScript other.name)

/-- The script with the given parameters and local variables. -/
def ofVariables (root : Node) (parameters locals : List String) : Except LayoutError Script :=
  ofRegisters root (parameters ++ locals) parameters.length

/-- The script without registers. -/
def ofRoot (root : Node) : Except LayoutError Script := ofVariables root [] []

/-- Keeps the text that the script was read from. -/
def withSource (script : Script) (source : String) : Script :=
  { script with source := some source }

/-- The names of the leading registers, which take arguments. -/
def parameters (script : Script) : List String := script.registers.take script.parameterCount

/-- The names of the registers after the parameters. -/
def locals (script : Script) : List String := script.registers.drop script.parameterCount

/-- The statements, in order. -/
def statements (script : Script) : List Node := script.root.children

/-- The source text without blanks around it, empty if there is none. -/
def text (script : Script) : String :=
  match script.source with
  | some source => Source.trim source
  | none => ""

/-- The registers are those of the parameters and then those of the local variables. -/
theorem parameters_append_locals (script : Script) :
    script.parameters ++ script.locals = script.registers :=
  List.take_append_drop ..

end Script

end Scriptlet
