import Scriptlet.Proofs.Evaluation.Contracts

/-!
# What a run can change

A tree says which variables it writes: those that it declares with a value, and those that it
assigns to, as a whole or an element at a time. A run changes no other slot and no other variable of
the context, however it ends. Moreover it takes nothing away: what is resolved stays resolved, and
what is defined stays defined.

* `Node.writes` — the variables that a tree writes;
* `ChangedWithin` — the invariant of a run that writes those variables only;
* `Node.interpret_changes` — the invariant holds at the end of every run.

A variable with a register is written to its slot, even if it was read from the context because the
slot was unresolved; one without a register is written to the context.
-/

namespace Scriptlet

/-! ### The variables written -/

/-- The name and the register of a variable. -/
abbrev Variable := String × Option Nat

/-- The variable that a node of this kind refers to. -/
def Kind.reference? : Kind → Option Variable
  | identifier name register => some (name, register)
  | _ => none

namespace Node

/-- The variable that is written when the node is assigned to: its own or, if the node is an element
of a container, that of the container. -/
def place? : Node → Option Variable
  | ⟨.index, [container, _], _⟩ => container.kind.reference?
  | ⟨kind, _, _⟩ => kind.reference?

/-- The variable that the node itself writes, apart from the nodes inside it. -/
def written? : Node → Option Variable
  | ⟨.var name register, [_], _⟩ => some (name, some register)
  | ⟨.assign, [target, _], _⟩ => target.place?
  | _ => none

/-- The variables that the nodes of a tree write. -/
def writes (n : Node) : List Variable := n.preorder.filterMap written?

variable {n m : Node} {name : String} {register : Option Nat}

private theorem place?_of_kind (h : m.kind = .identifier name register) :
    m.place? = some (name, register) := by
  obtain ⟨kind, children, span⟩ := m
  dsimp only at h
  subst h
  rfl

/-- A variable that is assigned to is among those that the tree writes. -/
private theorem mem_writes_of_isTarget (htarget : m.IsTarget n.preorder)
    (hplace : m.place? = some (name, register)) : (name, register) ∈ n.writes := by
  obtain ⟨⟨kind, children, span⟩, ha, hkind, value, hchildren⟩ := htarget
  dsimp only at hkind hchildren
  subst hkind hchildren
  exact List.mem_filterMap.2 ⟨_, ha, hplace⟩

/-- So is a variable of which an element is assigned to. -/
private theorem mem_writes_of_isContainer (hcontainer : m.IsContainer n.preorder)
    (hkind : m.kind = .identifier name register) : (name, register) ∈ n.writes := by
  obtain ⟨⟨kind, children, span⟩, htarget, hindex, position, hchildren⟩ := hcontainer
  dsimp only at hindex hchildren
  subst hindex hchildren
  refine mem_writes_of_isTarget htarget ?_
  rw [place?, hkind]
  rfl

/-- **Whatever is assigned to is written.** -/
theorem mem_writes (hplace : m.IsTarget n.preorder ∨ m.IsContainer n.preorder)
    (hkind : m.kind = .identifier name register) : (name, register) ∈ n.writes := by
  rcases hplace with htarget | hcontainer
  · exact mem_writes_of_isTarget htarget (place?_of_kind hkind)
  · exact mem_writes_of_isContainer hcontainer hkind

/-- **Whatever is declared with a value is written.** -/
private theorem mem_writes_of_var {i : Nat} {init : Node} (hm : m ∈ n.preorder)
    (hkind : m.kind = .var name i) (hchildren : m.children = [init]) :
    (name, some i) ∈ n.writes := by
  obtain ⟨kind, children, span⟩ := m
  dsimp only at hkind hchildren
  subst hkind hchildren
  exact List.mem_filterMap.2 ⟨_, hm, rfl⟩

end Node

/-! ### The invariant -/

variable {γ : Type} [Context γ]

/-- **The invariant of a run.** Since the start, only the variables in `writes` have changed, and
none has been given up. -/
structure ChangedWithin (writes : List Variable) (start frame : Frame γ) : Prop where
  names : frame.registers.names = start.registers.names
  resolved : ∀ i, start.registers.isResolved i → frame.registers.isResolved i
  defined : ∀ name, (Context.get start.context name).isSome →
    (Context.get frame.context name).isSome
  slot : ∀ i, (∀ name, (name, some i) ∉ writes) →
    frame.registers.get? i = start.registers.get? i
  context : ∀ name, (name, none) ∉ writes →
    Context.get frame.context name = Context.get start.context name

namespace ChangedWithin

variable {writes : List Variable} {start frame : Frame γ}

/-- At the start nothing has changed. -/
theorem initial (start : Frame γ) : ChangedWithin writes start start where
  names := rfl
  resolved _ := id
  defined _ := id
  slot _ _ := rfl
  context _ _ := rfl

/-- **Writing a register** that counts keeps the invariant. -/
theorem store (h : ChangedWithin writes start frame) {name : String} {i : Nat}
    (hwrites : (name, some i) ∈ writes) {value : Value} {registers : Registers}
    (hstore : frame.registers.store? i value = some registers) :
    ChangedWithin writes start { frame with registers := registers } where
  names := (Registers.names_store? hstore).trans h.names
  resolved j hj := by
    have hj' := h.resolved j hj
    rw [Registers.isResolved] at hj' ⊢
    rw [Registers.get?_store? hstore]
    split
    · rfl
    · exact hj'
  defined := h.defined
  slot j hj := by
    -- a slot that does not count is not the one written
    have hne : j ≠ i := by
      rintro rfl
      exact hj name hwrites
    rw [Registers.get?_store? hstore, if_neg hne, h.slot j hj]
  context := h.context

/-- **Writing the context** under a name that counts keeps the invariant. -/
theorem define [LawfulContext γ] (h : ChangedWithin writes start frame) {name : String}
    (hwrites : (name, none) ∈ writes) (value : Value) :
    ChangedWithin writes start
      { frame with context := Context.set frame.context name value } where
  names := h.names
  resolved := h.resolved
  defined other hother := by
    -- another name that was defined still is, whether it was just written or not
    have hother' := h.defined other hother
    rw [LawfulContext.get_set]
    split
    · rfl
    · exact hother'
  slot := h.slot
  context other hother := by
    have hne : other ≠ name := by
      rintro rfl
      exact hother hwrites
    rw [LawfulContext.get_set, if_neg hne, h.context other hother]

/-- The contract to change `writes` only; any fault is allowed, and so is a run without end. -/
def contract (writes : List Variable) (start : Frame γ) : Contract γ :=
  ⟨ChangedWithin writes start, fun _ => True, True⟩

/-- **The contract covers every tree** that writes those variables. -/
theorem covers [LawfulContext γ] (policy : Policy) (n : Node) (start : Frame γ) :
    (contract n.writes start).Covers policy n.preorder := by
  have hstore {name : String} {i : Nat} (h : (name, some i) ∈ n.writes) (value : Value) :
      Run.Keeps (contract n.writes start) (Run.store i value : Run γ Unit) :=
    Run.keeps_store (fun _ _ hframe => hframe.store h) fun _ _ _ => trivial
  -- only writes can change a frame, and every write is one of `writes`
  exact
    { depth := fun _ _ => trivial
      undefined := fun _ _ => trivial
      rounds := fun _ _ _ _ _ => trivial
      giveUp := fun _ _ _ _ => trivial
      operation := fun _ _ _ _ => trivial
      malformed := fun _ _ _ => trivial
      notAssignable := fun _ _ _ => trivial
      assign := by
        intro m _ hplace name register hkind value
        have hwrites := Node.mem_writes hplace hkind
        cases register with
        | some i => exact hstore hwrites value
        | none => exact fun frame hframe => hframe.define hwrites value
      store := fun m hm _ _ _ hkind hchildren value =>
        hstore (Node.mem_writes_of_var hm hkind hchildren) value }

end ChangedWithin

/-! ### Runs -/

/-- **A run changes only what its tree writes, and takes nothing away.** However it ends, it leaves
the names and the number of the registers as they were. What was resolved is resolved, and what was
defined is defined. A slot that the tree does not write has its old content, and a variable of the
context that the tree does not write its old value, or none. -/
theorem Node.interpret_changes [LawfulContext γ] (policy : Policy) (n : Node) (start : Frame γ)
    (outcome : Outcome γ Value) (hends : n.Ends policy start outcome) :
    ∃ final, outcome.frame? = some final ∧
      final.registers.names = start.registers.names ∧
      final.registers.length = start.registers.length ∧
      (∀ i, start.registers.isResolved i → final.registers.isResolved i) ∧
      (∀ name, (Context.get start.context name).isSome →
        (Context.get final.context name).isSome) ∧
      (∀ i, (∀ name, (name, some i) ∉ n.writes) →
        final.registers.get? i = start.registers.get? i) ∧
      (∀ name, (name, none) ∉ n.writes →
        Context.get final.context name = Context.get start.context name) := by
  obtain ⟨hne, rounds, rfl⟩ := hends
  obtain ⟨final, hfinal⟩ : ∃ final, (n.interpret policy rounds start).frame? = some final := by
    cases hout : n.interpret policy rounds start with
    | returned value final => exact ⟨final, rfl⟩
    | failed failure final => exact ⟨final, rfl⟩
    | unfinished => exact absurd hout hne
  have h : ChangedWithin n.writes start final :=
    ((ChangedWithin.covers policy n start).interpret rounds start (.initial start)).invariant hfinal
  have hlength : final.registers.length = start.registers.length := by
    rw [Registers.length_eq, Registers.length_eq, h.names]
  exact ⟨final, hfinal, h.names, hlength, h.resolved, h.defined, h.slot, h.context⟩

/-- Replaces an element of `xs`, whose register is unresolved, and fails to write past the end. -/
def Node.replaceTwice : Node :=
  let xs : Node := ⟨.identifier "xs" (some 0), [], none⟩
  let literal (n : Int64) : Node := ⟨.literal (.int n), [], none⟩
  let replace (i : Int64) : Node :=
    ⟨.assign, [⟨.index, [xs, literal i], none⟩, literal 7], none⟩
  ⟨.script, [replace 0, replace 1], none⟩

/-- The array is read from the context and written to the slot. The context keeps its own, and the
other register is left alone, although the run ends with a failure. -/
theorem Node.interpret_changes_replaceTwice :
    ∃ final : Frame Variables,
      (replaceTwice.interpret {} 0 ⟨.bind ["xs", "y"] [],
        .ofList [("xs", .array [.int 1])]⟩).frame? = some final ∧
      final.registers.length = 2 ∧ final.registers.get? 1 = none ∧
      Context.get final.context "xs" = some (.array [.int 1]) := by
  obtain ⟨final, hfinal, -, hlength, -, -, hslot, hcontext⟩ :=
    interpret_changes {} replaceTwice
      ⟨.bind ["xs", "y"] [], Variables.ofList [("xs", .array [.int 1])]⟩
      (.failed (.of (.outOfBounds 1 1)) ⟨.bind ["xs", "y"] [.array [.int 7]],
        .ofList [("xs", .array [.int 1])]⟩) ⟨nofun, 0, rfl⟩
  have hwrites : replaceTwice.writes = [("xs", some 0), ("xs", some 0)] := rfl
  rw [hwrites] at hslot hcontext
  exact ⟨final, hfinal, hlength, hslot 1 (by simp), hcontext "xs" (by simp)⟩

end Scriptlet
