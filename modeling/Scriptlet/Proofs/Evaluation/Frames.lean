import Scriptlet.Evaluation.Run

/-!
# Reading and writing frames

What the variables of a tree do to a frame: one lemma for each operation, so that nothing else has
to look inside registers or contexts.

* `Frame.read?` — what a variable reads as; `resolve_apply` is the run that reads it;
* `store_cases`, `define_apply` — the two ways to write;
* `Frame.write?` — what writing a variable makes of a frame; `assignVariable_cases` is the run;
* `LawfulContext` — contexts in which a variable reads as what was last written to it;
* `checkDepth_cases` — whether a node is entered at all.
-/

namespace Scriptlet

/-! ### Registers -/

namespace Registers

variable {r r' : Registers} {i : Nat} {value : Value}

/-- A register is refused exactly if there is no such register. -/
theorem store?_eq_none_iff : r.store? i value = none ↔ r.length ≤ i := by
  rw [store?]
  split
  · next h => simp [h]
  · next h => simpa using h

/-- A register that is written exists. -/
theorem lt_of_store? (h : r.store? i value = some r') : i < r.length := by
  rw [store?] at h
  split at h
  · assumption
  · cases h

/-- Writing a register does not rename any. -/
@[simp]
theorem names_store? (h : r.store? i value = some r') : r'.names = r.names := by
  rw [store?, if_pos (lt_of_store? h)] at h
  cases h
  rfl

/-- Writing a register adds none. -/
@[simp]
theorem length_store? (h : r.store? i value = some r') : r'.length = r.length := by
  rw [length, length, r'.aligned, r.aligned, names_store? h]

/-- **Only the register written changes.** -/
theorem get?_store? (h : r.store? i value = some r') (j : Nat) :
    r'.get? j = if j = i then some value else r.get? j := by
  have hlt := lt_of_store? h
  rw [store?, if_pos hlt] at h
  cases h
  rw [length] at hlt
  -- the slot that was set, or any other one
  by_cases hj : j = i
  · subst hj
    simp [get?, hlt]
  · simp [get?, hj, Ne.symm hj]

/-- Beyond the last register there is no value. -/
theorem get?_eq_none_of_le (h : r.length ≤ i) : r.get? i = none := by
  rw [length] at h
  rw [get?, List.getElem?_eq_none h, Option.join_none]

/-- Exactly the registers that do not exist have no name. -/
theorem name?_eq_none_iff : r.name? i = none ↔ r.length ≤ i := by
  rw [name?, length, r.aligned, List.getElem?_eq_none_iff]

theorem length_eq (r : Registers) : r.length = r.names.length := r.aligned

end Registers

section Names

variable {r r' : Registers}

/-- Only the names of registers matter for what a variable is looked up under. -/
theorem lookupName_congr (h : r.names = r'.names) (name : String) (register : Option Nat) :
    lookupName r name register = lookupName r' name register := by
  have hname : r.name? = r'.name? := by
    funext i
    rw [Registers.name?, Registers.name?, h]
  rw [lookupName, lookupName, hname]

/-- A variable with a register is looked up under the name of that register. -/
theorem lookupName_declared {i : Nat} {declared : String} (h : r.names[i]? = some declared)
    (name : String) : lookupName r name (some i) = declared := by
  rw [lookupName, Option.bind_some, Registers.name?, h, Option.getD_some]

/-- A variable without an existing register is looked up under its own name. -/
theorem lookupName_free {register : Option Nat} (h : ∀ i, register = some i → r.names.length ≤ i)
    (name : String) : lookupName r name register = name := by
  cases register with
  | none => rfl
  | some i =>
    rw [lookupName, Option.bind_some, Registers.name?, List.getElem?_eq_none (h i rfl),
      Option.getD_none]

end Names

/-! ### Contexts -/

/-- A context in which a variable reads as what was last written to it, and all others as before. -/
class LawfulContext (γ : Type) [Context γ] : Prop where
  get_set (context : γ) (name other : String) (value : Value) :
    Context.get (Context.set context name value) other =
      if other = name then some value else Context.get context other

instance : LawfulContext Variables := ⟨Variables.get_set⟩

/-! ### Frames -/

variable {γ : Type} [Context γ]

/-- What a variable reads as, if it is defined: the slot of its register or, where there is none or
it is unresolved, what the context has under its name. -/
def Frame.read? (frame : Frame γ) (name : String) (register : Option Nat) : Option Value :=
  (register.bind frame.registers.get?).or
    (Context.get frame.context (lookupName frame.registers name register))

/-- A resolved register is read itself. -/
theorem Frame.read?_resolved {frame : Frame γ} {i : Nat} {value : Value}
    (h : frame.registers.get? i = some value) (name : String) :
    frame.read? name (some i) = some value := by
  rw [read?, Option.bind_some, h, Option.some_or]

/-- An empty register is looked up in the context, under its name. -/
theorem Frame.read?_empty {frame : Frame γ} {i : Nat} (h : frame.registers.get? i = none)
    (name : String) :
    frame.read? name (some i) =
      Context.get frame.context (lookupName frame.registers name (some i)) := by
  rw [read?, Option.bind_some, h, Option.none_or]

/-- Without a resolved register the context decides. -/
theorem Frame.read?_unresolved {frame : Frame γ} {register : Option Nat}
    (h : register.bind frame.registers.get? = none) (name : String) :
    frame.read? name register =
      Context.get frame.context (lookupName frame.registers name register) := by
  rw [read?, h, Option.none_or]

/-- **Reading a variable** leaves the frame as it is. An undefined one fails under a strict policy
and is `null` otherwise. -/
theorem resolve_apply (policy : Policy) (name : String) (register : Option Nat) (frame : Frame γ) :
    resolve policy name register frame =
      match frame.read? name register with
      | some value => .returned value frame
      | none =>
        if policy.strict then
          .failed (.of (.undefinedVariable (lookupName frame.registers name register))) frame
        else .returned .null frame := by
  rw [resolve, Run.bind_apply, Run.getFrame, Frame.read?]
  dsimp only
  -- the register if it is resolved, and otherwise the context
  cases register.bind frame.registers.get? with
  | some value => rfl
  | none =>
    rw [Option.none_or]
    dsimp only
    cases Context.get frame.context (lookupName frame.registers name register) with
    | some value => rfl
    | none => cases policy.strict <;> rfl

omit [Context γ] in
/-- **Writing a register** that exists changes its slot only; any other register is refused. -/
theorem store_cases (register : Nat) (value : Value) (frame : Frame γ) :
    (∃ registers, frame.registers.store? register value = some registers ∧
      Run.store register value frame = .returned () { frame with registers := registers }) ∨
    frame.registers.length ≤ register ∧
      Run.store register value frame = .failed (.of (.unknownRegister register)) frame := by
  rw [Run.store]
  cases h : frame.registers.store? register value with
  | some registers => exact .inl ⟨registers, rfl, rfl⟩
  | none => exact .inr ⟨Registers.store?_eq_none_iff.1 h, rfl⟩

@[simp]
theorem define_apply (name : String) (value : Value) (frame : Frame γ) :
    Run.define name value frame =
      .returned () { frame with context := Context.set frame.context name value } := rfl

/-- The frame with a variable written: the slot of its register or, if it has none, the context.
There is no such frame if the register does not exist. -/
def Frame.write? (frame : Frame γ) (name : String) (register : Option Nat) (value : Value) :
    Option (Frame γ) :=
  match register with
  | some i => (frame.registers.store? i value).map fun registers => { frame with registers }
  | none => some { frame with context := Context.set frame.context name value }

/-- **Writing a variable** changes that variable only; it is refused if its register does not
exist. -/
theorem assignVariable_cases (name : String) (register : Option Nat) (value : Value)
    (frame : Frame γ) :
    (∃ final, frame.write? name register value = some final ∧
      assignVariable name register value frame = .returned () final) ∨
    ∃ i, register = some i ∧ frame.registers.length ≤ i ∧
      assignVariable name register value frame = .failed (.of (.unknownRegister i)) frame := by
  cases register with
  | none => exact .inl ⟨_, rfl, rfl⟩
  | some i =>
    rcases store_cases i value frame with ⟨registers, hstore, hrun⟩ | ⟨hle, hrun⟩
    · refine .inl ⟨{ frame with registers }, ?_, hrun⟩
      rw [Frame.write?, hstore, Option.map_some]
    · exact .inr ⟨i, rfl, hle, hrun⟩

/-- A variable reads as what was last written to it. -/
theorem Frame.read?_write? [LawfulContext γ] {frame final : Frame γ} {name : String}
    {register : Option Nat} {value : Value} (h : frame.write? name register value = some final) :
    final.read? name register = some value := by
  cases register with
  | none =>
    cases h
    -- without a register the context has the value, and otherwise the slot
    rw [read?_unresolved rfl]
    exact (LawfulContext.get_set ..).trans (if_pos rfl)
  | some i =>
    obtain ⟨registers, hstore, rfl⟩ := Option.map_eq_some_iff.1 h
    exact read?_resolved ((Registers.get?_store? hstore i).trans (if_pos rfl)) name

/-! ### Depth -/

omit [Context γ] in
/-- A node that stands above the limit is entered. -/
theorem Node.checkDepth_of_lt {policy : Policy} {depth : Nat}
    (h : ∀ limit, policy.depthLimit = some limit → depth < limit) :
    (checkDepth policy depth : Run γ Unit) = pure () := by
  unfold checkDepth
  split
  · next limit hlimit => rw [if_neg (Nat.not_le.2 (h limit hlimit))]
  · rfl

/-- The policy lets a node be entered that stands inside `depth` others. -/
def Policy.Admits (policy : Policy) (depth : Nat) : Prop :=
  ∀ limit, policy.depthLimit = some limit → depth < limit

/-- Without a limit every node is entered. -/
theorem Policy.admits_of_unlimited {policy : Policy} (h : policy.depthLimit = none) (depth : Nat) :
    policy.Admits depth := by
  intro limit hlimit
  cases h.symm.trans hlimit

/-- What is admitted at some depth is admitted above it. -/
theorem Policy.Admits.of_succ {policy : Policy} {depth : Nat} (h : policy.Admits (depth + 1)) :
    policy.Admits depth :=
  fun limit hlimit => Nat.lt_of_succ_lt (h limit hlimit)

omit [Context γ] in
/-- **A node is refused for its depth** exactly if the policy does not admit it. -/
theorem checkDepth_cases (policy : Policy) (depth : Nat) :
    (policy.Admits depth ∧ (checkDepth policy depth : Run γ Unit) = pure ()) ∨
      ∃ limit, policy.depthLimit = some limit ∧ limit ≤ depth ∧
        (checkDepth policy depth : Run γ Unit) = .raise (.tooDeep limit) := by
  by_cases hadmits : policy.Admits depth
  · exact .inl ⟨hadmits, Node.checkDepth_of_lt hadmits⟩
  · simp only [Policy.Admits, Classical.not_forall, Nat.not_lt] at hadmits
    obtain ⟨limit, hlimit, hle⟩ := hadmits
    refine .inr ⟨limit, hlimit, hle, ?_⟩
    rw [checkDepth, hlimit]
    exact if_pos hle

end Scriptlet
