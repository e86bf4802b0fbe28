import Scriptlet.Evaluation.Value

/-!
# Registers

The positional variables of one run. Each register has the name it was declared under and a slot,
which holds a value once the register is resolved. Arguments resolve the leading slots; a slot left
unresolved is looked up by name elsewhere.
-/

namespace Scriptlet

/-- Names and slots of registers, position by position. -/
structure Registers where
  names : List String
  slots : List (Option Value)
  aligned : slots.length = names.length

namespace Registers

/-- Registers with the given names, the leading ones resolved to `args`. Surplus arguments are
ignored. -/
def bind (names : List String) (args : List Value) : Registers where
  names := names
  slots := names.mapIdx fun i _ => args[i]?
  aligned := by simp

/-- No registers at all. -/
def empty : Registers := bind [] []

instance : Inhabited Registers := ⟨empty⟩

/-- The number of registers. -/
def length (r : Registers) : Nat := r.slots.length

/-- The name that register `i` was declared under. -/
def name? (r : Registers) (i : Nat) : Option String := r.names[i]?

/-- The value in register `i`, if it exists and is resolved. -/
def get? (r : Registers) (i : Nat) : Option Value := r.slots[i]?.join

/-- Whether register `i` exists and holds a value. -/
def isResolved (r : Registers) (i : Nat) : Bool := (r.get? i).isSome

/-- Resolves register `i` to a value, if the register exists. -/
def store? (r : Registers) (i : Nat) (value : Value) : Option Registers :=
  if i < r.length then
    some { r with slots := r.slots.set i (some value), aligned := by simp [r.aligned] }
  else none

/-- Same names, and slots of identical content. -/
instance : BEq Registers := ⟨fun a b => a.names == b.names && a.slots == b.slots⟩

@[simp]
theorem names_bind (names : List String) (args : List Value) : (bind names args).names = names :=
  rfl

@[simp]
theorem length_bind (names : List String) (args : List Value) :
    (bind names args).length = names.length := by simp [length, bind]

/-- The arguments fill the registers from the first on, as far as both reach. -/
theorem get?_bind (names : List String) (args : List Value) (i : Nat) :
    (bind names args).get? i = if i < names.length then args[i]? else none := by
  by_cases h : i < names.length <;> simp [get?, bind, h]

end Registers

end Scriptlet
