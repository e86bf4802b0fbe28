import Scriptlet.Proofs.Evaluation.Frames
import Scriptlet.Proofs.Evaluation.Rules

/-!
# Replacing elements

An assignment to an element evaluates the value first and the index second. Either may write
variables, also the container itself, so the container is read only when both are there. From then
on nothing is evaluated any more: either the array is replaced as a whole by one that differs in the
element, or the frame stays as it is.

* `position_eq_ok_iff`, `Value.replaceElement_eq_ok_iff` — which elements there are;
* `Frame.HasElement` — the element can be replaced;
* `replaceIn` — what is left to do once value and index are there;
* `Node.assign_element_exact` — the assignment as a whole, and what is read afterwards.

A container that has a register is written to its slot, even if the array was read from the context
because the slot was unresolved.
-/

namespace Scriptlet

/-! ### Positions -/

section Positions

variable {index : Int64} {length : Nat}

/-- An index names a position exactly if it is neither negative nor past the end. -/
theorem position_eq_ok_iff {p : Nat} :
    position index length = .ok p ↔ index.toInt = p ∧ p < length := by
  have hsign : 0 ≤ index ↔ 0 ≤ index.toInt := Int64.le_iff_toInt_le
  rw [position]
  split
  · next h =>
    rw [hsign] at h
    rw [Except.ok.injEq]
    omega
  · next h =>
    rw [hsign] at h
    simp only [reduceCtorEq, false_iff]
    omega

/-- Outside the container there is no position, and the failure says which index and which size. -/
theorem position_eq_error_iff {fault : Fault} :
    position index length = .error fault ↔
      (index.toInt < 0 ∨ length ≤ index.toInt) ∧ fault = .outOfBounds index length := by
  have hsign : 0 ≤ index ↔ 0 ≤ index.toInt := Int64.le_iff_toInt_le
  rw [position]
  split
  · next h =>
    rw [hsign] at h
    simp only [reduceCtorEq, false_iff]
    omega
  · next h =>
    rw [hsign] at h
    rw [Except.error.injEq, eq_comm, and_iff_right]
    omega

end Positions

namespace Value

/-- **Replacing an element** succeeds exactly for a position of an array. -/
theorem replaceElement_eq_ok_iff {container index value updated : Value} :
    container.replaceElement index value = .ok updated ↔
      ∃ (items : List Value) (k : Int64) (p : Nat), container = array items ∧ index = int k ∧
        k.toInt = p ∧ p < items.length ∧ updated = array (items.set p value) := by
  rw [replaceElement.eq_def]
  split
  · next items k =>
    cases hposition : position k items.length with
    | error fault =>
      -- an index outside the array
      obtain ⟨hout, -⟩ := position_eq_error_iff.1 hposition
      constructor
      · intro h
        cases h
      · rintro ⟨_, _, p, ⟨⟩, ⟨⟩, hk, hlt, -⟩
        omega
    | ok p =>
      -- an index inside, whose position is the only one it can stand for
      obtain ⟨hk, hlt⟩ := position_eq_ok_iff.1 hposition
      constructor
      · intro h
        cases h
        exact ⟨items, k, p, rfl, rfl, hk, hlt, rfl⟩
      · rintro ⟨_, _, q, ⟨⟩, ⟨⟩, hk', -, rfl⟩
        obtain rfl : p = q := by omega
        rfl
  · next hother =>
    -- anything else than an array and an integer
    simp only [reduceCtorEq, false_iff]
    rintro ⟨items, k, p, rfl, rfl, -⟩
    exact hother items k rfl rfl

private theorem element_eq_ok {items : List Value} {j : Int64} {q : Nat} {item : Value}
    (hj : j.toInt = q) (hitem : items[q]? = some item) :
    (array items).element (int j) = .ok item := by
  obtain ⟨hlt, -⟩ := List.getElem?_eq_some_iff.1 hitem
  rw [element, position_eq_ok_iff.2 ⟨hj, hlt⟩]
  exact congrArg Except.ok (by rw [List.getD_eq_getElem?_getD, hitem, Option.getD_some])

end Value

/-! ### Replacing an element of a variable -/

variable {γ : Type} [Context γ]

/-- **There is such an element.** The variable holds an array, the index names a position of it, and
the register of the variable exists, if it has one. -/
structure Frame.HasElement (frame : Frame γ) (name : String) (register : Option Nat)
    (index : Value) (items : List Value) (p : Nat) : Prop where
  array : frame.read? name register = some (.array items)
  index : ∃ k : Int64, index = .int k ∧ k.toInt = p
  lt_length : p < items.length
  register : ∀ i, register = some i → i < frame.registers.length

/-- Replaces an element of the array in a variable. -/
def replaceIn (policy : Policy) (name : String) (register : Option Nat) (index value : Value) :
    Run γ Unit := do
  let current ← resolve policy name register
  let updated ← Run.ofExcept (current.replaceElement index value)
  assignVariable name register updated

section ReplaceIn

variable {name : String} {register : Option Nat} {index : Value} {frame : Frame γ}

/-- **An element that is there is replaced**, and nothing else changes. -/
theorem Frame.HasElement.replaceIn {items : List Value} {p : Nat}
    (h : frame.HasElement name register index items p) (policy : Policy) (value : Value) :
    ∃ final, frame.write? name register (.array (items.set p value)) = some final ∧
      replaceIn policy name register index value frame = .returned () final := by
  obtain ⟨k, hindex, hk⟩ := h.index
  have hresolve : resolve policy name register frame = .returned (.array items) frame := by
    rw [resolve_apply, h.array]
  have hreplace : (Value.array items).replaceElement index value =
      .ok (.array (items.set p value)) :=
    Value.replaceElement_eq_ok_iff.2 ⟨items, k, p, rfl, hindex, hk, h.lt_length, rfl⟩
  -- the register exists, so that the array can be written back
  rcases assignVariable_cases name register (.array (items.set p value)) frame with
    ⟨final, hwrite, hassign⟩ | ⟨i, hregister, hle, -⟩
  · refine ⟨final, hwrite, ?_⟩
    rw [Scriptlet.replaceIn, Run.bind_apply, hresolve]
    dsimp only
    rw [hreplace]
    exact hassign
  · exact absurd (h.register i hregister) (Nat.not_lt.2 hle)

/-- **An element that is not there is refused**, and the frame stays as it is. -/
private theorem replaceIn_of_not_hasElement
    (h : ¬ ∃ items p, frame.HasElement name register index items p) (policy : Policy)
    (value : Value) :
    ∃ fault, replaceIn policy name register index value frame = .failed (.of fault) frame := by
  rw [replaceIn, Run.bind_apply]
  have hresolve := resolve_apply policy name register frame
  cases hread : frame.read? name register with
  | none =>
    rw [hread] at hresolve
    cases hstrict : policy.strict with
    | true =>
      simp only [hstrict, if_true] at hresolve
      rw [hresolve]
      exact ⟨_, rfl⟩
    | false =>
      -- an undefined variable reads as `null`, which has no elements
      simp only [hstrict, Bool.false_eq_true, if_false] at hresolve
      rw [hresolve]
      exact ⟨_, rfl⟩
  | some current =>
    rw [hread] at hresolve
    rw [hresolve]
    dsimp only
    cases hreplace : current.replaceElement index value with
    | error fault => exact ⟨fault, rfl⟩
    | ok updated =>
      obtain ⟨items, k, p, rfl, hindex, hk, hlt, -⟩ := Value.replaceElement_eq_ok_iff.1 hreplace
      rcases assignVariable_cases name register updated frame with
        ⟨final, hwrite, -⟩ | ⟨i, rfl, -, hassign⟩
      · -- the variable can be written, so that nothing is missing after all
        refine absurd ⟨items, p, hread, ⟨k, hindex, hk⟩, hlt, ?_⟩ h
        rintro i rfl
        obtain ⟨registers, hstore, -⟩ := Option.map_eq_some_iff.1 hwrite
        exact Registers.lt_of_store? hstore
      · exact ⟨_, hassign⟩

end ReplaceIn

/-! ### Nodes -/

namespace Node

variable {policy : Policy} {rounds depth : Nat} {name : String} {register : Option Nat}
  {container position expression : Node} {start mid frame : Frame γ}

/-- A node that returns has been entered. -/
theorem admits_of_eval_eq_returned {n : Node} {value : Value}
    (h : n.eval policy rounds depth start = .returned value frame) : policy.Admits depth := by
  obtain ⟨kind, children, span⟩ := n
  rcases checkDepth_cases (γ := γ) policy depth with ⟨hadmits, -⟩ | ⟨limit, -, -, hrefused⟩
  · exact hadmits
  · rw [eval_mk] at h
    simp [Run.locatedAt, Run.bind_apply, Run.raise, hrefused] at h

/-- A variable evaluates to what it reads as. -/
theorem eval_variable (hkind : container.kind = .identifier name register)
    (hadmits : policy.Admits depth) {value : Value}
    (hread : frame.read? name register = some value) :
    container.eval policy rounds depth frame = .returned value frame := by
  obtain ⟨kind, children, span⟩ := container
  obtain rfl : kind = .identifier name register := hkind
  have hresolve : resolve policy name register frame = .returned value frame := by
    rw [resolve_apply, hread]
  rw [eval_mk, checkDepth_of_lt hadmits, Kind.evalRule, Run.locatedAt, Run.bind_apply,
    Run.pure_apply]
  dsimp only
  rw [hresolve]

/-- To assign to an element is to evaluate the index and then to replace the element. -/
theorem assign_element (hkind : container.kind = .identifier name register) (value : Value)
    (span : Option Span) :
    (assign policy rounds depth value ⟨.index, [container, position], span⟩ : Run γ Unit) =
      position.eval policy rounds depth >>= fun i => replaceIn policy name register i value := by
  obtain ⟨kind, children, place⟩ := container
  obtain rfl : kind = .identifier name register := hkind
  rw [assign_mk]
  rfl

/-- Once value and index are there, only the replacement is left. -/
private theorem eval_assign_element (hkind : container.kind = .identifier name register)
    {value index : Value}
    (hvalue : expression.eval policy rounds (depth + 1) start = .returned value mid)
    (hindex : position.eval policy rounds (depth + 1) mid = .returned index frame)
    (span span' : Option Span) :
    eval policy rounds depth ⟨.assign, [⟨.index, [container, position], span'⟩, expression], span⟩
        start =
      Run.locatedAt policy span
        (fun _ => (replaceIn policy name register index value >>= fun _ => pure value) frame)
        start := by
  have hadmits : policy.Admits depth := (admits_of_eval_eq_returned hvalue).of_succ
  rw [eval_mk, checkDepth_of_lt hadmits]
  simp only [List.map_cons, List.map_nil, Kind.evalRule, asChild, Run.locatedAt, Run.bind_apply,
    Run.pure_apply, hvalue, assign_element hkind, hindex]

section Array

variable {items : List Value}

/-- Reading an element of a variable, at a literal index. -/
private theorem eval_element (hkind : container.kind = .identifier name register)
    (hadmits : policy.Admits (depth + 1)) (hread : frame.read? name register = some (.array items))
    {j : Int64} {q : Nat} {item : Value} (hj : j.toInt = q) (hitem : items[q]? = some item)
    (span span' : Option Span) :
    eval policy rounds depth ⟨.index, [container, ⟨.literal (.int j), [], span'⟩], span⟩ frame =
      .returned item frame := by
  have hliteral : eval policy rounds (depth + 1) ⟨.literal (.int j), [], span'⟩ frame =
      .returned (.int j) frame := by
    rw [eval_mk, checkDepth_of_lt hadmits]
    rfl
  rw [eval_mk, checkDepth_of_lt hadmits.of_succ]
  simp only [List.map_cons, List.map_nil, Kind.evalRule, asChild, Run.locatedAt, Run.bind_apply,
    Run.pure_apply, eval_variable hkind hadmits hread, hliteral, Value.element_eq_ok hj hitem,
    Run.ofExcept]

/-- The size of a variable that holds an array. -/
private theorem eval_size (hkind : container.kind = .identifier name register)
    (hadmits : policy.Admits (depth + 1)) (hread : frame.read? name register = some (.array items))
    (span : Option Span) :
    eval policy rounds depth ⟨.size, [container], span⟩ frame =
      .returned (.ofLength items.length) frame := by
  rw [eval_mk, checkDepth_of_lt hadmits.of_succ]
  simp only [List.map_cons, List.map_nil, Kind.evalRule, asChild, Run.locatedAt, Run.bind_apply,
    Run.pure_apply, eval_variable hkind hadmits hread, Value.size, Run.ofExcept]

end Array

/-- **Assigning to an element is exact and atomic.** Let the value and then the index be evaluated,
which leads to `frame`. If the element is there, the assignment returns the value, and the frame it
leaves is `frame` with the container written: read at the index, the container gives the value, at
every other index what it gave before, and its size is the same. If the element is not there, the
assignment fails and leaves `frame`. -/
theorem assign_element_exact [LawfulContext γ]
    (hkind : container.kind = .identifier name register) {value index : Value}
    (hvalue : expression.eval policy rounds (depth + 1) start = .returned value mid)
    (hindex : position.eval policy rounds (depth + 1) mid = .returned index frame)
    (span span' : Option Span) :
    let n : Node := ⟨.assign, [⟨.index, [container, position], span'⟩, expression], span⟩
    (∀ items p, frame.HasElement name register index items p →
      ∃ final, n.eval policy rounds depth start = .returned value final ∧
        frame.write? name register (.array (items.set p value)) = some final ∧
        (∀ (j : Int64) (q : Nat) item place place', j.toInt = q → items[q]? = some item →
          eval policy rounds depth ⟨.index, [container, ⟨.literal (.int j), [], place'⟩], place⟩
            final = .returned (if q = p then value else item) final) ∧
        ∀ place, ∃ size,
          eval policy rounds depth ⟨.size, [container], place⟩ frame = .returned size frame ∧
          eval policy rounds depth ⟨.size, [container], place⟩ final = .returned size final) ∧
    ((¬ ∃ items p, frame.HasElement name register index items p) →
      ∃ failure, n.eval policy rounds depth start = .failed failure frame) := by
  intro n
  have heval := eval_assign_element hkind hvalue hindex span span'
  have hadmits : policy.Admits (depth + 1) := admits_of_eval_eq_returned hvalue
  constructor
  -- the element is there: the array is written back with one element changed
  · intro items p helement
    obtain ⟨final, hwrite, hreplace⟩ := helement.replaceIn policy value
    have hread := Frame.read?_write? hwrite
    refine ⟨final, ?_, hwrite, ?_, fun place => ⟨.ofLength items.length, ?_, ?_⟩⟩
    · rw [heval]
      simp only [Run.locatedAt, Run.bind_apply, Run.pure_apply, hreplace]
    · intro j q item place place' hj hitem
      refine eval_element hkind hadmits hread hj ?_ place place'
      -- at the index the new value, and elsewhere what was there before
      by_cases hq : q = p
      · subst hq
        simp [helement.lt_length]
      · simp [hq, Ne.symm hq, hitem]
    · exact eval_size hkind hadmits helement.array place
    · simpa using eval_size hkind hadmits hread place
  -- the element is not there: nothing has been written when this shows
  · intro hnone
    obtain ⟨fault, hreplace⟩ := replaceIn_of_not_hasElement hnone policy value
    rw [heval]
    simp only [Run.locatedAt, Run.bind_apply, hreplace]
    exact ⟨_, rfl⟩

/-- An array in a register. -/
def arrayVariable : Node := ⟨.identifier "xs" (some 0), [], none⟩

/-- A free variable, used as an index. -/
def indexVariable : Node := ⟨.identifier "i" none, [], none⟩

/-- Sets the index. -/
def setIndex (k : Int64) : Node :=
  ⟨.assign, [indexVariable, ⟨.literal (.int k), [], none⟩], none⟩

/-- Sets the index to `k`, and assigns `k` to the element there. -/
def replaceAt (k : Int64) : Node :=
  ⟨.assign, [⟨.index, [arrayVariable, indexVariable], none⟩, setIndex k], none⟩

/-- The register of the array is unresolved, so that the array is found in the context. -/
def twoElements (k : Int64) : Frame Variables :=
  ⟨.bind ["xs"] [], .ofList [("i", .int k), ("xs", .array [.int 5, .int 6])]⟩

/-- The index is read after the value has set it. If the element is there, the array is read from
the context and written to the slot, and the context keeps its own. If it is not, the index still
keeps what the value has set. -/
theorem assign_element_exact_replaceAt :
    (∃ final, (replaceAt 1).eval {} 0 0 (twoElements 0) = .returned (.int 1) final ∧
      final.registers.get? 0 = some (.array [.int 5, .int 1]) ∧
      Context.get final.context "xs" = some (.array [.int 5, .int 6]) ∧
      eval {} 0 0 ⟨.index, [arrayVariable, ⟨.literal (.int 0), [], none⟩], none⟩ final =
        .returned (.int 5) final) ∧
    ∃ failure, (replaceAt 2).eval {} 0 0 (twoElements 0) = .failed failure (twoElements 2) := by
  have hkind : arrayVariable.kind = .identifier "xs" (some 0) := rfl
  have hvalue (k : Int64) :
      (setIndex k).eval {} 0 1 (twoElements 0) = .returned (.int k) (twoElements k) := rfl
  have hindex (k : Int64) :
      indexVariable.eval {} 0 1 (twoElements k) = .returned (.int k) (twoElements k) := rfl
  constructor
  · have helement : (twoElements 1).HasElement "xs" (some 0) (.int 1) [.int 5, .int 6] 1 :=
      ⟨rfl, ⟨1, rfl, rfl⟩, by decide, by simp [twoElements]⟩
    obtain ⟨final, heval, hwrite, hread, -⟩ :=
      (assign_element_exact hkind (hvalue 1) (hindex 1) none none).1 _ _ helement
    cases hwrite
    exact ⟨_, heval, rfl, rfl, hread 0 0 (.int 5) none none rfl rfl⟩
  · refine (assign_element_exact hkind (hvalue 2) (hindex 2) none none).2 ?_
    rintro ⟨items, p, ⟨⟨⟩⟩, ⟨k, ⟨⟩, hk⟩, hlt, -⟩
    have htwo : (2 : Int64).toInt = 2 := rfl
    simp only [List.length_cons, List.length_nil] at hlt
    omega

end Node

end Scriptlet
