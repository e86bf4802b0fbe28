import Mathlib.Algebra.Order.Ring.Int
import Scriptlet.Proofs.Evaluation.Endings
import Scriptlet.Proofs.Evaluation.Parts

/-!
# Integer arithmetic is exact or refused

A tree of integer literals, arithmetic operators and signs has a value over unbounded integers,
unless it divides by zero. Evaluation has only 64 bits for each intermediate result. It never makes
up for that by wrapping around: what it returns is the exact value, and where it fails, the operands
are still exact and the operation cannot be done.

* `ArithmeticOp.exact`, `Node.meaning?` — the meaning over unbounded integers;
* `ArithmeticOp.Refuses`, `Node.Refused` — why an operation with exact operands is not done;
* `ArithmeticOp.onIntegers_cases`, `UnaryOp.negate_cases` — one operation;
* `Node.postorder` — the nodes in the order in which their operations are done;
* `Node.IsArithmetic.computes_or_stops` — a tree computes throughout, or stops at one node;
* `Node.interpret_arithmetic` — a whole run.

A remainder of the least integer by minus one would be zero, which fits. It is refused all the same,
because the quotient does not fit.
-/

namespace Scriptlet

/-! ### Bounds -/

namespace Number

/-- The integer is one of the 64-bit integers. -/
def Fits (n : Int) : Prop := -2 ^ 63 ≤ n ∧ n ≤ 2 ^ 63 - 1

private theorem fits_toInt (a : Int64) : Fits a.toInt :=
  ⟨a.minValue_le_toInt, a.toInt_le⟩

/-- A result is kept exactly if it fits, and then as it is. -/
private theorem fit?_cases (n : Int) :
    (∃ k : Int64, fit? n = some k ∧ k.toInt = n ∧ Fits n) ∨ fit? n = none ∧ ¬ Fits n := by
  cases h : fit? n with
  | some k =>
    obtain rfl := fit?_eq_some_iff.1 h
    exact .inl ⟨k, rfl, rfl, fits_toInt k⟩
  | none =>
    refine .inr ⟨rfl, fun hfits => ?_⟩
    rw [fit?, if_pos (show Int64.minValue.toInt ≤ n ∧ n ≤ Int64.maxValue.toInt from hfits)] at h
    cases h

/-- A quotient fits, but for that of the least integer by minus one. -/
private theorem fits_tdiv {a b : Int} (ha : Fits a) (h : ¬ (a = -2 ^ 63 ∧ b = -1)) :
    Fits (a.tdiv b) := by
  unfold Fits at ha ⊢
  by_cases hb : b = -1
  · subst hb
    rw [Int.tdiv_neg, Int.tdiv_one]
    omega
  · -- a divisor of two or more at least halves the dividend, and one of one or zero keeps its sign
    by_cases hle : b.natAbs ≤ 1
    · have hcases : b = 0 ∨ b = 1 := by omega
      rcases hcases with rfl | rfl
      · rw [Int.tdiv_zero]
        omega
      · rw [Int.tdiv_one]
        omega
    · have hhalf : (a.tdiv b).natAbs ≤ a.natAbs / 2 := by
        rw [Int.natAbs_tdiv]
        exact Nat.div_le_div_left (by omega) (by decide)
      omega

end Number

/-! ### One operation -/

/-- The arithmetic operator, if the operator is one. -/
def BinaryOp.arithmetic? : BinaryOp → Option ArithmeticOp
  | add => some .add
  | sub => some .sub
  | mul => some .mul
  | div => some .div
  | mod => some .mod
  | _ => none

namespace ArithmeticOp

/-- What the operator makes of two integers when nothing limits their size. Quotients are truncated
toward zero, so that a remainder has the sign of the dividend; a divisor of zero has neither. -/
def exact (a b : Int) : ArithmeticOp → Option Int
  | add => some (a + b)
  | sub => some (a - b)
  | mul => some (a * b)
  | div => if b = 0 then none else some (a.tdiv b)
  | mod => if b = 0 then none else some (a.tmod b)

/-- The operation, as the message of an overflow names it. -/
def title : ArithmeticOp → String
  | add => "addition"
  | sub => "subtraction"
  | mul => "multiplication"
  | div => "division"
  | mod => "remainder"

/-- **Why an operator refuses two integers.** -/
inductive Refuses : ArithmeticOp → Int → Int → Fault → Prop where
  | quotient (a : Int) : Refuses div a 0 .divisionByZero
  | remainder (a : Int) : Refuses mod a 0 .moduloByZero
  | range {op : ArithmeticOp} {a b n : Int} (exact_eq : op.exact a b = some n)
      (outside : ¬ Number.Fits n) : Refuses op a b (.overflow op.title)
  | least : Refuses mod (-2 ^ 63) (-1) (.overflow mod.title)

private theorem apply_toBinary (op : ArithmeticOp) (a b : Int64) :
    op.toBinary.apply (.int a) (.int b) = op.onIntegers a b := by
  cases op <;> rfl

private theorem arithmetic?_toBinary (op : ArithmeticOp) : op.toBinary.arithmetic? = some op := by
  cases op <;> rfl

private theorem toBinary_inj {op op' : ArithmeticOp} (h : op.toBinary = op'.toBinary) :
    op = op' := by
  rw [← Option.some.injEq, ← arithmetic?_toBinary, ← arithmetic?_toBinary, h]

private theorem isSettled_toBinary (op : ArithmeticOp) (left : Value) :
    op.toBinary.isSettled left = false := by
  cases op <;> rfl

/-- What is refused has no 64-bit value, or is that one remainder. -/
theorem Refuses.not_fits {op : ArithmeticOp} {a b n : Int} {fault : Fault}
    (h : op.Refuses a b fault) (hexact : op.exact a b = some n) (hfits : Number.Fits n) :
    op = mod ∧ a = -2 ^ 63 ∧ b = -1 := by
  cases h with
  | quotient | remainder => simp [exact] at hexact
  | range hexact' houtside =>
    cases hexact.symm.trans hexact'
    exact absurd hfits houtside
  | least => exact ⟨rfl, rfl, rfl⟩

/-- A checked result is the exact one, or an overflow because that does not fit. -/
private theorem checked_cases (op : ArithmeticOp) {a b n : Int} (hexact : op.exact a b = some n)
    (hleast : ¬ (op = mod ∧ a = -2 ^ 63 ∧ b = -1)) :
    (∃ k : Int64, checked op.title (Number.fit? n) = .ok (.int k) ∧
      op.exact a b = some k.toInt ∧ ∀ fault, ¬ op.Refuses a b fault) ∨
    ∃ fault, checked op.title (Number.fit? n) = .error fault ∧ op.Refuses a b fault := by
  rcases Number.fit?_cases n with ⟨k, hfit, rfl, hfits⟩ | ⟨hfit, hfits⟩
  · rw [hfit]
    exact .inl ⟨k, rfl, hexact, fun fault hrefuses => hleast (hrefuses.not_fits hexact hfits)⟩
  · rw [hfit]
    exact .inr ⟨_, rfl, .range hexact hfits⟩

/-- **One operation** gives the exact result or is refused for a reason, never both. -/
theorem onIntegers_cases (op : ArithmeticOp) (a b : Int64) :
    (∃ k : Int64, op.onIntegers a b = .ok (.int k) ∧
      op.exact a.toInt b.toInt = some k.toInt ∧ ∀ fault, ¬ op.Refuses a.toInt b.toInt fault) ∨
    ∃ fault, op.onIntegers a b = .error fault ∧ op.Refuses a.toInt b.toInt fault := by
  have hzero : b.toInt = 0 ↔ b = 0 := by rw [← Int64.toInt_zero, Int64.toInt_inj]
  cases op with
  | add => exact checked_cases add rfl (by simp)
  | sub => exact checked_cases sub rfl (by simp)
  | mul => exact checked_cases mul rfl (by simp)
  | div =>
    rw [onIntegers]
    by_cases hb : b = 0
    · subst hb
      exact .inr ⟨_, if_pos rfl, .quotient a.toInt⟩
    · rw [if_neg hb]
      exact checked_cases div (if_neg (mt hzero.1 hb)) (by simp)
  | mod =>
    rw [onIntegers]
    by_cases hb : b = 0
    · subst hb
      exact .inr ⟨_, if_pos rfl, .remainder a.toInt⟩
    rw [if_neg hb]
    have hexact : mod.exact a.toInt b.toInt = some (a.toInt.tmod b.toInt) := if_neg (mt hzero.1 hb)
    by_cases hleast : a.toInt = -2 ^ 63 ∧ b.toInt = -1
    · -- the quotient is the one that does not fit
      have hquot : Number.quot? a b = none := by
        rw [Number.quot?, hleast.1, hleast.2]
        rfl
      rw [Number.rem?, hquot, hleast.1, hleast.2]
      exact .inr ⟨_, rfl, .least⟩
    · -- the quotient fits, so that the remainder alone decides
      obtain ⟨q, hquot⟩ : ∃ q, Number.quot? a b = some q := by
        rcases Number.fit?_cases (a.toInt.tdiv b.toInt) with ⟨q, hfit, -⟩ | ⟨-, hfits⟩
        · exact ⟨q, hfit⟩
        · exact absurd (Number.fits_tdiv (Number.fits_toInt a) hleast) hfits
      rw [Number.rem?, hquot]
      exact checked_cases mod hexact fun h => hleast h.2

end ArithmeticOp

/-- **Negation** gives the exact result, or is refused because that does not fit. -/
theorem UnaryOp.negate_cases (a : Int64) :
    (∃ k : Int64, neg.apply (.int a) = .ok (.int k) ∧ k.toInt = -a.toInt ∧
      Number.Fits (-a.toInt)) ∨
    neg.apply (.int a) = .error (.overflow "negation") ∧ ¬ Number.Fits (-a.toInt) := by
  rw [apply, Number.neg?]
  rcases Number.fit?_cases (-a.toInt) with ⟨k, hfit, hk, hfits⟩ | ⟨hfit, hfits⟩
  · rw [hfit]
    exact .inl ⟨k, rfl, hk, hfits⟩
  · rw [hfit]
    exact .inr ⟨rfl, hfits⟩

/-! ### Trees -/

namespace Node

/-- **Trees of integer arithmetic**: literals, signs and the five operators, each with as many
children as it takes. -/
inductive IsArithmetic : Node → Prop where
  | literal (n : Int64) (span : Option Span) : IsArithmetic ⟨.literal (.int n), [], span⟩
  | negation {operand : Node} (span : Option Span) (inner : operand.IsArithmetic) :
      IsArithmetic ⟨.unary .neg, [operand], span⟩
  | operation (op : ArithmeticOp) {left right : Node} (span : Option Span)
      (left_inner : left.IsArithmetic) (right_inner : right.IsArithmetic) :
      IsArithmetic ⟨.binary op.toBinary, [left, right], span⟩

/-- The value of the tree over unbounded integers, if it has one. -/
def meaning? : Node → Option Int
  | ⟨.literal (.int n), _, _⟩ => some n.toInt
  | ⟨.unary .neg, [operand], _⟩ => do
    let a ← operand.meaning?
    return -a
  | ⟨.binary op, [left, right], _⟩ => do
    let op ← op.arithmetic?
    let a ← left.meaning?
    let b ← right.meaning?
    op.exact a b
  | _ => none

/-- **Why the operation of a node is refused**, in terms of the exact values of its operands. -/
inductive Refused : Node → Fault → Prop where
  | negation {operand : Node} {span : Option Span} {a : Int}
      (operand_eq : operand.meaning? = some a) (outside : ¬ Number.Fits (-a)) :
      Refused ⟨.unary .neg, [operand], span⟩ (.overflow "negation")
  | operation {op : ArithmeticOp} {left right : Node} {span : Option Span} {a b : Int}
      {fault : Fault} (left_eq : left.meaning? = some a) (right_eq : right.meaning? = some b)
      (refuses : op.Refuses a b fault) : Refused ⟨.binary op.toBinary, [left, right], span⟩ fault

mutual

/-- The nodes in the order in which evaluation is done with them: those of each child before those
of the next, and all of them before the node itself. -/
def postorder : Node → List Node
  | ⟨kind, children, span⟩ => postorderAll children ++ [⟨kind, children, span⟩]

/-- The same for a sequence of trees. -/
def postorderAll : List Node → List Node
  | [] => []
  | n :: ns => n.postorder ++ postorderAll ns

end

private theorem mem_postorder_self (n : Node) : n ∈ n.postorder := by
  obtain ⟨kind, children, span⟩ := n
  rw [postorder]
  exact List.mem_append_right _ List.mem_cons_self

private theorem postorder_unary (kind : Kind) (operand : Node) (span : Option Span) :
    postorder ⟨kind, [operand], span⟩ = operand.postorder ++ [⟨kind, [operand], span⟩] := by
  rw [postorder, postorderAll, postorderAll, List.append_nil]

private theorem postorder_binary (kind : Kind) (left right : Node) (span : Option Span) :
    postorder ⟨kind, [left, right], span⟩ =
      left.postorder ++ (right.postorder ++ [⟨kind, [left, right], span⟩]) := by
  rw [postorder, postorderAll, postorderAll, postorderAll, List.append_nil, List.append_assoc]

/-- The exact value of an operation is that of the operator on the exact values of the operands. -/
private theorem meaning?_operation (op : ArithmeticOp) {left right : Node} {span : Option Span}
    {a b : Int} (hleft : left.meaning? = some a) (hright : right.meaning? = some b) :
    meaning? ⟨.binary op.toBinary, [left, right], span⟩ = op.exact a b := by
  rw [meaning?, op.arithmetic?_toBinary, hleft, hright]
  rfl

private theorem meaning?_negation {operand : Node} {span : Option Span} {a : Int}
    (h : operand.meaning? = some a) : meaning? ⟨.unary .neg, [operand], span⟩ = some (-a) := by
  rw [meaning?, h]
  rfl

private theorem Refused.of_negation {operand : Node} {span : Option Span} {a : Int} {fault : Fault}
    (h : Refused ⟨.unary .neg, [operand], span⟩ fault) (hexact : operand.meaning? = some a) :
    ¬ Number.Fits (-a) := by
  cases h with
  | negation hexact' houtside =>
    cases hexact.symm.trans hexact'
    exact houtside

private theorem Refused.of_operation {op : ArithmeticOp} {left right : Node} {span : Option Span}
    {a b : Int} {fault : Fault} (h : Refused ⟨.binary op.toBinary, [left, right], span⟩ fault)
    (hleft : left.meaning? = some a) (hright : right.meaning? = some b) : op.Refuses a b fault := by
  -- the two operators are equal as symbols first, and then as arithmetic operators
  generalize hop : op.toBinary = symbol at h
  cases h with
  | operation hleft' hright' hrefuses =>
    cases ArithmeticOp.toBinary_inj hop
    cases hleft.symm.trans hleft'
    cases hright.symm.trans hright'
    exact hrefuses

/-! ### The order of evaluation -/

variable {γ : Type} [Context γ] {policy : Policy}

/-- **A node computes** its exact value: nothing speaks against its operation, and wherever it
stands it returns that value and leaves the frame as it is. -/
structure Computes (γ : Type) [Context γ] (policy : Policy) (n : Node) (k : Int64) : Prop where
  exact : n.meaning? = some k.toInt
  not_refused : ∀ fault, ¬ n.Refused fault
  returns : ∀ rounds depth (frame : Frame γ),
    n.eval policy rounds depth frame = .returned (.int k) frame

/-- **Evaluation stops** at a node, which is refused. All nodes before it compute, its operands
among them, and the whole tree fails with its fault. -/
structure StopsAt (γ : Type) [Context γ] (policy : Policy) (n m : Node) (fault : Fault) :
    Prop where
  order : ∃ before after, n.postorder = before ++ m :: after ∧
    ∀ p ∈ before ++ m.children, ∃ k, p.Computes γ policy k
  refused : m.Refused fault
  fails : ∀ rounds depth (frame : Frame γ), ∃ failure : Failure, failure.fault = fault ∧
    n.eval policy rounds depth frame = .failed failure frame

/-- A node that computes ends with its number and leaves the frame as it is. -/
theorem Computes.ends {n : Node} {k : Int64} (h : n.Computes γ policy k) (frame : Frame γ) :
    n.Ends policy frame (.returned (.int k) frame) :=
  ⟨nofun, 0, h.returns 0 0 frame⟩

private theorem computes_literal (hdepth : policy.depthLimit = none) (n : Int64)
    (span : Option Span) :
    Computes γ policy ⟨.literal (.int n), [], span⟩ n where
  exact := by rw [meaning?]
  not_refused := by
    rintro fault ⟨⟩
  returns rounds depth frame := by
    rw [eval_mk, checkDepth, hdepth]
    rfl

/-- A negation computes if its operand does and the result fits. -/
private theorem Computes.negation (hdepth : policy.depthLimit = none) {operand : Node} {a k : Int64}
    (h : operand.Computes γ policy a) (span : Option Span)
    (hnegate : UnaryOp.neg.apply (.int a) = .ok (.int k)) (hk : k.toInt = -a.toInt)
    (hfits : Number.Fits (-a.toInt)) : Computes γ policy ⟨.unary .neg, [operand], span⟩ k where
  exact := by rw [meaning?_negation h.exact, hk]
  not_refused fault hrefused := hrefused.of_negation h.exact hfits
  returns rounds depth frame := by
    rw [eval_mk, checkDepth, hdepth]
    simp only [List.map_cons, List.map_nil, Kind.evalRule, asChild, Run.locatedAt, Run.bind_apply,
      Run.pure_apply, h.returns, hnegate, Run.ofExcept]

/-- An arithmetic operator needs both its operands. -/
private theorem eval_operation (rounds depth : Nat) (op : ArithmeticOp) (left right : Node)
    (span : Option Span) :
    (eval policy rounds depth ⟨.binary op.toBinary, [left, right], span⟩ : Run γ Value) =
      Run.locatedAt policy span (checkDepth policy depth >>= fun _ =>
        left.eval policy rounds (depth + 1) >>= fun l =>
          right.eval policy rounds (depth + 1) >>= fun r =>
            Run.ofExcept (op.toBinary.apply l r)) := by
  rw [eval_mk]
  cases op <;> rfl

/-- An operation computes if its operands do and its result fits. -/
private theorem Computes.operation (hdepth : policy.depthLimit = none) {op : ArithmeticOp}
    {left right : Node} {a b k : Int64} (hleft : left.Computes γ policy a)
    (hright : right.Computes γ policy b) (span : Option Span)
    (happly : op.onIntegers a b = .ok (.int k)) (hexact : op.exact a.toInt b.toInt = some k.toInt)
    (hfine : ∀ fault, ¬ op.Refuses a.toInt b.toInt fault) :
    Computes γ policy ⟨.binary op.toBinary, [left, right], span⟩ k where
  exact := by rw [meaning?_operation op hleft.exact hright.exact, hexact]
  not_refused fault hrefused := hfine fault (hrefused.of_operation hleft.exact hright.exact)
  returns rounds depth frame := by
    rw [eval_operation, checkDepth, hdepth]
    simp only [Run.locatedAt, Run.bind_apply, Run.pure_apply, hleft.returns, hright.returns,
      op.apply_toBinary, happly, Run.ofExcept]

/-- **A node stops where a part of it stops**, if what comes before that part computes. -/
private theorem StopsAt.outwards (hdepth : policy.depthLimit = none) {n part m : Node}
    {fault : Fault} (h : part.StopsAt γ policy m fault) (front : List Node) {rest : List Node}
    (horder : n.postorder = front ++ (part.postorder ++ rest))
    (hfront : ∀ p ∈ front, ∃ k, p.Computes γ policy k)
    (hevaluates : ∀ rounds depth (frame : Frame γ),
      n.Evaluates policy rounds depth frame part frame) : n.StopsAt γ policy m fault := by
  obtain ⟨before, after, hpart, hbefore⟩ := h.order
  refine ⟨⟨front ++ before, after ++ rest, ?_, ?_⟩, h.refused, fun rounds depth frame => ?_⟩
  · rw [horder, hpart]
    simp only [List.append_assoc, List.cons_append]
  · intro p hp
    rw [List.append_assoc, List.mem_append] at hp
    rcases hp with hp | hp
    · exact hfront p hp
    · exact hbefore p hp
  · obtain ⟨failure, rfl, hfail⟩ := h.fails rounds (depth + 1) frame
    exact ⟨_, failure.fault_placed policy n.span,
      (hevaluates _ _ _).eval (Policy.admits_of_unlimited hdepth depth) hfail⟩

/-- **A node stops at itself** if its operands compute and it is refused. -/
private theorem stopsAt_self (hdepth : policy.depthLimit = none) {n : Node} {fault : Fault}
    (front : List Node) (horder : n.postorder = front ++ [n])
    (hfront : ∀ p ∈ front ++ n.children, ∃ k, p.Computes γ policy k) (hrefused : n.Refused fault)
    (hbreaks : ∀ rounds depth (frame : Frame γ),
      n.Breaks policy rounds depth frame fault frame) : n.StopsAt γ policy n fault := by
  refine ⟨⟨front, [], horder, hfront⟩, hrefused, fun rounds depth frame => ?_⟩
  exact ⟨_, Failure.fault_placed _ policy n.span,
    (hbreaks _ _ _).eval (Policy.admits_of_unlimited hdepth depth)⟩

/-- **A tree computes throughout, or stops at one node.** The induction follows the tree: an
operator comes to its right operand only after all of the left one has computed, and to itself only
after both have. -/
theorem IsArithmetic.computes_or_stops (hdepth : policy.depthLimit = none) {n : Node}
    (h : n.IsArithmetic) :
    (∀ m ∈ n.postorder, ∃ k, m.Computes γ policy k) ∨
      ∃ m fault, n.StopsAt γ policy m fault := by
  induction h with
  | literal n span =>
    left
    intro m hm
    rw [postorder, postorderAll, List.nil_append, List.mem_singleton] at hm
    subst hm
    exact ⟨n, computes_literal hdepth n span⟩
  | @negation operand span _ ih =>
    have horder := postorder_unary (.unary .neg) operand span
    rcases ih with hoperand | ⟨m, fault, hstops⟩
    · -- the operand is exact, so that the sign itself decides
      obtain ⟨a, ha⟩ := hoperand operand operand.mem_postorder_self
      rcases UnaryOp.negate_cases a with ⟨k, hnegate, hk, hfits⟩ | ⟨hnegate, hfits⟩
      · left
        rw [horder, List.forall_mem_append, List.forall_mem_singleton]
        exact ⟨hoperand, k, ha.negation hdepth span hnegate hk hfits⟩
      · refine .inr ⟨_, _, stopsAt_self hdepth _ horder ?_ (.negation ha.exact hfits)
          fun rounds depth frame => .unary (ha.returns rounds depth frame) hnegate⟩
        rw [List.forall_mem_append, List.forall_mem_singleton]
        exact ⟨hoperand, a, ha⟩
    · exact .inr ⟨m, fault, hstops.outwards hdepth [] horder nofun fun _ _ _ => .operand⟩
  | @operation op left right span _ _ ihleft ihright =>
    have horder := postorder_binary (.binary op.toBinary) left right span
    rcases ihleft with hleft | ⟨m, fault, hstops⟩
    · obtain ⟨a, ha⟩ := hleft left left.mem_postorder_self
      rcases ihright with hright | ⟨m, fault, hstops⟩
      · -- both operands are exact, so that the operation itself decides
        obtain ⟨b, hb⟩ := hright right right.mem_postorder_self
        rcases op.onIntegers_cases a b with ⟨k, happly, hexact, hfine⟩ | ⟨fault, happly, hrefuses⟩
        · left
          rw [horder, List.forall_mem_append, List.forall_mem_append, List.forall_mem_singleton]
          exact ⟨hleft, hright, k, ha.operation hdepth hb span happly hexact hfine⟩
        · refine .inr ⟨_, fault, stopsAt_self hdepth (left.postorder ++ right.postorder) ?_
            ?_ (.operation ha.exact hb.exact hrefuses) fun rounds depth frame => ?_⟩
          · rw [horder, List.append_assoc]
          · simp only [List.forall_mem_append, List.forall_mem_cons]
            exact ⟨⟨hleft, hright⟩, ⟨a, ha⟩, ⟨b, hb⟩, nofun⟩
          · exact .binary (ha.returns rounds depth frame) (op.isSettled_toBinary _)
              (hb.returns rounds depth frame) ((op.apply_toBinary a b).trans happly)
      · -- an arithmetic operator is never settled by its left operand, so the right one is reached
        refine .inr ⟨m, fault, hstops.outwards hdepth _ horder hleft fun rounds depth frame => ?_⟩
        exact .right (ha.returns rounds depth frame) (op.isSettled_toBinary _)
    · exact .inr ⟨m, fault, hstops.outwards hdepth [] horder nofun fun _ _ _ => .left⟩

/-- **Integer arithmetic is never silently wrong.** Under a policy that does not limit the depth, a
tree of integer arithmetic ends, and leaves the frame as it is. If it returns, it returns its value
over unbounded integers. If it fails, there is a first node in the order of evaluation that is
refused: all nodes before it, and its operands, return their exact values, and with these its
operation has a divisor of zero, a result that does not fit into 64 bits, or is the remainder of the
least integer by minus one. The tree returns exactly if no node is refused. -/
theorem interpret_arithmetic {n : Node} (h : n.IsArithmetic) (hdepth : policy.depthLimit = none)
    (frame : Frame γ) :
    (∀ value final, n.Ends policy frame (.returned value final) →
      final = frame ∧ ∃ k : Int64, value = .int k ∧ n.meaning? = some k.toInt) ∧
    (∀ failure final, n.Ends policy frame (.failed failure final) →
      final = frame ∧ ∃ before m after, n.postorder = before ++ m :: after ∧
        (∀ p ∈ before ++ m.children, ∃ k : Int64, p.meaning? = some k.toInt ∧
          p.Ends policy frame (.returned (.int k) frame)) ∧
        m.Refused failure.fault) ∧
    ((∃ k, n.Ends policy frame (.returned (.int k) frame)) ↔
      ∀ m ∈ n.postorder, ∀ fault, ¬ m.Refused fault) ∧
    ¬ n.Diverges policy frame := by
  rcases h.computes_or_stops (γ := γ) hdepth with hcomputes | ⟨m, fault, hstops⟩
  -- every node computes, and the root with the others
  · obtain ⟨k, hk⟩ := hcomputes n n.mem_postorder_self
    have hends := hk.ends frame
    refine ⟨?_, ?_, ⟨fun _ p hp => ?_, fun _ => ⟨k, hends⟩⟩, hends.not_diverges⟩
    · intro value final hreturned
      cases hends.unique hreturned
      exact ⟨rfl, k, rfl, hk.exact⟩
    · intro failure final hfailed
      cases hends.unique hfailed
    · obtain ⟨_, hp⟩ := hcomputes p hp
      exact hp.not_refused
  -- the first node that is refused stops the run, and those before it have computed
  · obtain ⟨before, after, horder, hbefore⟩ := hstops.order
    obtain ⟨failure, rfl, hfail⟩ := hstops.fails 0 0 frame
    have hends : n.Ends policy frame (.failed failure frame) := ⟨nofun, 0, hfail⟩
    refine ⟨?_, ?_, ⟨?_, fun hfine => ?_⟩, hends.not_diverges⟩
    · intro value final hreturned
      cases hends.unique hreturned
    · intro failure' final hfailed
      cases hends.unique hfailed
      refine ⟨rfl, before, m, after, horder, fun p hp => ?_, hstops.refused⟩
      obtain ⟨k, hk⟩ := hbefore p hp
      exact ⟨k, hk.exact, hk.ends frame⟩
    · rintro ⟨k, hreturned⟩
      cases hends.unique hreturned
    · have hm : m ∈ n.postorder := by
        rw [horder]
        exact List.mem_append_right _ List.mem_cons_self
      exact absurd hstops.refused (hfine m hm failure.fault)

/-- The remainder of the least integer by the given one, plus a division by zero. -/
def leastRemainder (divisor : Int64) : Node :=
  let literal (n : Int64) : Node := ⟨.literal (.int n), [], none⟩
  ⟨.binary .add, [⟨.binary .mod, [literal Int64.minValue, literal divisor], none⟩,
    ⟨.binary .div, [literal 1, literal 0], none⟩], none⟩

/-- By minus one it is the remainder that is refused, though it would be zero; by two evaluation
gets as far as the division. -/
theorem interpret_arithmetic_leastRemainder :
    (leastRemainder (-1)).Ends {} ⟨.empty, Variables.empty⟩
      (.failed ⟨.overflow "remainder", none⟩ ⟨.empty, Variables.empty⟩) ∧
    (∃ before m after, (leastRemainder (-1)).postorder = before ++ m :: after ∧
      m.Refused (.overflow "remainder")) ∧
    (leastRemainder 2).Ends {} ⟨.empty, Variables.empty⟩
      (.failed ⟨.divisionByZero, none⟩ ⟨.empty, Variables.empty⟩) ∧
    ∃ before m after, (leastRemainder 2).postorder = before ++ m :: after ∧
      m.Refused .divisionByZero := by
  have harithmetic (divisor : Int64) : (leastRemainder divisor).IsArithmetic :=
    .operation .add none (.operation .mod none (.literal _ none) (.literal _ none))
      (.operation .div none (.literal _ none) (.literal _ none))
  have hleast : (leastRemainder (-1)).Ends {} ⟨.empty, Variables.empty⟩
      (.failed ⟨.overflow "remainder", none⟩ ⟨.empty, Variables.empty⟩) := ⟨nofun, 0, rfl⟩
  have htwo : (leastRemainder 2).Ends {} ⟨.empty, Variables.empty⟩
      (.failed ⟨.divisionByZero, none⟩ ⟨.empty, Variables.empty⟩) := ⟨nofun, 0, rfl⟩
  refine ⟨hleast, ?_, htwo, ?_⟩
  · obtain ⟨-, before, m, after, horder, -, hrefused⟩ :=
      (interpret_arithmetic (harithmetic (-1)) rfl ⟨.empty, Variables.empty⟩).2.1 _ _ hleast
    exact ⟨before, m, after, horder, hrefused⟩
  · obtain ⟨-, before, m, after, horder, -, hrefused⟩ :=
      (interpret_arithmetic (harithmetic 2) rfl ⟨.empty, Variables.empty⟩).2.1 _ _ htwo
    exact ⟨before, m, after, horder, hrefused⟩

end Node

end Scriptlet
