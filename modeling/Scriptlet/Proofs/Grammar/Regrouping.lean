import Scriptlet.Proofs.Grammar.Expressions

/-!
# Reading what was written

Rendering has two levels where the grammar has one: it takes a comparison to be looser than a sum,
while the grammar reads both from left to right. Of `a < (b + c)` rendering writes `a < b + c`, and
the grammar reads `(a < b) + c`. So what is read may be grouped otherwise than what was written, and
this module says how.

* `Expr.regroup` — the expression that is read where one is written;
* `Expr.Faithful` — no sum stands to the right of a comparison;
* `Expr.regroup_of_faithful`, `Expr.Describes.faithful_of_unlocated_eq` — exactly then the
  expression is read as it was written;
* `Expr.exists_derives` — the words of an expression are derived, with the regrouped tree.
-/

namespace Scriptlet

/-- A comparison whose right operand is a sum or a difference. -/
def Node.IsLessOverSum (n : Node) : Prop :=
  n.kind = .binary .lt ∧
    ∃ l r, n.children = [l, r] ∧ (r.kind = .binary .add ∨ r.kind = .binary .sub)

namespace Grammar

/-! ### Regrouping -/

namespace Expr

/-- The comparison of what stands before, if anything does, with the expression. -/
def attach : Option Expr → Expr → Expr
  | none, e => e
  | some left, e => binary .less left e

/-- The expression that is read if this one is written behind `left` and a comparison sign, where it
needs parentheses only if it is a comparison itself. A sum gives its first operand away. -/
def regroupFrom (left : Option Expr) : Expr → Expr
  | leaf word operand => attach left (leaf word operand)
  | neg e => attach left (neg (regroupFrom none e))
  | binary .plus l r => binary .plus (regroupFrom left l) (regroupFrom none r)
  | binary .minus l r => binary .minus (regroupFrom left l) (regroupFrom none r)
  | binary .less l r => attach left (regroupFrom (some (regroupFrom none l)) r)
  | binary .times l r => attach left (binary .times (regroupFrom none l) (regroupFrom none r))
  | binary .slash l r => attach left (binary .slash (regroupFrom none l) (regroupFrom none r))

/-- The expression that is read where this one is written. -/
def regroup (e : Expr) : Expr := regroupFrom none e

/-- Whether the expression is a sum or a difference. -/
def isSum : Expr → Bool
  | binary .plus _ _ | binary .minus _ _ => true
  | _ => false

/-- No sum stands to the right of a comparison. -/
def Faithful : Expr → Prop
  | leaf .. => True
  | neg e => e.Faithful
  | binary symbol l r => (symbol = .less → r.isSum = false) ∧ l.Faithful ∧ r.Faithful

/-- Only a sum gives anything away. -/
private theorem regroupFrom_of_not_isSum {e : Expr} (h : e.isSum = false) (left : Option Expr) :
    e.regroupFrom left = attach left e.regroup := by
  cases e with
  | leaf word operand => rfl
  | neg e => rfl
  | binary symbol l r =>
    cases symbol with
    | plus => cases h
    | minus => cases h
    | _ => rfl

/-- Unless a comparison meets a sum, the operands are regrouped on their own. -/
private theorem regroup_binary {symbol : Symbol} {r : Expr} (h : symbol = .less → r.isSum = false)
    (l : Expr) : (binary symbol l r).regroup = binary symbol l.regroup r.regroup := by
  cases symbol with
  | less => exact regroupFrom_of_not_isSum (h rfl) (some l.regroup)
  | _ => rfl

/-- A comparison that meets a sum becomes one of its operands. -/
private theorem regroup_less_of_isSum {r : Expr} (h : r.isSum) (l : Expr) :
    ∃ symbol a b, symbol.operator ≠ .lt ∧ (binary .less l r).regroup = binary symbol a b := by
  cases r with
  | leaf word operand => cases h
  | neg e => cases h
  | binary symbol a b =>
    refine ⟨symbol, a.regroupFrom (some l.regroup), b.regroup, ?_⟩
    cases symbol with
    | plus => exact ⟨by decide, rfl⟩
    | minus => exact ⟨by decide, rfl⟩
    | _ => cases h

/-- **A faithful expression is read as it was written.** -/
theorem regroup_of_faithful {e : Expr} (h : e.Faithful) : e.regroup = e := by
  induction e with
  | leaf word operand => rfl
  | neg e ih => exact congrArg neg (ih h)
  | binary symbol l r ihl ihr =>
    obtain ⟨hsum, hl, hr⟩ := h
    rw [regroup_binary hsum, ihl hl, ihr hr]

end Expr

section Describes

variable {source text : String} {registers registers' : List String} {e : Expr} {n n' : Node}

/-- A node over two operands is described through them. -/
private theorem Expr.Describes.children_eq {symbol symbol' : Symbol} {l r l' r' : Expr}
    (h : (Expr.binary symbol l r).Describes source registers n)
    (h' : (Expr.binary symbol' l' r').Describes text registers' n')
    (heq : n'.unlocated = n.unlocated) :
    symbol'.operator = symbol.operator ∧
      (∃ m m', l.Describes source registers m ∧ l'.Describes text registers' m' ∧
        m'.unlocated = m.unlocated) ∧
      ∃ m m', r.Describes source registers m ∧ r'.Describes text registers' m' ∧
        m'.unlocated = m.unlocated := by
  cases h with
  | @binary _ _ _ m₁ m₂ span left right =>
    cases h' with
    | @binary _ _ _ m₁' m₂' span' left' right' =>
      simp only [Node.unlocated_mk, List.map_cons, List.map_nil, Node.mk.injEq, Kind.binary.injEq,
        List.cons.injEq, and_true] at heq
      obtain ⟨hop, hleft, hright⟩ := heq
      exact ⟨hop, ⟨m₁, m₁', left, left', hleft⟩, m₂, m₂', right, right', hright⟩

/-- **Only a faithful expression is read as it was written.** -/
theorem Expr.Describes.faithful_of_unlocated_eq (h : e.Describes source registers n)
    (h' : e.regroup.Describes text registers' n') (heq : n'.unlocated = n.unlocated) :
    e.Faithful := by
  induction e generalizing n n' with
  | leaf word operand => trivial
  | neg e ih =>
    cases h with
    | neg inner =>
      cases h' with
      | neg inner' => exact ih inner inner' (by simpa using heq)
  | binary symbol l r ihl ihr =>
    -- otherwise the root would be an operator of another name
    have hsum : symbol = .less → r.isSum = false := by
      rintro rfl
      by_contra hr
      obtain ⟨symbol, a, b, hne, hregroup⟩ := regroup_less_of_isSum (by simpa using hr) l
      rw [hregroup] at h'
      exact hne (h.children_eq h' heq).1
    rw [regroup_binary hsum] at h'
    obtain ⟨-, ⟨m, m', hl, hl', hleft⟩, m₂, m₂', hr, hr', hright⟩ := h.children_eq h' heq
    exact ⟨hsum, ihl hl hl' hleft, ihr hr hr' hright⟩

/-- Whether an expression is a sum shows in the kind of its node. -/
private theorem Expr.Describes.isSum_iff (h : e.Describes source registers n) :
    e.isSum ↔ n.kind = .binary .add ∨ n.kind = .binary .sub := by
  cases h with
  | @leaf word operand kind span kind_eq _ =>
    obtain ⟨token, letters, spells⟩ := word
    cases token <;> cases kind_eq <;> simp [isSum]
  | neg _ => simp [isSum]
  | @binary symbol _ _ _ _ _ _ _ => cases symbol <;> simp [isSum, Symbol.operator]

/-- Whether a comparison has a sum on its right shows in the node too. -/
private theorem Expr.Describes.isLessOverSum_iff {symbol : Symbol} {r : Expr} {a b : Node}
    {span : Option Span} (h : r.Describes source registers b) :
    (Node.mk (.binary symbol.operator) [a, b] span).IsLessOverSum ↔
      symbol = .less ∧ r.isSum = true := by
  have hless : symbol.operator = .lt ↔ symbol = .less := by
    cases symbol <;> decide
  simp [Node.IsLessOverSum, hless, h.isSum_iff]

/-- An expression is faithful exactly if no node of its tree is a comparison over a sum. -/
theorem Expr.Describes.faithful_iff (h : e.Describes source registers n) :
    e.Faithful ↔ ∀ m ∈ n.preorder, ¬ m.IsLessOverSum := by
  induction h with
  | @leaf word operand kind span kind_eq _ =>
    obtain ⟨token, letters, spells⟩ := word
    cases token <;> cases kind_eq <;> simp [Faithful, Node.IsLessOverSum]
  | neg _ ih => simp [Faithful, ih, Node.IsLessOverSum]
  | @binary symbol l r a b span _ right ihl ihr =>
    have hroot : ¬ (Node.mk (.binary symbol.operator) [a, b] span).IsLessOverSum ↔
        (symbol = .less → r.isSum = false) := by
      rw [right.isLessOverSum_iff, not_and, Bool.not_eq_true]
    simp only [Faithful, Node.preorder_mk, Node.preorderAll_eq_flatMap, List.flatMap_cons,
      List.flatMap_nil, List.append_nil, List.forall_mem_cons, List.forall_mem_append, hroot, ihl,
      ihr]

end Describes

/-! ### The words of an expression are derived -/

/-- The tokens form an expression of the tier, and its tree is described by `e`. -/
def Yields (source : String) (registers : List String) (tier : Tier) (ls : List Lexeme)
    (e : Expr) : Prop :=
  ∃ n, Derives registers tier ls n ∧ e.Describes source registers n

/-- The looser the tier, the more expressions need no parentheses in it. -/
def Tier.rank : Tier → Nat
  | atom => 0
  | signed => 1
  | product => 2
  | sum => 4

section Yields

variable {source : String} {registers : List String} {tier tier' : Tier} {ls rs : List Lexeme}
  {e l r : Expr} {n : Node}

/-- An expression of a tier is one of every looser tier. -/
private theorem Derives.lift (h : Derives registers tier ls n) (hle : tier.rank ≤ tier'.rank) :
    Derives registers tier' ls n := by
  -- tier by tier, from the one it has
  have hsigned : tier.rank ≤ 1 → Derives registers .signed ls n := by
    intro hle
    cases tier with
    | atom => exact .atom h
    | signed => exact h
    | product => exact absurd hle (by decide)
    | sum => exact absurd hle (by decide)
  have hproduct : tier.rank ≤ 2 → Derives registers .product ls n := by
    intro hle
    cases tier with
    | product => exact h
    | sum => exact absurd hle (by decide)
    | _ => exact .signed (hsigned (by decide))
  cases tier' with
  | atom =>
    cases tier with
    | atom => exact h
    | _ => exact absurd hle (by decide)
  | signed => exact hsigned hle
  | product => exact hproduct hle
  | sum =>
    cases tier with
    | sum => exact h
    | _ => exact .product (hproduct (by decide))

/-- What is read on one tier is read on every looser one. -/
theorem Yields.lift (h : Yields source registers tier ls e) (hle : tier.rank ≤ tier'.rank) :
    Yields source registers tier' ls e := by
  obtain ⟨n, hn, he⟩ := h
  exact ⟨n, hn.lift hle, he⟩

/-- Two factors with their sign between them are read as a product. -/
theorem Yields.multiply {symbol : Symbol} {span : Span} (hmul : symbol.rank = 2)
    (hl : Yields source registers .product ls l) (hr : Yields source registers .signed rs r) :
    Yields source registers .product (ls ++ ⟨.op symbol, span⟩ :: rs) (.binary symbol l r) := by
  obtain ⟨m, hm, hl⟩ := hl
  obtain ⟨n, hn, hr⟩ := hr
  have hop : symbol.multiplicative? = some symbol.operator := by
    cases symbol with
    | times => rfl
    | slash => rfl
    | _ => cases hmul
  exact ⟨_, .multiply hop hm hn, .binary hl hr⟩

/-- Two summands with their sign between them are read as a sum. -/
theorem Yields.add {symbol : Symbol} {span : Span} (hadd : symbol.rank ≠ 2)
    (hl : Yields source registers .sum ls l) (hr : Yields source registers .product rs r) :
    Yields source registers .sum (ls ++ ⟨.op symbol, span⟩ :: rs) (.binary symbol l r) := by
  obtain ⟨m, hm, hl⟩ := hl
  obtain ⟨n, hn, hr⟩ := hr
  have hop : symbol.additive? = some symbol.operator := by
    cases symbol with
    | times => exact absurd rfl hadd
    | slash => exact absurd rfl hadd
    | _ => rfl
  exact ⟨_, .add hop hm hn, .binary hl hr⟩

/-- Every expression is read on the loosest tier. -/
theorem Expr.rank_le_sum (e : Expr) : e.rank ≤ Tier.sum.rank := by
  cases e with
  | leaf word operand => exact Nat.zero_le 4
  | neg e => exact Nat.le_of_ble_eq_true rfl
  | binary symbol l r => cases symbol <;> exact Nat.le_of_ble_eq_true rfl

/-- Below comparisons there are sums and what is tighter. -/
private theorem Expr.rank_le_product (hsum : e.isSum = false) (h : ¬ Symbol.less.rank ≤ e.rank) :
    e.rank ≤ Tier.product.rank := by
  cases e with
  | leaf word operand => exact Nat.zero_le 2
  | neg e => exact Nat.le_of_ble_eq_true rfl
  | binary symbol l r =>
    cases symbol with
    | plus => cases hsum
    | minus => cases hsum
    | less => exact absurd (Nat.le_refl _) h
    | times => exact Nat.le_refl 2
    | slash => exact Nat.le_refl 2

private theorem Tier.rank_sum_le (h : 3 ≤ tier.rank) : Tier.sum.rank ≤ tier.rank := by
  cases tier with
  | sum => exact Nat.le_refl 4
  | _ => exact absurd h (by decide)

/-- The words of the expression are read, in each tier that is loose enough. -/
def Expr.ReadBack (source : String) (registers : List String) (e : Expr) : Prop :=
  ∀ ⦃ls : List Lexeme⦄ ⦃tier : Tier⦄, StandFor source ls e.words → e.rank ≤ tier.rank →
    Yields source registers tier ls e.regroup

/-- An operand is read in each tier, with parentheses if the tier is too tight. -/
theorem Expr.ReadBack.enclosed (h : e.ReadBack source registers) {needed : Bool}
    (hls : StandFor source ls (encloseWords needed e.words))
    (hneeded : needed = false → e.rank ≤ tier.rank) :
    Yields source registers tier ls e.regroup := by
  cases needed with
  | false => exact h hls (hneeded rfl)
  | true =>
    -- inside parentheses everything can stand, and they are atoms
    obtain ⟨opening, rest, rfl, -, hrest⟩ := hls.exists_cons
    obtain ⟨inner, back, rfl, hinner, hback⟩ := hrest.exists_append
    obtain ⟨closing, rest, rfl, -, hnil⟩ := hback.exists_cons
    cases hnil
    obtain ⟨n, hn, he⟩ := h hinner e.rank_le_sum
    exact ⟨n, (Derives.group hn).lift (Nat.zero_le _), he⟩

/-- Written behind `left` and a comparison sign, the expression is read together with them. -/
def Expr.ReadBehind (source : String) (registers : List String) (e : Expr) : Prop :=
  ∀ ⦃left : Expr⦄ ⦃front ls : List Lexeme⦄ ⦃span : Span⦄,
    Yields source registers .sum front left →
    StandFor source ls (encloseWords (Symbol.less.rank ≤ e.rank) e.words) →
    Yields source registers .sum (front ++ ⟨.op .less, span⟩ :: ls) (e.regroupFrom (some left))

/-- What is no sum is compared as a whole. -/
theorem Expr.ReadBack.behind (h : e.ReadBack source registers) (hsum : e.isSum = false) :
    e.ReadBehind source registers := by
  intro left front ls span hfront hls
  rw [regroupFrom_of_not_isSum hsum]
  refine hfront.add (by decide) (h.enclosed hls fun hneeded => ?_)
  exact rank_le_product hsum (of_decide_eq_false hneeded)

/-- The operands of an operator stand on either side of it. -/
private theorem StandFor.exists_operands {symbol : Symbol}
    (h : StandFor source ls (Expr.binary symbol l r).words) :
    ∃ front span back, ls = front ++ ⟨.op symbol, span⟩ :: back ∧
      StandFor source front (encloseWords (symbol.rank < l.rank) l.words) ∧
      StandFor source back (encloseWords (symbol.rank ≤ r.rank) r.words) := by
  obtain ⟨front, rest, rfl, hfront, hrest⟩ := h.exists_append
  obtain ⟨span, back, rfl, -, hback⟩ := hrest.exists_cons
  exact ⟨front, span, back, rfl, hfront, hback⟩

/-- A product is read back as it was, since the parentheses it needs are there. -/
theorem Expr.ReadBack.product {symbol : Symbol} (hsymbol : symbol.rank = 2)
    (hl : l.ReadBack source registers) (hr : r.ReadBack source registers) :
    (binary symbol l r).ReadBack source registers := by
  intro ls tier hls hrank
  obtain ⟨front, span, back, rfl, hfront, hback⟩ := hls.exists_operands
  -- the left factor stands without parentheses only if it is one already
  have hleft : Yields source registers .product front l.regroup := by
    refine hl.enclosed hfront fun hneeded => ?_
    have hlt := of_decide_eq_false hneeded
    rw [hsymbol] at hlt
    exact Nat.le_of_not_lt hlt
  -- the right one only if it binds tighter than the product
  have hright : Yields source registers .signed back r.regroup := by
    refine hr.enclosed hback fun hneeded => ?_
    have hle := of_decide_eq_false hneeded
    rw [hsymbol] at hle
    exact Nat.le_of_lt_succ (Nat.lt_of_not_le hle)
  have hless : symbol = .less → r.isSum = false := by
    rintro rfl
    cases hsymbol
  have htier : Tier.product.rank ≤ tier.rank := by
    rwa [rank, hsymbol] at hrank
  rw [regroup_binary hless]
  exact (hleft.multiply hsymbol hright).lift htier

/-- The right operand of a sum binds tighter than a sum. -/
private theorem Expr.ReadBack.summand (hr : r.ReadBack source registers)
    (hrs : StandFor source rs (encloseWords (3 ≤ r.rank) r.words)) :
    Yields source registers .product rs r.regroup := by
  refine hr.enclosed hrs fun hneeded => ?_
  exact Nat.le_of_lt_succ (Nat.lt_of_not_le (of_decide_eq_false hneeded))

/-- A sum is read back as it was. -/
theorem Expr.ReadBack.sum {symbol : Symbol} (hsymbol : symbol.rank = 3)
    (hl : l.ReadBack source registers) (hr : r.ReadBack source registers) :
    (binary symbol l r).ReadBack source registers := by
  intro ls tier hls hrank
  obtain ⟨front, span, back, rfl, hfront, hback⟩ := hls.exists_operands
  rw [hsymbol] at hfront hback
  -- the left summand never needs parentheses, the right one only if it is a sum itself
  have hleft : Yields source registers .sum front l.regroup :=
    hl.enclosed hfront fun _ => l.rank_le_sum
  have hless : symbol = .less → r.isSum = false := by
    rintro rfl
    cases hsymbol
  have hsum : symbol.rank ≠ 2 := by
    rw [hsymbol]
    decide
  have htier : Tier.sum.rank ≤ tier.rank := by
    rw [rank, hsymbol] at hrank
    exact Tier.rank_sum_le hrank
  rw [regroup_binary hless]
  exact (hleft.add hsum (hr.summand hback)).lift htier

/-- Behind a comparison sign, the first operand of a sum joins the comparison. -/
theorem Expr.ReadBehind.sum {symbol : Symbol} (hsymbol : symbol.rank = 3)
    (hl : l.ReadBehind source registers) (hr : r.ReadBack source registers) :
    (binary symbol l r).ReadBehind source registers := by
  intro left front ls span hfront hls
  -- a sum has no parentheses here, so its own operands follow the sign
  have hopen : decide (Symbol.less.rank ≤ (binary symbol l r).rank) = false := by
    rw [rank, hsymbol]
    rfl
  rw [hopen] at hls
  obtain ⟨middle, sign, back, rfl, hmiddle, hback⟩ := StandFor.exists_operands hls
  rw [hsymbol] at hmiddle hback
  have hsum : symbol.rank ≠ 2 := by
    rw [hsymbol]
    decide
  -- the left operand of the sum is drawn into the comparison, its right operand stays
  have hregroup : (binary symbol l r).regroupFrom (some left) =
      binary symbol (l.regroupFrom (some left)) r.regroup := by
    cases symbol with
    | plus => rfl
    | minus => rfl
    | _ => cases hsymbol
  have hread : Yields source registers .sum
      (front ++ ⟨.op .less, span⟩ :: middle ++ ⟨.op symbol, sign⟩ :: back)
      (binary symbol (l.regroupFrom (some left)) r.regroup) :=
    (hl hfront hmiddle).add hsum (hr.summand hback)
  rwa [List.append_assoc, List.cons_append, ← hregroup] at hread

/-- A comparison takes the left summand of what stands on its right. -/
theorem Expr.ReadBack.less (hl : l.ReadBack source registers) (hr : r.ReadBehind source registers) :
    (binary .less l r).ReadBack source registers := by
  intro ls tier hls hrank
  obtain ⟨front, span, back, rfl, hfront, hback⟩ := hls.exists_operands
  have hleft : Yields source registers .sum front l.regroup :=
    hl.enclosed hfront fun _ => l.rank_le_sum
  -- the right operand is read behind the left one and the sign
  exact (hr hleft hback).lift hrank

/-- **What is written is read back regrouped**, by itself and behind a comparison sign. -/
private theorem Expr.readBack_and_readBehind (e : Expr) :
    e.ReadBack source registers ∧ e.ReadBehind source registers := by
  -- the two go together: a comparison needs its right operand behind the sign
  induction e with
  | leaf word operand =>
    have h : (leaf word operand).ReadBack source registers := by
      intro ls tier hls _
      obtain ⟨span, rest, rfl, hslice, hnil⟩ := hls.exists_cons
      cases hnil
      obtain ⟨kind, hkind⟩ := Token.exists_leafKind? operand registers
      exact ⟨_, (Derives.leaf hkind).lift (Nat.zero_le _), .leaf hkind hslice⟩
    exact ⟨h, h.behind rfl⟩
  | neg e ih =>
    have h : (neg e).ReadBack source registers := by
      intro ls tier hls hrank
      -- the operand of a sign stands behind it, in parentheses unless it is one itself
      obtain ⟨minus, rest, rfl, -, hrest⟩ := hls.exists_cons
      obtain ⟨n, hn, he⟩ : Yields source registers .signed rest e.regroup := by
        refine ih.1.enclosed hrest fun hneeded => ?_
        exact Nat.le_succ_of_le (Nat.le_of_not_lt (of_decide_eq_false hneeded))
      exact ⟨_, (Derives.negate hn).lift hrank, .neg he⟩
    exact ⟨h, h.behind rfl⟩
  | binary symbol l r ihl ihr =>
    cases symbol with
    | plus => exact ⟨.sum rfl ihl.1 ihr.1, .sum rfl ihl.2 ihr.1⟩
    | minus => exact ⟨.sum rfl ihl.1 ihr.1, .sum rfl ihl.2 ihr.1⟩
    | less =>
      have h : (binary .less l r).ReadBack source registers := .less ihl.1 ihr.2
      exact ⟨h, h.behind rfl⟩
    | times =>
      -- products are not sums, so that nothing of them is drawn into a comparison
      have h : (binary .times l r).ReadBack source registers := .product rfl ihl.1 ihr.1
      exact ⟨h, h.behind rfl⟩
    | slash =>
      have h : (binary .slash l r).ReadBack source registers := .product rfl ihl.1 ihr.1
      exact ⟨h, h.behind rfl⟩

/-- **Every expression is read back, regrouped.** -/
theorem Expr.readBack (e : Expr) : e.ReadBack source registers :=
  e.readBack_and_readBehind.1

end Yields

end Grammar

end Scriptlet
