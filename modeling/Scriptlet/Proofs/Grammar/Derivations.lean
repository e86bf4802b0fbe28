import Scriptlet.Grammar.Parsing

/-!
# Derivations

The grammar as a relation between token sequences and the trees they describe, one rule for each
alternative. A derivation says nothing about how tokens are taken off a list or how many are left,
and so is what other modules reason about.

* `Derives` — the four tiers of expressions, `DerivesStatement`, `DerivesScript`;
* `parseLevel_derives` — what the parser takes off a list of tokens is derived from them;
* `Derives.parseExpression` — what is derived is taken off, if no operator follows;
* `parse_eq_ok_iff` — a text is read as a script exactly if its tokens are derived as one.

That what is taken is derived is shown along the recursion of the parser itself: the theorems call
one another as the functions do, over fewer and fewer tokens. The converse follows the derivation.
The parser builds a chain from its front and a derivation ends with the last link, so what is shown
of a derived chain is how far the parser has come behind it, whatever is read after that.
-/

namespace Scriptlet.Grammar

/-! ### The rules -/

/-- What a token stands for if it is an operand by itself. -/
def Token.leafKind? (registers : List String) : Token → Option Kind
  | int n => some (.literal (.int n))
  | str text => some (.literal (.str text))
  | name text => some (.identifier text (registerOf? registers text))
  | _ => none

/-- The nonterminals for expressions. -/
inductive Tier where
  | atom
  | signed
  | product
  | sum

/-- The tokens form an expression of the tier, and the node is its tree. -/
inductive Derives (registers : List String) : Tier → List Lexeme → Node → Prop where
  | leaf {token : Token} {span : Span} {kind : Kind}
      (operand : token.leafKind? registers = some kind) :
      Derives registers .atom [⟨token, span⟩] ⟨kind, [], some span⟩
  | group {opening closing : Span} {ls : List Lexeme} {n : Node}
      (inner : Derives registers .sum ls n) :
      Derives registers .atom (⟨.openParen, opening⟩ :: (ls ++ [⟨.closeParen, closing⟩])) n
  | atom {ls : List Lexeme} {n : Node} (first : Derives registers .atom ls n) :
      Derives registers .signed ls n
  | negate {minus : Span} {ls : List Lexeme} {n : Node} (operand : Derives registers .signed ls n) :
      Derives registers .signed (⟨.op .minus, minus⟩ :: ls) (negationNode minus n)
  | signed {ls : List Lexeme} {n : Node} (first : Derives registers .signed ls n) :
      Derives registers .product ls n
  | multiply {symbol : Symbol} {op : BinaryOp} {span : Span} {ls rs : List Lexeme} {l r : Node}
      (operator : symbol.multiplicative? = some op) (left : Derives registers .product ls l)
      (right : Derives registers .signed rs r) :
      Derives registers .product (ls ++ ⟨.op symbol, span⟩ :: rs) (binaryNode op l r)
  | product {ls : List Lexeme} {n : Node} (first : Derives registers .product ls n) :
      Derives registers .sum ls n
  | add {symbol : Symbol} {op : BinaryOp} {span : Span} {ls rs : List Lexeme} {l r : Node}
      (operator : symbol.additive? = some op) (left : Derives registers .sum ls l)
      (right : Derives registers .product rs r) :
      Derives registers .sum (ls ++ ⟨.op symbol, span⟩ :: rs) (binaryNode op l r)

/-- The tokens form a statement; the node is its tree, and the registers grow by what it
declares. -/
inductive DerivesStatement : List String → List Lexeme → Node → List String → Prop where
  | declare {registers registers' : List String} {keyword span : Span} {name : String}
      {register : Nat} (known : declare registers name span = .ok (register, registers')) :
      DerivesStatement registers [⟨.var, keyword⟩, ⟨.name name, span⟩]
        ⟨.var name register, [], some (keyword.merge span)⟩ registers'
  | define {registers registers' : List String} {keyword span sign : Span} {name : String}
      {register : Nat} {ls : List Lexeme} {init : Node}
      (known : declare registers name span = .ok (register, registers'))
      (value : Derives registers' .sum ls init) :
      DerivesStatement registers (⟨.var, keyword⟩ :: ⟨.name name, span⟩ :: ⟨.assign, sign⟩ :: ls)
        ⟨.var name register, [init], some (keyword.merge (init.span.getD span))⟩ registers'
  | expression {registers : List String} {ls : List Lexeme} {n : Node}
      (whole : Derives registers .sum ls n) : DerivesStatement registers ls n registers
  | assign {registers : List String} {sign : Span} {ls rs : List Lexeme} {target value : Node}
      (left : Derives registers .sum ls target) (right : Derives registers .sum rs value) :
      DerivesStatement registers (ls ++ ⟨.assign, sign⟩ :: rs)
        ⟨.assign, [target, value], spanOfBoth target value⟩ registers

/-- The tokens form the statements of a script, the last one with or without a semicolon. -/
inductive DerivesScript : List String → List Lexeme → List Node → List String → Prop where
  | nil {registers : List String} : DerivesScript registers [] [] registers
  | last {registers registers' : List String} {ls : List Lexeme} {n : Node}
      (statement : DerivesStatement registers ls n registers') :
      DerivesScript registers ls [n] registers'
  | cons {registers registers' registers'' : List String} {ls rs : List Lexeme} {n : Node}
      {ns : List Node} {semicolon : Span} (first : DerivesStatement registers ls n registers')
      (rest : DerivesScript registers' rs ns registers'') :
      DerivesScript registers (ls ++ ⟨.semicolon, semicolon⟩ :: rs) (n :: ns) registers''

/-! ### The levels -/

namespace Level

/-- The chains of the level. -/
def tier : Level → Tier
  | product => .product
  | sum => .sum

/-- The operands of the chains. -/
def operandTier : Level → Tier
  | product => .signed
  | sum => .product

end Level

section Expressions

variable {registers : List String} {level : Level}

/-- An operand by itself is a chain. -/
theorem Derives.single {ls : List Lexeme} {n : Node}
    (h : Derives registers level.operandTier ls n) : Derives registers level.tier ls n := by
  cases level with
  | product => exact .signed h
  | sum => exact .product h

/-- A chain grows at its end. -/
theorem Derives.link {symbol : Symbol} {op : BinaryOp} {span : Span} {ls rs : List Lexeme}
    {l r : Node} (operator : level.operator? symbol = some op)
    (left : Derives registers level.tier ls l) (right : Derives registers level.operandTier rs r) :
    Derives registers level.tier (ls ++ ⟨.op symbol, span⟩ :: rs) (binaryNode op l r) := by
  cases level with
  | product => exact .multiply operator left right
  | sum => exact .add operator left right

/-! ### What is taken is derived -/

/-- A sequence of two readings succeeds exactly if both do. -/
theorem bind_eq_ok {ε α β : Type} {first : Except ε α} {next : α → Except ε β} {b : β} :
    (first >>= next) = .ok b ↔ ∃ a, first = .ok a ∧ next a = .ok b := by
  cases first with
  | ok a =>
    constructor
    · exact fun h => ⟨a, rfl, h⟩
    · rintro ⟨_, ⟨rfl⟩, h⟩
      exact h
  | error e =>
    constructor
    · exact fun h => nomatch h
    · rintro ⟨_, h, _⟩
      cases h

/-- What is taken stood in front. -/
private theorem eq_of_takeToken {tokens : List Lexeme} {first : Taken Lexeme tokens}
    (h : takeToken tokens = .ok first) : tokens = [first.value] ++ first.rest := by
  cases tokens with
  | nil => cases h
  | cons l tokens =>
    cases h
    rfl

/-- So did a token that is eaten. -/
private theorem eq_of_eat? {token : Token} {tokens : List Lexeme} {eaten : Taken Span tokens}
    (h : eat? token tokens = some eaten) : tokens = [⟨token, eaten.value⟩] ++ eaten.rest := by
  cases tokens with
  | nil => cases h
  | cons l tokens =>
    obtain ⟨rfl, heaten⟩ := Option.ite_none_right_eq_some.1 h
    cases heaten
    rfl

/-- So did an operator, as one of the symbols of its level. -/
private theorem eq_of_eatOperator? {tokens : List Lexeme} {op : Taken BinaryOp tokens}
    (h : level.eatOperator? tokens = some op) :
    ∃ symbol span, level.operator? symbol = some op.value ∧
      tokens = [⟨.op symbol, span⟩] ++ op.rest := by
  unfold Level.eatOperator? at h
  split at h
  · next symbol span tokens =>
    obtain ⟨value, hvalue, rfl⟩ := Option.map_eq_some_iff.1 h
    exact ⟨symbol, span, hvalue, rfl⟩
  · cases h

/-- The tokens that have been taken, and what has been made of them, are as `P` says. -/
def Taken.Satisfies {α : Type} {tokens : List Lexeme} (taken : Taken α tokens)
    (P : List Lexeme → α → Prop) : Prop :=
  ∃ ls, tokens = ls ++ taken.rest ∧ P ls taken.value

/-- What is taken in two steps satisfies what is asked of both together. -/
theorem Taken.Satisfies.andThen {α β : Type} {tokens ls : List Lexeme} {taken : Taken α tokens}
    {next : Taken β taken.rest} {P : List Lexeme → β → Prop} (htokens : tokens = ls ++ taken.rest)
    (hnext : next.Satisfies fun rs => P (ls ++ rs)) : (taken.andThen next).Satisfies P := by
  obtain ⟨rs, hrest, hP⟩ := hnext
  refine ⟨ls ++ rs, ?_, hP⟩
  calc tokens = ls ++ taken.rest := htokens
    _ = ls ++ (rs ++ next.rest) := by rw [← hrest]
    _ = ls ++ rs ++ next.rest := (List.append_assoc ..).symm

mutual

/-- A single operand is a leaf, or a chain in parentheses, which has fewer tokens. -/
theorem parseAtom_derives {tokens : List Lexeme} {taken : Taken Node tokens}
    (h : parseAtom registers tokens = .ok taken) : taken.Satisfies (Derives registers .atom) := by
  rw [parseAtom] at h
  obtain ⟨first, hfirst, h⟩ := bind_eq_ok.1 h
  have htokens := eq_of_takeToken hfirst
  obtain ⟨⟨token, span⟩, rest, shorter⟩ := first
  -- leaves are taken as they are; of the other tokens only a parenthesis opens an operand
  cases token with
  | int | str | name =>
    cases h
    exact ⟨[_], htokens, .leaf rfl⟩
  | openParen =>
    obtain ⟨inner, hinner, h⟩ := bind_eq_ok.1 h
    obtain ⟨ls, hrest, hls⟩ := parseLevel_derives hinner
    dsimp only at h hrest
    split at h
    · next closing hclosing =>
      cases h
      exact .andThen htokens (.andThen hrest ⟨[_], eq_of_eat? hclosing, .group hls⟩)
    · cases h
  | _ => cases h
termination_by (tokens.length, 0)
decreasing_by exact .left _ _ shorter

/-- An operand with a sign in front is read from fewer tokens. -/
theorem parseSigned_derives {tokens : List Lexeme} {taken : Taken Node tokens}
    (h : parseSigned registers tokens = .ok taken) :
    taken.Satisfies (Derives registers .signed) := by
  rw [parseSigned] at h
  split at h
  · next minus hminus =>
    have shorter := minus.shorter
    obtain ⟨operand, hoperand, h⟩ := bind_eq_ok.1 h
    cases h
    obtain ⟨ls, hrest, hls⟩ := parseSigned_derives hoperand
    exact .andThen (eq_of_eat? hminus) ⟨ls, hrest, .negate hls⟩
  · obtain ⟨ls, hrest, hls⟩ := parseAtom_derives h
    exact ⟨ls, hrest, .atom hls⟩
termination_by (tokens.length, 1)

/-- An operand of a chain is lower in the grammar. -/
theorem parseOperand_derives {level : Level} {tokens : List Lexeme} {taken : Taken Node tokens}
    (h : parseOperand registers level tokens = .ok taken) :
    taken.Satisfies (Derives registers level.operandTier) := by
  match level with
  | .product =>
    rw [parseOperand] at h
    exact parseSigned_derives h
  | .sum =>
    rw [parseOperand] at h
    exact parseLevel_derives h
termination_by (tokens.length, level.height)
decreasing_by all_goals exact .right _ (by decide)

/-- A chain goes on from what has been read so far, one operator and operand at a time. -/
theorem parseChain_derives {level : Level} {tokens : List Lexeme} {left taken : Taken Node tokens}
    (hleft : left.Satisfies (Derives registers level.tier))
    (h : parseChain registers level left = .ok taken) :
    taken.Satisfies (Derives registers level.tier) := by
  rw [parseChain] at h
  split at h
  · next op hop =>
    have shorter := op.shorter
    obtain ⟨right, hright, h⟩ := bind_eq_ok.1 h
    have shorter' := (op.andThen right).shorter
    obtain ⟨ls, htokens, hls⟩ := hleft
    obtain ⟨symbol, span, hsymbol, hrest⟩ := eq_of_eatOperator? hop
    obtain ⟨rs, hrest', hrs⟩ := parseOperand_derives hright
    -- what has been read so far now includes the operator and its right operand
    have hmore : (left.andThen (op.andThen (right.as
        (binaryNode op.value left.value right.value)))).Satisfies (Derives registers level.tier) :=
      .andThen htokens (.andThen hrest ⟨rs, hrest', .link hsymbol hls hrs⟩)
    exact parseChain_derives hmore h
  · cases h
    exact hleft
termination_by (left.rest.length, 0)

/-- **What is taken as a chain is derived as one.** -/
theorem parseLevel_derives {level : Level} {tokens : List Lexeme} {taken : Taken Node tokens}
    (h : parseLevel registers level tokens = .ok taken) :
    taken.Satisfies (Derives registers level.tier) := by
  rw [parseLevel] at h
  obtain ⟨first, hfirst, h⟩ := bind_eq_ok.1 h
  obtain ⟨ls, hrest, hls⟩ := parseOperand_derives hfirst
  exact parseChain_derives ⟨ls, hrest, hls.single⟩ h
termination_by (tokens.length, level.height + 1)
decreasing_by
  · exact .right _ (Nat.lt_succ_self _)
  · exact .left _ _ first.shorter

end

end Expressions

section Statements

variable {registers registers' : List String} {tokens : List Lexeme}

/-- A declaration is known from its keyword on. -/
theorem parseDeclaration_derives {keyword : Span} {taken : Taken (Node × List String) tokens}
    (h : parseDeclaration registers keyword tokens = .ok taken) :
    taken.Satisfies fun ls (n, registers') =>
      DerivesStatement registers (⟨.var, keyword⟩ :: ls) n registers' := by
  obtain ⟨first, hfirst, h⟩ := bind_eq_ok.1 h
  have htokens := eq_of_takeToken hfirst
  obtain ⟨⟨token, span⟩, rest, shorter⟩ := first
  cases token with
  | name name =>
    obtain ⟨⟨register, known⟩, hdeclare, h⟩ := bind_eq_ok.1 h
    -- with an initialiser, or without
    dsimp only at h htokens
    split at h
    · next sign hsign =>
      obtain ⟨init, hinit, h⟩ := bind_eq_ok.1 h
      cases h
      obtain ⟨ls, hrest, hls⟩ := parseLevel_derives hinit
      exact .andThen htokens (.andThen (eq_of_eat? hsign) ⟨ls, hrest, .define hdeclare hls⟩)
    · cases h
      exact ⟨[_], htokens, .declare hdeclare⟩
  | _ => cases h

/-- **What is taken as a statement is derived as one.** -/
theorem parseStatement_derives {taken : Taken (Node × List String) tokens}
    (h : parseStatement registers tokens = .ok taken) :
    taken.Satisfies fun ls (n, registers') => DerivesStatement registers ls n registers' := by
  unfold parseStatement at h
  split at h
  · next keyword hkeyword =>
    obtain ⟨declaration, hdeclaration, h⟩ := bind_eq_ok.1 h
    cases h
    obtain ⟨ls, hrest, hls⟩ := parseDeclaration_derives hdeclaration
    exact .andThen (eq_of_eat? hkeyword) ⟨ls, hrest, hls⟩
  · obtain ⟨target, htarget, h⟩ := bind_eq_ok.1 h
    obtain ⟨ls, htokens, hls⟩ := parseLevel_derives htarget
    -- an expression is a statement by itself, or a target if an equals sign follows
    dsimp only at h
    split at h
    · next sign hsign =>
      obtain ⟨value, hvalue, h⟩ := bind_eq_ok.1 h
      cases h
      obtain ⟨rs, hrest, hrs⟩ := parseLevel_derives hvalue
      exact .andThen htokens (.andThen (eq_of_eat? hsign) ⟨rs, hrest, .assign hls hrs⟩)
    · cases h
      exact ⟨ls, htokens, .expression hls⟩

/-- **What is read as a script is derived as one.** -/
theorem derivesScript_of_parseStatements {registers registers' : List String}
    {tokens : List Lexeme} {ns : List Node}
    (h : parseStatements registers tokens = .ok (ns, registers')) :
    DerivesScript registers tokens ns registers' := by
  match tokens with
  | [] =>
    rw [parseStatements] at h
    cases h
    exact .nil
  | l :: tokens =>
    rw [parseStatements] at h
    obtain ⟨⟨⟨n, known⟩, rest, shorter⟩, hfirst, h⟩ := bind_eq_ok.1 h
    obtain ⟨ls, htokens, hls⟩ := parseStatement_derives hfirst
    -- behind the statement there is a semicolon, nothing, or an error
    dsimp only at h htokens
    split at h
    · next semicolon hsemicolon =>
      have fewer := Nat.lt_trans semicolon.shorter shorter
      obtain ⟨⟨ns, known'⟩, hns, h⟩ := bind_eq_ok.1 h
      cases h
      rw [htokens, eq_of_eat? hsemicolon]
      exact .cons hls (derivesScript_of_parseStatements hns)
    · split at h
      · cases h
        rw [htokens, List.append_nil]
        exact .last hls
      · cases h
termination_by tokens.length
decreasing_by assumption

end Statements

/-! ### What is derived is taken -/

/-- The parser takes tokens off the front, makes `a` of them and leaves `rest`. -/
def Parser.Yields {α : Type} (p : Parser α) (tokens : List Lexeme) (a : α) (rest : List Lexeme) :
    Prop :=
  ∃ shorter, p tokens = .ok ⟨a, rest, shorter⟩

/-- A token in front can be eaten. -/
theorem eat?_cons (token : Token) (span : Span) (rest : List Lexeme) :
    eat? token (⟨token, span⟩ :: rest) = some ⟨span, rest, Nat.lt_succ_self _⟩ := if_pos rfl

private theorem eat?_cons_of_ne {token : Token} {l : Lexeme} (h : l.token ≠ token)
    (rest : List Lexeme) : eat? token (l :: rest) = none := if_neg h

private theorem Level.eatOperator?_cons {level : Level} {symbol : Symbol} {op : BinaryOp}
    (h : level.operator? symbol = some op) (span : Span) (rest : List Lexeme) :
    level.eatOperator? (⟨.op symbol, span⟩ :: rest) = some ⟨op, rest, Nat.lt_succ_self _⟩ := by
  rw [eatOperator?, h]
  rfl

section Chains

variable {registers : List String} {level : Level} {follow : List Lexeme → Prop}

/-- Without an operator of the level in front, a chain is at its end. -/
private theorem parseChain_of_none {tokens : List Lexeme} {left : Taken Node tokens}
    (h : level.eatOperator? left.rest = none) : parseChain registers level left = .ok left := by
  rw [parseChain, h]

/-- One more link of a chain. -/
private theorem parseChain_cons {symbol : Symbol} {op : BinaryOp} {span : Span} {l r : Node}
    {tokens more rest : List Lexeme} (hop : level.operator? symbol = some op)
    (hright : (parseOperand registers level).Yields more r rest)
    (shorter : (⟨.op symbol, span⟩ :: more).length < tokens.length) :
    ∃ shorter',
      parseChain registers level (⟨l, ⟨.op symbol, span⟩ :: more, shorter⟩ : Taken Node tokens) =
        parseChain registers level ⟨binaryNode op l r, rest, shorter'⟩ := by
  obtain ⟨fewer, hright⟩ := hright
  refine ⟨Nat.lt_trans (Nat.lt_succ_of_lt fewer) shorter, ?_⟩
  rw [parseChain, Level.eatOperator?_cons hop]
  dsimp only
  rw [hright]
  rfl

/-- What may stand behind an operand of a chain: behind a product no factor. -/
def Level.Follows : Level → List Lexeme → Prop
  | product, _ => True
  | sum, rest => product.eatOperator? rest = none

/-- The tokens are a chain of the level with the tree `n`: its first operand leaves some of them,
and going on through these comes as far as reading the whole chain. -/
def Chains (registers : List String) (level : Level) (ls : List Lexeme) (n : Node) : Prop :=
  ∃ first more, ∀ rest, level.Follows rest →
    (parseOperand registers level).Yields (ls ++ rest) first (more ++ rest) ∧
    ∀ {tokens : List Lexeme} (shorter : (more ++ rest).length < tokens.length), ∃ shorter',
      parseChain registers level (⟨first, more ++ rest, shorter⟩ : Taken Node tokens) =
        parseChain registers level ⟨n, rest, shorter'⟩

/-- A chain of one operand. -/
theorem Chains.single {ls : List Lexeme} {n : Node}
    (h : ∀ rest, level.Follows rest → (parseOperand registers level).Yields (ls ++ rest) n rest) :
    Chains registers level ls n :=
  ⟨n, [], fun rest hrest => ⟨h rest hrest, fun shorter => ⟨shorter, rfl⟩⟩⟩

/-- **A chain grows at its end.** -/
theorem Chains.link {ls rs : List Lexeme} {l r : Node} {symbol : Symbol} {op : BinaryOp}
    {span : Span} (hop : level.operator? symbol = some op) (hl : Chains registers level ls l)
    (hfollow : ∀ tokens, level.Follows (⟨.op symbol, span⟩ :: tokens))
    (hr : ∀ rest, level.Follows rest →
      (parseOperand registers level).Yields (rs ++ rest) r rest) :
    Chains registers level (ls ++ ⟨.op symbol, span⟩ :: rs) (binaryNode op l r) := by
  obtain ⟨first, more, hchain⟩ := hl
  refine ⟨first, more ++ ⟨.op symbol, span⟩ :: rs, fun rest hrest => ?_⟩
  -- the chain up to here is followed by the operator
  obtain ⟨hfirst, hgoes⟩ := hchain (⟨.op symbol, span⟩ :: (rs ++ rest)) (hfollow _)
  rw [List.append_assoc, List.append_assoc]
  refine ⟨hfirst, fun shorter => ?_⟩
  obtain ⟨shorter', hleft⟩ := hgoes shorter
  obtain ⟨shorter'', hlink⟩ := parseChain_cons hop (hr rest hrest) shorter'
  exact ⟨shorter'', hleft.trans hlink⟩

/-- A chain is read to its end, and no further if no operator of the level follows. -/
theorem Chains.parseLevel {ls rest : List Lexeme} {n : Node} (h : Chains registers level ls n)
    (hfollow : level.Follows rest) (hstops : level.eatOperator? rest = none) :
    (Grammar.parseLevel registers level).Yields (ls ++ rest) n rest := by
  obtain ⟨first, more, hchain⟩ := h
  obtain ⟨⟨shorter, hfirst⟩, hgoes⟩ := hchain rest hfollow
  obtain ⟨shorter', hgoes⟩ := hgoes shorter
  refine ⟨shorter', ?_⟩
  rw [Grammar.parseLevel]
  refine bind_eq_ok.2 ⟨_, hfirst, ?_⟩
  exact hgoes.trans (parseChain_of_none hstops)

end Chains

section Expressions

variable {registers : List String} {tier : Tier} {ls : List Lexeme} {n : Node}

/-- How the parser takes the tokens of an expression of the tier, whatever stands behind them. -/
def Tier.Reads (registers : List String) : Tier → List Lexeme → Node → Prop
  | atom, ls, n => ∀ rest, (parseAtom registers).Yields (ls ++ rest) n rest
  | signed, ls, n => ∀ rest, (parseSigned registers).Yields (ls ++ rest) n rest
  | product, ls, n => Chains registers .product ls n
  | sum, ls, n => Chains registers .sum ls n

/-- An operator between sums is none between factors. -/
private theorem follows_of_additive {symbol : Symbol} {op : BinaryOp}
    (h : symbol.additive? = some op) {span : Span} (rest : List Lexeme) :
    Level.sum.Follows (⟨.op symbol, span⟩ :: rest) := by
  cases symbol with
  | times => cases h
  | slash => cases h
  | _ => rfl

/-- An atom does not begin with a minus sign. -/
theorem Derives.parseSigned_eq (h : Derives registers .atom ls n) (rest : List Lexeme) :
    parseSigned registers (ls ++ rest) = parseAtom registers (ls ++ rest) := by
  have hminus : eat? (.op .minus) (ls ++ rest) = none := by
    cases h with
    | @leaf token span kind operand =>
      refine eat?_cons_of_ne ?_ _
      rintro ⟨rfl⟩
      cases operand
    | group _ => rfl
  rw [parseSigned, hminus]

/-- **What is derived is read in its tier.** -/
theorem Derives.reads (h : Derives registers tier ls n) : tier.Reads registers ls n := by
  -- by induction on the derivation: an operand is read with whatever stands behind it, a chain up
  -- to where it ends
  induction h with
  | @leaf token span kind operand =>
    refine fun rest => ⟨Nat.lt_succ_self _, ?_⟩
    rw [parseAtom]
    cases token <;> cases operand <;> rfl
  | @group opening closing ls n _ ih =>
    intro rest
    -- the chain inside ends at the closing parenthesis
    obtain ⟨shorter, hinner⟩ : (parseLevel registers .sum).Yields
        (ls ++ ⟨.closeParen, closing⟩ :: rest) n (⟨.closeParen, closing⟩ :: rest) :=
      ih.parseLevel rfl rfl
    have hless : rest.length < (ls ++ ⟨.closeParen, closing⟩ :: rest).length :=
      Nat.lt_of_succ_lt shorter
    rw [List.cons_append, List.append_assoc, List.singleton_append]
    refine ⟨Nat.lt_succ_of_lt hless, ?_⟩
    rw [parseAtom]
    refine bind_eq_ok.2 ⟨_, rfl, ?_⟩
    exact bind_eq_ok.2 ⟨_, hinner, by dsimp only; rw [eat?_cons]; rfl⟩
  | @atom ls n first ih =>
    intro rest
    obtain ⟨shorter, hatom⟩ := ih rest
    exact ⟨shorter, (first.parseSigned_eq rest).trans hatom⟩
  | @negate minus ls n _ ih =>
    intro rest
    obtain ⟨shorter, hoperand⟩ := ih rest
    rw [List.cons_append]
    refine ⟨Nat.lt_succ_of_lt shorter, ?_⟩
    rw [parseSigned, eat?_cons]
    exact bind_eq_ok.2 ⟨_, hoperand, rfl⟩
  | signed _ ih =>
    refine .single fun rest _ => ?_
    obtain ⟨shorter, hfirst⟩ := ih rest
    exact ⟨shorter, by rw [parseOperand, hfirst]⟩
  | multiply operator _ _ ihl ihr =>
    -- factors look at nothing behind them
    refine ihl.link operator (fun _ => trivial) fun rest _ => ?_
    obtain ⟨shorter, hright⟩ := ihr rest
    exact ⟨shorter, by rw [parseOperand, hright]⟩
  | product _ ih =>
    refine .single fun rest hrest => ?_
    obtain ⟨shorter, hfirst⟩ := ih.parseLevel trivial hrest
    exact ⟨shorter, by rw [parseOperand, hfirst]⟩
  | add operator _ _ ihl ihr =>
    -- the operator of the sum ends the product before it
    refine ihl.link operator (follows_of_additive operator) fun rest hrest => ?_
    obtain ⟨shorter, hright⟩ := ihr.parseLevel trivial hrest
    exact ⟨shorter, by rw [parseOperand, hright]⟩

/-- **What is derived as an expression is taken as one**, if no operator follows. -/
theorem Derives.parseExpression (h : Derives registers .sum ls n) {rest : List Lexeme}
    (hrest : ∀ level : Level, level.eatOperator? rest = none) :
    (Grammar.parseExpression registers).Yields (ls ++ rest) n rest :=
  h.reads.parseLevel (hrest .product) (hrest .sum)

end Expressions

section Scripts

variable {registers registers' : List String} {ls : List Lexeme} {n : Node}

/-- What stands behind a statement: nothing, or a semicolon. -/
inductive Closes : List Lexeme → Prop where
  | nothing : Closes []
  | semicolon {span : Span} {rest : List Lexeme} : Closes (⟨.semicolon, span⟩ :: rest)

private theorem Closes.eatOperator?_eq {rest : List Lexeme} (h : Closes rest) (level : Level) :
    level.eatOperator? rest = none := by
  cases h <;> rfl

private theorem Closes.eat?_assign {rest : List Lexeme} (h : Closes rest) :
    eat? .assign rest = none := by
  cases h <;> rfl

/-- An expression has a first token, which is not the keyword. -/
theorem Derives.exists_eq_cons {tier : Tier} (h : Derives registers tier ls n) :
    ∃ l rest, ls = l :: rest ∧ l.token ≠ .var := by
  induction h with
  | leaf operand =>
    refine ⟨_, _, rfl, ?_⟩
    -- a leaf is no keyword
    rintro ⟨rfl⟩
    cases operand
  | group => exact ⟨_, _, rfl, by simp⟩
  | negate => exact ⟨_, _, rfl, by simp⟩
  | atom _ ih => exact ih
  | signed _ ih => exact ih
  | product _ ih => exact ih
  | multiply _ _ _ ih =>
    obtain ⟨l, rest, rfl, hl⟩ := ih
    exact ⟨l, _, rfl, hl⟩
  | add _ _ _ ih =>
    obtain ⟨l, rest, rfl, hl⟩ := ih
    exact ⟨l, _, rfl, hl⟩

private theorem Derives.eat?_var (h : Derives registers .sum ls n) (rest : List Lexeme) :
    eat? .var (ls ++ rest) = none := by
  obtain ⟨l, ls, rfl, hl⟩ := h.exists_eq_cons
  exact eat?_cons_of_ne hl _

/-- A statement has a token. -/
private theorem DerivesStatement.ne_nil (h : DerivesStatement registers ls n registers') :
    ls ≠ [] := by
  cases h with
  | declare => exact List.cons_ne_nil _ _
  | define => exact List.cons_ne_nil _ _
  | expression whole =>
    obtain ⟨l, rest, rfl, -⟩ := whole.exists_eq_cons
    exact List.cons_ne_nil _ _
  | assign => simp

private theorem parseDeclaration_bare {name : String} {keyword span : Span} {register : Nat}
    {rest : List Lexeme} (known : declare registers name span = .ok (register, registers'))
    (hrest : eat? .assign rest = none) :
    (parseDeclaration registers keyword).Yields (⟨.name name, span⟩ :: rest)
      (⟨.var name register, [], some (keyword.merge span)⟩, registers') rest := by
  refine ⟨Nat.lt_succ_self _, bind_eq_ok.2 ⟨_, rfl, bind_eq_ok.2 ⟨_, known, ?_⟩⟩⟩
  dsimp only
  rw [hrest]
  rfl

private theorem parseDeclaration_init {name : String} {keyword span sign : Span} {register : Nat}
    {init : Node} {tokens rest : List Lexeme}
    (known : declare registers name span = .ok (register, registers'))
    (hinit : (parseExpression registers').Yields tokens init rest) :
    (parseDeclaration registers keyword).Yields (⟨.name name, span⟩ :: ⟨.assign, sign⟩ :: tokens)
      (⟨.var name register, [init], some (keyword.merge (init.span.getD span))⟩, registers')
      rest := by
  obtain ⟨shorter, hinit⟩ := hinit
  refine ⟨Nat.lt_succ_of_lt (Nat.lt_succ_of_lt shorter), ?_⟩
  refine bind_eq_ok.2 ⟨_, rfl, bind_eq_ok.2 ⟨_, known, ?_⟩⟩
  dsimp only
  rw [eat?_cons]
  exact bind_eq_ok.2 ⟨_, hinit, rfl⟩

private theorem parseStatement_var {keyword : Span} {value : Node × List String}
    {tokens rest : List Lexeme}
    (h : (parseDeclaration registers keyword).Yields tokens value rest) :
    (parseStatement registers).Yields (⟨.var, keyword⟩ :: tokens) value rest := by
  obtain ⟨shorter, hdeclaration⟩ := h
  refine ⟨Nat.lt_succ_of_lt shorter, ?_⟩
  rw [parseStatement, eat?_cons]
  exact bind_eq_ok.2 ⟨_, hdeclaration, rfl⟩

/-- **What is derived as a statement is taken as one**, if the script goes on as it has to. -/
theorem DerivesStatement.parseStatement (h : DerivesStatement registers ls n registers')
    {rest : List Lexeme} (hrest : Closes rest) :
    (Grammar.parseStatement registers).Yields (ls ++ rest) (n, registers') rest := by
  cases h with
  | declare known => exact parseStatement_var (parseDeclaration_bare known hrest.eat?_assign)
  | define known value =>
    exact parseStatement_var
      (parseDeclaration_init known (value.parseExpression hrest.eatOperator?_eq))
  | expression whole =>
    obtain ⟨shorter, hread⟩ := whole.parseExpression hrest.eatOperator?_eq
    refine ⟨shorter, ?_⟩
    rw [Grammar.parseStatement, whole.eat?_var]
    refine bind_eq_ok.2 ⟨_, hread, ?_⟩
    dsimp only
    rw [hrest.eat?_assign]
    rfl
  | @assign sign ls rs target value left right =>
    -- the target ends at the equals sign, which is no operator
    obtain ⟨shorter, htarget⟩ : (Grammar.parseExpression registers).Yields
        (ls ++ ⟨.assign, sign⟩ :: (rs ++ rest)) target (⟨.assign, sign⟩ :: (rs ++ rest)) :=
      left.parseExpression fun _ => rfl
    obtain ⟨shorter', hvalue⟩ := right.parseExpression hrest.eatOperator?_eq
    rw [List.append_assoc, List.cons_append]
    refine ⟨Nat.lt_trans (Nat.lt_succ_of_lt shorter') shorter, ?_⟩
    rw [Grammar.parseStatement, left.eat?_var]
    refine bind_eq_ok.2 ⟨_, htarget, ?_⟩
    dsimp only
    rw [eat?_cons]
    exact bind_eq_ok.2 ⟨_, hvalue, rfl⟩

/-- **What is derived as a script is read as one.** -/
theorem DerivesScript.parseStatements {ns : List Node}
    (h : DerivesScript registers ls ns registers') :
    Grammar.parseStatements registers ls = .ok (ns, registers') := by
  induction h with
  | nil => rw [Grammar.parseStatements]
  | @last registers registers' ls n statement =>
    have hyields := statement.parseStatement .nothing
    rw [List.append_nil] at hyields
    obtain ⟨shorter, hstatement⟩ := hyields
    -- there is a token, so that the parser does not stop before the statement
    obtain ⟨l, tokens, rfl⟩ := List.exists_cons_of_ne_nil statement.ne_nil
    rw [Grammar.parseStatements]
    exact bind_eq_ok.2 ⟨_, hstatement, rfl⟩
  | @cons registers registers' registers'' ls rs n ns semicolon first _ ih =>
    obtain ⟨shorter, hfirst⟩ : (parseStatement registers).Yields
        (ls ++ ⟨.semicolon, semicolon⟩ :: rs) (n, registers') (⟨.semicolon, semicolon⟩ :: rs) :=
      first.parseStatement .semicolon
    obtain ⟨l, tokens, rfl⟩ := List.exists_cons_of_ne_nil first.ne_nil
    rw [List.cons_append, Grammar.parseStatements]
    refine bind_eq_ok.2 ⟨_, hfirst, ?_⟩
    dsimp only
    rw [eat?_cons]
    exact bind_eq_ok.2 ⟨_, ih, rfl⟩

/-- **The parser accepts what the grammar derives, and builds the tree of the derivation.** -/
theorem parseStatements_eq_ok_iff {tokens : List Lexeme} {ns : List Node} :
    parseStatements registers tokens = .ok (ns, registers') ↔
      DerivesScript registers tokens ns registers' :=
  ⟨derivesScript_of_parseStatements, DerivesScript.parseStatements⟩

/-- **A text is read as a script exactly if its tokens are derived as one.** -/
theorem parse_eq_ok_iff {parameters registers : List String} {source : String} {root : Node} :
    parse parameters source = .ok (root, registers) ↔
      ∃ tokens ns, lex source = .ok tokens ∧ DerivesScript parameters tokens ns registers ∧
        root = rootNode ns := by
  constructor
  · intro h
    obtain ⟨tokens, htokens, h⟩ := bind_eq_ok.1 h
    obtain ⟨⟨ns, known⟩, hns, hroot⟩ := bind_eq_ok.1 h
    cases hroot
    exact ⟨tokens, ns, htokens, parseStatements_eq_ok_iff.1 hns, rfl⟩
  · rintro ⟨tokens, ns, htokens, hns, rfl⟩
    refine bind_eq_ok.2 ⟨tokens, htokens, ?_⟩
    exact bind_eq_ok.2 ⟨_, parseStatements_eq_ok_iff.2 hns, rfl⟩

end Scripts

end Scriptlet.Grammar
