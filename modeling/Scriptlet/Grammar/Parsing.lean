import Scriptlet.Grammar.Lexing
import Scriptlet.Script.Reading

/-!
# From tokens to scripts

The grammar of the small language is

    script    ::= ( statement ( ';' statement )* ';'? )?
    statement ::= 'var' NAME ( '=' sum )?  |  sum ( '=' sum )?
    sum       ::= product ( ( '+' | '-' | '<' ) product )*
    product   ::= signed ( ( '*' | '/' ) signed )*
    signed    ::= '-' signed  |  atom
    atom      ::= INT  |  NAME  |  STRING  |  '(' sum ')'

Chains of operators group to the left, and parentheses leave no node of their own. A name that is
known as a parameter, or from a `var` up to and including the statement at hand, becomes a register.

A parser takes tokens off the front of a list, and fewer of them are left. That is why reading ends:
what a construct begins with is read from the same tokens, but lower in the grammar, and whatever
stands behind that is read from fewer tokens.
-/

namespace Scriptlet.Grammar

/-! ### Taking tokens -/

/-- Something read off the front of a list of tokens, with the tokens that are left. -/
structure Taken (α : Type) (tokens : List Lexeme) where
  value : α
  rest : List Lexeme
  shorter : rest.length < tokens.length

namespace Taken

variable {α β : Type} {tokens : List Lexeme}

/-- The same tokens, read as something else. -/
def as (taken : Taken α tokens) (value : β) : Taken β tokens := ⟨value, taken.rest, taken.shorter⟩

/-- What stands behind, read together with what has been taken. -/
def andThen (taken : Taken α tokens) (next : Taken β taken.rest) : Taken β tokens :=
  ⟨next.value, next.rest, Nat.lt_trans next.shorter taken.shorter⟩

end Taken

/-- Takes a construct off the front of a list of tokens. -/
abbrev Parser (α : Type) := (tokens : List Lexeme) → Except SyntaxError (Taken α tokens)

/-- Takes one token, whatever it is. -/
def takeToken : Parser Lexeme
  | [] => .error ⟨.unexpectedEnd, none⟩
  | l :: tokens => .ok ⟨l, tokens, Nat.lt_succ_self _⟩

/-- Takes a token of this kind, if there is one in front. -/
def eat? (token : Token) : (tokens : List Lexeme) → Option (Taken Span tokens)
  | [] => none
  | l :: tokens => if l.token = token then some ⟨l.span, tokens, Nat.lt_succ_self _⟩ else none

/-- The span from the beginning of one node to the end of the other. -/
def spanOfBoth (a b : Node) : Option Span :=
  match a.span, b.span with
  | some s, some t => some (s.merge t)
  | _, _ => none

/-- A binary operation with the span from its left to its right operand. -/
def binaryNode (op : BinaryOp) (left right : Node) : Node :=
  ⟨.binary op, [left, right], spanOfBoth left right⟩

/-- The register of a name. Registers are numbered by 32-bit words. -/
def registerOf? (registers : List String) (name : String) : Option Nat :=
  (registers.idxOf? name).filter (· < UInt32.size)

/-! ### Expressions -/

/-- The levels of binary operators: factors, and the sums and comparisons of them. -/
inductive Level where
  | product
  | sum

namespace Level

/-- The operator that a symbol stands for at the level. -/
def operator? : Level → Symbol → Option BinaryOp
  | product => Symbol.multiplicative?
  | sum => Symbol.additive?

/-- Takes an operator of the level, if there is one in front. -/
def eatOperator? (level : Level) : (tokens : List Lexeme) → Option (Taken BinaryOp tokens)
  | ⟨.op symbol, _⟩ :: tokens =>
    (level.operator? symbol).map fun op => ⟨op, tokens, Nat.lt_succ_self _⟩
  | _ => none

/-- How high the level is in the grammar. Atoms and signs are below it. -/
def height : Level → Nat
  | product => 2
  | sum => 4

end Level

/-- The node of a token that is an operand by itself. -/
def leafNode (registers : List String) : Lexeme → Except SyntaxError Node
  | ⟨.int n, span⟩ => .ok ⟨.literal (.int n), [], some span⟩
  | ⟨.str text, span⟩ => .ok ⟨.literal (.str text), [], some span⟩
  | ⟨.name text, span⟩ => .ok ⟨.identifier text (registerOf? registers text), [], some span⟩
  | ⟨token, span⟩ => .error ⟨.unexpectedToken token, some span⟩

/-- The negation of a node behind a minus sign. -/
def negationNode (minus : Span) (operand : Node) : Node :=
  ⟨.unary .neg, [operand], some (minus.merge (operand.span.getD minus))⟩

mutual

/-- A single operand. -/
def parseAtom (registers : List String) : Parser Node := fun tokens => do
  let first ← takeToken tokens
  if first.value.token = .openParen then
    let inner ← parseLevel registers .sum first.rest
    match eat? .closeParen inner.rest with
    | some closing => return first.andThen (inner.andThen (closing.as inner.value))
    | none => .error ⟨.expectedClosing, inner.value.span⟩
  else
    let node ← leafNode registers first.value
    return first.as node
termination_by tokens => (tokens.length, 0)
decreasing_by exact .left _ _ first.shorter

/-- An operand with any number of minus signs in front. -/
def parseSigned (registers : List String) : Parser Node := fun tokens =>
  match eat? (.op .minus) tokens with
  | some minus => do
    let operand ← parseSigned registers minus.rest
    return minus.andThen (operand.as (negationNode minus.value operand.value))
  | none => parseAtom registers tokens
termination_by tokens => (tokens.length, 1)
decreasing_by
  · exact .left _ _ minus.shorter
  · exact .right _ Nat.zero_lt_one

/-- An operand of a chain of the level. -/
def parseOperand (registers : List String) : Level → Parser Node
  | .product, tokens => parseSigned registers tokens
  | .sum, tokens => parseLevel registers .product tokens
termination_by level tokens => (tokens.length, level.height)
decreasing_by all_goals exact .right _ (by decide)

/-- Goes on with a chain, as long as operators of the level follow, each with its operand. -/
def parseChain (registers : List String) (level : Level) {tokens : List Lexeme}
    (left : Taken Node tokens) : Except SyntaxError (Taken Node tokens) :=
  match level.eatOperator? left.rest with
  | some op => do
    let right ← parseOperand registers level op.rest
    let link := op.andThen (right.as (binaryNode op.value left.value right.value))
    parseChain registers level (left.andThen link)
  | none => .ok left
termination_by (left.rest.length, 0)
decreasing_by
  · exact .left _ _ op.shorter
  · exact .left _ _ link.shorter

/-- Operands with operators of one level between them. -/
def parseLevel (registers : List String) (level : Level) : Parser Node := fun tokens => do
  let first ← parseOperand registers level tokens
  parseChain registers level first
termination_by tokens => (tokens.length, level.height + 1)
decreasing_by
  · exact .right _ (Nat.lt_succ_self _)
  · exact .left _ _ first.shorter

end

/-- An expression. -/
abbrev parseExpression (registers : List String) : Parser Node := parseLevel registers .sum

/-! ### Statements -/

/-- The register that a declaration of `name` uses, and the registers after it: a known name keeps
its register, a new one is appended. -/
def declare (registers : List String) (name : String) (span : Span) :
    Except SyntaxError (Nat × List String) :=
  match registerOf? registers name with
  | some register => .ok (register, registers)
  | none =>
    if registers.length < UInt32.size then .ok (registers.length, registers ++ [name])
    else .error ⟨.tooManyLocals, some span⟩

/-- The rest of a declaration after the keyword. The name counts as declared in its initialiser. -/
def parseDeclaration (registers : List String) (keyword : Span) : Parser (Node × List String) :=
  fun tokens => do
    let first ← takeToken tokens
    match first.value with
    | ⟨.name name, span⟩ =>
      -- from here on the name is known, also to its own initialiser
      let (register, registers) ← declare registers name span
      match eat? .assign first.rest with
      | some sign =>
        let init ← parseExpression registers sign.rest
        let whole := keyword.merge (init.value.span.getD span)
        return first.andThen (sign.andThen
          (init.as (⟨.var name register, [init.value], some whole⟩, registers)))
      | none => return first.as (⟨.var name register, [], some (keyword.merge span)⟩, registers)
    | ⟨token, span⟩ => .error ⟨.expectedName token, some span⟩

/-- A statement, with the registers known after it. -/
def parseStatement (registers : List String) : Parser (Node × List String) := fun tokens =>
  match eat? .var tokens with
  | some keyword => do
    let declaration ← parseDeclaration registers keyword.value keyword.rest
    return keyword.andThen declaration
  | none => do
    let target ← parseExpression registers tokens
    match eat? .assign target.rest with
    | some sign =>
      let value ← parseExpression registers sign.rest
      let span := spanOfBoth target.value value.value
      return target.andThen (sign.andThen
        (value.as (⟨.assign, [target.value, value.value], span⟩, registers)))
    | none => return target.as (target.value, registers)

/-- All statements of a list of tokens, with the registers after them. -/
def parseStatements (registers : List String) (tokens : List Lexeme) :
    Except SyntaxError (List Node × List String) :=
  match tokens with
  | [] => .ok ([], registers)
  | l :: tokens => do
    let first ← parseStatement registers (l :: tokens)
    let (statement, registers) := first.value
    -- a statement is followed by a semicolon or by nothing
    match eat? .semicolon first.rest with
    | some semicolon =>
      let (statements, registers) ← parseStatements registers semicolon.rest
      return (statement :: statements, registers)
    | none =>
      match first.rest with
      | [] => return ([statement], registers)
      | ⟨token, span⟩ :: _ => .error ⟨.unexpectedToken token, some span⟩
termination_by tokens.length
decreasing_by exact Nat.lt_trans semicolon.shorter first.shorter

/-! ### Scripts -/

/-- The root over statements, with the span from the first to the last. -/
def rootNode (statements : List Node) : Node :=
  let span :=
    match statements.head?, statements.getLast? with
    | some first, some last => spanOfBoth first last
    | _, _ => none
  ⟨.script, statements, span⟩

/-- The root and the registers that a source text describes. -/
def parse (parameters : List String) (source : String) :
    Except SyntaxError (Node × List String) := do
  let tokens ← lex source
  let (statements, registers) ← parseStatements parameters tokens
  return (rootNode statements, registers)

/-- The reader of the grammar, for scripts with the given parameters. -/
def reader (parameters : List String) : Reader := fun source =>
  match parse parameters source with
  | .ok (root, registers) =>
    (Script.ofRegisters root registers parameters.length).mapError ReadError.layout
  | .error e => .error (.malformed e.complaint.message e.span)

end Scriptlet.Grammar
