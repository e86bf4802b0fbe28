import Scriptlet.Number.Floating
import Scriptlet.Number.Written
import Scriptlet.Text.Quoted
import Scriptlet.Tree.Node

/-!
# Rendering trees as text

A tree is written as the text that reads as it: statements joined by semicolons, operators between
their operands with single spaces, and parentheses only where the grouping needs them. Literals and
identifiers are copied from the source text where their spans allow it and written afresh otherwise.
A node with the wrong number of children is written like a call, its kind in front of its children.

Rendering also reports its coverage, the least span around the spans of all nodes it has written.

* `Fragment` — a piece of text with its coverage; fragments are joined by `++`;
* `Node.render` — the fragment of a tree.
-/

namespace Scriptlet

/-- A piece of rendered text, with the span that the nodes in it cover, if any has one. -/
structure Fragment where
  text : String
  coverage : Option Span
deriving DecidableEq

namespace Fragment

/-- Text that belongs to no node. -/
def ofText (text : String) : Fragment := ⟨text, none⟩

/-- The mark of a node with the given span. It writes nothing. -/
def mark (span : Option Span) : Fragment := ⟨"", span⟩

/-- One fragment after the other, with the least coverage around both. -/
def append (f g : Fragment) : Fragment :=
  ⟨f.text ++ g.text, Option.merge Span.merge f.coverage g.coverage⟩

instance : Append Fragment := ⟨append⟩

instance : Coe String Fragment := ⟨ofText⟩

@[simp]
theorem text_append (f g : Fragment) : (f ++ g).text = f.text ++ g.text := rfl

@[simp]
theorem coverage_append (f g : Fragment) :
    (f ++ g).coverage = Option.merge Span.merge f.coverage g.coverage := rfl

@[simp]
theorem text_ofText (text : String) : (ofText text).text = text := rfl

@[simp]
theorem coverage_ofText (text : String) : (ofText text).coverage = none := rfl

@[simp]
theorem text_mark (span : Option Span) : (mark span).text = "" := rfl

@[simp]
theorem coverage_mark (span : Option Span) : (mark span).coverage = span := rfl

/-- The fragments with `separator` between them. -/
def join (separator : String) : List Fragment → Fragment
  | [] => ""
  | f :: fs => fs.foldl (fun joined g => joined ++ separator ++ g) f

/-- The fragment, in parentheses if they are needed. -/
def enclose (needed : Bool) (f : Fragment) : Fragment :=
  if needed then "(" ++ f ++ ")" else f

end Fragment

/-- A literal as it is written in a script. -/
def Literal.text : Literal → String
  | null => "null"
  | bool true => "true"
  | bool false => "false"
  | int n => Number.integerText n
  | float x => Number.floatText x.value
  | str s => Text.quote s

/-! ### Binding levels

How tightly a node holds together when it is an operand; a lower level holds tighter. -/

/-- Binding levels of the constructs other than binary operators, which lie between `unary` and
`ternary` by precedence. -/
inductive Level where
  | atom
  | unary
  | binary (precedence : Nat)
  | ternary
  | assign
  | statement

/-- Levels in order, from tight to loose. -/
def Level.rank : Level → Nat
  | atom => 0
  | unary => 1
  | binary precedence => precedence + 1
  | ternary => 8
  | assign => 9
  | statement => 10

/-- The binding level of a node of this kind. -/
def Kind.level : Kind → Level
  | literal _ | identifier .. | array | index | size => .atom
  | unary _ => .unary
  | binary op => .binary op.precedence
  | ternary => .ternary
  | assign => .assign
  | script | block | var .. | branch | loop => .statement

namespace Node

/-- Whether the node binds looser than `level`. -/
def looser (n : Node) (level : Level) : Bool := level.rank < n.kind.level.rank

/-- Whether the node binds looser than `level` or just as loosely. -/
def asLoose (n : Node) (level : Level) : Bool := level.rank ≤ n.kind.level.rank

/-- Whether the node is written with a minus sign in front. -/
def startsWithMinus (n : Node) : Bool :=
  match n.kind with
  | .unary .neg => true
  | .literal (.int v) => v < 0
  | .literal (.float v) => v.isNegative
  | _ => false

/-- The text of a leaf: what its span covers in the source, without blanks around it, or `fresh` if
there is no source, no span, or nothing but blanks under it. -/
def leafText (source : Option String) (span : Option Span) (fresh : String) : String :=
  match source, span with
  | some source, some span =>
    match (span.slice? source).map Source.trim with
    | some copied => if copied.isEmpty then fresh else copied
    | none => fresh
  | _, _ => fresh

/-- Whether an operand of a unary operator needs parentheses: if it binds looser, and so that two
minus signs never meet. -/
def needsParens (op : UnaryOp) (operand : Node) : Bool :=
  operand.looser .unary || (op == .neg && operand.startsWithMinus)

mutual

/-- The tree as text, with its coverage. Binary operators associate to the left, so that an equally
loose right operand is parenthesised and a left one is not. -/
def render (source : Option String) : Node → Fragment
  | ⟨kind, children, span⟩ =>
    .mark span ++ match kind, children with
    | .script, statements => .join "; " (renderAll source statements)
    | .block, [] => "\x7b\x7d"
    | .block, statements => "\x7b " ++ .join "; " (renderAll source statements) ++ " \x7d"
    | .literal value, [] => leafText source span value.text
    | .identifier name _, [] => leafText source span name
    | .var name _, [] => "var " ++ name
    | .var name _, [init] =>
      "var " ++ name ++ Text.spaced "=" ++ (render source init).enclose (init.looser .assign)
    | .assign, [target, value] =>
      (render source target).enclose (target.looser .atom) ++ Text.spaced "=" ++
        (render source value).enclose (value.looser .assign)
    | .binary op, [left, right] =>
      (render source left).enclose (left.looser (.binary op.precedence)) ++
        Text.spaced op.symbol ++
        (render source right).enclose (right.asLoose (.binary op.precedence))
    | .unary op, [operand] =>
      op.symbol ++ (render source operand).enclose (needsParens op operand)
    | .ternary, [condition, positive, negative] =>
      (render source condition).enclose (condition.asLoose .ternary) ++ Text.spaced "?" ++
        (render source positive).enclose (positive.looser .ternary) ++ Text.spaced ":" ++
        (render source negative).enclose (negative.looser .ternary)
    | .branch, [condition, positive] =>
      "if (" ++ render source condition ++ ") " ++ render source positive
    | .branch, [condition, positive, negative] =>
      "if (" ++ render source condition ++ ") " ++ render source positive ++ " else " ++
        render source negative
    | .loop, [condition, body] =>
      "while (" ++ render source condition ++ ") " ++ render source body
    | .array, elements => "[" ++ .join ", " (renderAll source elements) ++ "]"
    | .index, [container, position] =>
      (render source container).enclose (container.looser .atom) ++ "[" ++
        render source position ++ "]"
    | .size, [operand] => "size(" ++ render source operand ++ ")"
    -- the children do not fit the kind
    | kind, children => kind.name ++ "(" ++ .join ", " (renderAll source children) ++ ")"

/-- The fragments of a sequence of trees. -/
def renderAll (source : Option String) : List Node → List Fragment
  | [] => []
  | n :: ns => render source n :: renderAll source ns

end

/-- Trees in a row are rendered each by itself. -/
@[simp]
theorem renderAll_eq_map (source : Option String) (ns : List Node) :
    renderAll source ns = ns.map (render source) := by
  induction ns with
  | nil => rfl
  | cons n ns ih => simp [renderAll, ih]

end Node

end Scriptlet
