import Scriptlet.Number.Floating
import Scriptlet.Source.Span
import Scriptlet.Tree.Operator

/-!
# Syntax trees

A script is a tree of nodes. A node has a kind, its children in order, and the span of source text
it was read from, if it was read from any. The kind says how many children make sense, but a tree
may be built with any number; whether the count is right is decided by whoever uses the node.

Equality of nodes compares kinds, children and spans, with floating-point literals as numbers: a
tree with a NaN in it differs from itself, and the two zeros are equal.
-/

namespace Scriptlet

/-- The constants that can be written in a script. -/
inductive Literal where
  | null
  | bool (value : Bool)
  | int (value : Int64)
  | float (value : Number.Double)
  | str (value : String)
deriving BEq, Inhabited

/-- What a node stands for. A variable may be resolved to a register, the index of a slot. -/
inductive Kind where
  | script
  | block
  | literal (value : Literal)
  | identifier (name : String) (register : Option Nat)
  | var (name : String) (register : Nat)
  | assign
  | binary (op : BinaryOp)
  | unary (op : UnaryOp)
  | ternary
  | branch
  | loop
  | array
  | index
  | size
deriving BEq, Inhabited

/-- The name of a kind in messages and in renderings of malformed nodes. -/
def Kind.name : Kind → String
  | script => "script"
  | block => "block"
  | literal _ => "literal"
  | identifier .. => "identifier"
  | var .. => "var"
  | assign => "assign"
  | binary _ => "binary"
  | unary _ => "unary"
  | ternary => "ternary"
  | branch => "if"
  | loop => "while"
  | array => "array"
  | index => "index"
  | size => "size"

/-- The numbers of children that a kind takes, in words; kinds that take any number say nothing. -/
def Kind.arity : Kind → String
  | script | block | literal _ | identifier .. | array => ""
  | unary _ | size => "1"
  | assign | binary _ | loop | index => "2"
  | ternary => "3"
  | var .. => "0 or 1"
  | branch => "2 or 3"

/-- A node of a syntax tree. -/
structure Node where
  kind : Kind
  children : List Node
  span : Option Span
deriving Inhabited

namespace Node

mutual

/-- The number of nodes in the tree. -/
def count : Node → Nat
  | ⟨_, children, _⟩ => countAll children + 1

/-- The number of nodes in a sequence of trees. -/
def countAll : List Node → Nat
  | [] => 0
  | n :: ns => n.count + countAll ns

end

mutual

/-- The node and all below it, each before its children and the children in order. -/
def preorder : Node → List Node
  | ⟨kind, children, span⟩ => ⟨kind, children, span⟩ :: preorderAll children

/-- The preorders of a sequence of trees, one after the other. -/
def preorderAll : List Node → List Node
  | [] => []
  | n :: ns => n.preorder ++ preorderAll ns

end

mutual

/-- Equality of trees, with numbers compared as numbers. -/
def beq : Node → Node → Bool
  | ⟨k, cs, s⟩, ⟨k', cs', s'⟩ => k == k' && s == s' && beqAll cs cs'

/-- Equality of two sequences of trees. -/
def beqAll : List Node → List Node → Bool
  | [], [] => true
  | n :: ns, m :: ms => n.beq m && beqAll ns ms
  | _, _ => false

end

instance : BEq Node := ⟨beq⟩

end Node

end Scriptlet
