import Scriptlet.Proofs.Grammar.Derivations
import Scriptlet.Proofs.Grammar.Words
import Scriptlet.Proofs.Tree.Subtrees
import Scriptlet.Tree.Rendering

/-!
# Written expressions

An expression between the two sides of the grammar: it has words for leaves, as a text does, and the
grouping of a tree, but neither blanks nor parentheses nor spans. Rendering gives it a text, with
parentheses by the precedence of the operators, and the words of that text can be told without
looking at the characters.

* `Expr.text`, `Expr.words` — how an expression is written, and the words of it;
* `Expr.laid` — the text is laid out from the words;
* `Expr.Describes` — the expression that a tree stands for over its source;
* `Expr.Describes.render` — rendering writes the expression of a tree;
* `Derives.exists_describes` — every derived tree stands for an expression.
-/

namespace Scriptlet.Grammar

/-! ### Signs as words -/

/-- The operator that a symbol stands for between two operands. -/
def Symbol.operator : Symbol → BinaryOp
  | plus => .add
  | minus => .sub
  | times => .mul
  | slash => .div
  | less => .lt

theorem Symbol.operator_of_additive? {symbol : Symbol} {op : BinaryOp}
    (h : symbol.additive? = some op) : symbol.operator = op := by
  cases symbol <;> cases h <;> rfl

theorem Symbol.operator_of_multiplicative? {symbol : Symbol} {op : BinaryOp}
    (h : symbol.multiplicative? = some op) : symbol.operator = op := by
  cases symbol <;> cases h <;> rfl

/-- The word of an operator symbol. -/
def Symbol.word (symbol : Symbol) : Word :=
  ⟨.op symbol, [symbol.char], .mark (by cases symbol <;> rfl)⟩

/-- An opening parenthesis. -/
def Word.opening : Word := ⟨.openParen, ['('], .mark rfl⟩

/-- A closing parenthesis. -/
def Word.closing : Word := ⟨.closeParen, [')'], .mark rfl⟩

/-- Whether the token is an operand by itself. -/
def Token.isOperand : Token → Bool
  | int _ | str _ | name _ => true
  | _ => false

private theorem Token.isOperand_of_leafKind? {token : Token} {registers : List String} {kind : Kind}
    (h : token.leafKind? registers = some kind) : token.isOperand := by
  cases token with
  | int n => rfl
  | str text => rfl
  | name text => rfl
  | _ => cases h

/-- Every operand token stands for a leaf. -/
theorem Token.exists_leafKind? {token : Token} (h : token.isOperand) (registers : List String) :
    ∃ kind, token.leafKind? registers = some kind := by
  cases token with
  | int n => exact ⟨_, rfl⟩
  | str text => exact ⟨_, rfl⟩
  | name text => exact ⟨_, rfl⟩
  | _ => cases h

/-! ### Expressions -/

/-- An expression over words. -/
inductive Expr where
  | leaf (word : Word) (operand : word.token.isOperand)
  | neg (operand : Expr)
  | binary (symbol : Symbol) (left right : Expr)

/-- How loosely rendering takes the operands of a symbol to be held together. -/
def Symbol.rank (symbol : Symbol) : Nat := symbol.operator.precedence + 1

/-- How loosely rendering takes an expression to be held together. -/
def Expr.rank : Expr → Nat
  | leaf .. => 0
  | neg _ => 1
  | binary symbol _ _ => symbol.rank

/-- The text, in parentheses if they are needed. -/
def encloseText (needed : Bool) (text : String) : String :=
  if needed then "(" ++ text ++ ")" else text

/-- The words, in parentheses if they are needed. -/
def encloseWords (needed : Bool) (words : List Word) : List Word :=
  if needed then .opening :: (words ++ [.closing]) else words

namespace Expr

/-- The expression as it is written. -/
def text : Expr → String
  | leaf word _ => String.ofList word.letters
  | neg e => "-" ++ encloseText (0 < e.rank) e.text
  | binary symbol l r =>
    encloseText (symbol.rank < l.rank) l.text ++ Text.spaced symbol.operator.symbol ++
      encloseText (symbol.rank ≤ r.rank) r.text

/-- The words of the expression as it is written. -/
def words : Expr → List Word
  | leaf word _ => [word]
  | neg e => Symbol.minus.word :: encloseWords (0 < e.rank) e.words
  | binary symbol l r =>
    encloseWords (symbol.rank < l.rank) l.words ++ symbol.word ::
      encloseWords (symbol.rank ≤ r.rank) r.words

end Expr

/-! ### Layout -/

/-- A word by itself is laid out. -/
theorem Laid.single (w : Word) : Laid w.letters [w] := by
  have h : Laid (w.letters ++ []) [w] := .word w (Token.endsBefore_nil _) .nil
  rwa [List.append_nil] at h

/-- A sign that no character prolongs may stand directly before anything. -/
theorem Laid.behind {cs : List Char} {ws : List Word} (w : Word)
    (hsign : ∀ c, w.token.prolongs c = false) (h : Laid cs ws) : Laid (w.letters ++ cs) (w :: ws) :=
  .word w (fun c _ => hsign c) h

/-- A word with a blank behind it may stand before anything. -/
theorem Laid.spaced {cs : List Char} {ws : List Word} (w : Word) (h : Laid cs ws) :
    Laid (w.letters ++ ' ' :: cs) (w :: ws) := by
  refine .word w ?_ (.space (by decide) h)
  exact Token.endsBefore_cons.2 (w.token.prolongs_of_not_isNamePart (by decide))

/-- Two layouts with a word between them, and blanks around the word. -/
theorem Laid.between {as bs : List Char} {vs ws : List Word} (ha : Laid as vs) (w : Word)
    (hb : Laid bs ws) : Laid (as ++ (' ' :: (w.letters ++ ' ' :: bs))) (vs ++ w :: ws) :=
  ha.append (.space (by decide) (hb.spaced w)) (by simp [isNamePart])

/-- Parentheses are words of their own, on both sides. -/
theorem Laid.enclose {text : String} {ws : List Word} (h : Laid text.toList ws) (needed : Bool) :
    Laid (encloseText needed text).toList (encloseWords needed ws) := by
  cases needed with
  | false => exact h
  | true =>
    have hclosing : Laid (text.toList ++ [')']) (ws ++ [.closing]) := by
      refine h.append (.single .closing) ?_
      rintro c ⟨rfl⟩
      rfl
    have hopening := Laid.behind .opening (fun _ => rfl) hclosing
    simpa [encloseText, encloseWords, Word.opening] using hopening

/-- **The text of an expression is laid out from its words.** -/
theorem Expr.laid (e : Expr) : Laid e.text.toList e.words := by
  induction e with
  | leaf word operand =>
    simpa [text, words] using Laid.single word
  | neg e ih =>
    have h := Laid.behind Symbol.minus.word (fun _ => rfl) (ih.enclose (0 < e.rank))
    simpa [text, words, Symbol.word, Symbol.char] using h
  | binary symbol l r ihl ihr =>
    -- either operand with its own parentheses, and blanks around the operator
    have h := (ihl.enclose (symbol.rank < l.rank)).between symbol.word
      (ihr.enclose (symbol.rank ≤ r.rank))
    have hsign : symbol.operator.symbol.toList = symbol.word.letters := by
      cases symbol <;> rfl
    simpa [text, words, Text.spaced, hsign] using h

/-! ### The expression of a tree -/

/-- The expression that a tree stands for, spans aside: a leaf has the word that its span slices out
of the source. -/
inductive Expr.Describes (source : String) (registers : List String) : Expr → Node → Prop where
  | leaf {word : Word} {operand : word.token.isOperand} {kind : Kind} {span : Span}
      (kind_eq : word.token.leafKind? registers = some kind)
      (slice : span.slice? source = some (String.ofList word.letters)) :
      Describes source registers (.leaf word operand) ⟨kind, [], some span⟩
  | neg {e : Expr} {n : Node} {span : Option Span} (inner : Describes source registers e n) :
      Describes source registers (.neg e) ⟨.unary .neg, [n], span⟩
  | binary {symbol : Symbol} {l r : Expr} {m n : Node} {span : Option Span}
      (left : Describes source registers l m) (right : Describes source registers r n) :
      Describes source registers (.binary symbol l r) ⟨.binary symbol.operator, [m, n], span⟩

section Describes

variable {source : String} {registers : List String} {e : Expr} {n : Node}

/-- The node binds as tightly as the expression. -/
theorem Expr.Describes.rank_level (h : e.Describes source registers n) :
    n.kind.level.rank = e.rank := by
  cases h with
  | @leaf word operand kind span kind_eq _ =>
    obtain ⟨token, letters, spells⟩ := word
    cases token <;> cases kind_eq <;> rfl
  | neg _ => rfl
  | binary _ _ => rfl

/-- Numbers are spelled without a sign. -/
private theorem Spells.int_nonneg {v : Int64} {letters : List Char} (h : Spells (.int v) letters) :
    ¬ v < 0 := by
  cases h with
  | int first more value =>
    have hv := Number.fit?_eq_some_iff.1 value
    rw [Int64.lt_iff_toInt_lt, hv, Int64.toInt_zero]
    exact Int.not_lt.2 (Int.natCast_nonneg _)
  | mark sign => cases sign?_of_mark? sign

/-- A minus sign needs parentheses before everything but a leaf. -/
theorem Expr.Describes.needsParens (h : e.Describes source registers n) :
    n.needsParens .neg = decide (0 < e.rank) := by
  have hrank := h.rank_level
  cases h with
  | @leaf word operand kind span kind_eq _ =>
    obtain ⟨token, letters, spells⟩ := word
    cases token with
    | int v =>
      cases kind_eq
      -- a negative literal would be written with a minus sign, but none is ever read
      have hv := spells.int_nonneg
      simpa [Node.needsParens, Node.looser, Node.startsWithMinus, Kind.level, Level.rank,
        rank] using hv
    | str text =>
      cases kind_eq
      rfl
    | name text =>
      cases kind_eq
      rfl
    | _ => cases kind_eq
  | neg _ => rfl
  | @binary symbol l r m n span _ _ => cases symbol <;> rfl

/-- The text of a leaf is copied from the source. -/
private theorem leafText_of_slice {w : Word} {span : Span}
    (h : span.slice? source = some (String.ofList w.letters)) (fresh : String) :
    Node.leafText (some source) (some span) fresh = String.ofList w.letters := by
  obtain ⟨c, more, hletters, _⟩ := w.spells.exists_first
  have hempty : (String.ofList w.letters).isEmpty = false := by
    rw [hletters]
    simp
  rw [Node.leafText, h, Option.map_some, w.trim_letters]
  dsimp only
  rw [hempty]
  rfl

theorem text_enclose (needed : Bool) (f : Fragment) :
    (f.enclose needed).text = encloseText needed f.text := by
  cases needed <;> rfl

/-- **Rendering writes the expression of a tree.** -/
theorem Expr.Describes.render (h : e.Describes source registers n) :
    (n.render (some source)).text = e.text := by
  induction h with
  | @leaf word operand kind span kind_eq slice =>
    obtain ⟨token, letters, spells⟩ := word
    -- whatever would be written afresh, the letters of the word are copied
    have hleaf := leafText_of_slice slice
    cases token <;> cases kind_eq <;> simpa [Node.render, text] using hleaf _
  | @neg e n span inner ih =>
    simp only [Node.render, text, Fragment.text_append, Fragment.text_mark, Fragment.text_ofText,
      text_enclose, ih, inner.needsParens, String.empty_append]
    rfl
  | @binary symbol l r m n span left right ihl ihr =>
    simp only [Node.render, text, Fragment.text_append, Fragment.text_mark, Fragment.text_ofText,
      text_enclose, ihl, ihr, String.empty_append, Node.looser, Node.asLoose,
      left.rank_level, right.rank_level]
    rfl

/-- Two trees of one expression differ at most in their spans. -/
theorem Expr.Describes.unlocated_eq {source' : String} {n' : Node}
    (h : e.Describes source registers n) (h' : e.Describes source' registers n') :
    n.unlocated = n'.unlocated := by
  induction h generalizing n' with
  | leaf kind_eq _ =>
    cases h' with
    | leaf kind_eq' _ =>
      cases kind_eq.symm.trans kind_eq'
      simp
  | neg _ ih =>
    cases h' with
    | neg inner => simp [ih inner]
  | binary _ _ ihl ihr =>
    cases h' with
    | binary left right => simp [ihl left, ihr right]

/-- **Every derived tree stands for an expression**, if its tokens stand for words. -/
theorem Derives.exists_describes {tier : Tier} {ls : List Lexeme} (h : Derives registers tier ls n)
    (hwords : ∀ l ∈ ls, ∃ w, l.Stands source w) :
    ∃ e : Expr, e.Describes source registers n := by
  induction h with
  | @leaf token span kind kind_eq =>
    -- the word that the token of a leaf was read from
    obtain ⟨w, htoken, hslice⟩ := hwords _ (List.mem_singleton_self _)
    dsimp only at htoken
    subst htoken
    exact ⟨.leaf w (Token.isOperand_of_leafKind? kind_eq), .leaf kind_eq hslice⟩
  -- parentheses leave nothing behind, and tiers neither
  | group _ ih => exact ih fun l hl => hwords l (by simp [hl])
  | atom _ ih => exact ih hwords
  | negate _ ih =>
    obtain ⟨e, he⟩ := ih fun l hl => hwords l (List.mem_cons_of_mem _ hl)
    exact ⟨.neg e, .neg he⟩
  | signed _ ih => exact ih hwords
  | @multiply symbol op span ls rs l r operator _ _ ihl ihr =>
    obtain ⟨el, hl⟩ := ihl fun l hl => hwords l (by simp [hl])
    obtain ⟨er, hr⟩ := ihr fun l hl => hwords l (by simp [hl])
    rw [← Symbol.operator_of_multiplicative? operator]
    exact ⟨.binary symbol el er, .binary hl hr⟩
  | product _ ih => exact ih hwords
  | @add symbol op span ls rs l r operator _ _ ihl ihr =>
    obtain ⟨el, hl⟩ := ihl fun l hl => hwords l (by simp [hl])
    obtain ⟨er, hr⟩ := ihr fun l hl => hwords l (by simp [hl])
    rw [← Symbol.operator_of_additive? operator]
    exact ⟨.binary symbol el er, .binary hl hr⟩

end Describes

end Scriptlet.Grammar
