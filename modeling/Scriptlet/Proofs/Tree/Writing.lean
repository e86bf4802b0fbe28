import Scriptlet.Proofs.Grammar.RoundTrip
import Scriptlet.Proofs.Tree.Pieces

/-!
# Writing expressions and control flow

Rendering a tree without a source writes its pieces one after the other. This module says which
trees are expressions and which are statements, what their pieces are, and that these can be told
apart in the text.

* `Node.IsExpression` — trees of values and operators without spans;
* `Node.IsStatement` — the same with control flow, which may stand wherever an expression may;
* `Node.pieces` — the pieces of a statement as it is written;
* `Node.IsStatement.letters_pieces` — the text of a statement consists of its pieces;
* `Node.IsStatement.legible` — they can be told apart;
* `Kind.ofPiece` — the operands that are single pieces can be told from these.
-/

namespace Scriptlet

open Grammar (isNameStart isNamePart)

/-! ### Expressions -/

/-- Words with a meaning of their own. -/
def reservedWords : List String :=
  ["var", "if", "else", "while", "size", "null", "true", "false"]

/-- Whether the text is the name of a variable: a letter or an underscore, followed by letters,
digits and underscores, and no reserved word. -/
def isVariableName (text : String) : Bool :=
  match text.toList with
  | [] => false
  | c :: cs => isNameStart c && cs.all isNamePart && text ∉ reservedWords

/-- Whether the literal is a single piece: it is no number with a sign or a fraction. -/
def Literal.isPlain : Literal → Bool
  | null | bool _ | str _ => true
  | int n => 0 ≤ n
  | float _ => false

/-- **The expressions**: trees without spans, with the children that each kind takes. -/
inductive Node.IsExpression : Node → Prop where
  | literal {value : Literal} (plain : value.isPlain) : IsExpression ⟨.literal value, [], none⟩
  | name {text : String} (free : isVariableName text) :
      IsExpression ⟨.identifier text none, [], none⟩
  | unary {op : UnaryOp} {n : Node} (operand : IsExpression n) :
      IsExpression ⟨.unary op, [n], none⟩
  | binary {op : BinaryOp} {l r : Node} (left : IsExpression l) (right : IsExpression r) :
      IsExpression ⟨.binary op, [l, r], none⟩
  | ternary {c p n : Node} (condition : IsExpression c) (positive : IsExpression p)
      (negative : IsExpression n) : IsExpression ⟨.ternary, [c, p, n], none⟩
  | assign {t v : Node} (target : IsExpression t) (value : IsExpression v) :
      IsExpression ⟨.assign, [t, v], none⟩
  | array {ns : List Node} (elements : ∀ n ∈ ns, IsExpression n) :
      IsExpression ⟨.array, ns, none⟩
  | index {c i : Node} (container : IsExpression c) (position : IsExpression i) :
      IsExpression ⟨.index, [c, i], none⟩
  | size {n : Node} (operand : IsExpression n) : IsExpression ⟨.size, [n], none⟩

/-- **The statements**: expressions and control flow, each also as a part of the other. -/
inductive Node.IsStatement : Node → Prop where
  | literal {value : Literal} (plain : value.isPlain) : IsStatement ⟨.literal value, [], none⟩
  | name {text : String} (free : isVariableName text) :
      IsStatement ⟨.identifier text none, [], none⟩
  | unary {op : UnaryOp} {n : Node} (operand : IsStatement n) :
      IsStatement ⟨.unary op, [n], none⟩
  | binary {op : BinaryOp} {l r : Node} (left : IsStatement l) (right : IsStatement r) :
      IsStatement ⟨.binary op, [l, r], none⟩
  | ternary {c p n : Node} (condition : IsStatement c) (positive : IsStatement p)
      (negative : IsStatement n) : IsStatement ⟨.ternary, [c, p, n], none⟩
  | assign {t v : Node} (target : IsStatement t) (value : IsStatement v) :
      IsStatement ⟨.assign, [t, v], none⟩
  | array {ns : List Node} (elements : ∀ n ∈ ns, IsStatement n) : IsStatement ⟨.array, ns, none⟩
  | index {c i : Node} (container : IsStatement c) (position : IsStatement i) :
      IsStatement ⟨.index, [c, i], none⟩
  | size {n : Node} (operand : IsStatement n) : IsStatement ⟨.size, [n], none⟩
  | branch {c p : Node} (condition : IsStatement c) (positive : IsStatement p) :
      IsStatement ⟨.branch, [c, p], none⟩
  | choice {c p n : Node} (condition : IsStatement c) (positive : IsStatement p)
      (negative : IsStatement n) : IsStatement ⟨.branch, [c, p, n], none⟩
  | loop {c b : Node} (condition : IsStatement c) (body : IsStatement b) :
      IsStatement ⟨.loop, [c, b], none⟩
  | block {ns : List Node} (statements : ∀ n ∈ ns, IsStatement n) : IsStatement ⟨.block, ns, none⟩

/-- Every expression is a statement. -/
theorem Node.IsExpression.isStatement {n : Node} (h : n.IsExpression) : n.IsStatement := by
  induction h with
  | literal plain => exact .literal plain
  | name free => exact .name free
  | unary _ ih => exact .unary ih
  | binary _ _ ihl ihr => exact .binary ihl ihr
  | ternary _ _ _ ihc ihp ihn => exact .ternary ihc ihp ihn
  | assign _ _ iht ihv => exact .assign iht ihv
  | array _ ih => exact .array ih
  | index _ _ ihc ihi => exact .index ihc ihi
  | size _ ih => exact .size ih

/-- What makes up the name of a variable. -/
private theorem exists_of_isVariableName {text : String} (h : isVariableName text) :
    ∃ c cs, text.toList = c :: cs ∧ isNameStart c ∧ (∀ d ∈ cs, isNamePart d) ∧
      text ∉ reservedWords := by
  unfold isVariableName at h
  split at h
  · cases h
  · next c cs htext =>
    simp only [Bool.and_eq_true, List.all_eq_true, decide_eq_true_eq] at h
    exact ⟨c, cs, htext, h.1.1, h.1.2, h.2⟩

/-! ### Pieces -/

/-- The piece of a literal. -/
def Literal.piece : Literal → Piece
  | str s => .quoted s.toList
  | value => .word value.text.toList

/-- The pieces, in parentheses if they are needed. -/
def enclosePieces (needed : Bool) (ps : List Piece) : List Piece :=
  if needed then .mark .openParen :: (ps ++ [.mark .closeParen]) else ps

/-- The pieces of a body that runs under a condition. -/
def guardedPieces (word : List Char) (condition body : List Piece) : List Piece :=
  .word word :: .blank :: .mark .openParen ::
    (condition ++ .mark .closeParen :: .blank :: body)

/-- The pieces of an alternative, with the word that joins it to what stands before. -/
def elsePieces (alternative : List Piece) : List Piece :=
  .blank :: .word ['e', 'l', 's', 'e'] :: .blank :: alternative

/-- The pieces of a block, from those of its statements. -/
def blockPieces (statements : List Piece) : List Piece :=
  .mark .openBrace :: .blank :: (statements ++ [.blank, .mark .closeBrace])

namespace Node

mutual

/-- The pieces of a statement as it is written. -/
def pieces : Node → List Piece
  | ⟨kind, children, _⟩ =>
    match kind, children with
    | .literal value, [] => [value.piece]
    | .identifier text _, [] => [.word text.toList]
    | .unary op, [n] => .mark (.sign op) :: enclosePieces (needsParens op n) n.pieces
    | .binary op, [l, r] =>
      enclosePieces (l.looser (.binary op.precedence)) l.pieces ++ .mark (.between op) ::
        enclosePieces (r.asLoose (.binary op.precedence)) r.pieces
    | .ternary, [c, p, n] =>
      enclosePieces (c.asLoose .ternary) c.pieces ++ .mark .question ::
        (enclosePieces (p.looser .ternary) p.pieces ++ .mark .colon ::
          enclosePieces (n.looser .ternary) n.pieces)
    | .assign, [t, v] =>
      enclosePieces (t.looser .atom) t.pieces ++ .mark .equals ::
        enclosePieces (v.looser .assign) v.pieces
    | .array, ns => .mark .openBracket :: (piecesAll .comma ns ++ [.mark .closeBracket])
    | .index, [c, i] =>
      enclosePieces (c.looser .atom) c.pieces ++ .mark .openBracket ::
        (i.pieces ++ [.mark .closeBracket])
    | .size, [n] =>
      .word ['s', 'i', 'z', 'e'] :: .mark .openParen :: (n.pieces ++ [.mark .closeParen])
    | .branch, [c, p] => guardedPieces ['i', 'f'] c.pieces p.pieces
    | .branch, [c, p, n] =>
      guardedPieces ['i', 'f'] c.pieces (p.pieces ++ elsePieces n.pieces)
    | .loop, [c, b] => guardedPieces ['w', 'h', 'i', 'l', 'e'] c.pieces b.pieces
    | .block, [] => [.mark .openBrace, .mark .closeBrace]
    | .block, ns => blockPieces (piecesAll .semicolon ns)
    | .script, ns => piecesAll .semicolon ns
    -- anything else is no statement
    | _, _ => []

/-- The pieces of elements or statements, with the separator between them. -/
def piecesAll (separator : Mark) : List Node → List Piece
  | [] => []
  | [n] => n.pieces
  | n :: m :: ns => n.pieces ++ .mark separator :: piecesAll separator (m :: ns)

end

end Node

/-! ### The text of a statement -/

/-- Parentheses are written around whatever is in them. -/
private theorem letters_enclosePieces {f : Fragment} {ps : List Piece}
    (h : f.text.toList = ps.flatMap Piece.letters) (needed : Bool) :
    (f.enclose needed).text.toList = (enclosePieces needed ps).flatMap Piece.letters := by
  cases needed with
  | false => exact h
  | true => simp [Fragment.enclose, enclosePieces, h, Piece.letters, Mark.letters]

/-- A literal is written as its piece. -/
private theorem Literal.letters_piece (value : Literal) :
    value.piece.letters = value.text.toList := by
  cases value with
  | str s => simp [piece, text, Text.quote, Piece.letters]
  | _ => rfl

namespace Node

/-- Elements and statements are joined with their separator. -/
theorem letters_piecesAll {ns : List Node} {text : String} {separator : Mark}
    (hseparator : text.toList = separator.letters)
    (h : ∀ n ∈ ns, (n.render none).text.toList = n.pieces.flatMap Piece.letters) :
    (Fragment.join text (ns.map (render none))).text.toList =
      (piecesAll separator ns).flatMap Piece.letters := by
  induction ns with
  | nil => rfl
  | cons n ns ih =>
    rw [List.forall_mem_cons] at h
    cases ns with
    | nil => simpa [piecesAll, Fragment.join] using h.1
    | cons m ns =>
      have hrest := ih h.2
      rw [List.map_cons] at hrest
      rw [List.map_cons, List.map_cons, Fragment.text_join_cons, piecesAll]
      simp [h.1, hrest, hseparator, Piece.letters]

/-- **The text of a statement consists of its pieces.** -/
theorem IsStatement.letters_pieces {n : Node} (h : n.IsStatement) :
    (n.render none).text.toList = n.pieces.flatMap Piece.letters := by
  -- each form is written around the pieces of its parts
  induction h with
  | @literal value _ => simp [render, leafText, pieces, value.letters_piece]
  | name _ => simp [render, leafText, pieces, Piece.letters]
  | @unary op n _ ih =>
    have hn := letters_enclosePieces ih (needsParens op n)
    simp [render, pieces, hn, Piece.letters, Mark.letters]
  | @binary op l r _ _ ihl ihr =>
    have hl := letters_enclosePieces ihl (l.looser (.binary op.precedence))
    have hr := letters_enclosePieces ihr (r.asLoose (.binary op.precedence))
    simp [render, pieces, hl, hr, Piece.letters, Mark.letters, Text.spaced]
  | @ternary c p n _ _ _ ihc ihp ihn =>
    have hc := letters_enclosePieces ihc (c.asLoose .ternary)
    have hp := letters_enclosePieces ihp (p.looser .ternary)
    have hn := letters_enclosePieces ihn (n.looser .ternary)
    simp [render, pieces, hc, hp, hn, Piece.letters, Mark.letters, Text.spaced]
  | @assign t v _ _ iht ihv =>
    have ht := letters_enclosePieces iht (t.looser .atom)
    have hv := letters_enclosePieces ihv (v.looser .assign)
    simp [render, pieces, ht, hv, Piece.letters, Mark.letters, Text.spaced]
  | array _ ih =>
    have hall := letters_piecesAll (show ", ".toList = Mark.comma.letters from rfl) ih
    simp [render, pieces, hall, Piece.letters, Mark.letters]
  | @index c i _ _ ihc ihi =>
    have hc := letters_enclosePieces ihc (c.looser .atom)
    simp [render, pieces, hc, ihi, Piece.letters, Mark.letters]
  | size _ ih => simp [render, pieces, ih, Piece.letters, Mark.letters]
  | branch _ _ ihc ihp =>
    simp [render, pieces, guardedPieces, ihc, ihp, Piece.letters, Mark.letters]
  | choice _ _ _ ihc ihp ihn =>
    simp [render, pieces, guardedPieces, elsePieces, ihc, ihp, ihn, Piece.letters, Mark.letters]
  | loop _ _ ihc ihb =>
    simp [render, pieces, guardedPieces, ihc, ihb, Piece.letters, Mark.letters]
  | @block ns _ ih =>
    have hall := letters_piecesAll (show "; ".toList = Mark.semicolon.letters from rfl) ih
    -- braces without statements are written without blanks
    cases ns with
    | nil => rfl
    | cons n ns =>
      rw [List.map_cons] at hall
      simp [render, pieces, blockPieces, hall, Piece.letters, Mark.letters]

theorem IsExpression.letters_pieces {n : Node} (h : n.IsExpression) :
    (n.render none).text.toList = n.pieces.flatMap Piece.letters :=
  h.isStatement.letters_pieces

end Node

/-! ### Operands that are single pieces -/

/-- A whole number that is not negative is written in digits. -/
private theorem Literal.piece_int {n : Int64} (h : 0 ≤ n) :
    (Literal.int n).piece = .word (Nat.toDigits 10 n.toInt.toNat) := by
  obtain ⟨k, hk⟩ := Int.eq_ofNat_of_zero_le (Int64.le_iff_toInt_le.1 h)
  change Piece.word (Number.integerText n).toList = _
  rw [Number.integerText, hk, Int.toNat_natCast, ← Nat.toList_repr]
  rfl

private theorem isDigit_of_mem_digits {c : Char} {n : Nat} (h : c ∈ Nat.toDigits 10 n) :
    c.isDigit :=
  Nat.isDigit_of_mem_toDigits (by decide) (by decide) h

/-- The kind of node that a piece stands for by itself. -/
def Kind.ofPiece : Piece → Kind
  | .quoted content => .literal (.str (String.ofList content))
  | .word letters =>
    if letters = "null".toList then .literal .null
    else if letters = "true".toList then .literal (.bool true)
    else if letters = "false".toList then .literal (.bool false)
    else if letters.all Char.isDigit then
      .literal (.int (Int64.ofNat (Nat.ofDigitChars 10 letters 0)))
    else .identifier (String.ofList letters) none
  | .mark _ | .blank => .literal .null

/-- Digits are read as a number. -/
private theorem Kind.ofPiece_digits {letters : List Char} (h : ∀ c ∈ letters, c.isDigit) :
    ofPiece (.word letters) = .literal (.int (Int64.ofNat (Nat.ofDigitChars 10 letters 0))) := by
  -- each of the words has a letter that is no digit
  have hne : ∀ {word : String}, 'n' ∈ word.toList ∨ 'e' ∈ word.toList → letters ≠ word.toList := by
    rintro word (hc | hc) rfl
    · exact absurd (h _ hc) (by decide)
    · exact absurd (h _ hc) (by decide)
  rw [ofPiece, if_neg (hne (by decide)), if_neg (hne (by decide)), if_neg (hne (by decide)),
    if_pos (List.all_eq_true.2 h)]

/-- **A literal can be told from its piece.** -/
theorem Kind.ofPiece_literal {value : Literal} (h : value.isPlain) :
    ofPiece value.piece = .literal value := by
  cases value with
  | null => simp [Literal.piece, Literal.text, ofPiece]
  | bool b => cases b <;> simp [Literal.piece, Literal.text, ofPiece]
  | int n =>
    have hn : 0 ≤ n := of_decide_eq_true h
    rw [Literal.piece_int hn, ofPiece_digits fun _ => isDigit_of_mem_digits,
      Nat.ofDigitChars_ten_toDigits, ← Int64.ofInt_eq_ofNat,
      Int.toNat_of_nonneg (Int64.le_iff_toInt_le.1 hn), Int64.ofInt_toInt]
  | float x => cases h
  | str s => simp [Literal.piece, ofPiece]

/-- **A variable can be told from its piece.** -/
theorem Kind.ofPiece_name {text : String} (h : isVariableName text) :
    ofPiece (.word text.toList) = .identifier text none := by
  obtain ⟨c, cs, htext, hstart, -, hfree⟩ := exists_of_isVariableName h
  have hne : ∀ word ∈ reservedWords, text.toList ≠ word.toList :=
    fun word hword heq => hfree (String.toList_inj.1 heq ▸ hword)
  -- a name begins with no digit
  have hdigit : ¬ text.toList.all Char.isDigit := by
    rw [htext, List.all_cons, Grammar.not_isDigit_of_isNameStart hstart]
    exact nofun
  rw [ofPiece, if_neg (hne "null" (by decide)), if_neg (hne "true" (by decide)),
    if_neg (hne "false" (by decide)), if_neg hdigit, String.ofList_toList]

/-! ### Telling pieces apart -/

private theorem legible_word {letters : List Char} (hne : letters ≠ [])
    (hparts : ∀ c ∈ letters, isNamePart c) : Legible [.word letters] :=
  .word hne hparts (fun _ h => nomatch h) .nil

private theorem Literal.legible_piece {value : Literal} (h : value.isPlain) :
    Legible [value.piece] := by
  cases value with
  | null => exact legible_word (by decide) (List.all_eq_true.1 rfl)
  | bool b => cases b <;> exact legible_word (by decide) (List.all_eq_true.1 rfl)
  | int n =>
    rw [piece_int (of_decide_eq_true h)]
    exact legible_word Nat.toDigits_ne_nil fun c hc =>
      Grammar.isNamePart_of_isDigit (isDigit_of_mem_digits hc)
  | float x => cases h
  | str s => exact .quoted .nil

private theorem legible_name {text : String} (h : isVariableName text) :
    Legible [.word text.toList] := by
  obtain ⟨c, cs, htext, hstart, hparts, -⟩ := exists_of_isVariableName h
  rw [htext]
  have hfirst := Grammar.isNamePart_of_isNameStart hstart
  exact legible_word (List.cons_ne_nil c cs) (List.forall_mem_cons.2 ⟨hfirst, hparts⟩)

section Parts

variable {ps qs : List Piece}

/-- Parentheses are marks, and may stand anywhere. -/
private theorem legible_enclosePieces (h : Legible ps) (needed : Bool) :
    Legible (enclosePieces needed ps) := by
  cases needed with
  | false => exact h
  | true => exact .mark (h.between .closeParen .nil)

/-- The word in front of a condition has a blank behind it, and so has the condition. -/
private theorem legible_guardedPieces {word : List Char} (hne : word ≠ [])
    (hparts : ∀ c ∈ word, isNamePart c) (hcondition : Legible ps) (hbody : Legible qs)
    (hopens : opens qs) : Legible (guardedPieces word ps qs) := by
  refine .word hne hparts (by simp [Piece.shape]) (.blank rfl (.mark ?_))
  exact hcondition.between .closeParen (.blank hopens hbody)

private theorem legible_elsePieces (h : Legible ps) (hopens : opens ps) :
    Legible (elsePieces ps) := by
  refine .blank rfl (.word (List.cons_ne_nil _ _) (List.all_eq_true.1 rfl) ?_ (.blank hopens h))
  simp [Piece.shape]

private theorem legible_blockPieces (h : Legible ps) (hopens : opens ps) :
    Legible (blockPieces ps) :=
  .mark (.blank (opens_append hopens _) (h.append (.blank rfl (.mark .nil)) nofun))

private theorem opens_enclosePieces (h : opens ps) (needed : Bool) :
    opens (enclosePieces needed ps) := by
  cases needed with
  | false => exact h
  | true => rfl

end Parts

namespace Node

variable {n : Node} {ns : List Node}

/-- **A statement begins with an operand**, with signs before it perhaps, or with a bracket. -/
theorem IsStatement.opens_pieces (h : n.IsStatement) : opens n.pieces := by
  -- along the leftmost parts
  induction h with
  | @literal value _ => cases value <;> rfl
  | name | array | size | branch | choice | loop => rfl
  | unary _ ih => exact opens_enclosePieces ih _
  -- these begin with their first operand
  | binary _ _ ih _ | ternary _ _ _ ih _ _ | assign _ _ ih _ | index _ _ ih _ =>
    exact opens_append (opens_enclosePieces ih _) _
  | @block ns _ _ => cases ns <;> rfl

/-- Several statements begin as the first of them does. -/
theorem opens_piecesAll (separator : Mark) (h : n.IsStatement) :
    opens (piecesAll separator (n :: ns)) := by
  cases ns with
  | nil => exact h.opens_pieces
  | cons m ns => exact opens_append h.opens_pieces _

/-- Separators are marks, and may stand between any pieces. -/
theorem legible_piecesAll (separator : Mark) (h : ∀ n ∈ ns, Legible n.pieces) :
    Legible (piecesAll separator ns) := by
  induction ns with
  | nil => exact .nil
  | cons n ns ih =>
    rw [List.forall_mem_cons] at h
    cases ns with
    | nil => exact h.1
    | cons m ns => exact h.1.between separator (ih h.2)

/-- **The pieces of a statement can be told apart.** -/
theorem IsStatement.legible (h : n.IsStatement) : Legible n.pieces := by
  -- operators are marks; only words in front of words need a look
  induction h with
  | literal plain => exact Literal.legible_piece plain
  | name free => exact legible_name free
  | unary _ ih => exact .mark (legible_enclosePieces ih _)
  | binary _ _ ihl ihr =>
    exact (legible_enclosePieces ihl _).between _ (legible_enclosePieces ihr _)
  | ternary _ _ _ ihc ihp ihn =>
    exact (legible_enclosePieces ihc _).between _
      ((legible_enclosePieces ihp _).between _ (legible_enclosePieces ihn _))
  | assign _ _ iht ihv =>
    exact (legible_enclosePieces iht _).between _ (legible_enclosePieces ihv _)
  | array _ ih => exact .mark ((legible_piecesAll _ ih).between .closeBracket .nil)
  | index _ _ ihc ihi =>
    exact (legible_enclosePieces ihc _).between _ (ihi.between .closeBracket .nil)
  | size _ ih =>
    -- the word is followed by the parenthesis
    exact .word (List.cons_ne_nil _ _) (List.all_eq_true.1 rfl) (by simp [Piece.shape])
      (.mark (ih.between .closeParen .nil))
  | branch _ positive ihc ihp =>
    exact legible_guardedPieces (List.cons_ne_nil _ _) (List.all_eq_true.1 rfl) ihc ihp
      positive.opens_pieces
  | choice _ positive negative ihc ihp ihn =>
    have halternative := legible_elsePieces ihn negative.opens_pieces
    exact legible_guardedPieces (List.cons_ne_nil _ _) (List.all_eq_true.1 rfl) ihc
      (ihp.append halternative nofun) (opens_append positive.opens_pieces _)
  | loop _ body ihc ihb =>
    exact legible_guardedPieces (List.cons_ne_nil _ _) (List.all_eq_true.1 rfl) ihc ihb
      body.opens_pieces
  | @block ns statements ih =>
    cases ns with
    | nil => exact .mark (.mark .nil)
    | cons n ns =>
      have hfirst := statements n List.mem_cons_self
      exact legible_blockPieces (legible_piecesAll _ ih) (opens_piecesAll _ hfirst)

theorem IsExpression.legible (h : n.IsExpression) : Legible n.pieces :=
  h.isStatement.legible

end Node

end Scriptlet
