import Scriptlet.Proofs.Tree.Writing

/-!
# What stands at the root of a written tree

In the pieces of a statement, the loosest piece outside brackets belongs to the root: parentheses
are written wherever an operand would be looser than its operator. So the pieces alone say of which
form the root is, and whether something stands in parentheses.

* `Node.IsStatement.within`, `Node.IsStatement.rank_le_of_within` — outside brackets the loosest
  piece is as loose as the root;
* `Node.IsStatement.outline_eq` — the form of the root can be told from the pieces;
* `Node.IsStatement.enclosePieces_inj` — parentheses can be told from what is in them.
-/

namespace Scriptlet

/-! ### The loosest piece -/

theorem BinaryOp.precedence_le (op : BinaryOp) : op.precedence ≤ 8 := by
  cases op <;> decide

/-- The level of a node as it is written: a block is held together by its braces. -/
def Kind.outerLevel : Kind → Level
  | block => .atom
  | kind => kind.level

/-- Braces only make a node tighter. -/
private theorem Kind.rank_outerLevel_le (kind : Kind) : kind.outerLevel.rank ≤ kind.level.rank := by
  cases kind with
  | block => exact Nat.zero_le _
  | _ => exact Nat.le_refl _

section Within

variable {j k : Nat} {ps qs : List Piece} {n : Node}

/-- Nothing is loose outside parentheses that hold everything. -/
private theorem within_enclosed (h : Within j ps) :
    Within k (.mark .openParen :: (ps ++ [.mark .closeParen])) :=
  .group rfl (Nat.zero_le k) h rfl

/-- Parentheses are there, or what has none is tight enough. -/
private theorem within_enclosePieces (h : Within j ps) {needed : Bool}
    (hle : needed = false → j ≤ k) : Within k (enclosePieces needed ps) := by
  cases needed with
  | false => exact h.mono (hle rfl)
  | true => exact within_enclosed h

/-- A blank by itself is as loose as a statement. -/
private theorem within_blank : Within 10 [.blank] :=
  .single rfl (Nat.le_refl 10)

/-- A body under a condition is as loose as its blanks. -/
private theorem within_guardedPieces (word : List Char) (hcondition : Within j ps)
    (hbody : Within 10 qs) : Within 10 (guardedPieces word ps qs) := by
  have hword : Within 10 [.word word] := .single rfl (Nat.zero_le 10)
  have hall := hword.append (within_blank.append ((within_enclosed (k := 10) hcondition).append
    (within_blank.append hbody)))
  -- the condition stands in parentheses, so only the blanks and the body count
  simpa [guardedPieces] using hall

private theorem within_elsePieces (h : Within 10 ps) : Within 10 (elsePieces ps) := by
  have hword : Within 10 [.word ['e', 'l', 's', 'e']] := .single rfl (Nat.zero_le 10)
  exact within_blank.append (hword.append (within_blank.append h))

/-- Whatever the statements are, nothing of them stands outside the braces. -/
private theorem within_blockPieces (h : Within 11 ps) : Within k (blockPieces ps) := by
  have hblank : Within 11 [.blank] := within_blank.mono (Nat.le_succ 10)
  have hgroup : Within k (.mark .openBrace :: (([.blank] ++ (ps ++ [.blank])) ++
      [.mark .closeBrace])) :=
    .group rfl (Nat.zero_le k) (hblank.append (h.append hblank)) rfl
  simpa [blockPieces] using hgroup

private theorem Literal.within_piece (value : Literal) : Within 0 [value.piece] := by
  cases value <;> exact .single rfl (Nat.le_refl 0)

namespace Node

/-- An operand has parentheses if it would be looser than its operator. -/
theorem within_operand (h : Within n.kind.outerLevel.rank n.pieces) (level : Level) :
    Within level.rank (enclosePieces (n.looser level) n.pieces) :=
  within_enclosePieces (h.mono n.kind.rank_outerLevel_le) fun hn =>
    Nat.not_lt.1 (of_decide_eq_false hn)

/-- On the side where its operator does not associate, an operand is tighter. -/
theorem within_tight_operand (h : Within n.kind.outerLevel.rank n.pieces) (level : Level)
    (hk : level.rank = k + 1) : Within k (enclosePieces (n.asLoose level) n.pieces) := by
  refine within_enclosePieces (h.mono n.kind.rank_outerLevel_le) fun hn => Nat.le_of_lt_succ ?_
  rw [Nat.succ_eq_add_one, ← hk]
  exact Nat.not_le.1 (of_decide_eq_false hn)

/-- The operand of a sign is tighter than an operator, or stands in parentheses. -/
private theorem within_signed_operand (h : Within n.kind.outerLevel.rank n.pieces) (op : UnaryOp) :
    Within 1 (enclosePieces (needsParens op n) n.pieces) :=
  within_enclosePieces (h.mono n.kind.rank_outerLevel_le) fun hn =>
    Nat.not_lt.1 (of_decide_eq_false (Bool.or_eq_false_iff.1 hn).1)

/-- Elements and statements in a row are held together by their separators only. -/
theorem within_piecesAll {m : Mark} (hm : m ∈ Mark.separators) {ns : List Node}
    (h : ∀ n ∈ ns, Within 10 n.pieces) : Within 11 (piecesAll m ns) := by
  induction ns with
  | nil => exact .nil
  | cons n ns ih =>
    rw [List.forall_mem_cons] at h
    have hn := h.1.mono (Nat.le_succ 10)
    cases ns with
    | nil => exact hn
    | cons n' ns =>
      have hrank := Mark.rank_of_mem_separators m hm
      have hmark : Within 11 [.mark m] :=
        .single (Mark.weight_of_mem_separators m hm) (Nat.le_of_eq hrank)
      exact hn.append (hmark.append (ih h.2))

namespace IsStatement

/-- No statement is looser than a statement. -/
theorem rank_le (h : n.IsStatement) : n.kind.outerLevel.rank ≤ 10 := by
  cases h with
  | unary => exact Nat.le_add_left 1 9
  | @binary op => exact Nat.le_succ_of_le (Nat.succ_le_succ op.precedence_le)
  | ternary => exact Nat.le_add_left 8 2
  | assign => exact Nat.le_succ 9
  | branch | choice | loop => exact Nat.le_refl 10
  | literal | name | array | index | size | block => exact Nat.zero_le 10

/-- **Outside brackets no piece is looser than the root.** -/
theorem within (h : n.IsStatement) : Within n.kind.outerLevel.rank n.pieces := by
  induction h with
  | @literal value _ => exact value.within_piece
  | name => exact .single rfl (Nat.le_refl 0)
  | @unary op n _ ih =>
    have hsign : Within 1 [.mark (.sign op)] := .single rfl (Nat.le_refl 1)
    exact hsign.append (within_signed_operand ih op)
  -- the operator is the loosest piece: its operands are tighter, or stand in parentheses
  | @binary op l r _ _ ihl ihr =>
    have hmark : Within (op.precedence + 1) [.mark (.between op)] := .single rfl (Nat.le_refl _)
    have hright := within_tight_operand ihr (.binary op.precedence) rfl
    exact (within_operand ihl _).append (hmark.append (hright.mono (Nat.le_succ _)))
  | @ternary c p n _ _ _ ihc ihp ihn =>
    have hcondition := within_tight_operand ihc .ternary rfl
    -- the two marks are brackets around the operand between them
    have hchoice : Within 8 (.mark .question ::
        (enclosePieces (p.looser .ternary) p.pieces ++ [.mark .colon])) :=
      .group rfl (Nat.le_refl 8) (within_operand ihp .ternary) rfl
    have hall := (hcondition.mono (Nat.le_succ 7)).append
      (hchoice.append (within_operand ihn .ternary))
    rwa [List.cons_append, List.append_assoc] at hall
  | @assign t v _ _ iht ihv =>
    have hmark : Within 9 [.mark .equals] := .single rfl (Nat.le_refl 9)
    exact ((within_operand iht .atom).mono (Nat.zero_le 9)).append
      (hmark.append (within_operand ihv .assign))
  | @array ns elements ih =>
    have hall := within_piecesAll (m := .comma) (by decide) fun n hn =>
      (ih n hn).mono (elements n hn).rank_le
    exact .group rfl (Nat.le_refl 0) hall rfl
  | @index c i _ _ ihc ihi =>
    exact (within_operand ihc .atom).append (.group rfl (Nat.le_refl 0) ihi rfl)
  | @size n _ ih =>
    have hword : Within 0 [.word ['s', 'i', 'z', 'e']] := .single rfl (Nat.le_refl 0)
    exact hword.append (.group rfl (Nat.le_refl 0) ih rfl)
  | branch _ positive ihc ihp =>
    exact within_guardedPieces _ ihc (ihp.mono positive.rank_le)
  | choice _ positive negative ihc ihp ihn =>
    have halternative := within_elsePieces (ihn.mono negative.rank_le)
    exact within_guardedPieces _ ihc ((ihp.mono positive.rank_le).append halternative)
  | loop _ body ihc ihb =>
    exact within_guardedPieces _ ihc (ihb.mono body.rank_le)
  -- the separators between statements are looser than any of them, but stand in braces
  | @block ns statements ih =>
    have hall := within_piecesAll (m := .semicolon) (by decide) fun n hn =>
      (ih n hn).mono (statements n hn).rank_le
    cases ns with
    | nil => exact .group rfl (Nat.le_refl 0) hall rfl
    | cons n ns => exact within_blockPieces hall

/-- Outside brackets a statement has no separator. -/
theorem within_ten (h : n.IsStatement) : Within 10 n.pieces :=
  h.within.mono h.rank_le

/-- **Some piece outside brackets is as loose as the root**, if that is an operator or control flow
without braces. -/
theorem rank_le_of_within (hn : n.IsStatement) (h : Within k n.pieces) :
    n.kind.outerLevel.rank ≤ k := by
  -- up to the operator of the root everything is in brackets or tighter
  cases hn with
  | @unary op n _ => exact h.ranks [] (.mark (.sign op)) _ rfl rfl
  | @binary op l r left _ =>
    exact h.ranks _ (.mark (.between op)) _ rfl (within_operand left.within _).total
  | @ternary c p n condition _ _ =>
    exact h.ranks _ (.mark .question) _ rfl (within_tight_operand condition.within _ rfl).total
  | @assign t v target _ =>
    exact h.ranks _ (.mark .equals) _ rfl (within_operand target.within _).total
  -- control flow has a blank behind its word, which is as loose as a statement
  | branch | choice => exact h.ranks [.word ['i', 'f']] .blank _ rfl rfl
  | loop => exact h.ranks [.word ['w', 'h', 'i', 'l', 'e']] .blank _ rfl rfl
  | literal | name | array | index | size | block => exact Nat.zero_le k

end IsStatement

end Node

end Within

/-! ### What stands at the root -/

/-- The level of a given rank. -/
def Level.ofRank : Nat → Level
  | 0 => atom
  | 1 => unary
  | 8 => ternary
  | 9 => assign
  | 10 => statement
  | rank => binary (rank - 1)

/-- A level can be told from its rank. -/
theorem Kind.ofRank_outerLevel (kind : Kind) :
    Level.ofRank kind.outerLevel.rank = kind.outerLevel := by
  cases kind with
  | binary op => cases op <;> rfl
  | _ => rfl

/-- The bracket that ends a node of the kind, if one does whatever its operands are. -/
def Kind.closing? : Kind → Option Mark
  | array | index => some .closeBracket
  | size => some .closeParen
  | block => some .closeBrace
  | _ => none

/-- What the pieces of a node say about its kind at once. -/
def Kind.outline (kind : Kind) : Level × Option Mark := (kind.outerLevel, kind.closing?)

/-- What is no atom does not end with a bracket of its own. -/
private theorem Kind.closing?_of_outerLevel_ne {kind : Kind} (h : kind.outerLevel ≠ .atom) :
    kind.closing? = none := by
  cases kind with
  | array | index | size | block => exact absurd rfl h
  | _ => rfl

/-- The mark that the piece is, if it is one. -/
def Piece.mark? : Piece → Option Mark
  | mark m => some m
  | word _ | quoted _ | blank => none

private theorem getLast?_group (p q : Piece) (ps : List Piece) :
    (p :: (ps ++ [q])).getLast? = some q := by
  rw [← List.cons_append, List.getLast?_concat]

private theorem getLast?_blockPieces (ps : List Piece) :
    (blockPieces ps).getLast? = some (.mark .closeBrace) := by
  simp [blockPieces, List.getLast?_cons]

namespace Node

namespace IsStatement

variable {a b n c i : Node} {ns : List Node}

/-- **The level of the root can be told from the pieces.** -/
private theorem outerLevel_eq (ha : a.IsStatement) (hb : b.IsStatement) (h : a.pieces = b.pieces) :
    a.kind.outerLevel = b.kind.outerLevel := by
  -- the pieces of one bound the rank of the other
  have hle : a.kind.outerLevel.rank ≤ b.kind.outerLevel.rank :=
    ha.rank_le_of_within (h ▸ hb.within)
  have hge : b.kind.outerLevel.rank ≤ a.kind.outerLevel.rank :=
    hb.rank_le_of_within (h ▸ ha.within)
  rw [← Kind.ofRank_outerLevel, Nat.le_antisymm hle hge, Kind.ofRank_outerLevel]

/-- The bracket of an atom is its last piece. -/
private theorem closing?_eq (hn : n.IsStatement) (hatom : n.kind.outerLevel = .atom) :
    n.kind.closing? = n.pieces.getLast?.bind Piece.mark? := by
  cases hn with
  | @literal value _ => cases value <;> rfl
  | name => rfl
  | array | index | size => simp [pieces, Kind.closing?, getLast?_group, Piece.mark?]
  | @block ns _ =>
    cases ns with
    | nil => rfl
    | cons n ns => simp [pieces, Kind.closing?, getLast?_blockPieces, Piece.mark?]
  | unary | binary | ternary | assign | branch | choice | loop => cases hatom

/-- **The form of the root can be told from the pieces.** -/
theorem outline_eq (ha : a.IsStatement) (hb : b.IsStatement) (h : a.pieces = b.pieces) :
    a.kind.outline = b.kind.outline := by
  have hlevel := ha.outerLevel_eq hb h
  have hclosing : a.kind.closing? = b.kind.closing? := by
    -- only an atom has a bracket of its own at its end
    by_cases hatom : a.kind.outerLevel = .atom
    · rw [ha.closing?_eq hatom, hb.closing?_eq (hlevel ▸ hatom), h]
    · rw [Kind.closing?_of_outerLevel_ne hatom, Kind.closing?_of_outerLevel_ne (hlevel ▸ hatom)]
  rw [Kind.outline, hlevel, hclosing, Kind.outline]

/-- Every statement has a first piece. -/
theorem pieces_ne_nil (hn : n.IsStatement) : n.pieces ≠ [] := by
  intro h
  have hopens := hn.opens_pieces
  rw [h] at hopens
  cases hopens

theorem enclosePieces_ne_nil (hn : n.IsStatement) (needed : Bool) :
    enclosePieces needed n.pieces ≠ [] := by
  cases needed with
  | false => exact hn.pieces_ne_nil
  | true => exact List.cons_ne_nil _ _

/-- A leaf can be told from its only piece. -/
theorem eq_ofPiece {p : Piece} (hn : n.IsStatement) (hleaf : n.kind.outline = (.atom, none))
    (h : n.pieces = [p]) : n = ⟨Kind.ofPiece p, [], none⟩ := by
  -- an atom without a bracket of its own is a literal or a variable
  cases hn with
  | literal plain =>
    obtain ⟨rfl, -⟩ := List.cons.inj h
    rw [Kind.ofPiece_literal plain]
  | name free =>
    obtain ⟨rfl, -⟩ := List.cons.inj h
    rw [Kind.ofPiece_name free]
  | _ => cases hleaf

/-- Not all of a statement stands in parentheses. -/
private theorem pieces_ne_enclosed {j : Nat} {ps : List Piece} (hn : n.IsStatement)
    (hps : Within j ps) : n.pieces ≠ .mark .openParen :: (ps ++ [.mark .closeParen]) := by
  intro h
  -- there would be no operator outside the parentheses
  have hrank : n.kind.outerLevel.rank ≤ 0 := hn.rank_le_of_within (h ▸ within_enclosed hps)
  cases hn with
  | literal | name => simp [pieces] at h
  | array | size => cases (List.cons.inj h).1
  | @block ns => cases ns <;> cases (List.cons.inj h).1
  | index container position =>
    have hclosing := (container.index position).closing?_eq rfl
    rw [h, getLast?_group] at hclosing
    cases hclosing
  | unary | binary | ternary | assign | branch | choice | loop =>
    exact absurd hrank (Nat.not_succ_le_zero _)

/-- **Parentheses can be told from what is in them.** -/
theorem enclosePieces_inj (ha : a.IsStatement) (hb : b.IsStatement) {s t : Bool}
    (h : enclosePieces s a.pieces = enclosePieces t b.pieces) : a.pieces = b.pieces := by
  -- either both have parentheses, or a statement would be all in parentheses
  cases s with
  | false =>
    cases t with
    | false => exact h
    | true => exact absurd h (ha.pieces_ne_enclosed hb.within)
  | true =>
    cases t with
    | false => exact absurd h.symm (hb.pieces_ne_enclosed ha.within)
    | true => exact (List.append_inj' (List.cons.inj h).2 rfl).1

end IsStatement

end Node

end Scriptlet
