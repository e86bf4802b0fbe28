import Scriptlet.Proofs.Tree.Outline

/-!
# Rendering is unambiguous

Parentheses are written only where the grouping needs them, but they are written wherever it does:
two expressions with the same text are the same. No grammar is needed to see this. The text has one
division into pieces; in the pieces, the loosest operator outside brackets is the one at the root,
and it stands where only one such operator can stand. What is left and right of it then belongs to
the operands.

Control flow is written without parentheses or braces around its branches, and there an alternative
can be read as belonging to another condition than its own: it belongs to the nearest that can take
it. Where this is so in the tree, the tree is settled, and settled statements with the same text are
the same.

* `Node.settled` — every alternative belongs to the nearest condition;
* `Node.IsStatement.told` — a settled statement can be told from its pieces, also with an
  alternative behind it;
* `Node.render_unambiguous` — and an expression, which is always settled, from its text.
-/

namespace Scriptlet

namespace Node

/-! ### Alternatives -/

/-- Whether an alternative written behind the node would be read as part of it: it ends with a
condition that has no alternative yet. -/
def endsOpen : Node → Bool
  | ⟨.branch, [_, _], _⟩ => true
  | ⟨.branch, [_, _, n], _⟩ => n.endsOpen
  | ⟨.loop, [_, b], _⟩ => b.endsOpen
  | _ => false

/-- Whether the alternative of the node, if it has one, would be read as its own. -/
def takesNearest : Node → Bool
  | ⟨.branch, [_, p, _], _⟩ => !p.endsOpen
  | _ => true

mutual

/-- Whether every alternative belongs to the nearest condition that could take it. -/
def settled : Node → Bool
  | ⟨kind, children, span⟩ => settledAll children && takesNearest ⟨kind, children, span⟩

/-- Whether all of the nodes are settled. -/
def settledAll : List Node → Bool
  | [] => true
  | n :: ns => n.settled && settledAll ns

end

private theorem settledAll_iff {ns : List Node} : settledAll ns ↔ ∀ n ∈ ns, n.settled := by
  induction ns with
  | nil => simp [settledAll]
  | cons n ns ih => simp [settledAll, ih]

/-- A settled node has settled children, and its alternative is its own. -/
theorem settled_iff {n : Node} : n.settled ↔ (∀ m ∈ n.children, m.settled) ∧ n.takesNearest := by
  obtain ⟨kind, children, span⟩ := n
  rw [settled, Bool.and_eq_true, settledAll_iff]

/-- What is settled has settled children. -/
theorem settled_of_mem {n m : Node} (h : n.settled) (hm : m ∈ n.children) : m.settled :=
  (settled_iff.1 h).1 m hm

/-- The branch before an alternative is closed. -/
theorem endsOpen_of_settled {c p n : Node} {span : Option Span}
    (h : settled ⟨.branch, [c, p, n], span⟩) : p.endsOpen = false :=
  (Bool.not_eq_true' _).mp (settled_iff.1 h).2

/-- **What may stand behind a node** in a branch: nothing, or an alternative that the node does not
take as its own. -/
inductive Precedes (n : Node) : List Piece → Prop where
  | nothing : n.Precedes []
  | alternative (closed : n.endsOpen = false) (ps : List Piece) : n.Precedes (elsePieces ps)

namespace Precedes

variable {c p n : Node} {span : Option Span} {xs : List Piece}

/-- Behind a condition that is still open there is nothing. -/
private theorem eq_nil (h : n.Precedes xs) (hopen : n.endsOpen) : xs = [] := by
  cases h with
  | nothing => rfl
  | alternative closed => rw [closed] at hopen; cases hopen

/-- What may stand behind a choice may stand behind its alternative. -/
private theorem of_choice (h : Precedes ⟨.branch, [c, p, n], span⟩ xs) : n.Precedes xs := by
  cases h with
  | nothing => exact .nothing
  | alternative closed ps => exact .alternative (by rwa [endsOpen] at closed) ps

/-- What may stand behind a loop may stand behind its body. -/
private theorem of_loop (h : Precedes ⟨.loop, [c, n], span⟩ xs) : n.Precedes xs := by
  cases h with
  | nothing => exact .nothing
  | alternative closed ps => exact .alternative (by rwa [endsOpen] at closed) ps

/-- A branch precedes its own alternative. -/
private theorem of_closed (h : p.endsOpen = false) : p.Precedes (elsePieces n.pieces ++ xs) :=
  .alternative h (n.pieces ++ xs)

end Precedes

section Behind

variable {a b : Node} {as bs xs ys : List Piece}

/-- What is tighter than a blank ends before the alternative. -/
private theorem cut_of_within (has : Within 9 as) (hbs : Within 9 bs) (hx : a.Precedes xs)
    (hy : b.Precedes ys) (h : as ++ xs = bs ++ ys) : as = bs ∧ xs = ys := by
  -- an alternative begins with a blank, and there is none in what is tighter
  cases hx with
  | nothing =>
    cases hy with
    | nothing => exact ⟨List.append_cancel_right h, rfl⟩
    | alternative _ qs =>
      rw [List.append_nil] at h
      exact absurd (has.ranks bs .blank _ h hbs.total) (by decide)
  | alternative _ ps =>
    cases hy with
    | nothing =>
      rw [List.append_nil] at h
      exact absurd (hbs.ranks as .blank _ h.symm has.total) (by decide)
    | alternative _ qs =>
      obtain ⟨rfl, -, hrest⟩ := has.split_first hbs (by decide) (by decide) h
      exact ⟨rfl, by rw [elsePieces, elsePieces, hrest]⟩

/-- What is tighter than a blank is no body under a condition. -/
private theorem guardedPieces_append_ne {word : List Char} {condition body : List Piece} {n : Node}
    (hbs : Within 9 bs) (hy : n.Precedes ys) :
    guardedPieces word condition body ++ xs ≠ bs ++ ys := by
  intro h
  have hword : Within 9 [.word word] := .single rfl (Nat.zero_le 9)
  cases hy with
  | nothing =>
    rw [List.append_nil] at h
    exact absurd (hbs.ranks [.word word] .blank _ h.symm hword.total) (by decide)
  | alternative _ qs =>
    -- behind the first blank there is a parenthesis, and no word
    obtain ⟨-, -, hrest⟩ := hword.split_first hbs (by decide) (by decide) h
    cases (List.cons.inj hrest).1

/-- What is written like control flow without braces is that. -/
private theorem IsStatement.outerLevel_of_guardedPieces {word : List Char}
    {condition body : List Piece} (hb : b.IsStatement) (hy : b.Precedes ys)
    (h : guardedPieces word condition body ++ xs = b.pieces ++ ys) :
    b.kind.outerLevel = .statement := by
  have hrank : 9 < b.kind.outerLevel.rank := Nat.lt_of_not_le fun hle =>
    guardedPieces_append_ne (hb.within.mono hle) hy h
  rw [← Kind.ofRank_outerLevel, Nat.le_antisymm hb.rank_le hrank]
  rfl

/-- What follows a body under a condition follows the body. -/
theorem guardedPieces_append (word : List Char) (condition body : List Piece) :
    guardedPieces word condition body ++ xs = guardedPieces word condition (body ++ xs) := by
  simp [guardedPieces]

/-- **A body under a condition**: the condition ends at its parenthesis. -/
private theorem guardedPieces_append_inj {word word' : List Char} {c c' : Node} (hc : c.IsStatement)
    (hc' : c'.IsStatement)
    (h : guardedPieces word c.pieces as ++ xs = guardedPieces word' c'.pieces bs ++ ys) :
    word = word' ∧ c.pieces = c'.pieces ∧ as ++ xs = bs ++ ys := by
  rw [guardedPieces_append, guardedPieces_append] at h
  obtain ⟨hword, hrest⟩ := List.cons.inj h
  obtain ⟨hcondition, -, hbody⟩ := hc.within.close_unique hc'.within rfl rfl
    (List.cons.inj (List.cons.inj hrest).2).2
  exact ⟨Piece.word.inj hword, hcondition, (List.cons.inj hbody).2⟩

/-- What stands behind the word of an alternative can be told. -/
private theorem elsePieces_append_inj (h : elsePieces as ++ xs = elsePieces bs ++ ys) :
    as ++ xs = bs ++ ys :=
  (List.cons.inj (List.cons.inj (List.cons.inj h).2).2).2

end Behind

/-! ### Elements, positions and blocks -/

section Elements

variable {n c i c' i' : Node} {ns ms : List Node} {m : Mark}

private theorem piecesAll_ne_nil (hn : n.IsStatement) : piecesAll m (n :: ns) ≠ [] := by
  cases ns with
  | nil => exact hn.pieces_ne_nil
  | cons n' ns => simp [piecesAll]

/-- **Elements can be told from their pieces**, if each of them can. -/
theorem piecesAll_inj (hm : m ∈ Mark.separators) (hns : ∀ n ∈ ns, n.IsStatement)
    (hms : ∀ n ∈ ms, n.IsStatement)
    (hinj : ∀ n ∈ ns, ∀ n' ∈ ms, n.pieces = n'.pieces → n = n')
    (h : piecesAll m ns = piecesAll m ms) : ns = ms := by
  -- the first separator outside brackets ends the first element
  induction ns generalizing ms with
  | nil =>
    cases ms with
    | nil => rfl
    | cons n' ms => exact absurd h.symm (piecesAll_ne_nil (hms n' List.mem_cons_self))
  | cons n ns ih =>
    rw [List.forall_mem_cons] at hns
    cases ms with
    | nil => exact absurd h (piecesAll_ne_nil hns.1)
    | cons n' ms =>
      rw [List.forall_mem_cons] at hms
      have hn := hns.1.within_ten
      have hn' := hms.1.within_ten
      have hfirst := hinj n List.mem_cons_self n' List.mem_cons_self
      -- a separator outside brackets is looser than any statement
      have hrank : 10 < (Piece.mark m).rank := by rw [Mark.rank_of_mem_separators m hm]; decide
      cases ns with
      | nil =>
        cases ms with
        | nil => rw [hfirst h]
        | cons m' ms => exact absurd (hn.ranks _ (.mark m) _ h hn'.total) (Nat.not_le.2 hrank)
      | cons m' ns =>
        cases ms with
        | nil => exact absurd (hn'.ranks _ (.mark m) _ h.symm hn.total) (Nat.not_le.2 hrank)
        | cons m'' ms =>
          obtain ⟨hpieces, -, hrest⟩ := hn.split_first hn' hrank hrank h
          have hinj' := fun n hn n' hn' =>
            hinj n (List.mem_cons_of_mem _ hn) n' (List.mem_cons_of_mem _ hn')
          rw [hfirst hpieces, ih hns.2 hms.2 hinj' hrest]

/-- The position of an element stands in the last brackets. -/
private theorem pieces_index (c i : Node) :
    pieces ⟨.index, [c, i], none⟩ =
      enclosePieces (c.looser .atom) c.pieces ++ .mark .openBracket :: i.pieces ++
        [.mark .closeBracket] := by
  rw [pieces, List.append_assoc, List.cons_append]

/-- The position is what stands in the last brackets. -/
private theorem index_pieces_inj (hi : i.IsStatement) (hi' : i'.IsStatement)
    (h : pieces ⟨.index, [c, i], none⟩ = pieces ⟨.index, [c', i'], none⟩) :
    enclosePieces (c.looser .atom) c.pieces = enclosePieces (c'.looser .atom) c'.pieces ∧
      i.pieces = i'.pieces := by
  rw [pieces_index, pieces_index] at h
  obtain ⟨hc, -, hi⟩ := hi.within.open_unique hi'.within rfl rfl (List.append_inj' h rfl).1
  exact ⟨hc, hi⟩

/-- What is indexed stands before the brackets, and before those of an array there is nothing. -/
private theorem array_ne_index (hns : ∀ n ∈ ns, n.IsStatement) (hc : c.IsStatement)
    (hi : i.IsStatement) : pieces ⟨.array, ns, none⟩ ≠ pieces ⟨.index, [c, i], none⟩ := by
  intro h
  rw [pieces_index, pieces, ← List.cons_append] at h
  have hall := within_piecesAll (m := .comma) (by decide) fun n hn => (hns n hn).within_ten
  have hfront : [] ++ .mark .openBracket :: piecesAll .comma ns = _ := (List.append_inj' h rfl).1
  obtain ⟨hnil, -⟩ := hall.open_unique hi.within rfl rfl hfront
  exact hc.enclosePieces_ne_nil _ hnil.symm

/-- The statements of a block are what stands between its braces, and the blanks inside them. -/
private theorem block_pieces_inj (h : pieces ⟨.block, ns, none⟩ = pieces ⟨.block, ms, none⟩) :
    piecesAll .semicolon ns = piecesAll .semicolon ms := by
  cases ns with
  | nil =>
    cases ms with
    | nil => rfl
    | cons m ms => cases h
  | cons n ns =>
    cases ms with
    | nil => cases h
    | cons m ms =>
      exact (List.append_inj' (List.cons.inj (List.cons.inj h).2).2 rfl).1

end Elements

/-! ### Telling statements from their pieces -/

/-- **The statement can be told from its pieces**, among the settled statements and whatever stands
behind it. -/
structure Told (n : Node) : Prop where
  statement : n.IsStatement
  tell : ∀ {m : Node} {xs ys : List Piece}, m.IsStatement → m.settled → n.Precedes xs →
    m.Precedes ys → n.pieces ++ xs = m.pieces ++ ys → n = m ∧ xs = ys

namespace Told

variable {c i l m n p r : Node} {ns : List Node}

/-- Two statements are the same if their pieces are, when one of them can be told. -/
theorem eq_of_pieces (h : n.Told) (hm : m.IsStatement) (hs : m.settled)
    (heq : n.pieces = m.pieces) : n = m :=
  (h.tell hm hs .nothing .nothing (by rw [heq])).1

/-- The same for operands, with or without parentheses. -/
private theorem eq_of_enclosePieces {s t : Bool} (h : n.Told) (hm : m.IsStatement) (hs : m.settled)
    (heq : enclosePieces s n.pieces = enclosePieces t m.pieces) : n = m :=
  h.eq_of_pieces hm hs (h.statement.enclosePieces_inj hm heq)

/-- **What is not control flow without braces ends by itself**: it can be told as soon as it can be
told from its own pieces, among the statements of the same outline. -/
private theorem of_whole (hn : n.IsStatement) (hrank : n.kind.outerLevel.rank ≤ 9)
    (hwhole : ∀ {m : Node}, m.IsStatement → m.settled → n.kind.outline = m.kind.outline →
      n.pieces = m.pieces → n = m) : n.Told := by
  refine ⟨hn, fun {m xs ys} hm hs hx hy h => ?_⟩
  have hwithin : Within 9 n.pieces := hn.within.mono hrank
  -- the other is no such control flow either, since that has a blank outside brackets early on
  have hrank' : m.kind.outerLevel.rank ≤ 9 := by
    cases hm with
    | branch | choice | loop => exact absurd h.symm (guardedPieces_append_ne hwithin hx)
    | @binary op => exact Nat.succ_le_succ op.precedence_le
    | _ => exact Nat.le_of_ble_eq_true rfl
  obtain ⟨hpieces, rfl⟩ := cut_of_within hwithin (hm.within.mono hrank') hx hy h
  exact ⟨hwhole hm hs (hn.outline_eq hm hpieces) hpieces, rfl⟩

/-! Two statements with the same pieces have the same outline, and so their roots are of one form.
The operands of an operator are found by its place. -/

theorem literal {value : Literal} (plain : value.isPlain) : Told ⟨.literal value, [], none⟩ := by
  refine of_whole (.literal plain) (Nat.zero_le 9) fun hm _ houtline h => ?_
  rw [hm.eq_ofPiece houtline.symm h.symm, Kind.ofPiece_literal plain]

theorem name {text : String} (free : isVariableName text) :
    Told ⟨.identifier text none, [], none⟩ := by
  refine of_whole (.name free) (Nat.zero_le 9) fun hm _ houtline h => ?_
  rw [hm.eq_ofPiece houtline.symm h.symm, Kind.ofPiece_name free]

theorem unary (h : n.Told) (op : UnaryOp) : Told ⟨.unary op, [n], none⟩ := by
  refine of_whole h.statement.unary (Nat.le_add_left 1 8) fun hm hs houtline heq => ?_
  cases hm with
  | unary operand =>
    obtain ⟨hsign, hrest⟩ := List.cons.inj heq
    cases hsign
    rw [h.eq_of_enclosePieces operand (settled_of_mem hs (by simp)) hrest]
  | _ => cases houtline

theorem binary (hl : l.Told) (hr : r.Told) (op : BinaryOp) : Told ⟨.binary op, [l, r], none⟩ := by
  refine of_whole (hl.statement.binary hr.statement) (Nat.succ_le_succ op.precedence_le)
    fun hm hs houtline h => ?_
  cases hm with
  | @binary op' l' r' left right =>
    -- the last of the loosest operators is the one at the root
    obtain ⟨hleft, hop, hright⟩ := Within.split_last (p := .mark (.between op))
      (q := .mark (.between op')) (within_operand hl.statement.within (.binary op.precedence))
      (within_operand left.within (.binary op'.precedence))
      (within_tight_operand hr.statement.within _ rfl) (within_tight_operand right.within _ rfl)
      (Nat.lt_succ_self _) (Nat.lt_succ_self _) rfl rfl h
    cases hop
    rw [hl.eq_of_enclosePieces left (settled_of_mem hs (by simp)) hleft,
      hr.eq_of_enclosePieces right (settled_of_mem hs (by simp)) hright]
  | _ => cases houtline

theorem ternary (hc : c.Told) (hp : p.Told) (hn : n.Told) : Told ⟨.ternary, [c, p, n], none⟩ := by
  refine of_whole (hc.statement.ternary hp.statement hn.statement) (Nat.le_succ 8)
    fun hm hs houtline h => ?_
  cases hm with
  | ternary condition positive negative =>
    -- the condition ends at the first of the marks, and the second is its partner
    have hwithin := within_tight_operand hc.statement.within .ternary rfl
    have hwithin' := within_tight_operand condition.within .ternary rfl
    obtain ⟨hcondition, -, hrest⟩ := hwithin.split_first hwithin' (by decide) (by decide) h
    obtain ⟨hpositive, -, hnegative⟩ := (within_operand hp.statement.within _).close_unique
      (within_operand positive.within _) rfl rfl hrest
    rw [hc.eq_of_enclosePieces condition (settled_of_mem hs (by simp)) hcondition,
      hp.eq_of_enclosePieces positive (settled_of_mem hs (by simp)) hpositive,
      hn.eq_of_enclosePieces negative (settled_of_mem hs (by simp)) hnegative]
  | _ => cases houtline

theorem assign (hl : l.Told) (hr : r.Told) : Told ⟨.assign, [l, r], none⟩ := by
  refine of_whole (hl.statement.assign hr.statement) (Nat.le_refl 9) fun hm hs houtline h => ?_
  cases hm with
  | assign target value =>
    -- a target has no operator outside brackets
    obtain ⟨htarget, -, hvalue⟩ := (within_operand hl.statement.within .atom).split_first
      (within_operand target.within .atom) (by decide) (by decide) h
    rw [hl.eq_of_enclosePieces target (settled_of_mem hs (by simp)) htarget,
      hr.eq_of_enclosePieces value (settled_of_mem hs (by simp)) hvalue]
  | _ => cases houtline

/-! Elements and positions are found by the brackets around them. -/

theorem array (h : ∀ n ∈ ns, n.Told) : Told ⟨.array, ns, none⟩ := by
  have hns := fun n hn => (h n hn).statement
  refine of_whole (.array hns) (Nat.zero_le 9) fun hm hs houtline heq => ?_
  cases hm with
  | array elements =>
    have hall := (List.append_inj' (List.cons.inj heq).2 rfl).1
    rw [piecesAll_inj (by decide) hns elements (fun n hn m hm =>
      (h n hn).eq_of_pieces (elements m hm) (settled_of_mem hs hm)) hall]
  | index container position => exact absurd heq (array_ne_index hns container position)
  | _ => cases houtline

theorem index (hc : c.Told) (hi : i.Told) : Told ⟨.index, [c, i], none⟩ := by
  refine of_whole (hc.statement.index hi.statement) (Nat.zero_le 9) fun hm hs houtline h => ?_
  cases hm with
  | index container position =>
    obtain ⟨hcontainer, hposition⟩ := index_pieces_inj hi.statement position h
    rw [hc.eq_of_enclosePieces container (settled_of_mem hs (by simp)) hcontainer,
      hi.eq_of_pieces position (settled_of_mem hs (by simp)) hposition]
  | array elements => exact absurd h.symm (array_ne_index elements hc.statement hi.statement)
  | _ => cases houtline

theorem size (h : n.Told) : Told ⟨.size, [n], none⟩ := by
  refine of_whole h.statement.size (Nat.zero_le 9) fun hm hs houtline heq => ?_
  cases hm with
  | size operand =>
    have hinner := (List.append_inj' (List.cons.inj (List.cons.inj heq).2).2 rfl).1
    rw [h.eq_of_pieces operand (settled_of_mem hs (by simp)) hinner]
  | _ => cases houtline

theorem block (h : ∀ n ∈ ns, n.Told) : Told ⟨.block, ns, none⟩ := by
  have hns := fun n hn => (h n hn).statement
  refine of_whole (.block hns) (Nat.zero_le 9) fun hm hs houtline heq => ?_
  cases hm with
  | block statements =>
    rw [piecesAll_inj (by decide) hns statements (fun n hn m hm =>
      (h n hn).eq_of_pieces (statements m hm) (settled_of_mem hs hm)) (block_pieces_inj heq)]
  | _ => cases houtline

/-! In control flow the condition is found first. What stands behind it is the branch, with the
alternative perhaps; a branch does not take an alternative as its own, and so it ends where the
alternative begins. -/

theorem branch (hc : c.Told) (hp : p.Told) : Told ⟨.branch, [c, p], none⟩ := by
  refine ⟨hc.statement.branch hp.statement, fun {m xs ys} hm hs hx hy h => ?_⟩
  have hlevel := hm.outerLevel_of_guardedPieces hy h
  -- an alternative behind this node would be its own
  obtain rfl := hx.eq_nil rfl
  cases hm with
  | branch condition positive =>
    obtain rfl := hy.eq_nil rfl
    obtain ⟨-, hcondition, hpositive⟩ := guardedPieces_append_inj hc.statement condition h
    rw [hc.eq_of_pieces condition (settled_of_mem hs (by simp)) hcondition,
      (hp.tell positive (settled_of_mem hs (by simp)) .nothing .nothing hpositive).1]
    exact ⟨rfl, rfl⟩
  | choice condition positive =>
    -- only one of the branches has an alternative behind it
    obtain ⟨-, -, hpositive⟩ := guardedPieces_append_inj hc.statement condition h
    rw [List.append_assoc] at hpositive
    cases (hp.tell positive (settled_of_mem hs (by simp)) .nothing
      (.of_closed (endsOpen_of_settled hs)) hpositive).2
  | loop condition => cases (guardedPieces_append_inj hc.statement condition h).1
  | _ => cases hlevel

theorem choice (hc : c.Told) (hp : p.Told) (hn : n.Told) (hclosed : p.endsOpen = false) :
    Told ⟨.branch, [c, p, n], none⟩ := by
  refine ⟨hc.statement.choice hp.statement hn.statement, fun {m xs ys} hm hs hx hy h => ?_⟩
  have hlevel := hm.outerLevel_of_guardedPieces hy h
  cases hm with
  | branch condition positive =>
    obtain rfl := hy.eq_nil rfl
    obtain ⟨-, -, hpositive⟩ := guardedPieces_append_inj hc.statement condition h
    rw [List.append_assoc] at hpositive
    cases (hp.tell positive (settled_of_mem hs (by simp)) (.of_closed hclosed) .nothing
      hpositive).2
  | choice condition positive negative =>
    obtain ⟨-, hcondition, hpositive⟩ := guardedPieces_append_inj hc.statement condition h
    rw [List.append_assoc, List.append_assoc] at hpositive
    -- both branches end at their alternatives, and these are the same as well
    obtain ⟨rfl, hnegative⟩ := hp.tell positive (settled_of_mem hs (by simp)) (.of_closed hclosed)
      (.of_closed (endsOpen_of_settled hs)) hpositive
    obtain ⟨rfl, rfl⟩ := hn.tell negative (settled_of_mem hs (by simp)) hx.of_choice hy.of_choice
      (elsePieces_append_inj hnegative)
    rw [hc.eq_of_pieces condition (settled_of_mem hs (by simp)) hcondition]
    exact ⟨rfl, rfl⟩
  | loop condition => cases (guardedPieces_append_inj hc.statement condition h).1
  | _ => cases hlevel

theorem loop (hc : c.Told) (hp : p.Told) : Told ⟨.loop, [c, p], none⟩ := by
  refine ⟨hc.statement.loop hp.statement, fun {m xs ys} hm hs hx hy h => ?_⟩
  have hlevel := hm.outerLevel_of_guardedPieces hy h
  cases hm with
  | loop condition body =>
    obtain ⟨-, hcondition, hbody⟩ := guardedPieces_append_inj hc.statement condition h
    -- what stands behind a loop stands behind its body
    obtain ⟨rfl, rfl⟩ := hp.tell body (settled_of_mem hs (by simp)) hx.of_loop hy.of_loop hbody
    rw [hc.eq_of_pieces condition (settled_of_mem hs (by simp)) hcondition]
    exact ⟨rfl, rfl⟩
  | branch condition | choice condition =>
    cases (guardedPieces_append_inj hc.statement condition h).1
  | _ => cases hlevel

end Told

/-- **A settled statement can be told from its pieces.** -/
theorem IsStatement.told {n : Node} (hn : n.IsStatement) (hs : n.settled) : n.Told := by
  -- each form from its parts, which are settled as well
  induction hn with
  | literal plain => exact .literal plain
  | name free => exact .name free
  | unary _ ih => exact (ih (settled_of_mem hs (by simp))).unary _
  | binary _ _ ihl ihr =>
    exact (ihl (settled_of_mem hs (by simp))).binary (ihr (settled_of_mem hs (by simp))) _
  | ternary _ _ _ ihc ihp ihn =>
    exact (ihc (settled_of_mem hs (by simp))).ternary (ihp (settled_of_mem hs (by simp)))
      (ihn (settled_of_mem hs (by simp)))
  | assign _ _ iht ihv =>
    exact (iht (settled_of_mem hs (by simp))).assign (ihv (settled_of_mem hs (by simp)))
  | array _ ih => exact .array fun n hn => ih n hn (settled_of_mem hs hn)
  | index _ _ ihc ihi =>
    exact (ihc (settled_of_mem hs (by simp))).index (ihi (settled_of_mem hs (by simp)))
  | size _ ih => exact (ih (settled_of_mem hs (by simp))).size
  | branch _ _ ihc ihp =>
    exact (ihc (settled_of_mem hs (by simp))).branch (ihp (settled_of_mem hs (by simp)))
  | choice _ _ _ ihc ihp ihn =>
    exact (ihc (settled_of_mem hs (by simp))).choice (ihp (settled_of_mem hs (by simp)))
      (ihn (settled_of_mem hs (by simp))) (endsOpen_of_settled hs)
  | loop _ _ ihc ihb =>
    exact (ihc (settled_of_mem hs (by simp))).loop (ihb (settled_of_mem hs (by simp)))
  | block _ ih => exact .block fun n hn => ih n hn (settled_of_mem hs hn)

/-- There are no alternatives in an expression. -/
theorem IsExpression.settled {n : Node} (h : n.IsExpression) : n.settled := by
  induction h with
  | literal | name => rfl
  | unary _ ih | size _ ih => exact settled_iff.2 ⟨by simp [ih], rfl⟩
  | binary _ _ ihl ihr | assign _ _ ihl ihr | index _ _ ihl ihr =>
    exact settled_iff.2 ⟨by simp [ihl, ihr], rfl⟩
  | ternary _ _ _ ihc ihp ihn => exact settled_iff.2 ⟨by simp [ihc, ihp, ihn], rfl⟩
  | array _ ih => exact settled_iff.2 ⟨ih, rfl⟩

/-- **An expression can be told from its pieces.** -/
theorem IsExpression.pieces_inj {a b : Node} (ha : a.IsExpression) (hb : b.IsExpression)
    (h : a.pieces = b.pieces) : a = b :=
  (ha.isStatement.told ha.settled).eq_of_pieces hb.isStatement hb.settled h

/-- **Rendering is unambiguous**: without a source, two expressions are written alike only if they
are the same. -/
theorem render_unambiguous {a b : Node} (ha : a.IsExpression) (hb : b.IsExpression) :
    ((Transcript.start none).record a).text = ((Transcript.start none).record b).text ↔ a = b := by
  constructor
  · intro h
    -- from the text to the letters of the pieces, to the pieces, to the tree
    have hletters : a.pieces.flatMap Piece.letters = b.pieces.flatMap Piece.letters := by
      rw [← ha.letters_pieces, ← hb.letters_pieces]
      exact congrArg String.toList h
    exact ha.pieces_inj hb (ha.legible.eq_of_letters_eq hb.legible hletters)
  · rintro rfl
    rfl

/-- An assignment whose value is a choice. -/
def assignedChoice : Node :=
  ⟨.assign, [⟨.identifier "a" none, [], none⟩,
    ⟨.ternary, [⟨.identifier "b" none, [], none⟩, ⟨.literal (.int 1), [], none⟩,
      ⟨.literal (.str "\""), [], none⟩], none⟩], none⟩

/-- A choice whose condition is an assignment, with the same leaves in the same order. -/
def choiceByAssignment : Node :=
  ⟨.ternary, [⟨.assign, [⟨.identifier "a" none, [], none⟩, ⟨.identifier "b" none, [], none⟩], none⟩,
    ⟨.literal (.int 1), [], none⟩, ⟨.literal (.str "\""), [], none⟩], none⟩

/-- Only the grouping differs, and so do the texts. -/
theorem render_unambiguous_choice :
    assignedChoice.IsExpression ∧ choiceByAssignment.IsExpression ∧
      ((Transcript.start none).record assignedChoice).text ≠
        ((Transcript.start none).record choiceByAssignment).text := by
  have hassigned : assignedChoice.IsExpression :=
    .assign (.name rfl) (.ternary (.name rfl) (.literal rfl) (.literal rfl))
  have hchoice : choiceByAssignment.IsExpression :=
    .ternary (.assign (.name rfl) (.name rfl)) (.literal rfl) (.literal rfl)
  refine ⟨hassigned, hchoice, fun h => ?_⟩
  cases congrArg Node.kind ((render_unambiguous hassigned hchoice).1 h)

end Node

end Scriptlet
