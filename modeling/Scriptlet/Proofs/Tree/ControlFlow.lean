import Scriptlet.Evaluation.Run
import Scriptlet.Evaluation.Variables
import Scriptlet.Proofs.Tree.Unambiguous

/-!
# Control flow as it is written

The branches of a condition are written without parentheses or braces, so that an alternative may
stand behind a branch that ends with a condition of its own. Nothing in the text says to which of
the two conditions the alternative belongs. This is the only thing that the text does not say: each
program is written like the one in which every alternative belongs to the nearest condition, and
programs that differ in more than this are written differently.

* `Node.withElse` — gives an alternative to the nearest condition without one;
* `Node.nearestElse` — the program with every alternative given to the nearest condition;
* `Node.render_alike_iff` — two programs are written alike if and only if these are the same, and
  programs that need no such change run alike if they are written alike;
* `Node.written_alike_run_apart` — two programs that are written alike and do not run alike.
-/

namespace Scriptlet

namespace Node

variable {a b m n c p : Node} {ns : List Node}

/-! ### The nearest condition -/

/-- Gives an alternative to the last condition that has none, if the node ends with one. -/
def withElse : Node → Node → Node
  | ⟨.branch, [c, p], span⟩, alternative =>
    if p.endsOpen then ⟨.branch, [c, p.withElse alternative], span⟩
    else ⟨.branch, [c, p, alternative], span⟩
  | ⟨.branch, [c, p, n], span⟩, alternative => ⟨.branch, [c, p, n.withElse alternative], span⟩
  | ⟨.loop, [c, b], span⟩, alternative => ⟨.loop, [c, b.withElse alternative], span⟩
  | n, _ => n

mutual

/-- The tree with every alternative given to the nearest condition that can take it. -/
def nearestElse : Node → Node
  | ⟨kind, children, span⟩ =>
    match kind, nearestElseAll children with
    | .branch, [c, p, n] => withElse ⟨.branch, [c, p], span⟩ n
    | kind, children => ⟨kind, children, span⟩

/-- The same for each of the nodes. -/
def nearestElseAll : List Node → List Node
  | [] => []
  | n :: ns => n.nearestElse :: nearestElseAll ns

end

private theorem nearestElseAll_eq_map (ns : List Node) :
    nearestElseAll ns = ns.map nearestElse := by
  induction ns with
  | nil => rfl
  | cons n ns ih => rw [nearestElseAll, ih, List.map_cons]

private theorem kind_withElse (n alternative : Node) : (n.withElse alternative).kind = n.kind := by
  fun_cases withElse n alternative <;> rfl

@[simp]
theorem kind_nearestElse (n : Node) : n.nearestElse.kind = n.kind := by
  obtain ⟨kind, children, span⟩ := n
  -- only an alternative that moves makes more of the node than its children
  unfold nearestElse
  split
  · exact kind_withElse _ _
  · rfl

/-- **The alternative is written behind the node**, whichever condition takes it. -/
private theorem pieces_withElse (alternative : Node) (h : n.endsOpen) :
    (n.withElse alternative).pieces = n.pieces ++ elsePieces alternative.pieces := by
  -- along the way that the alternative goes: through last branches and bodies
  fun_induction withElse n alternative with
  | case1 c p span alternative hopen ih => rw [pieces, ih hopen, pieces, guardedPieces_append]
  | case2 c p span alternative => rw [pieces, pieces, guardedPieces_append]
  | case3 c p n span alternative ih =>
    rw [endsOpen] at h
    rw [pieces, ih h, pieces, guardedPieces_append, List.append_assoc]
    rfl
  | case4 c b span alternative ih =>
    rw [endsOpen] at h
    rw [pieces, ih h, pieces, guardedPieces_append]
  -- there is no such way in a node that does not end with a condition
  | case5 n _ hbranch hchoice hloop => simp_all [endsOpen]

/-- A statement with an alternative is a statement. -/
private theorem IsStatement.withElse (hn : n.IsStatement) (hm : m.IsStatement) :
    (n.withElse m).IsStatement := by
  fun_induction Node.withElse n m with
  | case1 c p span m hopen ih =>
    cases hn with
    | branch condition positive => exact .branch condition (ih positive hm)
  | case2 c p span m =>
    cases hn with
    | branch condition positive => exact .choice condition positive hm
  | case3 c p n span m ih =>
    cases hn with
    | choice condition positive negative => exact .choice condition positive (ih negative hm)
  | case4 c b span m ih =>
    cases hn with
    | loop condition body => exact .loop condition (ih body hm)
  | case5 n m => exact hn

/-- The condition that takes the alternative is the nearest one, since its branch does not end with
another. -/
private theorem settled_withElse (hn : n.settled) (hm : m.settled) : (n.withElse m).settled := by
  fun_induction Node.withElse n m with
  | case1 c p span m hopen ih =>
    have hc : c.settled := settled_of_mem hn (by simp)
    have hp := ih (settled_of_mem hn (by simp)) hm
    exact settled_iff.2 ⟨by simp [hc, hp], rfl⟩
  | case2 c p span m hclosed =>
    have hc : c.settled := settled_of_mem hn (by simp)
    have hp : p.settled := settled_of_mem hn (by simp)
    exact settled_iff.2 ⟨by simp [hc, hp, hm], by simpa [takesNearest] using hclosed⟩
  -- the alternative that is there keeps its condition, since its branch is closed
  | case3 c p n span m ih =>
    have hc : c.settled := settled_of_mem hn (by simp)
    have hp : p.settled := settled_of_mem hn (by simp)
    have halternative := ih (settled_of_mem hn (by simp)) hm
    refine settled_iff.2 ⟨by simp [hc, hp, halternative], ?_⟩
    rw [takesNearest, endsOpen_of_settled hn]
    rfl
  | case4 c b span m ih =>
    have hc : c.settled := settled_of_mem hn (by simp)
    have hb := ih (settled_of_mem hn (by simp)) hm
    exact settled_iff.2 ⟨by simp [hc, hb], rfl⟩
  | case5 n m => exact hn

/-- The parts of a choice are dealt with first, and then its alternative is given away. -/
private theorem nearestElse_choice (c p n : Node) (span : Option Span) :
    nearestElse ⟨.branch, [c, p, n], span⟩ =
      withElse ⟨.branch, [c.nearestElse, p.nearestElse], span⟩ n.nearestElse := rfl

/-- Only a condition changes by itself. -/
private theorem nearestElse_of_ne (kind : Kind) (ns : List Node) (span : Option Span)
    (h : kind ≠ .branch) :
    nearestElse ⟨kind, ns, span⟩ = ⟨kind, ns.map nearestElse, span⟩ := by
  unfold nearestElse
  rw [nearestElseAll_eq_map]
  split
  · exact absurd rfl h
  · rfl

/-- A statement stays one when its alternatives move. -/
theorem IsStatement.nearestElse (h : n.IsStatement) : n.nearestElse.IsStatement := by
  induction h with
  | literal plain => exact .literal plain
  | name free => exact .name free
  | unary _ ih => exact .unary ih
  | binary _ _ ihl ihr => exact .binary ihl ihr
  | ternary _ _ _ ihc ihp ihn => exact .ternary ihc ihp ihn
  | assign _ _ iht ihv => exact .assign iht ihv
  | index _ _ ihc ihi => exact .index ihc ihi
  | size _ ih => exact .size ih
  | branch _ _ ihc ihp => exact .branch ihc ihp
  | choice _ _ _ ihc ihp ihn => exact (branch ihc ihp).withElse ihn
  | loop _ _ ihc ihb => exact .loop ihc ihb
  -- lists of children need the equation for all of them at once
  | array _ ih =>
    rw [nearestElse_of_ne .array _ _ nofun]
    exact .array (List.forall_mem_map.2 ih)
  | block _ ih =>
    rw [nearestElse_of_ne .block _ _ nofun]
    exact .block (List.forall_mem_map.2 ih)

/-- The moves leave all kinds as they are, and with them all parentheses. -/
@[simp]
theorem looser_nearestElse (n : Node) (level : Level) :
    n.nearestElse.looser level = n.looser level := by
  rw [looser, kind_nearestElse, looser]

@[simp]
theorem asLoose_nearestElse (n : Node) (level : Level) :
    n.nearestElse.asLoose level = n.asLoose level := by
  rw [asLoose, kind_nearestElse, asLoose]

@[simp]
theorem needsParens_nearestElse (op : UnaryOp) (n : Node) :
    needsParens op n.nearestElse = needsParens op n := by
  rw [needsParens, looser_nearestElse, startsWithMinus, kind_nearestElse, needsParens,
    startsWithMinus]

/-- Elements and statements in a row are written alike if each of them is. -/
private theorem piecesAll_map (separator : Mark) (h : ∀ n ∈ ns, n.nearestElse.pieces = n.pieces) :
    piecesAll separator (ns.map nearestElse) = piecesAll separator ns := by
  induction ns with
  | nil => rfl
  | cons n ns ih =>
    rw [List.forall_mem_cons] at h
    -- no separator behind the last one
    cases ns with
    | nil => exact h.1
    | cons m ns =>
      have hrest := ih h.2
      rw [List.map_cons] at hrest
      rw [List.map_cons, List.map_cons, piecesAll, h.1, hrest, piecesAll]

/-- **The pieces do not say to which condition an alternative belongs.** -/
theorem IsStatement.pieces_nearestElse (h : n.IsStatement) : n.nearestElse.pieces = n.pieces := by
  induction h with
  | literal | name => rfl
  | unary _ ih => simp [Node.nearestElse, nearestElseAll, pieces, ih]
  | binary _ _ ihl ihr => simp [Node.nearestElse, nearestElseAll, pieces, ihl, ihr]
  | ternary _ _ _ ihc ihp ihn => simp [Node.nearestElse, nearestElseAll, pieces, ihc, ihp, ihn]
  | assign _ _ iht ihv => simp [Node.nearestElse, nearestElseAll, pieces, iht, ihv]
  | index _ _ ihc ihi => simp [Node.nearestElse, nearestElseAll, pieces, ihc, ihi]
  | size _ ih => simp [Node.nearestElse, nearestElseAll, pieces, ih]
  | branch _ _ ihc ihp => simp [Node.nearestElse, nearestElseAll, pieces, ihc, ihp]
  | choice _ _ _ ihc ihp ihn =>
    -- wherever the alternative goes, it is written behind the condition without it
    rw [nearestElse_choice, pieces_withElse _ rfl, pieces, guardedPieces_append, ihc, ihp, ihn,
      pieces]
  | loop _ _ ihc ihb => simp [Node.nearestElse, nearestElseAll, pieces, ihc, ihb]
  | array _ ih => rw [nearestElse_of_ne .array _ _ (by simp), pieces, pieces, piecesAll_map _ ih]
  | @block ns _ ih =>
    rw [nearestElse_of_ne .block _ _ (by simp)]
    cases ns with
    | nil => rfl
    | cons n ns =>
      have hall := piecesAll_map .semicolon ih
      rw [List.map_cons] at hall
      rw [List.map_cons, pieces, hall, pieces]
      -- what is left to see is that neither block is without statements
      all_goals simp

/-- **Every alternative is given to the nearest condition.** -/
theorem IsStatement.settled_nearestElse (h : n.IsStatement) : n.nearestElse.settled := by
  induction h with
  | literal | name => rfl
  | unary _ ih | size _ ih =>
    exact settled_iff.2 ⟨by simp [ih, Node.nearestElse, nearestElseAll], rfl⟩
  | binary _ _ ihl ihr | assign _ _ ihl ihr | index _ _ ihl ihr | branch _ _ ihl ihr
  | loop _ _ ihl ihr =>
    exact settled_iff.2 ⟨by simp [ihl, ihr, Node.nearestElse, nearestElseAll], rfl⟩
  | ternary _ _ _ ihc ihp ihn =>
    exact settled_iff.2 ⟨by simp [ihc, ihp, ihn, Node.nearestElse, nearestElseAll], rfl⟩
  | choice _ _ _ ihc ihp ihn =>
    rw [nearestElse_choice]
    exact settled_withElse (settled_iff.2 ⟨by simp [ihc, ihp], rfl⟩) ihn
  | array _ ih =>
    rw [nearestElse_of_ne .array _ _ nofun]
    exact settled_iff.2 ⟨List.forall_mem_map.2 ih, rfl⟩
  | block _ ih =>
    rw [nearestElse_of_ne .block _ _ nofun]
    exact settled_iff.2 ⟨List.forall_mem_map.2 ih, rfl⟩

/-! ### Programs -/

/-- **The programs**: statements one after the other. -/
inductive IsProgram : Node → Prop where
  | script {ns : List Node} (statements : ∀ n ∈ ns, n.IsStatement) : IsProgram ⟨.script, ns, none⟩

namespace IsProgram

/-- The text of a program consists of its pieces. -/
theorem letters_pieces (h : a.IsProgram) :
    (a.render none).text.toList = a.pieces.flatMap Piece.letters := by
  cases h with
  | script statements =>
    have hall := letters_piecesAll (show "; ".toList = Mark.semicolon.letters from rfl)
      fun n hn => (statements n hn).letters_pieces
    simp [render, pieces, hall]

/-- They can be told apart. -/
theorem legible (h : a.IsProgram) : Legible a.pieces := by
  cases h with
  | script statements => exact legible_piecesAll _ fun n hn => (statements n hn).legible

/-- Programs are written alike if their pieces are the same. -/
theorem text_eq_iff (ha : a.IsProgram) (hb : b.IsProgram) :
    ((Transcript.start none).record a).text = ((Transcript.start none).record b).text ↔
      a.pieces = b.pieces := by
  have hletters : (a.render none).text = (b.render none).text ↔
      a.pieces.flatMap Piece.letters = b.pieces.flatMap Piece.letters := by
    rw [← ha.letters_pieces, ← hb.letters_pieces, String.toList_inj]
  refine hletters.trans ⟨fun h => ha.legible.eq_of_letters_eq hb.legible h, fun h => ?_⟩
  rw [h]

theorem pieces_nearestElse (h : a.IsProgram) : a.nearestElse.pieces = a.pieces := by
  cases h with
  | script statements =>
    rw [nearestElse_of_ne .script _ _ nofun]
    exact piecesAll_map _ fun n hn => (statements n hn).pieces_nearestElse

theorem settled_nearestElse (h : a.IsProgram) : a.nearestElse.settled := by
  cases h with
  | script statements =>
    rw [nearestElse_of_ne .script _ _ nofun]
    refine settled_iff.2 ⟨List.forall_mem_map.2 fun n hn => ?_, rfl⟩
    exact (statements n hn).settled_nearestElse

theorem nearestElse (h : a.IsProgram) : a.nearestElse.IsProgram := by
  cases h with
  | script statements =>
    rw [nearestElse_of_ne .script _ _ nofun]
    exact .script (List.forall_mem_map.2 fun n hn => (statements n hn).nearestElse)

/-- **A settled program can be told from its pieces.** -/
theorem pieces_inj (ha : a.IsProgram) (hb : b.IsProgram) (hsa : a.settled) (hsb : b.settled)
    (h : a.pieces = b.pieces) : a = b := by
  cases ha with
  | script statements =>
    cases hb with
    | script statements' =>
      -- each statement can be told, and the semicolons divide them
      rw [piecesAll_inj (by decide) statements statements' (fun n hn m hm =>
        ((statements n hn).told (settled_of_mem hsa hn)).eq_of_pieces (statements' m hm)
          (settled_of_mem hsb hm)) h]

/-- In a settled program there is nothing to change. -/
theorem nearestElse_eq (h : a.IsProgram) (hs : a.settled) : a.nearestElse = a :=
  h.nearestElse.pieces_inj h h.settled_nearestElse hs h.pieces_nearestElse

end IsProgram

/-- **Control flow as it is written.** Without a source, two programs are written alike if and only
if they are the same once every alternative is given to the nearest condition. If this is so already
in both, then programs that are written alike run alike, under every policy and from every frame. -/
theorem render_alike_iff {γ : Type} [Context γ] (ha : a.IsProgram) (hb : b.IsProgram) :
    (((Transcript.start none).record a).text = ((Transcript.start none).record b).text ↔
      a.nearestElse = b.nearestElse) ∧
    (a.settled → b.settled →
      ((Transcript.start none).record a).text = ((Transcript.start none).record b).text →
      ∀ (policy : Policy) (rounds : Nat) (frame : Frame γ),
        a.interpret policy rounds frame = b.interpret policy rounds frame) := by
  have hiff : ((Transcript.start none).record a).text = ((Transcript.start none).record b).text ↔
      a.nearestElse = b.nearestElse := by
    -- each program is compared with the settled one that is written like it
    rw [ha.text_eq_iff hb]
    constructor
    · intro h
      refine ha.nearestElse.pieces_inj hb.nearestElse ha.settled_nearestElse
        hb.settled_nearestElse ?_
      rw [ha.pieces_nearestElse, h, hb.pieces_nearestElse]
    · intro h
      rw [← ha.pieces_nearestElse, h, hb.pieces_nearestElse]
  refine ⟨hiff, fun hsa hsb h policy rounds frame => ?_⟩
  -- settled programs have nothing to move, so that the two are one tree
  rw [← ha.nearestElse_eq hsa, hiff.1 h, hb.nearestElse_eq hsb]

/-- A program of one statement that chooses by `a`, and in the branch for truth by `b`. The
alternative belongs to the condition `a`. -/
def choosesOutside : Node :=
  ⟨.script, [⟨.branch, [⟨.identifier "a" none, [], none⟩,
    ⟨.branch, [⟨.identifier "b" none, [], none⟩, ⟨.literal (.int 1), [], none⟩], none⟩,
    ⟨.literal (.int 2), [], none⟩], none⟩], none⟩

/-- The same, but the alternative belongs to the condition `b`. -/
def choosesInside : Node :=
  ⟨.script, [⟨.branch, [⟨.identifier "a" none, [], none⟩,
    ⟨.branch, [⟨.identifier "b" none, [], none⟩, ⟨.literal (.int 1), [], none⟩,
      ⟨.literal (.int 2), [], none⟩], none⟩], none⟩], none⟩

private theorem isProgram_choosesOutside : choosesOutside.IsProgram := by
  refine .script (List.forall_mem_singleton.2 ?_)
  exact .choice (.name rfl) (.branch (.name rfl) (.literal rfl)) (.literal rfl)

private theorem isProgram_choosesInside : choosesInside.IsProgram := by
  refine .script (List.forall_mem_singleton.2 ?_)
  exact .branch (.name rfl) (.choice (.name rfl) (.literal rfl) (.literal rfl))

/-- The text is read with the alternative inside: this program is settled, and so is what becomes of
the other. -/
theorem render_alike_iff_choosesInside :
    choosesOutside.nearestElse.settled = true ∧ choosesInside.settled = true ∧
      ∀ rounds : Nat,
        choosesOutside.nearestElse.interpret {} rounds ⟨.empty, Variables.empty⟩ =
          choosesInside.interpret {} rounds ⟨.empty, Variables.empty⟩ := by
  have houtside := isProgram_choosesOutside.nearestElse
  refine ⟨rfl, rfl, fun rounds => ?_⟩
  exact (render_alike_iff houtside isProgram_choosesInside).2 rfl rfl rfl {} rounds _

/-- **Written alike, but run apart.** Where `a` is false, the first program returns its alternative
and the second returns nothing. -/
theorem written_alike_run_apart :
    choosesOutside.IsProgram ∧ choosesInside.IsProgram ∧
    ((Transcript.start none).record choosesOutside).text =
      ((Transcript.start none).record choosesInside).text ∧
    choosesOutside.interpret {} 0 ⟨.empty, Variables.ofList [("a", .bool false)]⟩ =
      .returned (.int 2) ⟨.empty, Variables.ofList [("a", .bool false)]⟩ ∧
    choosesInside.interpret {} 0 ⟨.empty, Variables.ofList [("a", .bool false)]⟩ =
      .returned .void ⟨.empty, Variables.ofList [("a", .bool false)]⟩ :=
  ⟨isProgram_choosesOutside, isProgram_choosesInside, rfl, rfl, rfl⟩

end Node

end Scriptlet
