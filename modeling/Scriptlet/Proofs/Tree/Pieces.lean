import Scriptlet.Proofs.Grammar.Words
import Scriptlet.Proofs.Text.Quoted
import Scriptlet.Tree.Operator

/-!
# The pieces of written trees

A written tree consists of words, quoted texts, marks and blanks. The blanks around an operator
belong to its mark, so that a sign in front of an operand and the same sign between two operands are
different pieces. A blank by itself stands in control flow only, between the words of a statement
and its parts.

Two things can be told from the pieces alone. Where one of them ends in a text: no mark is the
beginning of another, a quoted text ends at its quote, words are never neighbours, and a blank by
itself is no operator's, because no second one follows behind operator characters. And how the
pieces are nested: brackets match, and so do the two marks of a choice.

* `Legible.eq_of_letters_eq` — a text has one division into pieces;
* `Within` — brackets match, and outside them no operator is looser than some rank;
* `Within.split_first`, `Within.split_last` — where an operator that is looser than all before it,
  or than all behind it, divides a sequence of pieces;
* `Within.close_unique`, `Within.open_unique` — a bracket has one partner.
-/

namespace Scriptlet

open Grammar (isNamePart)

/-! ### Letters -/

/-- The marks of written trees. -/
inductive Mark where
  | sign (op : UnaryOp)
  | between (op : BinaryOp)
  | question | colon | equals | comma | semicolon
  | openParen | closeParen | openBracket | closeBracket | openBrace | closeBrace
deriving DecidableEq

namespace Mark

/-- How the mark is written. -/
def letters : Mark → List Char
  | sign op => op.symbol.toList
  | between op => ' ' :: (op.symbol.toList ++ [' '])
  | question => [' ', '?', ' ']
  | colon => [' ', ':', ' ']
  | equals => [' ', '=', ' ']
  | comma => [',', ' ']
  | semicolon => [';', ' ']
  | openParen => ['(']
  | closeParen => [')']
  | openBracket => ['[']
  | closeBracket => [']']
  | openBrace => ['\x7b']
  | closeBrace => ['\x7d']

/-- The marks. -/
def all : List Mark :=
  [sign .neg, sign .not] ++ BinaryOp.all.map between ++
    [question, colon, equals, comma, semicolon, openParen, closeParen, openBracket, closeBracket,
      openBrace, closeBrace]

private theorem mem_all (m : Mark) : m ∈ all := by
  cases m with
  | sign op => cases op <;> decide
  | between op => cases op <;> decide
  | _ => decide

/-- **No mark is the beginning of another.** -/
private theorem eq_of_isPrefix : ∀ m ∈ all, ∀ m' ∈ all, m.letters <+: m'.letters → m = m' := by
  decide

theorem letters_inj {m m' : Mark} {rest rest' : List Char}
    (h : m.letters ++ rest = m'.letters ++ rest') : m = m' ∧ rest = rest' := by
  have hm : m = m' := by
    -- both marks begin the text, so that one begins with the other
    rcases List.prefix_or_prefix_of_prefix ⟨rest, h⟩ (List.prefix_append m'.letters rest') with
      hle | hle
    · exact eq_of_isPrefix m m.mem_all m' m'.mem_all hle
    · exact (eq_of_isPrefix m' m'.mem_all m m.mem_all hle).symm
  subst hm
  exact ⟨rfl, List.append_cancel_left h⟩

end Mark

/-- The pieces of written trees. -/
inductive Piece where
  | word (letters : List Char)
  | quoted (content : List Char)
  | mark (mark : Mark)
  | blank
deriving DecidableEq

namespace Piece

/-- How the piece is written. -/
def letters : Piece → List Char
  | word letters => letters
  | quoted content => '"' :: (Text.escape content ++ ['"'])
  | mark m => m.letters
  | blank => [' ']

/-- What a piece is, its content aside; a blank counts as a mark. -/
inductive Shape where
  | word
  | quoted
  | mark
deriving DecidableEq

/-- The shape of a piece. -/
def shape : Piece → Shape
  | word _ => .word
  | quoted _ => .quoted
  | mark _ | blank => .mark

/-- The shape of the pieces that begin with `c`. -/
def Shape.ofFirst (c : Char) : Shape :=
  if isNamePart c then .word else if c = '"' then .quoted else .mark

end Piece

/-- The first character of a mark shows that it is one. -/
private theorem Mark.ofFirst_letters :
    ∀ m ∈ all, m.letters.head?.map Piece.Shape.ofFirst = some .mark := by
  decide

/-- Every mark has a first character. -/
theorem Mark.exists_first (m : Mark) :
    ∃ c cs, m.letters = c :: cs ∧ Piece.Shape.ofFirst c = .mark := by
  obtain ⟨c, hc, hshape⟩ := Option.map_eq_some_iff.1 (ofFirst_letters m m.mem_all)
  obtain ⟨cs, hcs⟩ := List.head?_eq_some_iff.1 hc
  exact ⟨c, cs, hcs, hshape⟩

/-! ### Blanks -/

/-- The characters of operators. -/
def operatorChars : List Char :=
  ['+', '-', '*', '/', '%', '=', '!', '<', '>', '&', '|', '?', ':']

private theorem not_isNamePart_of_mem_operatorChars : ∀ c ∈ operatorChars, !isNamePart c :=
  List.all_eq_true.1 rfl

/-- Whether the pieces begin with an operand, with signs before it perhaps, or with a bracket or a
separator, and so neither with an operator between two operands nor with a blank. -/
def opens : List Piece → Bool
  | [] => false
  | .mark (.sign _) :: ps => opens ps
  | .mark (.between _) :: _ | .mark .question :: _ | .mark .colon :: _ | .mark .equals :: _
  | .blank :: _ => false
  | _ :: _ => true

/-- What begins with an operand does so whatever follows. -/
theorem opens_append {ps : List Piece} (h : opens ps) (qs : List Piece) : opens (ps ++ qs) := by
  -- signs are passed over, and the piece behind them decides
  fun_induction opens ps with
  | case2 op ps ih => exact ih h
  | case8 p ps => simp_all [opens]
  | _ => cases h

/-- A mark that begins with a blank is an operator between two blanks. -/
private theorem Mark.dropWhile_letters : ∀ m ∈ all, m.letters.head? = some ' ' →
    m.letters.tail.dropWhile (· ∈ operatorChars) = [' '] := by
  decide

/-! ### Dividing a text into pieces -/

/-- **Pieces that can be told apart in a text.** Words are made of the characters of names, and no
two of them are neighbours. A blank is not followed by what would make it an operator's. -/
inductive Legible : List Piece → Prop where
  | nil : Legible []
  | word {letters : List Char} {ps : List Piece} (nonempty : letters ≠ [])
      (parts : ∀ c ∈ letters, isNamePart c) (ends : ∀ p ∈ ps.head?, p.shape ≠ .word)
      (rest : Legible ps) : Legible (.word letters :: ps)
  | quoted {content : List Char} {ps : List Piece} (rest : Legible ps) :
      Legible (.quoted content :: ps)
  | mark {m : Mark} {ps : List Piece} (rest : Legible ps) : Legible (.mark m :: ps)
  | blank {ps : List Piece} (first : opens ps) (rest : Legible ps) : Legible (.blank :: ps)

namespace Legible

variable {p q : Piece} {ps qs : List Piece}

theorem tail (h : Legible (p :: ps)) : Legible ps := by
  cases h with
  | word _ _ _ rest => exact rest
  | quoted rest => exact rest
  | mark rest => exact rest
  | blank _ rest => exact rest

/-- Any pieces may be followed by pieces that do not begin with a word. -/
theorem append (hp : Legible ps) (hq : Legible (q :: qs)) (hends : q.shape ≠ .word) :
    Legible (ps ++ q :: qs) := by
  induction hp with
  | nil => exact hq
  | @word letters ps nonempty parts ends _ ih =>
    refine .word nonempty parts ?_ ih
    -- only the last piece has a new neighbour
    cases ps with
    | nil =>
      rintro p ⟨rfl⟩
      exact hends
    | cons p ps => exact ends
  | quoted _ ih => exact .quoted ih
  | mark _ ih => exact .mark ih
  | blank first _ ih => exact .blank (opens_append first _) ih

/-- A mark may stand between any pieces. -/
theorem between (hp : Legible ps) (m : Mark) (hq : Legible qs) : Legible (ps ++ .mark m :: qs) :=
  hp.append (.mark hq) nofun

/-- The shape of a piece can be told from its first letter. -/
theorem exists_first (h : Legible (p :: ps)) :
    ∃ c cs, p.letters = c :: cs ∧ Piece.Shape.ofFirst c = p.shape := by
  cases h with
  | @word letters ps nonempty parts _ _ =>
    cases letters with
    | nil => exact absurd rfl nonempty
    | cons c cs => exact ⟨c, cs, rfl, if_pos (parts c List.mem_cons_self)⟩
  | quoted _ => exact ⟨_, _, rfl, rfl⟩
  | @mark m ps _ => exact m.exists_first
  | blank => exact ⟨_, _, rfl, rfl⟩

/-- What stands behind a word does not prolong it. -/
private theorem not_isNamePart_of_head? (h : Legible ps) (hends : ∀ p ∈ ps.head?, p.shape ≠ .word) :
    ∀ c ∈ (ps.flatMap Piece.letters).head?, isNamePart c = false := by
  cases ps with
  | nil => exact fun _ hc => nomatch hc
  | cons p ps =>
    obtain ⟨c, cs, hletters, hshape⟩ := h.exists_first
    rw [List.flatMap_cons, hletters]
    rintro _ ⟨rfl⟩
    rw [Bool.eq_false_iff]
    intro hpart
    exact hends p rfl (hshape.symm.trans (if_pos hpart))

/-- Behind operator characters, pieces that open do not go on with a blank. -/
private theorem head?_dropWhile_ne (h : Legible ps) (hopens : opens ps) :
    ((ps.flatMap Piece.letters).dropWhile (· ∈ operatorChars)).head? ≠ some ' ' := by
  induction h with
  | nil => cases hopens
  | @word letters ps nonempty parts _ _ _ =>
    cases letters with
    | nil => exact absurd rfl nonempty
    | cons c cs =>
      have hpart := parts c List.mem_cons_self
      have hoperator : c ∉ operatorChars := by
        intro hc
        have hnot := not_isNamePart_of_mem_operatorChars c hc
        rw [hpart] at hnot
        cases hnot
      rw [List.flatMap_cons, Piece.letters, List.cons_append, List.dropWhile_cons_of_neg (by simpa)]
      rintro ⟨rfl⟩
      cases hpart
  | quoted => exact nofun
  | @mark m ps _ ih =>
    cases m with
    | sign op =>
      -- a sign is an operator character itself
      have hsign : (Mark.sign op).letters.dropWhile (· ∈ operatorChars) = [] := by
        cases op <;> decide
      rw [List.flatMap_cons, Piece.letters, List.dropWhile_append, hsign]
      exact ih hopens
    | between | question | colon | equals => cases hopens
    | _ => exact nofun
  | blank => cases hopens

/-- A blank by itself is not the first of an operator's. -/
private theorem blank_ne_mark {m : Mark} {rest : List Char} (h : Legible ps) (hopens : opens ps) :
    ' ' :: ps.flatMap Piece.letters ≠ m.letters ++ rest := by
  intro heq
  obtain ⟨c, cs, hletters, -⟩ := m.exists_first
  rw [hletters, List.cons_append] at heq
  obtain ⟨rfl, hps⟩ := List.cons.inj heq
  -- behind the characters of the operator there would be its second blank
  have hdrop := Mark.dropWhile_letters m m.mem_all (by rw [hletters]; rfl)
  rw [hletters, List.tail_cons] at hdrop
  refine h.head?_dropWhile_ne hopens ?_
  rw [hps, List.dropWhile_append, hdrop]
  rfl

/-- **The first piece can be told from the text.** -/
theorem letters_inj (hp : Legible (p :: ps)) (hq : Legible (q :: qs))
    (h : p.letters ++ ps.flatMap Piece.letters = q.letters ++ qs.flatMap Piece.letters) :
    p = q ∧ ps.flatMap Piece.letters = qs.flatMap Piece.letters := by
  -- the first character tells what sort of piece it is
  have hshape : p.shape = q.shape := by
    obtain ⟨c, cs, hpletters, hpshape⟩ := hp.exists_first
    obtain ⟨d, ds, hqletters, hqshape⟩ := hq.exists_first
    rw [hpletters, hqletters] at h
    rw [← hpshape, ← hqshape, (List.cons.inj h).1]
  cases hp with
  | word _ parts ends rest =>
    cases hq with
    | word _ parts' ends' rest' =>
      -- a word is as long as it can be
      have hword := Grammar.takeWhile_append_of_head? parts (rest.not_isNamePart_of_head? ends)
      have hword' := Grammar.takeWhile_append_of_head? parts' (rest'.not_isNamePart_of_head? ends')
      rw [Piece.letters, Piece.letters] at h
      obtain rfl := hword.symm.trans ((congrArg _ h).trans hword')
      exact ⟨rfl, List.append_cancel_left h⟩
    | quoted => cases hshape
    | mark => cases hshape
    | blank => cases hshape
  | quoted =>
    cases hq with
    | quoted =>
      rw [Piece.letters, Piece.letters, List.cons_append, List.cons_append, List.append_assoc,
        List.append_assoc] at h
      obtain ⟨rfl, hrest⟩ := Text.escape_inj (List.cons.inj h).2
      exact ⟨rfl, hrest⟩
    | word => cases hshape
    | mark => cases hshape
    | blank => cases hshape
  | mark =>
    cases hq with
    | mark =>
      obtain ⟨rfl, hrest⟩ := Mark.letters_inj h
      exact ⟨rfl, hrest⟩
    | blank first rest => exact absurd h.symm (rest.blank_ne_mark first)
    | word => cases hshape
    | quoted => cases hshape
  | blank first rest =>
    cases hq with
    | blank => exact ⟨rfl, (List.cons.inj h).2⟩
    | mark => exact absurd h (rest.blank_ne_mark first)
    | word => cases hshape
    | quoted => cases hshape

/-- **A text has one division into pieces.** -/
theorem eq_of_letters_eq (hp : Legible ps) (hq : Legible qs)
    (h : ps.flatMap Piece.letters = qs.flatMap Piece.letters) : ps = qs := by
  -- piece by piece from the left; none is written with no letters
  induction ps generalizing qs with
  | nil =>
    cases qs with
    | nil => rfl
    | cons q qs =>
      obtain ⟨c, cs, hletters, -⟩ := hq.exists_first
      rw [List.flatMap_cons, hletters] at h
      cases h
  | cons p ps ih =>
    cases qs with
    | nil =>
      obtain ⟨c, cs, hletters, -⟩ := hp.exists_first
      rw [List.flatMap_cons, hletters] at h
      cases h
    | cons q qs =>
      obtain ⟨rfl, hrest⟩ := letters_inj hp hq h
      rw [ih hp.tail hq.tail hrest]

end Legible

/-! ### Brackets -/

/-- By how much the piece changes the depth of brackets. The marks of a choice are brackets around
the middle operand. -/
def Piece.weight : Piece → Int
  | mark .openParen | mark .openBracket | mark .openBrace | mark .question => 1
  | mark .closeParen | mark .closeBracket | mark .closeBrace | mark .colon => -1
  | _ => 0

/-- How loosely the piece holds its surroundings together, if it is an operator. A blank is looser,
and what separates elements or statements is looser than all of these. -/
def Piece.rank : Piece → Nat
  | mark (.sign _) => 1
  | mark (.between op) => op.precedence + 1
  | mark .question => 8
  | mark .equals => 9
  | blank => 10
  | mark .comma | mark .semicolon => 11
  | _ => 0

/-- The marks between elements or statements. -/
def Mark.separators : List Mark := [comma, semicolon]

theorem Mark.weight_of_mem_separators : ∀ m ∈ separators, (Piece.mark m).weight = 0 := by
  decide

theorem Mark.rank_of_mem_separators : ∀ m ∈ separators, (Piece.mark m).rank = 11 := by
  decide

/-- The number of brackets that are open behind the pieces. -/
def depth : List Piece → Int
  | [] => 0
  | p :: ps => p.weight + depth ps

@[simp]
theorem depth_nil : depth [] = 0 := rfl

@[simp]
theorem depth_cons (p : Piece) (ps : List Piece) : depth (p :: ps) = p.weight + depth ps := rfl

@[simp]
theorem depth_append (ps qs : List Piece) : depth (ps ++ qs) = depth ps + depth qs := by
  -- every bracket is counted once, where it stands
  induction ps with
  | nil => rw [List.nil_append, depth_nil, Int.zero_add]
  | cons p ps ih => rw [List.cons_append, depth_cons, depth_cons, ih, Int.add_assoc]

/-- **Brackets match, and outside them no piece is looser than `k`.** -/
structure Within (k : Nat) (ps : List Piece) : Prop where
  total : depth ps = 0
  fronts : ∀ as bs, ps = as ++ bs → 0 ≤ depth as
  ranks : ∀ as p bs, ps = as ++ p :: bs → depth as = 0 → p.rank ≤ k

/-- Two places in one sequence are the same, or one comes before the other. -/
private theorem eq_or_exists_of_append_cons {as bs cs ds : List Piece} {p q : Piece}
    (h : as ++ p :: bs = cs ++ q :: ds) :
    (as = cs ∧ p = q ∧ bs = ds) ∨ (∃ ms, cs = as ++ p :: ms ∧ bs = ms ++ q :: ds) ∨
      ∃ ms, as = cs ++ q :: ms ∧ ds = ms ++ p :: bs := by
  -- one of the fronts is the beginning of the other
  rcases List.append_eq_append_iff.1 h with ⟨ms, rfl, hms⟩ | ⟨ms, rfl, hms⟩
  · cases ms with
    | nil =>
      obtain ⟨rfl, rfl⟩ := List.cons.inj hms
      exact .inl ⟨(List.append_nil as).symm, rfl, rfl⟩
    | cons m ms =>
      obtain ⟨rfl, rfl⟩ := List.cons.inj hms
      exact .inr (.inl ⟨ms, rfl, rfl⟩)
  · cases ms with
    | nil =>
      obtain ⟨rfl, rfl⟩ := List.cons.inj hms
      exact .inl ⟨List.append_nil cs, rfl, rfl⟩
    | cons m ms =>
      obtain ⟨rfl, rfl⟩ := List.cons.inj hms
      exact .inr (.inr ⟨ms, rfl, rfl⟩)

namespace Within

variable {j k : Nat} {p q : Piece} {ps qs as bs cs ds : List Piece}

/-- A looser bound holds as well. -/
theorem mono (h : Within j ps) (hle : j ≤ k) : Within k ps :=
  ⟨h.total, h.fronts, fun as p bs hps hdepth => Nat.le_trans (h.ranks as p bs hps hdepth) hle⟩

theorem nil : Within k [] where
  total := rfl
  fronts as bs h := by
    obtain ⟨rfl, -⟩ := List.append_eq_nil_iff.1 h.symm
    exact Int.le_refl 0
  ranks as p bs h := by simp at h

/-- Two parts in order are in order as a whole. -/
theorem append (hp : Within k ps) (hq : Within k qs) : Within k (ps ++ qs) where
  total := by rw [depth_append, hp.total, hq.total, Int.zero_add]
  fronts as bs h := by
    -- a place is in the first part, or in the second behind all of the first
    rcases List.append_eq_append_iff.1 h with ⟨ms, rfl, hms⟩ | ⟨ms, hms, -⟩
    · rw [depth_append, hp.total, Int.zero_add]
      exact hq.fronts ms bs hms
    · exact hp.fronts as ms hms
  ranks as p bs h hdepth := by
    rcases List.append_eq_append_iff.1 h with ⟨ms, rfl, hms⟩ | ⟨ms, hms, hrest⟩
    · rw [depth_append, hp.total, Int.zero_add] at hdepth
      exact hq.ranks ms p bs hms hdepth
    · -- the place may be the first of the second part
      cases ms with
      | nil => exact hq.ranks [] p bs hrest.symm rfl
      | cons m ms =>
        obtain ⟨rfl, -⟩ := List.cons.inj hrest
        exact hp.ranks as p ms hms hdepth

/-- A piece that is no bracket is in order by itself. -/
theorem single (hweight : p.weight = 0) (hrank : p.rank ≤ k) : Within k [p] where
  total := by simpa using hweight
  fronts as bs h := by
    rcases List.cons_eq_append_iff.1 h with ⟨rfl, -⟩ | ⟨as, rfl, hnil⟩
    · exact Int.le_refl 0
    · obtain ⟨rfl, -⟩ := List.append_eq_nil_iff.1 hnil.symm
      simp [hweight]
  ranks as q bs h _ := by
    rcases List.cons_eq_append_iff.1 h with ⟨-, hcons⟩ | ⟨as, -, hnil⟩
    · obtain ⟨rfl, -⟩ := List.cons.inj hcons
      exact hrank
    · simp at hnil

/-- A bracket is not closed before its partner. -/
private theorem le_depth (hps : Within k ps) (h : ps ++ [q] = as ++ p :: bs) : 0 ≤ depth as := by
  rcases eq_or_exists_of_append_cons h with ⟨rfl, -, -⟩ | ⟨ms, -, hnil⟩ | ⟨ms, hms, -⟩
  · exact Int.le_of_eq hps.total.symm
  · simp at hnil
  · exact hps.fronts as (p :: ms) hms

/-- **A bracket and its partner** count for the opening one. -/
theorem group (hopen : p.weight = 1) (hrank : p.rank ≤ k) (hps : Within j ps)
    (hclose : q.weight = -1) : Within k (p :: (ps ++ [q])) := by
  have htotal : depth (p :: (ps ++ [q])) = 0 := by simp [hopen, hps.total, hclose]
  refine ⟨htotal, fun as bs h => ?_, fun as r bs h hdepth => ?_⟩
  · rcases List.cons_eq_append_iff.1 h with ⟨rfl, -⟩ | ⟨as, rfl, hrest⟩
    · exact Int.le_refl 0
    -- the whole closes what it opened; any shorter front has the bracket still open
    · cases bs with
      | nil =>
        rw [h, List.append_nil] at htotal
        exact Int.le_of_eq htotal.symm
      | cons b bs =>
        have hle := hps.le_depth hrest
        rw [depth_cons, hopen]
        omega
  · rcases List.cons_eq_append_iff.1 h with ⟨rfl, hcons⟩ | ⟨as, rfl, hrest⟩
    · obtain ⟨rfl, -⟩ := List.cons.inj hcons
      exact hrank
    · -- inside the brackets the depth is at least one
      have hle := hps.le_depth hrest
      rw [depth_cons, hopen] at hdepth
      omega

/-- **A bracket has one partner**, looking forward. -/
theorem close_unique (hps : Within j ps) (hqs : Within k qs) (hp : p.weight = -1)
    (hq : q.weight = -1) (h : ps ++ p :: bs = qs ++ q :: ds) : ps = qs ∧ p = q ∧ bs = ds := by
  rcases eq_or_exists_of_append_cons h with heq | ⟨ms, rfl, -⟩ | ⟨ms, rfl, -⟩
  · exact heq
  · -- up to its partner the bracket would close more than was opened
    have hle := hqs.fronts (ps ++ [p]) ms (by simp)
    simp [hps.total, hp] at hle
  · have hle := hps.fronts (qs ++ [q]) ms (by simp)
    simp [hqs.total, hq] at hle

/-- **A bracket has one partner**, looking backward. -/
theorem open_unique (hps : Within j ps) (hqs : Within k qs) (hp : p.weight = 1)
    (hq : q.weight = 1) (h : as ++ p :: ps = cs ++ q :: qs) : as = cs ∧ p = q ∧ ps = qs := by
  rcases eq_or_exists_of_append_cons h with heq | ⟨ms, -, rfl⟩ | ⟨ms, -, rfl⟩
  · exact heq
  · -- what stands before the later bracket would close more than it opens
    have hle := hps.fronts ms _ rfl
    have htotal := hps.total
    rw [depth_append, depth_cons, hq, hqs.total] at htotal
    omega
  · have hle := hqs.fronts ms _ rfl
    have htotal := hqs.total
    rw [depth_append, depth_cons, hp, hps.total] at htotal
    omega

/-- **The first piece looser than `k`** divides a sequence in one way. -/
theorem split_first (has : Within k as) (hcs : Within k cs) (hp : k < p.rank) (hq : k < q.rank)
    (h : as ++ p :: bs = cs ++ q :: ds) : as = cs ∧ p = q ∧ bs = ds := by
  rcases eq_or_exists_of_append_cons h with heq | ⟨ms, hms, -⟩ | ⟨ms, hms, -⟩
  · exact heq
  · exact absurd (hcs.ranks as p ms hms has.total) (Nat.not_le.2 hp)
  · exact absurd (has.ranks cs q ms hms hcs.total) (Nat.not_le.2 hq)

/-- **The last among the loosest pieces** divides a sequence in one way. -/
theorem split_last (has : Within p.rank as) (hcs : Within q.rank cs) (hbs : Within j bs)
    (hds : Within k ds) (hp : j < p.rank) (hq : k < q.rank) (hpweight : p.weight = 0)
    (hqweight : q.weight = 0) (h : as ++ p :: bs = cs ++ q :: ds) :
    as = cs ∧ p = q ∧ bs = ds := by
  rcases eq_or_exists_of_append_cons h with heq | ⟨ms, rfl, rfl⟩ | ⟨ms, rfl, rfl⟩
  · exact heq
  · -- what stands before is not looser, and what stands behind is tighter
    have hle := hcs.ranks as p ms rfl has.total
    have hms := hcs.total
    rw [depth_append, depth_cons, has.total, hpweight] at hms
    have hlt := hbs.ranks ms q ds rfl (by omega)
    omega
  · have hle := has.ranks cs q ms rfl hcs.total
    have hms := has.total
    rw [depth_append, depth_cons, hcs.total, hqweight] at hms
    have hlt := hds.ranks ms p bs rfl (by omega)
    omega

end Within

end Scriptlet
