import Scriptlet.Proofs.Grammar.Regrouping

/-!
# Written statements

Statements over written expressions, and scripts as lists of them. The registers that names are
resolved to depend on the declarations before, so the trees of a script are described from the first
statement to the last, and the registers are passed on.

What holds of expressions carries over: rendering writes the statements of a script, the text is
laid out from their words, and reading the words back gives the same registers and the regrouped
statements.
-/

namespace Scriptlet.Grammar

/-! ### More signs as words -/

/-- The keyword of declarations. -/
def Word.keyword : Word := ⟨.var, ['v', 'a', 'r'], .var⟩

/-- The sign of an assignment. -/
def Word.equals : Word := ⟨.assign, ['='], .mark rfl⟩

/-- The sign between statements. -/
def Word.semicolon : Word := ⟨.semicolon, [';'], .mark rfl⟩

/-- A name is spelled by its own letters. -/
private theorem Spells.letters_of_name {name : String} {letters : List Char}
    (h : Spells (.name name) letters) : letters = name.toList := by
  cases h with
  | name first more free => rw [String.toList_ofList]
  | mark sign => cases sign?_of_mark? sign

/-! ### Statements -/

/-- A statement over written expressions. A name comes with the proof that it is one. -/
inductive Statement where
  | declare (name : String) (spells : Spells (.name name) name.toList)
  | define (name : String) (spells : Spells (.name name) name.toList) (init : Expr)
  | expression (e : Expr)
  | assign (target value : Expr)

namespace Statement

/-- The statement as it is written. -/
def text : Statement → String
  | declare name _ => "var " ++ name
  | define name _ init => "var " ++ name ++ Text.spaced "=" ++ init.text
  | expression e => e.text
  | assign target value =>
    encloseText (0 < target.rank) target.text ++ Text.spaced "=" ++ value.text

/-- The words of the statement as it is written. -/
def words : Statement → List Word
  | declare name spells => [.keyword, ⟨.name name, name.toList, spells⟩]
  | define name spells init =>
    .keyword :: ⟨.name name, name.toList, spells⟩ :: .equals :: init.words
  | expression e => e.words
  | assign target value =>
    encloseWords (0 < target.rank) target.words ++ .equals :: value.words

/-- The statement that is read where this one is written. -/
def regroup : Statement → Statement
  | declare name spells => declare name spells
  | define name spells init => define name spells init.regroup
  | expression e => expression e.regroup
  | assign target value => assign target.regroup value.regroup

/-- In no expression of the statement, a sum stands to the right of a comparison. -/
def Faithful : Statement → Prop
  | declare .. => True
  | define _ _ init => init.Faithful
  | expression e => e.Faithful
  | assign target value => target.Faithful ∧ value.Faithful

/-- Regrouping leaves a faithful statement alone. -/
theorem regroup_of_faithful {s : Statement} (h : s.Faithful) : s.regroup = s := by
  cases s with
  | declare name spells => rfl
  | define name spells init => rw [regroup, Expr.regroup_of_faithful h]
  | expression e => rw [regroup, Expr.regroup_of_faithful h]
  | assign target value =>
    rw [regroup, Expr.regroup_of_faithful h.1, Expr.regroup_of_faithful h.2]

/-- **The text of a statement is laid out from its words.** -/
theorem laid (s : Statement) : Laid s.text.toList s.words := by
  cases s with
  | declare name spells =>
    have h := (Laid.single ⟨.name name, name.toList, spells⟩).spaced .keyword
    simpa [text, words, Word.keyword] using h
  | define name spells init =>
    have h := ((Laid.single ⟨.name name, name.toList, spells⟩).spaced .keyword).between .equals
      init.laid
    simpa [text, words, Word.keyword, Word.equals, Text.spaced] using h
  | expression e => exact e.laid
  | assign target value =>
    have h := (target.laid.enclose (0 < target.rank)).between .equals value.laid
    simpa [text, words, Word.equals, Text.spaced] using h

/-- The statement that a tree stands for over its source, with the registers before and after it. -/
inductive Describes (source : String) :
    List String → Statement → Node → List String → Prop where
  | declare {registers registers' : List String} {name : String}
      {spells : Spells (.name name) name.toList} {register : Nat} {place : Span}
      {span : Option Span}
      (known : Grammar.declare registers name place = .ok (register, registers')) :
      Describes source registers (.declare name spells) ⟨.var name register, [], span⟩ registers'
  | define {registers registers' : List String} {name : String}
      {spells : Spells (.name name) name.toList} {init : Expr} {register : Nat} {n : Node}
      {place : Span} {span : Option Span}
      (known : Grammar.declare registers name place = .ok (register, registers'))
      (value : init.Describes source registers' n) :
      Describes source registers (.define name spells init) ⟨.var name register, [n], span⟩
        registers'
  | expression {registers : List String} {e : Expr} {n : Node}
      (whole : e.Describes source registers n) :
      Describes source registers (.expression e) n registers
  | assign {registers : List String} {target value : Expr} {m n : Node} {span : Option Span}
      (left : target.Describes source registers m) (right : value.Describes source registers n) :
      Describes source registers (.assign target value) ⟨.assign, [m, n], span⟩ registers

end Statement

/-- Where a name stands does not matter for its register. -/
private theorem declare_of_declare {registers : List String} {name : String} {span : Span}
    {known : Nat × List String} (h : declare registers name span = .ok known) (span' : Span) :
    declare registers name span' = .ok known := by
  unfold declare at h ⊢
  split at h
  · exact h
  · split at h
    · next hfits =>
      rw [if_pos hfits]
      exact h
    · cases h

private theorem Expr.Describes.looser_atom {source : String} {registers : List String} {e : Expr}
    {n : Node} (h : e.Describes source registers n) : n.looser .atom = decide (0 < e.rank) := by
  rw [Node.looser, h.rank_level]
  rfl

/-- No expression needs parentheses as a value. -/
private theorem Expr.Describes.looser_assign {source : String} {registers : List String} {e : Expr}
    {n : Node} (h : e.Describes source registers n) : n.looser .assign = false := by
  have hrank : e.rank ≤ 4 := e.rank_le_sum
  rw [Node.looser, h.rank_level]
  exact decide_eq_false (Nat.not_lt.2 (Nat.le_trans hrank (by decide)))

section Describes

variable {source text : String} {registers registers' registers'' : List String} {s : Statement}
  {n n' : Node}

/-- A statement is written as its text. -/
theorem Statement.Describes.render (h : s.Describes source registers n registers') :
    (n.render (some source)).text = s.text := by
  cases h with
  | declare known => rfl
  | define known value =>
    simp only [Node.render, text, Fragment.text_append, Fragment.text_mark, Fragment.text_ofText,
      text_enclose, value.looser_assign, value.render, String.empty_append]
    rfl
  | expression whole => exact whole.render
  | assign left right =>
    simp only [Node.render, text, Fragment.text_append, Fragment.text_mark, Fragment.text_ofText,
      text_enclose, left.looser_atom, right.looser_assign, left.render, right.render,
      String.empty_append]
    rfl

/-- Two trees of one statement differ at most in their spans, and leave the same registers. -/
theorem Statement.Describes.unlocated_eq (h : s.Describes source registers n registers')
    (h' : s.Describes text registers n' registers'') :
    n.unlocated = n'.unlocated ∧ registers' = registers'' := by
  cases h with
  | declare known =>
    cases h' with
    | declare known' =>
      -- both declarations find the same register in the same table
      cases (declare_of_declare known _).symm.trans known'
      simp
  | define known value =>
    cases h' with
    | define known' value' =>
      cases (declare_of_declare known _).symm.trans known'
      simp [value.unlocated_eq value']
  | expression whole =>
    cases h' with
    | expression whole' => exact ⟨whole.unlocated_eq whole', rfl⟩
  | assign left right =>
    cases h' with
    | assign left' right' => simp [left.unlocated_eq left', right.unlocated_eq right']

/-- If the same tree is read again, nothing has been regrouped. -/
theorem Statement.Describes.faithful_of_unlocated_eq {known known' : List String}
    (h : s.Describes source registers n registers')
    (h' : s.regroup.Describes text known n' known') (heq : n'.unlocated = n.unlocated) :
    s.Faithful := by
  cases h with
  | declare _ => trivial
  | define _ value =>
    cases h' with
    | define _ value' =>
      simp only [Node.unlocated_mk, List.map_cons, List.map_nil, Node.mk.injEq, List.cons.injEq,
        and_true] at heq
      exact value.faithful_of_unlocated_eq value' heq.2
  | expression whole =>
    cases h' with
    | expression whole' => exact whole.faithful_of_unlocated_eq whole' heq
  | assign left right =>
    cases h' with
    | assign left' right' =>
      simp only [Node.unlocated_mk, List.map_cons, List.map_nil, Node.mk.injEq, List.cons.injEq,
        and_true, true_and] at heq
      exact ⟨left.faithful_of_unlocated_eq left' heq.1, right.faithful_of_unlocated_eq right' heq.2⟩

/-- A statement is faithful exactly if there is no sum to the right of a comparison in it. -/
theorem Statement.Describes.faithful_iff (h : s.Describes source registers n registers') :
    s.Faithful ↔ ∀ m ∈ n.preorder, ¬ m.IsLessOverSum := by
  cases h with
  | declare _ => simp [Faithful, Node.IsLessOverSum]
  | define _ value => simp [Faithful, Node.IsLessOverSum, value.faithful_iff]
  | expression whole => exact whole.faithful_iff
  | assign left right =>
    simp only [Faithful, left.faithful_iff, right.faithful_iff, Node.preorder_mk,
      Node.preorderAll_eq_flatMap, List.flatMap_cons, List.flatMap_nil, List.append_nil,
      List.forall_mem_cons, List.forall_mem_append]
    simp [Node.IsLessOverSum]

/-- **Every derived statement is described by one.** -/
theorem DerivesStatement.exists_describes {ls : List Lexeme}
    (h : DerivesStatement registers ls n registers') (hwords : ∀ l ∈ ls, ∃ w, l.Stands source w) :
    ∃ s : Statement, s.Describes source registers n registers' := by
  -- the name behind the keyword is spelled by its own letters
  have hname : ∀ {name : String} {span : Span}, ⟨.name name, span⟩ ∈ ls →
      Spells (.name name) name.toList := by
    intro name span hmem
    obtain ⟨⟨token, letters, spells⟩, htoken, -⟩ := hwords _ hmem
    dsimp only at htoken
    subst htoken
    rwa [spells.letters_of_name] at spells
  have hsecond : ∀ {k l : Lexeme} {ls : List Lexeme}, l ∈ k :: l :: ls :=
    List.mem_cons_of_mem _ List.mem_cons_self
  cases h with
  | declare known => exact ⟨.declare _ (hname hsecond), .declare known⟩
  | define known value =>
    obtain ⟨init, hinit⟩ := value.exists_describes fun l hl => hwords l (by simp [hl])
    exact ⟨.define _ (hname hsecond) init, .define known hinit⟩
  | expression whole =>
    obtain ⟨e, he⟩ := whole.exists_describes hwords
    exact ⟨.expression e, .expression he⟩
  | assign left right =>
    obtain ⟨target, htarget⟩ := left.exists_describes fun l hl => hwords l (by simp [hl])
    obtain ⟨value, hvalue⟩ := right.exists_describes fun l hl => hwords l (by simp [hl])
    exact ⟨.assign target value, .assign htarget hvalue⟩

/-- **A statement that was read is read back from its words**, regrouped. -/
theorem Statement.Describes.readBack {ls : List Lexeme}
    (h : s.Describes source registers n registers') (hls : StandFor text ls s.words) :
    ∃ n', DerivesStatement registers ls n' registers' ∧
      s.regroup.Describes text registers n' registers' := by
  cases h with
  | declare known =>
    obtain ⟨keyword, rest, rfl, -, hrest⟩ := hls.exists_cons
    obtain ⟨place, rest, rfl, -, hnil⟩ := hrest.exists_cons
    cases hnil
    -- the name now stands at another place
    have known' := declare_of_declare known place
    exact ⟨_, .declare known', .declare known'⟩
  | define known value =>
    obtain ⟨keyword, rest, rfl, -, hrest⟩ := hls.exists_cons
    obtain ⟨place, rest, rfl, -, hrest⟩ := hrest.exists_cons
    obtain ⟨sign, rest, rfl, -, hrest⟩ := hrest.exists_cons
    obtain ⟨n', hderives, hinit⟩ := Expr.readBack _ hrest (Expr.rank_le_sum _)
    have known' := declare_of_declare known place
    exact ⟨_, .define known' hderives, .define known' hinit⟩
  | expression whole =>
    obtain ⟨n', hderives, he⟩ := Expr.readBack _ hls (Expr.rank_le_sum _)
    exact ⟨n', .expression hderives, .expression he⟩
  | @assign target value _ _ _ left right =>
    -- the target stands before the sign, in parentheses if it is no operand
    obtain ⟨front, rest, rfl, hfront, hrest⟩ := hls.exists_append
    obtain ⟨sign, back, rfl, -, hback⟩ := hrest.exists_cons
    obtain ⟨m', hleft, htarget⟩ := target.readBack.enclosed hfront fun _ => target.rank_le_sum
    obtain ⟨n', hright, hvalue⟩ := value.readBack hback value.rank_le_sum
    exact ⟨_, .assign hleft hright, .assign htarget hvalue⟩

end Describes

end Scriptlet.Grammar
