import Scriptlet.Proofs.Number.Signs
import Scriptlet.Proofs.Tree.Subtrees
import Scriptlet.Proofs.Tree.Writing

/-!
# Minus signs

Two minus signs in a row are to be avoided: a negation whose operand is written with a minus sign in
front puts the operand in parentheses. Whether an operand begins with a minus sign is decided by
looking at one node, while its text begins with its leftmost part. For most operands this is the
same. There are two exceptions. An element access is written behind its container, without any
parentheses if the container is a literal: `-1[0]` begins with a minus sign, but is no number. And a
NaN may have the sign bit, but is written without a sign.

* `Literal.head?_text` — which literals are written with a sign;
* `Node.leadsWithNegative` — the leftmost part, through all element accesses, is such a number;
* `Node.opening?_of_atom` — which operands without parentheses begin with a minus sign;
* `Node.negation_doubles_iff` — when two signs meet in front of an operand;
* `Node.negations_of_tree` — the same for all negations of a tree.
-/

namespace Scriptlet

/-! ### Literals -/

namespace Literal

/-- Whether the literal is a NaN with the sign bit. It is written as any other NaN. -/
def isSignedNaN : Literal → Bool
  | float v => v.isNegative && v.value.isNaN
  | null | bool _ | int _ | str _ => false

/-- Whether the literal is a number with a minus sign. -/
def isNegative : Literal → Bool
  | int v => v < 0
  | float v => v.isNegative && !v.value.isNaN
  | null | bool _ | str _ => false

/-- **A literal is written with a minus sign exactly if it is a negative number.** -/
theorem head?_text (value : Literal) : value.text.toList.head? = some '-' ↔ value.isNegative := by
  cases value with
  | null => decide
  | bool b => cases b <;> decide
  | int n =>
    rw [isNegative, decide_eq_true_iff]
    exact Number.head?_integerText n
  | float x =>
    rw [isNegative, Bool.and_eq_true, Bool.not_eq_true']
    exact x.head?_floatText
  | str s => simp [text, Text.quote, isNegative]

end Literal

/-! ### How nodes begin -/

namespace Node

/-- Whether the leftmost part of the node, through all element accesses, is a negative number. -/
def leadsWithNegative : Node → Bool
  | ⟨.literal value, [], _⟩ => value.isNegative
  | ⟨.index, [container, _], _⟩ => container.leadsWithNegative
  | _ => false

/-- Literals and element accesses bind as tightly as anything. -/
private theorem looser_atom_of_leadsWithNegative {n : Node} (h : n.leadsWithNegative) :
    n.looser .atom = false := by
  fun_cases leadsWithNegative n with
  | case1 value span => rfl
  | case2 container position span => rfl
  | case3 n hliteral hindex =>
    rw [leadsWithNegative.eq_3 n hliteral hindex] at h
    cases h

/-- The first character of the node as it is written. -/
def opening? (n : Node) : Option Char := (n.render none).text.toList.head?

/-- No name begins with a minus sign. -/
def NamesUnsigned (n : Node) : Prop :=
  ∀ m ∈ n.preorder, ∀ name register, m.kind = .identifier name register →
    name.toList.head? ≠ some '-'

/-- The names of a child are names of the tree. -/
theorem NamesUnsigned.child {kind : Kind} {children : List Node} {span : Option Span} {c : Node}
    (h : NamesUnsigned ⟨kind, children, span⟩) (hc : c ∈ children) : c.NamesUnsigned :=
  fun m hm => h m (preorder_subset hc hm)

/-- Parentheses hide what an operand begins with. -/
private theorem head?_enclose (needed : Bool) (n : Node) (rest : List Char)
    (hrest : rest.head? ≠ some '-') :
    (((n.render none).enclose needed).text.toList ++ rest).head? = some '-' ↔
      needed = false ∧ n.opening? = some '-' := by
  cases needed with
  | true => simp [Fragment.enclose]
  | false =>
    show ((n.render none).text.toList ++ rest).head? = some '-' ↔ _
    unfold opening?
    -- an operand that is written with no letters leaves the beginning to what follows
    cases (n.render none).text.toList with
    | nil => simpa using hrest
    | cons c cs => simp

/-- An element access is written behind its container, in parentheses if that is no operand. -/
private theorem opening?_index (container position : Node) (span : Option Span) :
    opening? ⟨.index, [container, position], span⟩ = some '-' ↔
      container.looser .atom = false ∧ container.opening? = some '-' := by
  have htext : opening? ⟨.index, [container, position], span⟩ =
      (((container.render none).enclose (container.looser .atom)).text.toList ++
        ("[" ++ (position.render none).text ++ "]").toList).head? := by
    simp [opening?, render]
  rw [htext, head?_enclose _ _ _ (by simp)]

/-- **Which operands that need no parentheses begin with a minus sign**: negative numbers, and the
elements that are taken of them. -/
theorem opening?_of_atom {n : Node} (hnames : n.NamesUnsigned) (hatom : n.looser .atom = false) :
    n.opening? = some '-' ↔ n.leadsWithNegative := by
  induction n with
  | node kind children span ih =>
    -- a node without the children that it is meant to have is written with its name in front
    cases kind with
    | literal value =>
      rcases children with _ | ⟨c, cs⟩
      · rw [leadsWithNegative, ← Literal.head?_text]
        simp [opening?, render, leafText]
      · simp [opening?, render, leadsWithNegative, Kind.name]
    | identifier name register =>
      rcases children with _ | ⟨c, cs⟩
      · have hname := hnames _ (mem_preorder_self _) name register rfl
        simpa [opening?, render, leafText, leadsWithNegative] using hname
      · simp [opening?, render, leadsWithNegative, Kind.name]
    | array => simp [opening?, render, leadsWithNegative]
    | size =>
      rcases children with _ | ⟨c, _ | ⟨d, cs⟩⟩ <;>
        simp [opening?, render, leadsWithNegative, Kind.name]
    | index =>
      rcases children with _ | ⟨container, _ | ⟨position, _ | ⟨c, cs⟩⟩⟩
      · simp [opening?, render, leadsWithNegative, Kind.name]
      · simp [opening?, render, leadsWithNegative, Kind.name]
      · have hcontainer := ih container List.mem_cons_self (hnames.child List.mem_cons_self)
        rw [opening?_index, leadsWithNegative]
        -- the container needs no parentheses of its own if it begins with a number
        constructor
        · rintro ⟨hlooser, hopening⟩
          exact (hcontainer hlooser).1 hopening
        · intro hleads
          have hlooser := looser_atom_of_leadsWithNegative hleads
          exact ⟨hlooser, (hcontainer hlooser).2 hleads⟩
      · simp [opening?, render, leadsWithNegative, Kind.name]
    -- anything else binds looser than an atom
    | script | block | var | assign | binary | unary | ternary | branch | loop =>
      simp [looser, Kind.level, Level.rank] at hatom

/-! ### Negations -/

/-- Whether the node is an element of a negative number, or of such an element. -/
def isElementOfNegative : Node → Bool
  | ⟨.index, [container, _], _⟩ => container.leadsWithNegative
  | _ => false

/-- An element of a negative number is an element access that begins with that number. -/
private theorem isElementOfNegative_cases {n : Node} (h : n.isElementOfNegative) :
    n.kind = .index ∧ n.leadsWithNegative := by
  fun_cases isElementOfNegative n with
  | case1 container position span =>
    rw [isElementOfNegative] at h
    exact ⟨rfl, by rwa [leadsWithNegative]⟩
  | case2 n hindex =>
    rw [isElementOfNegative.eq_2 n hindex] at h
    cases h

/-- Whether the node is a NaN with the sign bit. -/
def isSignedNaN (n : Node) : Bool :=
  match n.kind with
  | .literal value => value.isSignedNaN
  | _ => false

/-- The sign of a literal is looked for in the literal itself. -/
private theorem startsWithMinus_literal (value : Literal) (children : List Node)
    (span : Option Span) :
    startsWithMinus ⟨.literal value, children, span⟩ = (value.isNegative || value.isSignedNaN) := by
  cases value with
  | float v =>
    change v.isNegative = (v.isNegative && !v.value.isNaN || v.isNegative && v.value.isNaN)
    cases v.isNegative <;> cases v.value.isNaN <;> rfl
  | int v => exact (Bool.or_false _).symm
  | null | bool b | str s => rfl

/-- What begins with a negative number is the number, or an element access. -/
private theorem startsWithMinus_of_leadsWithNegative {n : Node} (h : n.leadsWithNegative) :
    n.startsWithMinus ∧ n.isSignedNaN = false ∨ n.isElementOfNegative := by
  -- a literal is looked at by both; behind an index only the text sees it
  fun_cases leadsWithNegative n with
  | case1 value span =>
    rw [leadsWithNegative] at h
    refine .inl ⟨by rw [startsWithMinus_literal, h, Bool.true_or], ?_⟩
    change value.isSignedNaN = false
    cases value with
    | float v =>
      rw [Literal.isNegative, Bool.and_eq_true, Bool.not_eq_true'] at h
      rw [Literal.isSignedNaN, h.2, Bool.and_false]
    | _ => rfl
  | case2 container position span =>
    rw [leadsWithNegative] at h
    exact .inr (by rwa [isElementOfNegative])
  | case3 n hliteral hindex =>
    rw [leadsWithNegative.eq_3 n hliteral hindex] at h
    cases h

/-- **Which operands of a negation begin with a minus sign**, where precedence asks for no
parentheses: those that are known to, but for NaNs, and the elements of negative numbers. -/
private theorem startsWithMinus_of_opening? {n : Node} (hnames : n.NamesUnsigned)
    (hlooser : n.looser .unary = false) (h : n.opening? = some '-') :
    n.startsWithMinus ∧ n.isSignedNaN = false ∨ n.isElementOfNegative := by
  by_cases hatom : n.looser .atom
  · -- looser than an atom, but not than a sign: this is a sign with its operand
    obtain ⟨kind, children, span⟩ := n
    cases kind with
    | unary op =>
      cases op with
      | neg => exact .inl ⟨rfl, rfl⟩
      | not =>
        exfalso
        match children with
        | [operand] => simp [opening?, render, UnaryOp.symbol] at h
        | [] | _ :: _ :: _ => simp [opening?, render, Kind.name] at h
    | literal | identifier | array | index | size => cases hatom
    | binary op => cases op <;> cases hlooser
    | script | block | var | assign | ternary | branch | loop => cases hlooser
  · have hleads := (opening?_of_atom hnames (by simpa using hatom)).1 h
    exact startsWithMinus_of_leadsWithNegative hleads

/-- What is known to begin with a minus sign does, if it is no NaN and has the children that it is
meant to have. -/
private theorem opening?_of_startsWithMinus {n : Node} (hnames : n.NamesUnsigned)
    (hfits : n.kind.fits n.children.length) (hstarts : n.startsWithMinus)
    (hnan : n.isSignedNaN = false) : n.opening? = some '-' := by
  obtain ⟨kind, children, span⟩ := n
  -- only negations and literals are ever known to begin with a sign
  cases kind with
  | unary op =>
    cases op with
    | neg =>
      obtain ⟨operand, rfl⟩ := List.length_eq_one_iff.1 (beq_iff_eq.1 hfits)
      simp [opening?, render, UnaryOp.symbol]
    | not => cases hstarts
  | literal value =>
    obtain rfl := List.length_eq_zero_iff.1 (beq_iff_eq.1 hfits)
    refine (opening?_of_atom hnames rfl).2 ?_
    change value.isSignedNaN = false at hnan
    rwa [startsWithMinus_literal, hnan, Bool.or_false] at hstarts
  | _ => cases hstarts

/-- **When two minus signs meet**: in front of an element of a negative number, and nowhere else. -/
theorem negation_doubles_iff {children : List Node} {span : Option Span}
    (hnames : NamesUnsigned ⟨.unary .neg, children, span⟩) :
    ['-', '-'] <+: (render none ⟨.unary .neg, children, span⟩).text.toList ↔
      ∃ operand, children = [operand] ∧ operand.isElementOfNegative := by
  match children with
  | [operand] =>
    have hoperand := hnames.child List.mem_cons_self
    have htext : (render none ⟨.unary .neg, [operand], span⟩).text.toList =
        '-' :: (((operand.render none).enclose (needsParens .neg operand)).text.toList ++ []) := by
      simp [render, UnaryOp.symbol]
    rw [htext, List.cons_prefix_cons, and_iff_right rfl,
      List.singleton_prefix_iff_head?_eq_some, head?_enclose _ _ _ (by simp)]
    constructor
    · rintro ⟨hparens, hopening⟩
      simp only [needsParens, beq_self_eq_true, Bool.true_and, Bool.or_eq_false_iff] at hparens
      rcases startsWithMinus_of_opening? hoperand hparens.1 hopening with ⟨hstarts, -⟩ | helement
      · rw [hparens.2] at hstarts
        cases hstarts
      · exact ⟨operand, rfl, helement⟩
    · rintro ⟨_, ⟨⟩, helement⟩
      -- an element access binds as tightly as anything, and is not known to begin with a sign
      obtain ⟨hkind, hleads⟩ := isElementOfNegative_cases helement
      have hparens : needsParens .neg operand = false := by
        simp [needsParens, looser, startsWithMinus, hkind, Kind.level, Level.rank]
      have hatom := looser_atom_of_leadsWithNegative hleads
      exact ⟨hparens, (opening?_of_atom hoperand hatom).2 hleads⟩
  | [] | _ :: _ :: _ => simp [render, Kind.name]

/-- **Where negations are written with two minus signs.** In a tree whose names do not begin with a
minus sign, this happens exactly to the negations of elements of negative numbers. It is there, and
nowhere else, that an operand begins with a minus sign without being known to: any other operand
that is written without parentheses for the sake of precedence, and has the children that it is
meant to have, begins with one exactly if it is known to and is not a NaN with the sign bit. -/
theorem negations_of_tree {root : Node} (hnames : root.NamesUnsigned) :
    (∀ m ∈ root.preorder, m.kind = .unary .neg →
      (['-', '-'] <+: (m.render none).text.toList ↔
        ∃ operand, m.children = [operand] ∧ operand.isElementOfNegative)) ∧
    ∀ operand ∈ root.preorder, operand.looser .unary = false →
      (operand.opening? = some '-' → operand.startsWithMinus ∨ operand.isElementOfNegative) ∧
      (operand.kind.fits operand.children.length → operand.isElementOfNegative = false →
        (operand.opening? = some '-' ↔
          operand.startsWithMinus ∧ operand.isSignedNaN = false)) := by
  have hbelow : ∀ m ∈ root.preorder, m.NamesUnsigned := by
    intro m hm n hn
    exact hnames n (preorder_subset_of_mem hm hn)
  constructor
  · rintro ⟨kind, children, span⟩ hm ⟨⟩
    exact negation_doubles_iff (hbelow _ hm)
  · intro operand hm hlooser
    have hunsigned := hbelow operand hm
    have hknown := startsWithMinus_of_opening? hunsigned hlooser
    refine ⟨fun hopening => (hknown hopening).imp And.left id, fun hfits helement => ?_⟩
    constructor
    · intro hopening
      rcases hknown hopening with hstarts | helement'
      · exact hstarts
      · rw [helement] at helement'
        cases helement'
    -- the converse needs the children: a negation without one is written with its name
    · rintro ⟨hstarts, hnan⟩
      exact opening?_of_startsWithMinus hunsigned hfits hstarts hnan

/-- A NaN with the sign bit is put in parentheses, but shows no sign that would ask for them. -/
example :
    (render none ⟨.unary .neg, [⟨.literal (.float ⟨0xfff8000000000000⟩), [], none⟩], none⟩).text =
      "-(NaN)" := by decide +kernel

/-- The negation of a number that is negative itself. -/
def negatedNumber : Node := ⟨.unary .neg, [⟨.literal (.int (-1)), [], none⟩], none⟩

/-- The negation of an element of a negative number. -/
def negatedElement : Node :=
  ⟨.unary .neg, [⟨.index, [⟨.literal (.int (-1)), [], none⟩, ⟨.literal (.int 0), [], none⟩], none⟩],
    none⟩

/-- A number is known to begin with its sign, and is put in parentheses. -/
theorem negations_of_tree_negatedNumber :
    negatedNumber.NamesUnsigned ∧ (negatedNumber.render none).text = "-(-1)" ∧
      ¬ ['-', '-'] <+: (negatedNumber.render none).text.toList := by
  have hnames : negatedNumber.NamesUnsigned := by
    intro m hm name register hkind
    simp only [negatedNumber, preorder_mk, preorderAll_eq_flatMap, List.flatMap_cons,
      List.flatMap_nil, List.append_nil, List.mem_cons, List.not_mem_nil, or_false] at hm
    rcases hm with rfl | rfl <;> cases hkind
  refine ⟨hnames, rfl, fun hprefix => ?_⟩
  obtain ⟨_, ⟨⟩, helement⟩ :=
    ((negations_of_tree hnames).1 negatedNumber (mem_preorder_self _) rfl).1 hprefix
  cases helement

/-- **Two minus signs can meet.** The tree is complete, has no spans and no names at all, and its
negation is written with two of them. -/
theorem negatedElement_doubles :
    (∀ m ∈ negatedElement.preorder, m.kind.fits m.children.length ∧ m.span = none) ∧
      negatedElement.NamesUnsigned ∧ negatedElement.kind = .unary .neg ∧
      (negatedElement.render none).text = "--1[0]" ∧
      ['-', '-'] <+: (negatedElement.render none).text.toList := by
  refine ⟨?_, ?_, rfl, rfl, by decide⟩
  · simp [negatedElement, Kind.fits]
  · intro m hm name register hkind
    simp only [negatedElement, preorder_mk, preorderAll_eq_flatMap, List.flatMap_cons,
      List.flatMap_nil, List.append_nil, List.cons_append, List.nil_append, List.mem_cons,
      List.not_mem_nil, or_false] at hm
    rcases hm with rfl | rfl | rfl | rfl <;> cases hkind

end Node

end Scriptlet
