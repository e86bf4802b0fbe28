import Scriptlet.Proofs.Grammar.Expressions

/-!
# The grammar in its written form

Derivations go with the parser: they know the spans of the tokens, chains of operators grow in them
one operand at a time, and a name is declared by the parser's own table of registers. This module
states the grammar once more as it is written down, over bare tokens and trees without spans,

    script    ::= ( statement ( ';' statement )* ';'? )?
    statement ::= 'var' NAME ( '=' sum )?  |  sum ( '=' sum )?
    sum       ::= product ( ( '+' | '-' | '<' ) product )*
    product   ::= signed ( ( '*' | '/' ) signed )*
    signed    ::= '-' signed  |  atom
    atom      ::= INT  |  NAME  |  STRING  |  '(' sum ')'

with repetitions as lists of their rounds, and shows that the two agree.

* `Phrase`, `StatementPhrase`, `ScriptPhrase` — the rules above, each with the tree it stands for;
* `Derives.phrase`, `Phrase.exists_derives` — phrases are what is derived, spans aside;
* `registersAfter` — the registers of a script, from its tokens alone;
* `DerivesScript.phrase`, `ScriptPhrase.exists_derives` — the same for whole scripts.
-/

namespace Scriptlet.Grammar

/-! ### The rules -/

/-- One round of a repetition in a chain of operators: the sign, the tokens behind it, and the tree
of these. -/
structure Link where
  sign : Symbol
  operand : List Token
  node : Node

namespace Link

/-- The tokens of the round. -/
def tokens (link : Link) : List Token := .op link.sign :: link.operand

/-- What stands before the round becomes the left operand. -/
def attach (left : Node) (link : Link) : Node :=
  ⟨.binary link.sign.operator, [left, link.node], none⟩

end Link

/-- The tokens are a phrase of the tier where the names in `known` are the registers, and the node
is its tree. A chain of operators is nested to the left, and parentheses leave no node. -/
inductive Phrase (known : List String) : Tier → List Token → Node → Prop where
  | int (n : Int64) : Phrase known .atom [.int n] ⟨.literal (.int n), [], none⟩
  | str (text : String) : Phrase known .atom [.str text] ⟨.literal (.str text), [], none⟩
  | name (text : String) :
      Phrase known .atom [.name text] ⟨.identifier text (known.idxOf? text), [], none⟩
  | parens {ts : List Token} {n : Node} (inner : Phrase known .sum ts n) :
      Phrase known .atom (.openParen :: (ts ++ [.closeParen])) n
  | atom {ts : List Token} {n : Node} (whole : Phrase known .atom ts n) : Phrase known .signed ts n
  | minus {ts : List Token} {n : Node} (operand : Phrase known .signed ts n) :
      Phrase known .signed (.op .minus :: ts) ⟨.unary .neg, [n], none⟩
  | product {ts : List Token} {n : Node} {links : List Link} (first : Phrase known .signed ts n)
      (signs : ∀ link ∈ links, link.sign ∈ [.times, .slash])
      (operands : ∀ link ∈ links, Phrase known .signed link.operand link.node) :
      Phrase known .product (ts ++ links.flatMap Link.tokens) (links.foldl Link.attach n)
  | sum {ts : List Token} {n : Node} {links : List Link} (first : Phrase known .product ts n)
      (signs : ∀ link ∈ links, link.sign ∈ [.plus, .minus, .less])
      (operands : ∀ link ∈ links, Phrase known .product link.operand link.node) :
      Phrase known .sum (ts ++ links.flatMap Link.tokens) (links.foldl Link.attach n)

/-- The names known after a declaration. -/
def enrol (known : List String) (name : String) : List String :=
  if name ∈ known then known else known ++ [name]

/-- The tokens are a statement with the tree `n`, after which more names may be known. A declared
name is known to its own initialiser. -/
inductive StatementPhrase (known : List String) : List Token → Node → List String → Prop where
  | declare (name : String) :
      StatementPhrase known [.var, .name name]
        ⟨.var name ((enrol known name).idxOf name), [], none⟩ (enrol known name)
  | define (name : String) {ts : List Token} {n : Node}
      (value : Phrase (enrol known name) .sum ts n) :
      StatementPhrase known (.var :: .name name :: .assign :: ts)
        ⟨.var name ((enrol known name).idxOf name), [n], none⟩ (enrol known name)
  | expression {ts : List Token} {n : Node} (whole : Phrase known .sum ts n) :
      StatementPhrase known ts n known
  | assign {ts us : List Token} {l r : Node} (target : Phrase known .sum ts l)
      (value : Phrase known .sum us r) :
      StatementPhrase known (ts ++ .assign :: us) ⟨.assign, [l, r], none⟩ known

/-- What follows the first statement: any number of statements, each behind a semicolon, and maybe
a semicolon at the end. -/
inductive MorePhrase : List String → List Token → List Node → List String → Prop where
  | nothing {known : List String} : MorePhrase known [] [] known
  | semicolon {known : List String} : MorePhrase known [.semicolon] [] known
  | statement {known known' registers : List String} {ts us : List Token} {n : Node}
      {ns : List Node} (next : StatementPhrase known ts n known')
      (more : MorePhrase known' us ns registers) :
      MorePhrase known (.semicolon :: (ts ++ us)) (n :: ns) registers

/-- The tokens are a script of the given statements, which leaves the given registers. -/
inductive ScriptPhrase (known : List String) :
    List Token → List Node → List String → Prop where
  | empty : ScriptPhrase known [] [] known
  | statements {known' registers : List String} {ts us : List Token} {n : Node} {ns : List Node}
      (first : StatementPhrase known ts n known') (more : MorePhrase known' us ns registers) :
      ScriptPhrase known (ts ++ us) (n :: ns) registers

/-! ### Chains -/

section Chain

variable {known : List String} {ts us : List Token} {n m : Node} {sign : Symbol}

private theorem flatMap_tokens_concat (links : List Link) (link : Link) :
    (links ++ [link]).flatMap Link.tokens =
      links.flatMap Link.tokens ++ .op link.sign :: link.operand := by
  rw [List.flatMap_append, List.flatMap_singleton]
  rfl

private theorem forall_mem_concat {P : Link → Prop} {links : List Link} (hlinks : ∀ l ∈ links, P l)
    (link : Link) (hlink : P link) : ∀ l ∈ links ++ [link], P l :=
  List.forall_mem_append.2 ⟨hlinks, List.forall_mem_singleton.2 hlink⟩

/-- A single operand is a chain without rounds. -/
theorem Phrase.signed (h : Phrase known .signed ts n) : Phrase known .product ts n := by
  have hchain := @Phrase.product known ts n [] h (by simp) (by simp)
  rwa [List.flatMap_nil, List.append_nil, List.foldl_nil] at hchain

/-- A chain of factors is a sum of one. -/
theorem Phrase.product_sum (h : Phrase known .product ts n) : Phrase known .sum ts n := by
  have hchain := @Phrase.sum known ts n [] h (by simp) (by simp)
  rwa [List.flatMap_nil, List.append_nil, List.foldl_nil] at hchain

/-- **A chain can be prolonged** by one more round at its end. -/
theorem Phrase.multiply (h : Phrase known .product ts n) (hsign : sign ∈ [.times, .slash])
    (hright : Phrase known .signed us m) :
    Phrase known .product (ts ++ .op sign :: us) (Link.attach n ⟨sign, us, m⟩) := by
  cases h with
  | @product ts n links first signs operands =>
    have hchain := Phrase.product first (forall_mem_concat signs ⟨sign, us, m⟩ hsign)
      (forall_mem_concat operands _ hright)
    rwa [flatMap_tokens_concat, List.foldl_concat, ← List.append_assoc] at hchain

/-- A sum grows at its end. -/
theorem Phrase.add (h : Phrase known .sum ts n) (hsign : sign ∈ [.plus, .minus, .less])
    (hright : Phrase known .product us m) :
    Phrase known .sum (ts ++ .op sign :: us) (Link.attach n ⟨sign, us, m⟩) := by
  cases h with
  | @sum ts n links first signs operands =>
    have hchain := Phrase.sum first (forall_mem_concat signs ⟨sign, us, m⟩ hsign)
      (forall_mem_concat operands _ hright)
    rwa [flatMap_tokens_concat, List.foldl_concat, ← List.append_assoc] at hchain

end Chain

/-! ### Registers -/

section Registers

variable {known registers : List String} {name : String}

/-- As long as there are no more registers than numbers for them, a register is the place of its
name. -/
theorem registerOf?_eq_idxOf? (hsize : known.length ≤ UInt32.size) (name : String) :
    registerOf? known name = known.idxOf? name := by
  rw [registerOf?]
  cases hname : known.idxOf? name with
  | none => rfl
  | some i =>
    obtain ⟨hi, -⟩ := List.idxOf?_eq_some_iff.1 hname
    exact Option.filter_some_pos (decide_eq_true (Nat.lt_of_lt_of_le hi hsize))

private theorem length_le_enrol (known : List String) (name : String) :
    known.length ≤ (enrol known name).length := by
  unfold enrol
  split
  · exact Nat.le_refl _
  · rw [List.length_append]
    exact Nat.le_add_right ..

/-- A name is not entered twice. -/
theorem nodup_enrol (h : known.Nodup) (name : String) : (enrol known name).Nodup := by
  unfold enrol
  split
  · exact h
  · next hname =>
    refine List.nodup_append.2 ⟨h, List.pairwise_singleton _ name, fun a ha b hb hab => ?_⟩
    rw [List.mem_singleton.1 hb] at hab
    exact hname (hab ▸ ha)

/-- A name that is known keeps its register. -/
private theorem declare_of_mem (hsize : known.length ≤ UInt32.size) (hname : name ∈ known)
    (span : Span) : declare known name span = .ok (known.idxOf name, known) := by
  have hlt : known.idxOf name < known.length := List.idxOf_lt_length_iff.2 hname
  have hplace : known.idxOf? name = some (known.idxOf name) := by
    rw [List.idxOf?, List.findIdx?_eq_guard_findIdx_lt]
    exact Option.guard_pos (decide_eq_true hlt)
  rw [declare, registerOf?_eq_idxOf? hsize, hplace]

/-- A new name gets the next register, as long as there is one. -/
private theorem declare_of_notMem (hsize : known.length ≤ UInt32.size) (hname : name ∉ known)
    (span : Span) :
    declare known name span =
      if known.length < UInt32.size then .ok ((known ++ [name]).idxOf name, known ++ [name])
      else .error ⟨.tooManyLocals, some span⟩ := by
  -- the new name stands at the end of the table
  have hplace : (known ++ [name]).idxOf name = known.length := by
    rw [List.idxOf_append, if_neg hname, List.idxOf_cons_self, Nat.zero_add]
  rw [declare, registerOf?_eq_idxOf? hsize, List.idxOf?_eq_none_iff.2 hname, hplace]

/-- **Declaring enrols the name**, unless that would be one register too many. -/
theorem declare_eq_ok_iff (hsize : known.length ≤ UInt32.size) (span : Span) {i : Nat} :
    declare known name span = .ok (i, registers) ↔
      registers = enrol known name ∧ i = (enrol known name).idxOf name ∧
        registers.length ≤ UInt32.size := by
  by_cases hname : name ∈ known
  · rw [declare_of_mem hsize hname, enrol, if_pos hname, Except.ok.injEq, Prod.mk.injEq]
    constructor
    · rintro ⟨rfl, rfl⟩
      exact ⟨rfl, rfl, hsize⟩
    · rintro ⟨rfl, rfl, -⟩
      exact ⟨rfl, rfl⟩
  -- a new name makes the table longer by one, which has to fit
  · have hlength : (known ++ [name]).length = known.length + 1 := List.length_append
    rw [declare_of_notMem hsize hname, enrol, if_neg hname]
    split
    · next hlt =>
      rw [Except.ok.injEq, Prod.mk.injEq]
      constructor
      · rintro ⟨rfl, rfl⟩
        exact ⟨rfl, rfl, hlength.trans_le hlt⟩
      · rintro ⟨rfl, rfl, -⟩
        exact ⟨rfl, rfl⟩
    · next hge =>
      constructor
      · intro h
        cases h
      · rintro ⟨rfl, -, hle⟩
        exact absurd (hlength.symm.trans_le hle) hge

end Registers

/-! ### What is derived is a phrase -/

section Derives

variable {known registers : List String} {ls : List Lexeme} {n : Node}

private theorem Symbol.mem_of_multiplicative? {sign : Symbol} {op : BinaryOp}
    (h : sign.multiplicative? = some op) : sign ∈ [times, slash] := by
  cases sign <;> cases h <;> decide

private theorem Symbol.mem_of_additive? {sign : Symbol} {op : BinaryOp}
    (h : sign.additive? = some op) : sign ∈ [plus, minus, less] := by
  cases sign <;> cases h <;> decide

/-- **What is derived as an expression is a phrase.** -/
theorem Derives.phrase {tier : Tier} (h : Derives known tier ls n)
    (hsize : known.length ≤ UInt32.size) :
    Phrase known tier (ls.map Lexeme.token) n.unlocated := by
  -- by induction on the derivation; a chain of the grammar collects the operators that were added
  -- one by one
  induction h with
  | @leaf token span kind operand =>
    rw [Node.unlocated_mk]
    cases token with
    | int value =>
      cases operand
      exact .int value
    | str text =>
      cases operand
      exact .str text
    | name text =>
      cases operand
      rw [registerOf?_eq_idxOf? hsize]
      exact .name text
    | _ => cases operand
  | group _ ih =>
    rw [List.map_cons, List.map_append]
    exact .parens ih
  | atom _ ih => exact .atom ih
  | negate _ ih =>
    rw [negationNode, Node.unlocated_mk]
    exact .minus ih
  | signed _ ih => exact ih.signed
  | multiply operator _ _ ihl ihr =>
    rw [List.map_append, List.map_cons, binaryNode, Node.unlocated_mk,
      ← Symbol.operator_of_multiplicative? operator]
    exact ihl.multiply (Symbol.mem_of_multiplicative? operator) ihr
  | product _ ih => exact ih.product_sum
  | add operator _ _ ihl ihr =>
    rw [List.map_append, List.map_cons, binaryNode, Node.unlocated_mk,
      ← Symbol.operator_of_additive? operator]
    exact ihl.add (Symbol.mem_of_additive? operator) ihr

/-- The tokens of a derived statement are one by the grammar, and the registers stay within the
limit. -/
theorem DerivesStatement.phrase (h : DerivesStatement known ls n registers)
    (hsize : known.length ≤ UInt32.size) :
    StatementPhrase known (ls.map Lexeme.token) n.unlocated registers ∧
      registers.length ≤ UInt32.size := by
  cases h with
  | @declare _ keyword span name i hdeclare =>
    obtain ⟨rfl, rfl, hsize'⟩ := (declare_eq_ok_iff hsize _).1 hdeclare
    rw [Node.unlocated_mk]
    exact ⟨.declare name, hsize'⟩
  | @define _ keyword span sign name i ls init hdeclare value =>
    obtain ⟨rfl, rfl, hsize'⟩ := (declare_eq_ok_iff hsize _).1 hdeclare
    rw [Node.unlocated_mk]
    exact ⟨.define name (value.phrase hsize'), hsize'⟩
  | expression whole => exact ⟨.expression (whole.phrase hsize), hsize⟩
  | assign left right =>
    rw [List.map_append, List.map_cons, Node.unlocated_mk]
    exact ⟨.assign (left.phrase hsize) (right.phrase hsize), hsize⟩

/-- A statement and a semicolon may stand before any script. -/
theorem ScriptPhrase.behind {known' : List String} {ts us : List Token} {ns : List Node}
    (h : ScriptPhrase known' us ns registers) (hfirst : StatementPhrase known ts n known') :
    ScriptPhrase known (ts ++ .semicolon :: us) (n :: ns) registers := by
  cases h with
  | empty => exact .statements hfirst .semicolon
  | statements next more => exact .statements hfirst (.statement next more)

/-- **What is derived as a script is a phrase.** -/
theorem DerivesScript.phrase {ns : List Node} (h : DerivesScript known ls ns registers)
    (hsize : known.length ≤ UInt32.size) :
    ScriptPhrase known (ls.map Lexeme.token) (ns.map Node.unlocated) registers := by
  induction h with
  | nil => exact .empty
  | last statement =>
    have hphrase := ScriptPhrase.statements (statement.phrase hsize).1 .nothing
    rwa [List.append_nil] at hphrase
  | cons first _ ih =>
    obtain ⟨hfirst, hsize'⟩ := first.phrase hsize
    rw [List.map_append, List.map_cons, List.map_cons]
    exact (ih hsize').behind hfirst

end Derives

/-! ### Phrases are derived -/

section Phrases

variable {known registers : List String} {ts : List Token} {ls : List Lexeme} {n : Node}

private theorem exists_lexeme {token : Token} (h : ls.map Lexeme.token = token :: ts) :
    ∃ span rest, ls = ⟨token, span⟩ :: rest ∧ rest.map Lexeme.token = ts := by
  obtain ⟨⟨_, span⟩, rest, rfl, rfl, hrest⟩ := List.map_eq_cons_iff.1 h
  exact ⟨span, rest, rfl, hrest⟩

private theorem exists_span {token : Token} (h : ls.map Lexeme.token = [token]) :
    ∃ span, ls = [⟨token, span⟩] := by
  obtain ⟨span, rest, rfl, hrest⟩ := exists_lexeme h
  obtain rfl : rest = [] := List.map_eq_nil_iff.1 hrest
  exact ⟨span, rfl⟩

/-- Rounds are added to a chain one by one. -/
private theorem exists_chain {P : List Lexeme → Node → Prop} {links : List Link}
    (hround : ∀ link ∈ links, ∀ {ls m span rs}, P ls m → rs.map Lexeme.token = link.operand →
      ∃ m', P (ls ++ ⟨.op link.sign, span⟩ :: rs) m' ∧ m'.unlocated = link.attach m.unlocated)
    (h : P ls n) {rs : List Lexeme} (hrs : rs.map Lexeme.token = links.flatMap Link.tokens) :
    ∃ m, P (ls ++ rs) m ∧ m.unlocated = links.foldl Link.attach n.unlocated := by
  induction links generalizing ls n rs with
  | nil =>
    obtain rfl : rs = [] := List.map_eq_nil_iff.1 hrs
    rw [List.append_nil]
    exact ⟨n, h, rfl⟩
  | cons link links ih =>
    rw [List.flatMap_cons, Link.tokens, List.cons_append] at hrs
    obtain ⟨span, ks, rfl, hks⟩ := exists_lexeme hrs
    obtain ⟨qs, rs, rfl, hqs, hrest⟩ := List.map_eq_append_iff.1 hks
    -- one more round, from the node that the rounds before have made
    obtain ⟨m, hm, hmn⟩ := hround link List.mem_cons_self h hqs
    obtain ⟨m', hm', heq⟩ := ih (fun l hl => hround l (List.mem_cons_of_mem _ hl)) hm hrest
    rw [List.append_assoc] at hm'
    rw [hmn] at heq
    exact ⟨m', hm', heq⟩

private theorem Symbol.multiplicative?_eq {sign : Symbol} (h : sign ∈ [times, slash]) :
    sign.multiplicative? = some sign.operator := by
  simp only [List.mem_cons, List.not_mem_nil, or_false] at h
  rcases h with rfl | rfl <;> rfl

private theorem Symbol.additive?_eq {sign : Symbol} (h : sign ∈ [plus, minus, less]) :
    sign.additive? = some sign.operator := by
  simp only [List.mem_cons, List.not_mem_nil, or_false] at h
  rcases h with rfl | rfl | rfl <;> rfl

/-- **A phrase of expressions is derived**, whatever the spans of its tokens. -/
theorem Phrase.exists_derives {tier : Tier} (h : Phrase known tier ts n)
    (hsize : known.length ≤ UInt32.size) (hls : ls.map Lexeme.token = ts) :
    ∃ m, Derives known tier ls m ∧ m.unlocated = n := by
  -- along the grammar, for all places at which the tokens may stand
  induction h generalizing ls with
  | int value =>
    obtain ⟨span, rfl⟩ := exists_span hls
    exact ⟨_, .leaf rfl, Node.unlocated_mk ..⟩
  | str text =>
    obtain ⟨span, rfl⟩ := exists_span hls
    exact ⟨_, .leaf rfl, Node.unlocated_mk ..⟩
  | name text =>
    obtain ⟨span, rfl⟩ := exists_span hls
    rw [← registerOf?_eq_idxOf? hsize]
    exact ⟨_, .leaf rfl, Node.unlocated_mk ..⟩
  | parens _ ih =>
    obtain ⟨opening, ks, rfl, hks⟩ := exists_lexeme hls
    obtain ⟨ls, ks, rfl, hinner, hclosing⟩ := List.map_eq_append_iff.1 hks
    obtain ⟨closing, rfl⟩ := exists_span hclosing
    obtain ⟨m, hm, heq⟩ := ih hinner
    exact ⟨m, .group hm, heq⟩
  | atom _ ih =>
    obtain ⟨m, hm, heq⟩ := ih hls
    exact ⟨m, .atom hm, heq⟩
  | minus _ ih =>
    obtain ⟨minus, ks, rfl, hks⟩ := exists_lexeme hls
    obtain ⟨m, hm, rfl⟩ := ih hks
    exact ⟨_, .negate hm, by simp [negationNode]⟩
  | product _ signs _ ih ihs =>
    -- the first operand, and then one round after the other
    obtain ⟨ks, rs, rfl, hks, hrs⟩ := List.map_eq_append_iff.1 hls
    obtain ⟨m, hm, rfl⟩ := ih hks
    refine exists_chain (fun link hlink => ?_) (.signed hm) hrs
    intro ls m span rs hm hrs
    obtain ⟨r, hr, hnode⟩ := ihs link hlink hrs
    refine ⟨_, .multiply (Symbol.multiplicative?_eq (signs link hlink)) hm hr, ?_⟩
    simp [binaryNode, Link.attach, hnode]
  | sum _ signs _ ih ihs =>
    obtain ⟨ks, rs, rfl, hks, hrs⟩ := List.map_eq_append_iff.1 hls
    obtain ⟨m, hm, rfl⟩ := ih hks
    refine exists_chain (fun link hlink => ?_) (.product hm) hrs
    intro ls m span rs hm hrs
    obtain ⟨r, hr, hnode⟩ := ihs link hlink hrs
    refine ⟨_, .add (Symbol.additive?_eq (signs link hlink)) hm hr, ?_⟩
    simp [binaryNode, Link.attach, hnode]

/-- A statement of the grammar is derived wherever its tokens stand. -/
theorem StatementPhrase.exists_derives (h : StatementPhrase known ts n registers)
    (hsize : registers.length ≤ UInt32.size) (hls : ls.map Lexeme.token = ts) :
    ∃ m, DerivesStatement known ls m registers ∧ m.unlocated = n := by
  cases h with
  | declare name =>
    obtain ⟨keyword, ks, rfl, hks⟩ := exists_lexeme hls
    obtain ⟨span, rfl⟩ := exists_span hks
    have hknown := Nat.le_trans (length_le_enrol known name) hsize
    have hdeclare := (declare_eq_ok_iff hknown span).2 ⟨rfl, rfl, hsize⟩
    exact ⟨_, .declare hdeclare, Node.unlocated_mk ..⟩
  | define name value =>
    -- the value is read with the name in the table
    obtain ⟨keyword, ks, rfl, hks⟩ := exists_lexeme hls
    obtain ⟨span, ks, rfl, hsign⟩ := exists_lexeme hks
    obtain ⟨sign, ks, rfl, hvalue⟩ := exists_lexeme hsign
    have hknown := Nat.le_trans (length_le_enrol known name) hsize
    have hdeclare := (declare_eq_ok_iff hknown span).2 ⟨rfl, rfl, hsize⟩
    obtain ⟨m, hm, rfl⟩ := value.exists_derives hsize hvalue
    exact ⟨_, .define hdeclare hm, Node.unlocated_mk ..⟩
  | expression whole =>
    obtain ⟨m, hm, heq⟩ := whole.exists_derives hsize hls
    exact ⟨m, .expression hm, heq⟩
  | assign target value =>
    obtain ⟨ks, rest, rfl, htarget, hrest⟩ := List.map_eq_append_iff.1 hls
    obtain ⟨sign, rs, rfl, hvalue⟩ := exists_lexeme hrest
    obtain ⟨l, hl, rfl⟩ := target.exists_derives hsize htarget
    obtain ⟨r, hr, rfl⟩ := value.exists_derives hsize hvalue
    exact ⟨_, .assign hl hr, Node.unlocated_mk ..⟩

end Phrases

/-! ### The registers of a script -/

/-- The names that stand behind the keyword. -/
def declaredNames : List Token → List String
  | .var :: .name name :: ts => name :: declaredNames ts
  | _ :: ts => declaredNames ts
  | [] => []

/-- The names known after the tokens of a script. -/
def registersAfter (known : List String) (ts : List Token) : List String :=
  (declaredNames ts).foldl enrol known

section Registers

variable {known registers : List String} {ts us : List Token} {n : Node}

/-- **A table of names only grows, and stays without repetitions.** -/
theorem length_le_registersAfter (known : List String) (ts : List Token) :
    known.length ≤ (registersAfter known ts).length := by
  unfold registersAfter
  generalize declaredNames ts = names
  induction names generalizing known with
  | nil => exact Nat.le_refl _
  | cons name names ih => exact Nat.le_trans (length_le_enrol known name) (ih _)

/-- The registers after some statements have distinct names. -/
theorem nodup_registersAfter (h : known.Nodup) (ts : List Token) :
    (registersAfter known ts).Nodup := by
  unfold registersAfter
  generalize declaredNames ts = names
  induction names generalizing known with
  | nil => exact h
  | cons name names ih => exact ih (nodup_enrol h name)

/-- No expression contains the keyword. -/
private theorem Phrase.var_notMem {tier : Tier} (h : Phrase known tier ts n) : .var ∉ ts := by
  induction h with
  | int | str | name => simp
  | parens _ ih => simpa using ih
  | atom _ ih => exact ih
  | minus _ ih => simpa using ih
  | product _ _ _ ih ihs | sum _ _ _ ih ihs =>
    -- neither the first operand nor a round contains it
    simp only [List.mem_append, List.mem_flatMap, Link.tokens, List.mem_cons, reduceCtorEq,
      false_or, not_or, not_exists, not_and]
    exact ⟨ih, ihs⟩

/-- Tokens without a keyword declare nothing. -/
private theorem declaredNames_append (h : .var ∉ ts) :
    declaredNames (ts ++ us) = declaredNames us := by
  induction ts with
  | nil => rfl
  | cons t ts ih =>
    rw [List.mem_cons, not_or] at h
    cases t with
    | var => exact absurd rfl h.1
    | _ => exact ih h.2

private theorem StatementPhrase.registersAfter_append (h : StatementPhrase known ts n registers)
    (us : List Token) : registersAfter known (ts ++ us) = registersAfter registers us := by
  cases h with
  | declare name => rfl
  | @define name ts n value =>
    change (declaredNames (ts ++ us)).foldl enrol (enrol known name) = _
    rw [declaredNames_append value.var_notMem]
    rfl
  | expression whole =>
    rw [registersAfter, declaredNames_append whole.var_notMem]
    rfl
  | assign target value =>
    rw [registersAfter, declaredNames_append]
    · rfl
    · simp [target.var_notMem, value.var_notMem]

/-- The registers at the end can be told from the tokens. -/
theorem MorePhrase.registers_eq {ns : List Node} (h : MorePhrase known ts ns registers) :
    registers = registersAfter known ts := by
  induction h with
  | nothing => rfl
  | semicolon => rfl
  | statement next _ ih => exact ih.trans (next.registersAfter_append _).symm

/-- **The registers of a script can be told from its tokens.** -/
theorem ScriptPhrase.registers_eq {ns : List Node} (h : ScriptPhrase known ts ns registers) :
    registers = registersAfter known ts := by
  cases h with
  | empty => rfl
  | statements first more => exact more.registers_eq.trans (first.registersAfter_append _).symm

/-- What follows a derived statement is derived with it. -/
theorem MorePhrase.exists_derives {known' : List String} {ns : List Node} {ls rs : List Lexeme}
    {m : Node} (h : MorePhrase known' us ns registers) (hsize : registers.length ≤ UInt32.size)
    (hfirst : DerivesStatement known ls m known') (hrs : rs.map Lexeme.token = us) :
    ∃ ms, DerivesScript known (ls ++ rs) (m :: ms) registers ∧ ms.map Node.unlocated = ns := by
  induction h generalizing known ls rs m with
  | nothing =>
    obtain rfl : rs = [] := List.map_eq_nil_iff.1 hrs
    rw [List.append_nil]
    exact ⟨[], .last hfirst, rfl⟩
  | semicolon =>
    obtain ⟨span, rfl⟩ := exists_span hrs
    exact ⟨[], .cons hfirst .nil, rfl⟩
  | @statement known' known'' registers ts us n ns next more ih =>
    obtain ⟨span, ks, rfl, hks⟩ := exists_lexeme hrs
    obtain ⟨ks, rs, rfl, hks, hrest⟩ := List.map_eq_append_iff.1 hks
    -- the table is not yet larger than it is at the end
    have hknown : known''.length ≤ registers.length :=
      more.registers_eq ▸ length_le_registersAfter known'' us
    obtain ⟨m', hm', rfl⟩ := next.exists_derives (Nat.le_trans hknown hsize) hks
    obtain ⟨ms, hms, rfl⟩ := ih hsize hm' hrest
    exact ⟨m' :: ms, .cons hfirst hms, rfl⟩

/-- **A phrase of scripts is derived**, whatever the spans of its tokens. -/
theorem ScriptPhrase.exists_derives {ns : List Node} {ls : List Lexeme}
    (h : ScriptPhrase known (ls.map Lexeme.token) ns registers)
    (hsize : registers.length ≤ UInt32.size) :
    ∃ ms, DerivesScript known ls ms registers ∧ ms.map Node.unlocated = ns := by
  generalize hls : ls.map Lexeme.token = ts at h
  cases h with
  | empty =>
    obtain rfl : ls = [] := List.map_eq_nil_iff.1 hls
    exact ⟨[], .nil, rfl⟩
  | @statements known' registers ts us n ns first more =>
    obtain ⟨ks, rs, rfl, hks, hrs⟩ := List.map_eq_append_iff.1 hls
    have hknown : known'.length ≤ registers.length :=
      more.registers_eq ▸ length_le_registersAfter known' us
    obtain ⟨m, hm, rfl⟩ := first.exists_derives (Nat.le_trans hknown hsize) hks
    obtain ⟨ms, hms, rfl⟩ := more.exists_derives hsize hm hrs
    exact ⟨m :: ms, hms, rfl⟩

end Registers

end Scriptlet.Grammar
