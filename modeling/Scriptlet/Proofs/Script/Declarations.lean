import Scriptlet.Proofs.Grammar.Phrases
import Scriptlet.Proofs.Script.Reading

/-!
# Declarations and registers

The table of registers grows while a text is read: every `var` enrols its name, unless it is there
already, and every name is looked up in the table as it is at that point. So the registers of a
script can be told from its statements, and a variable of a statement has a register exactly if it
was enrolled before the statement or by it.

* `Node.declaredName?` — the name that a statement declares;
* `foldl_enrol` — the table after some declarations; `tableAfter` — after some statements;
* `Node.Resolved` — a node has the registers of a table;
* `DerivesScript.resolved` — every statement has the registers of the table after it;
* `reader_layout` — the registers of a script that was read, and what they are the registers of.

Nothing in this depends on how large the table is, except that registers are numbered by 32-bit
words, so that a table with more names would have some without a number.
-/

namespace Scriptlet

/-- The name that the node declares. -/
def Node.declaredName? (n : Node) : Option String :=
  match n.kind with
  | .var name _ => some name
  | _ => none

/-- **The node has the registers of the table**: a variable the one of its name, if there is one,
and a declaration one that there is. -/
structure Node.Resolved (known : List String) (m : Node) : Prop where
  identifier : ∀ name register, m.kind = .identifier name register → register = known.idxOf? name
  var : ∀ name i, m.kind = .var name i → known.idxOf? name = some i

namespace Grammar

/-! ### The table after declarations -/

section Table

variable {known names : List String} {name : String}

/-- A name joins the table at its end, if at all. -/
private theorem prefix_enrol (known : List String) (name : String) :
    known <+: enrol known name := by
  unfold enrol
  split
  · exact List.prefix_refl known
  · exact List.prefix_append known [name]

private theorem mem_enrol {other : String} :
    other ∈ enrol known name ↔ other ∈ known ∨ other = name := by
  unfold enrol
  -- a name that is there already is not enrolled again
  split
  · next hname =>
    constructor
    · exact Or.inl
    · rintro (hknown | rfl)
      · exact hknown
      · exact hname
  · rw [List.mem_append, List.mem_singleton]

private theorem prefix_foldl_enrol (known names : List String) :
    known <+: names.foldl enrol known := by
  induction names generalizing known with
  | nil => exact List.prefix_refl known
  | cons name names ih => exact (prefix_enrol known name).trans (ih (enrol known name))

/-- What is in the table has been there or has been declared. -/
private theorem mem_foldl_enrol : name ∈ names.foldl enrol known ↔ name ∈ known ∨ name ∈ names := by
  induction names generalizing known with
  | nil => simp
  | cons head names ih => rw [List.foldl_cons, ih, mem_enrol, List.mem_cons, or_assoc]

/-- **The table after some declarations**: the names of before, and then the new ones, each once and
in the order of their first declarations. -/
theorem foldl_enrol (known names : List String) :
    names.foldl enrol known = known ++ (names.filter (· ∉ known)).eraseDups := by
  induction names generalizing known with
  | nil => simp
  | cons name names ih =>
    rw [List.foldl_cons, ih]
    by_cases hname : name ∈ known
    · rw [enrol, if_pos hname, List.filter_cons_of_neg (by simpa using hname)]
    · -- the name is not new any more to the declarations after it
      have hlater : names.filter (· ∉ known ++ [name]) =
          (names.filter (· ∉ known)).filter (fun other => !other == name) := by
        rw [List.filter_filter]
        refine List.filter_congr fun other _ => ?_
        by_cases hother : other ∈ known <;> by_cases heq : other = name <;> simp [hother, heq]
      rw [enrol, if_neg hname, List.filter_cons_of_pos (by simpa using hname), List.eraseDups_cons,
        hlater, List.append_assoc, List.singleton_append]

end Table

/-! ### Reading without a look at the size -/

section Grows

variable {known registers : List String} {ls : List Lexeme} {n : Node}

/-- The table keeps what it has, and gets no name twice. -/
structure Grows (known registers : List String) : Prop where
  keeps : known <+: registers
  nodup : known.Nodup → registers.Nodup

theorem Grows.refl (known : List String) : Grows known known := ⟨List.prefix_refl known, id⟩

theorem Grows.trans {known' : List String} (h : Grows known known') (h' : Grows known' registers) :
    Grows known registers :=
  ⟨h.keeps.trans h'.keeps, h'.nodup ∘ h.nodup⟩

/-- A declaration keeps the table and repeats no name in it. -/
private theorem declare_grows {name : String} {span : Span} {i : Nat}
    (h : declare known name span = .ok (i, registers)) : Grows known registers := by
  unfold declare at h
  split at h
  · cases h
    exact .refl known
  · next hfree =>
    split at h
    · next hlt =>
      cases h
      -- a table that is not full finds the number of every name in it
      have hname : name ∉ known := by
        rw [registerOf?_eq_idxOf? (Nat.le_of_lt hlt)] at hfree
        exact List.idxOf?_eq_none_iff.1 hfree
      have henrol : enrol known name = known ++ [name] := if_neg hname
      refine ⟨List.prefix_append known [name], fun hnodup => ?_⟩
      rw [← henrol]
      exact nodup_enrol hnodup name
    · cases h

/-- **The table of a statement grows out of the one before it.** -/
theorem DerivesStatement.grows (h : DerivesStatement known ls n registers) :
    Grows known registers := by
  cases h with
  | declare hknown => exact declare_grows hknown
  | define hknown _ => exact declare_grows hknown
  | expression _ => exact .refl _
  | assign _ _ => exact .refl _

/-- **The table of a script grows out of its parameters.** -/
theorem DerivesScript.grows {ns : List Node} (h : DerivesScript known ls ns registers) :
    Grows known registers := by
  induction h with
  | nil => exact .refl _
  | last statement => exact statement.grows
  | cons first _ ih => exact first.grows.trans ih

end Grows

/-! ### Registers of nodes -/

section Resolved

variable {known registers : List String} {ls : List Lexeme} {n : Node}

/-- The table after some statements. -/
def tableAfter (known : List String) (ns : List Node) : List String :=
  (ns.filterMap Node.declaredName?).foldl enrol known

/-- The table after some statements is the table after the first, and then after the others. -/
private theorem tableAfter_cons (known : List String) (n : Node) (ns : List Node) :
    tableAfter known (n :: ns) = tableAfter (tableAfter known [n]) ns := by
  unfold tableAfter
  rw [← List.foldl_append, ← List.filterMap_append, List.singleton_append]

/-- A later table only has more names, at its end. -/
private theorem prefix_tableAfter_take (known : List String) (ns : List Node) (i : Nat) :
    tableAfter known (ns.take i) <+: tableAfter known ns := by
  conv_rhs => rw [tableAfter, ← List.take_append_drop i ns, List.filterMap_append,
    List.foldl_append]
  exact prefix_foldl_enrol _ _

/-- A name is in the table if it was there, or if a statement declares it. -/
private theorem mem_tableAfter {ns : List Node} {name : String} :
    name ∈ tableAfter known ns ↔ name ∈ known ∨ ∃ n ∈ ns, n.declaredName? = some name := by
  rw [tableAfter, mem_foldl_enrol, List.mem_filterMap]

/-- **Every node of an expression has the registers of the table** that it was read with. -/
theorem Derives.resolved {tier : Tier} (h : Derives known tier ls n)
    (hsize : known.length ≤ UInt32.size) : ∀ m ∈ n.preorder, m.Resolved known := by
  -- the table is the same for all parts of an expression
  induction h with
  | @leaf token span kind operand =>
    rw [Node.forall_mem_preorder_mk]
    refine ⟨?_, by simp⟩
    cases token with
    | int n =>
      cases operand
      exact ⟨by simp, by simp⟩
    | str text =>
      cases operand
      exact ⟨by simp, by simp⟩
    | name text =>
      cases operand
      refine ⟨?_, by simp⟩
      rintro _ _ ⟨⟩
      -- only a name has a register, and the table is small enough to number it
      exact registerOf?_eq_idxOf? hsize text
    | _ => cases operand
  | group _ ih => exact ih
  | atom _ ih => exact ih
  | negate _ ih =>
    rw [negationNode, Node.forall_mem_preorder_mk, List.forall_mem_singleton]
    exact ⟨⟨by simp, by simp⟩, ih⟩
  | signed _ ih => exact ih
  | product _ ih => exact ih
  | multiply _ _ _ ihl ihr =>
    rw [binaryNode, Node.forall_mem_preorder_mk, List.forall_mem_cons, List.forall_mem_singleton]
    exact ⟨⟨by simp, by simp⟩, ihl, ihr⟩
  | add _ _ _ ihl ihr =>
    rw [binaryNode, Node.forall_mem_preorder_mk, List.forall_mem_cons, List.forall_mem_singleton]
    exact ⟨⟨by simp, by simp⟩, ihl, ihr⟩

/-- An expression declares nothing. -/
private theorem Derives.declaredName?_eq_none {tier : Tier} (h : Derives known tier ls n) :
    n.declaredName? = none := by
  induction h with
  | @leaf token span kind operand => cases token <;> cases operand <;> rfl
  | group _ ih => exact ih
  | atom _ ih => exact ih
  | negate _ _ => rfl
  | signed _ ih => exact ih
  | product _ ih => exact ih
  | multiply _ _ _ _ _ => rfl
  | add _ _ _ _ _ => rfl

/-- A statement enrols what it declares, and has the registers of the table after it. -/
theorem DerivesStatement.resolved (h : DerivesStatement known ls n registers)
    (hsize : known.length ≤ UInt32.size) :
    registers = tableAfter known [n] ∧ registers.length ≤ UInt32.size ∧
      ∀ m ∈ n.preorder, m.Resolved registers := by
  -- the name of a declaration is in the table after it
  have hplace : ∀ name, (enrol known name).idxOf? name = some ((enrol known name).idxOf name) := by
    intro name
    obtain ⟨i, hi⟩ := Option.isSome_iff_exists.1 (List.isSome_idxOf?.2 (mem_enrol.2 (.inr rfl)))
    rw [List.idxOf_eq_getD_idxOf?, hi, Option.getD_some]
  cases h with
  | @declare _ keyword span name i hknown =>
    obtain ⟨rfl, rfl, hsize'⟩ := (declare_eq_ok_iff hsize _).1 hknown
    refine ⟨rfl, hsize', Node.forall_mem_preorder_mk.2 ⟨⟨by simp, ?_⟩, by simp⟩⟩
    rintro _ _ ⟨⟩
    exact hplace name
  | @define _ keyword span sign name i ls init hknown value =>
    obtain ⟨rfl, rfl, hsize'⟩ := (declare_eq_ok_iff hsize _).1 hknown
    refine ⟨rfl, hsize', Node.forall_mem_preorder_mk.2 ⟨⟨by simp, ?_⟩, ?_⟩⟩
    · rintro _ _ ⟨⟩
      exact hplace name
    · -- the initialiser knows the name as well
      exact List.forall_mem_singleton.2 (value.resolved hsize')
  | expression whole =>
    -- an expression declares nothing, so that the table stays
    refine ⟨?_, hsize, whole.resolved hsize⟩
    rw [tableAfter, List.filterMap_cons_none whole.declaredName?_eq_none]
    rfl
  | assign left right =>
    refine ⟨rfl, hsize, Node.forall_mem_preorder_mk.2 ⟨⟨by simp, by simp⟩, ?_⟩⟩
    exact List.forall_mem_cons.2
      ⟨left.resolved hsize, List.forall_mem_singleton.2 (right.resolved hsize)⟩

/-- **A script enrols what its statements declare**, and every statement has the registers of the
table after it. -/
theorem DerivesScript.resolved {ns : List Node} (h : DerivesScript known ls ns registers)
    (hsize : known.length ≤ UInt32.size) :
    registers = tableAfter known ns ∧
      ∀ (i : Nat) (n : Node), ns[i]? = some n →
        ∀ m ∈ n.preorder, m.Resolved (tableAfter known (ns.take (i + 1))) := by
  induction h with
  | nil => exact ⟨rfl, by simp⟩
  | @last known registers ls n statement =>
    obtain ⟨rfl, -, hn⟩ := statement.resolved hsize
    refine ⟨rfl, fun i m hm => ?_⟩
    obtain ⟨rfl, rfl⟩ : i = 0 ∧ n = m := by
      cases i with
      | zero => exact ⟨rfl, Option.some.inj hm⟩
      | succ i => cases hm
    exact hn
  | @cons known known' registers ls rs n ns semicolon first _ ih =>
    obtain ⟨rfl, hsize', hn⟩ := first.resolved hsize
    obtain ⟨hregisters, hns⟩ := ih hsize'
    refine ⟨hregisters.trans (tableAfter_cons known n ns).symm, fun i m hm => ?_⟩
    cases i with
    | zero =>
      obtain rfl : n = m := Option.some.inj hm
      exact hn
    | succ i =>
      -- the first statements of the whole are the first one and the first of the others
      rw [List.take_succ_cons, tableAfter_cons]
      exact hns i m hm

end Resolved

/-! ### The registers of a script -/

section Layout

variable {parameters registers : List String} {source : String}

/-- What is parsed with distinct parameters is a script: nothing can be wrong with its layout. -/
private theorem exists_script_of_parse {root : Node} (hnodup : parameters.Nodup)
    (h : parse parameters source = .ok (root, registers)) :
    ∃ script, reader parameters source = .ok script := by
  obtain ⟨_, ns, _, hderives, rfl⟩ := parse_eq_ok_iff.1 h
  have hgrows := hderives.grows
  let script : Script :=
    { root := rootNode ns, registers, parameterCount := parameters.length, source := none
      root_kind := rfl
      parameterCount_le := hgrows.keeps.length_le
      nodup_registers := hgrows.nodup hnodup }
  exact ⟨script, reader_eq_ok_iff.2 ⟨h, rfl, rfl⟩⟩

/-- The place of a name in a table is its place in every table that grows out of it. -/
private theorem getElem?_of_idxOf? {known : List String} {name : String} {i : Nat}
    (h : known.idxOf? name = some i) (hgrown : known <+: registers) :
    registers[i]? = some name := by
  obtain ⟨hi, hname, -⟩ := List.idxOf?_eq_some_iff.1 h
  have hplace : known[i]? = some name := by
    rw [List.getElem?_eq_getElem hi, hname]
  rw [← hplace]
  rw [List.prefix_iff_getElem?.1 hgrown i hi, List.getElem?_eq_getElem hi]

/-- Among the first statements are those with a small number. -/
private theorem exists_mem_take_iff {ns : List Node} {P : Node → Prop} {i : Nat} :
    (∃ n ∈ ns.take (i + 1), P n) ↔ ∃ j ≤ i, ∃ n, ns[j]? = some n ∧ P n := by
  constructor
  · rintro ⟨n, hn, hP⟩
    obtain ⟨j, hj, rfl⟩ := List.mem_take_iff_getElem.1 hn
    have hlt : j < ns.length := Nat.lt_of_lt_of_le hj (Nat.min_le_right ..)
    exact ⟨j, by omega, _, List.getElem?_eq_getElem hlt, hP⟩
  · rintro ⟨j, hj, n, hn, hP⟩
    obtain ⟨hlt, rfl⟩ := List.getElem?_eq_some_iff.1 hn
    exact ⟨_, List.mem_take_iff_getElem.2 ⟨j, by omega, rfl⟩, hP⟩

/-- **The registers of what is read.** The registers of a script are the parameters and then the
other names that its statements declare, each once and in the order of their first declarations. A
register in the tree is the one of its name. A variable has a register exactly if it is a parameter,
or if its own statement or one before declares it.

The layout of what has been read is consistent if the parameters are distinct, and if they are not,
nothing is read. -/
theorem reader_layout (parameters : List String) (source : String) :
    (∀ script, reader parameters source = .ok script → script.registers.length < UInt32.size →
      script.registers = parameters ++
        ((script.statements.filterMap Node.declaredName?).filter (· ∉ parameters)).eraseDups ∧
      script.registers.Nodup ∧
      (∀ m ∈ script.root.preorder, ∀ name i,
        m.kind = .var name i ∨ m.kind = .identifier name (some i) →
          script.registers[i]? = some name) ∧
      ∀ (i : Nat) statement, script.statements[i]? = some statement →
        ∀ m ∈ statement.preorder, ∀ name register, m.kind = .identifier name register →
          (register.isSome ↔ name ∈ parameters ∨ ∃ j ≤ i, ∃ other : Node,
            script.statements[j]? = some other ∧ other.declaredName? = some name)) ∧
    (parameters.Nodup → ∀ cause, reader parameters source ≠ .error (.layout cause)) ∧
    (¬ parameters.Nodup → ∀ script, reader parameters source ≠ .ok script) := by
  refine ⟨?_, ?_, ?_⟩
  · intro script hscript hsize
    obtain ⟨hparse, -, -⟩ := reader_eq_ok_iff.1 hscript
    obtain ⟨_, ns, -, hderives, hroot⟩ := parse_eq_ok_iff.1 hparse
    have hns : script.statements = ns := by rw [Script.statements, hroot, rootNode]
    have hparameters : parameters.length ≤ UInt32.size :=
      Nat.le_trans hderives.grows.keeps.length_le (Nat.le_of_lt hsize)
    obtain ⟨hregisters, hresolved⟩ := hderives.resolved hparameters
    rw [hns]
    refine ⟨hregisters.trans (foldl_enrol ..), script.nodup_registers, ?_, ?_⟩
    · rw [hroot, rootNode, Node.forall_mem_preorder_mk]
      refine ⟨by simp, fun statement hstatement m hm name i hkind => ?_⟩
      obtain ⟨k, hk⟩ := List.getElem?_of_mem hstatement
      have hm' := hresolved k statement hk m hm
      have hplace : (tableAfter parameters (ns.take (k + 1))).idxOf? name = some i := by
        rcases hkind with hvar | hidentifier
        · exact hm'.var name i hvar
        · exact (hm'.identifier name _ hidentifier).symm
      -- the table has only grown since the statement
      rw [hregisters]
      exact getElem?_of_idxOf? hplace (prefix_tableAfter_take ..)
    · intro i statement hstatement m hm name register hkind
      rw [(hresolved i statement hstatement m hm).identifier name register hkind,
        List.isSome_idxOf?, mem_tableAfter, exists_mem_take_iff]
  · intro hnodup cause hcause
    unfold reader at hcause
    split at hcause
    · next root registers hparse =>
      obtain ⟨script, hscript⟩ := exists_script_of_parse hnodup hparse
      rw [reader, hparse] at hscript
      cases hscript.symm.trans hcause
    · cases hcause
  -- a script has distinct registers, and the parameters are among them
  · intro hrepeat script hscript
    obtain ⟨_, _, -, hderives, -⟩ := parse_eq_ok_iff.1 (reader_eq_ok_iff.1 hscript).1
    exact hrepeat (script.nodup_registers.sublist hderives.grows.keeps.sublist)

/-- A name before its declaration, in its own initialiser and after it, and a parameter that is
declared once more. -/
def declaresLate : Script where
  root := ⟨.script,
    [⟨.identifier "t" none, [], some ⟨0, 1⟩⟩,
    ⟨.var "t" 1, [⟨.binary .add, [⟨.identifier "t" (some 1), [], some ⟨11, 12⟩⟩,
      ⟨.identifier "n" (some 0), [], some ⟨15, 16⟩⟩], some ⟨11, 16⟩⟩], some ⟨3, 16⟩⟩,
    ⟨.var "n" 0, [], some ⟨18, 23⟩⟩,
    ⟨.identifier "t" (some 1), [], some ⟨25, 26⟩⟩], some ⟨0, 26⟩⟩
  registers := ["n", "t"]
  parameterCount := 1
  source := none
  root_kind := rfl
  parameterCount_le := by decide
  nodup_registers := by decide

/-- The text is read, statement by statement. -/
private theorem reader_declaresLate :
    reader ["n"] "t; var t = t + n; var n; t" = .ok declaresLate := by
  have hlex : lex "t; var t = t + n; var n; t" = .ok
      [⟨.name "t", ⟨0, 1⟩⟩, ⟨.semicolon, ⟨1, 2⟩⟩, ⟨.var, ⟨3, 6⟩⟩, ⟨.name "t", ⟨7, 8⟩⟩,
        ⟨.assign, ⟨9, 10⟩⟩, ⟨.name "t", ⟨11, 12⟩⟩, ⟨.op .plus, ⟨13, 14⟩⟩, ⟨.name "n", ⟨15, 16⟩⟩,
        ⟨.semicolon, ⟨16, 17⟩⟩, ⟨.var, ⟨18, 21⟩⟩, ⟨.name "n", ⟨22, 23⟩⟩, ⟨.semicolon, ⟨23, 24⟩⟩,
        ⟨.name "t", ⟨25, 26⟩⟩] := by
    decide +kernel
  have hfirst : Derives ["n"] .sum [⟨.name "t", ⟨0, 1⟩⟩]
      ⟨.identifier "t" none, [], some ⟨0, 1⟩⟩ := .product (.signed (.atom (.leaf rfl)))
  have hinit : Derives ["n", "t"] .sum
      [⟨.name "t", ⟨11, 12⟩⟩, ⟨.op .plus, ⟨13, 14⟩⟩, ⟨.name "n", ⟨15, 16⟩⟩]
      ⟨.binary .add, [⟨.identifier "t" (some 1), [], some ⟨11, 12⟩⟩,
        ⟨.identifier "n" (some 0), [], some ⟨15, 16⟩⟩], some ⟨11, 16⟩⟩ :=
    .add (by rfl) (.product (.signed (.atom (.leaf rfl)))) (.signed (.atom (.leaf rfl)))
  have hlast : Derives ["n", "t"] .sum [⟨.name "t", ⟨25, 26⟩⟩]
      ⟨.identifier "t" (some 1), [], some ⟨25, 26⟩⟩ := .product (.signed (.atom (.leaf rfl)))
  have hparse : parse ["n"] "t; var t = t + n; var n; t" =
      .ok (declaresLate.root, declaresLate.registers) :=
    parse_eq_ok_iff.2 ⟨_, _, hlex, .cons (.expression hfirst) (.cons (.define rfl hinit)
      (.cons (.declare rfl) (.last (.expression hlast)))), rfl⟩
  exact reader_eq_ok_iff.2 ⟨hparse, rfl, rfl⟩

/-- The first statement does not know the name yet, and with two parameters of one name nothing is
read. -/
theorem reader_layout_declaresLate :
    reader ["n"] "t; var t = t + n; var n; t" = .ok declaresLate ∧
      declaresLate.registers.length < UInt32.size ∧ ["n"].Nodup ∧ ¬ ["n", "n"].Nodup ∧
      declaresLate.registers =
        ["n"] ++ ((["t", "n"] : List String).filter (· ∉ ["n"])).eraseDups ∧
      declaresLate.registers[1]? = some "t" ∧
      (¬ ∃ j ≤ 0, ∃ other : Node,
        declaresLate.statements[j]? = some other ∧ other.declaredName? = some "t") ∧
      (∀ cause, reader ["n"] "t; var t = t + n; var n; t" ≠ .error (.layout cause)) ∧
      ∀ script, reader ["n", "n"] "t; var t = t + n; var n; t" ≠ .ok script := by
  have hnodup : ["n"].Nodup := by decide
  have hrepeat : ¬ ["n", "n"].Nodup := by decide
  have hsize : declaresLate.registers.length < UInt32.size := by decide
  obtain ⟨hread, hlayout, -⟩ := reader_layout ["n"] "t; var t = t + n; var n; t"
  obtain ⟨hregisters, -, hplaces, hknown⟩ := hread declaresLate reader_declaresLate hsize
  have hlast : declaresLate.registers[1]? = some "t" := by
    refine hplaces ⟨.identifier "t" (some 1), [], some ⟨25, 26⟩⟩ ?_ "t" 1 (.inr rfl)
    simp [declaresLate]
  have hfirst := hknown 0 _ rfl _ (Node.mem_preorder_self _) "t" none rfl
  refine ⟨reader_declaresLate, hsize, hnodup, hrepeat, hregisters, hlast, fun h => ?_,
    hlayout hnodup, (reader_layout ["n", "n"] _).2.2 hrepeat⟩
  cases hfirst.2 (.inr h)

end Layout

end Grammar

end Scriptlet
