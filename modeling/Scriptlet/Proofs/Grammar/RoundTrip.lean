import Scriptlet.Proofs.Grammar.Statements
import Scriptlet.Proofs.Script.Reading
import Scriptlet.Script.Execution
import Scriptlet.Tree.Transcript

/-!
# Reading a dump

The dump of a script is again a script. It has the same registers and parameters, and the same tree
up to spans as long as no sum stands to the right of a comparison; otherwise the sum takes the
comparison for its first operand.

The proof goes through written statements: the tree that was read stands for a list of them, they
are what the dump consists of, and their words are read back.

* `Statement.DescribesAll` — the statements that the trees of a script stand for;
* `Statement.DescribesAll.render` — rendering writes them;
* `Statement.DescribesAll.readBack` — their words are read back, regrouped;
* `read_written` — a dump is read, and when it gives the same tree.
-/

namespace Scriptlet

/-! ### Joined fragments -/

/-- What stands before all fragments stands before the joined ones. -/
private theorem Fragment.text_foldl {separator front : String} {f g : Fragment} (fs : List Fragment)
    (h : f.text = front ++ g.text) :
    (fs.foldl (fun joined k => joined ++ ofText separator ++ k) f).text =
      front ++ (fs.foldl (fun joined k => joined ++ ofText separator ++ k) g).text := by
  induction fs generalizing f g with
  | nil => exact h
  | cons k fs ih =>
    refine ih ?_
    simp only [Fragment.text_append, h, String.append_assoc]

/-- Fragments are joined with the separator between any two of them. -/
theorem Fragment.text_join_cons (separator : String) (f g : Fragment) (fs : List Fragment) :
    (Fragment.join separator (f :: g :: fs)).text =
      f.text ++ separator ++ (Fragment.join separator (g :: fs)).text :=
  Fragment.text_foldl fs rfl

namespace Grammar

namespace Statement

/-! ### Lists of statements -/

/-- Statements as they are written, with semicolons between them. -/
def textAll : List Statement → String
  | [] => ""
  | [s] => s.text
  | s :: t :: ss => s.text ++ "; " ++ textAll (t :: ss)

/-- The words of statements as they are written. -/
def wordsAll : List Statement → List Word
  | [] => []
  | [s] => s.words
  | s :: t :: ss => s.words ++ .semicolon :: wordsAll (t :: ss)

/-- Statements in a row are laid out word by word. -/
private theorem laid_textAll (ss : List Statement) : Laid (textAll ss).toList (wordsAll ss) := by
  fun_induction textAll ss with
  | case1 => exact .nil
  | case2 s => exact s.laid
  | case3 s t ss ih =>
    have h := s.laid.append (ih.spaced .semicolon) (by simp [Word.semicolon, isNamePart])
    simpa [wordsAll, Word.semicolon] using h

/-- The statements that a list of trees stands for, with the registers before and after them. -/
inductive DescribesAll (source : String) :
    List String → List Statement → List Node → List String → Prop where
  | nil {registers : List String} : DescribesAll source registers [] [] registers
  | cons {registers registers' registers'' : List String} {s : Statement} {ss : List Statement}
      {n : Node} {ns : List Node} (first : s.Describes source registers n registers')
      (rest : DescribesAll source registers' ss ns registers'') :
      DescribesAll source registers (s :: ss) (n :: ns) registers''

section DescribesAll

variable {source text : String} {registers registers' registers'' : List String}
  {ss : List Statement} {ns ns' : List Node}

/-- **Rendering writes the statements of a script.** -/
theorem DescribesAll.render (h : DescribesAll source registers ss ns registers') :
    (Fragment.join "; " (ns.map (Node.render (some source)))).text = textAll ss := by
  induction h with
  | nil => rfl
  | cons first rest ih =>
    cases rest with
    | nil => exact first.render
    | cons second rest =>
      rw [List.map_cons, List.map_cons, Fragment.text_join_cons, first.render, ← List.map_cons, ih]
      rfl

/-- **Every derived script stands for statements**, if its tokens stand for words. -/
private theorem exists_describesAll {ls : List Lexeme}
    (h : DerivesScript registers ls ns registers') (hwords : ∀ l ∈ ls, ∃ w, l.Stands source w) :
    ∃ ss, DescribesAll source registers ss ns registers' := by
  induction h with
  | nil => exact ⟨[], .nil⟩
  | last statement =>
    obtain ⟨s, hs⟩ := statement.exists_describes hwords
    exact ⟨[s], .cons hs .nil⟩
  | cons first _ ih =>
    obtain ⟨s, hs⟩ := first.exists_describes fun l hl => hwords l (by simp [hl])
    obtain ⟨ss, hss⟩ := ih fun l hl => hwords l (by simp [hl])
    exact ⟨s :: ss, .cons hs hss⟩

/-- **Statements that were read are read back from their words**, regrouped. -/
theorem DescribesAll.readBack {ls : List Lexeme}
    (h : DescribesAll source registers ss ns registers') (hls : StandFor text ls (wordsAll ss)) :
    ∃ ns', DerivesScript registers ls ns' registers' ∧
      DescribesAll text registers (ss.map regroup) ns' registers' := by
  induction h generalizing ls with
  | nil =>
    cases hls
    exact ⟨[], .nil, .nil⟩
  | cons first rest ih =>
    -- the last statement ends with the words, any other at a semicolon
    cases rest with
    | nil =>
      obtain ⟨n', hderives, hn'⟩ := first.readBack hls
      exact ⟨[n'], .last hderives, .cons hn' .nil⟩
    | cons second rest =>
      obtain ⟨front, back, rfl, hfront, hback⟩ := StandFor.exists_append hls
      obtain ⟨sign, back, rfl, -, hback⟩ := hback.exists_cons
      obtain ⟨n', hderives, hn'⟩ := first.readBack hfront
      obtain ⟨ns', hderivesAll, hns'⟩ := ih hback
      exact ⟨n' :: ns', .cons hderives hderivesAll, .cons hn' hns'⟩

/-- Two lists of trees for the same statements differ at most in their spans. -/
theorem DescribesAll.unlocated_eq (h : DescribesAll source registers ss ns registers')
    (h' : DescribesAll text registers ss ns' registers'') :
    ns'.map Node.unlocated = ns.map Node.unlocated := by
  induction h generalizing ns' with
  | nil =>
    cases h'
    rfl
  | cons first _ ih =>
    cases h' with
    | cons first' rest' =>
      obtain ⟨hn, rfl⟩ := first.unlocated_eq first'
      rw [List.map_cons, List.map_cons, hn, ih rest']

/-- The statements are read as they were exactly if there is no sum to the right of a comparison. -/
theorem DescribesAll.faithful_iff (h : DescribesAll source registers ss ns registers') :
    (∀ s ∈ ss, s.Faithful) ↔ ∀ n ∈ ns, ∀ m ∈ n.preorder, ¬ m.IsLessOverSum := by
  induction h with
  | nil => simp
  | cons first _ ih => simp only [List.forall_mem_cons, first.faithful_iff, ih]

/-- If the same trees are read again, nothing has been regrouped. -/
theorem DescribesAll.faithful_of_unlocated_eq {known known' : List String}
    (h : DescribesAll source registers ss ns registers')
    (h' : DescribesAll text known (ss.map regroup) ns' known')
    (heq : ns'.map Node.unlocated = ns.map Node.unlocated) : ∀ s ∈ ss, s.Faithful := by
  induction h generalizing ns' known with
  | nil => simp
  | cons first _ ih =>
    cases h' with
    | cons first' rest' =>
      obtain ⟨hn, hns⟩ := List.cons.inj heq
      exact List.forall_mem_cons.2 ⟨first.faithful_of_unlocated_eq first' hn, ih rest' hns⟩

/-- Regrouping leaves faithful statements alone. -/
private theorem map_regroup_of_faithful (h : ∀ s ∈ ss, s.Faithful) : ss.map regroup = ss := by
  have hmap : ss.map regroup = ss.map id :=
    List.map_congr_left fun s hs => regroup_of_faithful (h s hs)
  rw [hmap, List.map_id]

/-- **What is read back is the same up to spans exactly if the statements are faithful.** -/
private theorem DescribesAll.unlocated_eq_iff (h : DescribesAll source registers ss ns registers')
    (h' : DescribesAll text registers (ss.map regroup) ns' registers'') :
    ns'.map Node.unlocated = ns.map Node.unlocated ↔ ∀ s ∈ ss, s.Faithful := by
  constructor
  · exact h.faithful_of_unlocated_eq h'
  · intro hfaithful
    rw [map_regroup_of_faithful hfaithful] at h'
    exact h.unlocated_eq h'

end DescribesAll

end Statement

end Grammar

/-! ### Reading a dump -/

/-- The tree of the script as text, over its source: the dump without the comment at its end. -/
def Script.written (script : Script) : String :=
  ((Transcript.start script.source).record script.root).text

/-- **A dump is the tree as text, with a comment behind it** that tells what the tree covers. -/
theorem Script.dump_eq_written_append (script : Script) :
    script.dump =
      script.written ++
        match ((Transcript.start script.source).record script.root).span with
        | some span => s!" /*{span.text}*/"
        | none => "/*?:?*/ " := by
  have hspan : ((Transcript.start script.source).record script.root).span =
      (script.root.render script.source).coverage := rfl
  unfold Script.dump
  dsimp only
  rw [hspan]
  cases (script.root.render script.source).coverage with
  | none => rfl
  | some span =>
    simp only [String.append_assoc]
    rfl

namespace Grammar

/-- A root is written as its statements with semicolons between them. -/
private theorem text_render_rootNode (source : Option String) (ns : List Node) :
    ((rootNode ns).render source).text =
      (Fragment.join "; " (ns.map (Node.render source))).text := by
  simp only [rootNode, Node.render, Node.renderAll_eq_map, Fragment.text_append, Fragment.text_mark,
    String.empty_append]

/-- Without spans only the statements are left of a root. -/
theorem unlocated_rootNode (ns : List Node) :
    (rootNode ns).unlocated = ⟨.script, ns.map Node.unlocated, none⟩ := by
  rw [rootNode, Node.unlocated_mk]

private theorem forall_mem_preorder_rootNode (ns : List Node) :
    (∀ m ∈ (rootNode ns).preorder, ¬ m.IsLessOverSum) ↔
      ∀ n ∈ ns, ∀ m ∈ n.preorder, ¬ m.IsLessOverSum := by
  rw [rootNode, Node.preorder_mk, Node.preorderAll_eq_flatMap, List.forall_mem_cons]
  simp only [List.forall_mem_flatMap, Node.IsLessOverSum]
  simp

/-- **A dump is read again.** It has the same registers and parameters. The tree is the same up to
spans exactly if there was no sum to the right of a comparison, and then the dump of what was read
is the same text. -/
theorem read_written {parameters : List String} {source : String} {script : Script}
    (hread : Script.read (reader parameters) source = .ok script)
    (hsource : source.utf8ByteSize < UInt32.size)
    (hwritten : script.written.utf8ByteSize < UInt32.size) :
    ∃ again, Script.read (reader parameters) script.written = .ok again ∧
      again.registers = script.registers ∧ again.parameterCount = script.parameterCount ∧
      (again.root.unlocated = script.root.unlocated ↔
        ∀ m ∈ script.root.preorder, ¬ m.IsLessOverSum) ∧
      (again.root.unlocated = script.root.unlocated → again.written = script.written) := by
  obtain ⟨hparse, hcount, hkept⟩ := read_eq_ok_iff.1 hread
  obtain ⟨tokens, ns, hlex, hderives, hroot⟩ := parse_eq_ok_iff.1 hparse
  -- the tree that was read stands for statements
  obtain ⟨ss, hss⟩ := Statement.exists_describesAll hderives (stands_of_lex hlex hsource)
  -- the dump consists of them
  have htext : script.written = Statement.textAll ss := by
    show (script.root.render script.source).text = Statement.textAll ss
    rw [hroot, hkept, text_render_rootNode, hss.render]
  have hlaid : Laid script.written.toList (Statement.wordsAll ss) := by
    rw [htext]
    exact Statement.laid_textAll ss
  -- and its words are read back
  obtain ⟨tokens', hlex', hls⟩ := hlaid.lex hwritten
  obtain ⟨ns', hderives', hss'⟩ := hss.readBack hls
  have hparse' : parse parameters script.written = .ok (rootNode ns', script.registers) :=
    parse_eq_ok_iff.2 ⟨tokens', ns', hlex', hderives', rfl⟩
  -- regrouping shows in the tree exactly if a statement is not faithful
  have hsame : (rootNode ns').unlocated = script.root.unlocated ↔ ∀ s ∈ ss, s.Faithful := by
    rw [hroot, unlocated_rootNode, unlocated_rootNode, ← hss.unlocated_eq_iff hss']
    simp
  refine ⟨{ script with root := rootNode ns', source := some script.written, root_kind := rfl },
    read_eq_ok_iff.2 ⟨hparse', hcount, rfl⟩, rfl, rfl, ?_, fun heq => ?_⟩
  · rw [hsame, hss.faithful_iff, hroot, forall_mem_preorder_rootNode]
  -- with the same trees the text is the same again
  · show ((rootNode ns').render (some script.written)).text = script.written
    rw [text_render_rootNode, hss'.render, Statement.map_regroup_of_faithful (hsame.1 heq), htext]

/-- A declaration, and a comparison with a sum. -/
def lessOverSum : Script where
  root := ⟨.script,
    [⟨.var "t" 1, [⟨.unary .neg, [⟨.literal (.int 1), [], some ⟨9, 10⟩⟩], some ⟨8, 10⟩⟩],
      some ⟨0, 10⟩⟩,
    ⟨.binary .lt, [⟨.identifier "x" (some 0), [], some ⟨13, 14⟩⟩,
      ⟨.binary .add, [⟨.identifier "t" (some 1), [], some ⟨18, 19⟩⟩,
        ⟨.literal (.int 2), [], some ⟨22, 23⟩⟩], some ⟨18, 23⟩⟩], some ⟨13, 23⟩⟩], some ⟨0, 23⟩⟩
  registers := ["x", "t"]
  parameterCount := 1
  source := some "var t = -1 ; x < (t + 2)"
  root_kind := rfl
  parameterCount_le := by decide
  nodup_registers := by decide

private theorem read_lessOverSum :
    Script.read (reader ["x"]) "var t = -1 ; x < (t + 2)" = .ok lessOverSum := by
  have hlex : lex "var t = -1 ; x < (t + 2)" = .ok
      [⟨.var, ⟨0, 3⟩⟩, ⟨.name "t", ⟨4, 5⟩⟩, ⟨.assign, ⟨6, 7⟩⟩, ⟨.op .minus, ⟨8, 9⟩⟩,
        ⟨.int 1, ⟨9, 10⟩⟩, ⟨.semicolon, ⟨11, 12⟩⟩, ⟨.name "x", ⟨13, 14⟩⟩,
        ⟨.op .less, ⟨15, 16⟩⟩, ⟨.openParen, ⟨17, 18⟩⟩, ⟨.name "t", ⟨18, 19⟩⟩,
        ⟨.op .plus, ⟨20, 21⟩⟩, ⟨.int 2, ⟨22, 23⟩⟩, ⟨.closeParen, ⟨23, 24⟩⟩] := by
    decide +kernel
  have hinit : Derives ["x", "t"] .sum [⟨.op .minus, ⟨8, 9⟩⟩, ⟨.int 1, ⟨9, 10⟩⟩]
      ⟨.unary .neg, [⟨.literal (.int 1), [], some ⟨9, 10⟩⟩], some ⟨8, 10⟩⟩ :=
    .product (.signed (.negate (.atom (.leaf rfl))))
  have hsum : Derives ["x", "t"] .sum
      [⟨.name "t", ⟨18, 19⟩⟩, ⟨.op .plus, ⟨20, 21⟩⟩, ⟨.int 2, ⟨22, 23⟩⟩]
      ⟨.binary .add, [⟨.identifier "t" (some 1), [], some ⟨18, 19⟩⟩,
        ⟨.literal (.int 2), [], some ⟨22, 23⟩⟩], some ⟨18, 23⟩⟩ :=
    .add (by rfl) (.product (.signed (.atom (.leaf rfl)))) (.signed (.atom (.leaf rfl)))
  have hless : Derives ["x", "t"] .sum
      [⟨.name "x", ⟨13, 14⟩⟩, ⟨.op .less, ⟨15, 16⟩⟩, ⟨.openParen, ⟨17, 18⟩⟩, ⟨.name "t", ⟨18, 19⟩⟩,
        ⟨.op .plus, ⟨20, 21⟩⟩, ⟨.int 2, ⟨22, 23⟩⟩, ⟨.closeParen, ⟨23, 24⟩⟩]
      ⟨.binary .lt, [⟨.identifier "x" (some 0), [], some ⟨13, 14⟩⟩, _], some ⟨13, 23⟩⟩ :=
    .add (by rfl) (.product (.signed (.atom (.leaf rfl)))) (.signed (.atom (.group hsum)))
  have hparse : parse ["x"] "var t = -1 ; x < (t + 2)" =
      .ok (lessOverSum.root, lessOverSum.registers) :=
    parse_eq_ok_iff.2
      ⟨_, _, hlex, .cons (.define rfl hinit) (.last (.expression hless)), rfl⟩
  exact read_eq_ok_iff.2 ⟨hparse, rfl, rfl⟩

/-- The dump leaves the parentheses out, and so reads as another tree. -/
theorem read_written_lessOverSum :
    Script.read (reader ["x"]) "var t = -1 ; x < (t + 2)" = .ok lessOverSum ∧
      lessOverSum.written = "var t = -1; x < t + 2" ∧
      ∃ again, Script.read (reader ["x"]) "var t = -1; x < t + 2" = .ok again ∧
        again.registers = ["x", "t"] ∧ again.parameterCount = 1 ∧
        again.root.unlocated ≠ lessOverSum.root.unlocated := by
  have hwritten : lessOverSum.written = "var t = -1; x < t + 2" := by
    decide +kernel
  obtain ⟨again, hagain, hregisters, hcount, hsame, -⟩ :=
    read_written read_lessOverSum (by decide) (by rw [hwritten]; decide)
  rw [hwritten] at hagain
  refine ⟨read_lessOverSum, hwritten, again, hagain, hregisters, hcount, fun heq => ?_⟩
  have hnone := hsame.1 heq
  -- the second statement is such a comparison
  simp only [lessOverSum, Node.preorder_mk, Node.preorderAll_eq_flatMap, List.flatMap_cons,
    List.forall_mem_cons, List.forall_mem_append] at hnone
  exact hnone.2.2.1.1 ⟨rfl, _, _, rfl, .inl rfl⟩

end Grammar

end Scriptlet
