import Scriptlet.Proofs.Grammar.Phrases
import Scriptlet.Proofs.Grammar.RoundTrip

/-!
# What is read

A text that is made of tokens is read as a script exactly if the tokens are a phrase of the grammar,
and the script has the tree of the phrase. Nothing else is wrong with a text that is not read: the
layout of what is parsed is consistent as long as the parameters are distinct.

* `ScriptPhrase.exists_parse`, `exists_scriptPhrase` — what is parsed is a phrase, and conversely;
* `exists_reader` — what is parsed has a consistent layout;
* `reader_accepts_phrases` — reading accepts exactly the phrases of the grammar.
-/

namespace Scriptlet.Grammar

variable {parameters registers : List String} {source : String} {lexemes : List Lexeme}
  {root : Node}

/-- A phrase is parsed, and its statements are what the tree is made of. -/
theorem ScriptPhrase.exists_parse {ns : List Node} (hlex : lex source = .ok lexemes)
    (h : ScriptPhrase parameters (lexemes.map Lexeme.token) ns registers)
    (hsize : registers.length ≤ UInt32.size) :
    ∃ root, parse parameters source = .ok (root, registers) ∧
      root.unlocated = ⟨.script, ns, none⟩ := by
  obtain ⟨ms, hms, rfl⟩ := h.exists_derives hsize
  exact ⟨rootNode ms, parse_eq_ok_iff.2 ⟨lexemes, ms, hlex, hms, rfl⟩, unlocated_rootNode ms⟩

/-- What is parsed is a phrase. -/
theorem exists_scriptPhrase (hlex : lex source = .ok lexemes)
    (hsize : parameters.length ≤ UInt32.size)
    (h : parse parameters source = .ok (root, registers)) :
    ∃ ns, ScriptPhrase parameters (lexemes.map Lexeme.token) ns registers := by
  obtain ⟨tokens, ms, htokens, hms, -⟩ := parse_eq_ok_iff.1 h
  cases hlex.symm.trans htokens
  exact ⟨_, hms.phrase hsize⟩

/-- The layout of what is parsed is consistent, if the parameters are distinct. -/
theorem exists_reader {ns : List Node} (hnodup : parameters.Nodup)
    (hparse : parse parameters source = .ok (root, registers))
    (h : ScriptPhrase parameters (lexemes.map Lexeme.token) ns registers) :
    ∃ script, reader parameters source = .ok script ∧ script.root = root ∧
      script.registers = registers := by
  obtain ⟨_, ms, _, _, rfl⟩ := parse_eq_ok_iff.1 hparse
  -- the registers are the parameters and what was enrolled after them
  have hregisters := h.registers_eq
  let script : Script :=
    { root := rootNode ms, registers, parameterCount := parameters.length, source := none
      root_kind := rfl
      parameterCount_le := hregisters ▸ length_le_registersAfter ..
      nodup_registers := hregisters ▸ nodup_registersAfter hnodup _ }
  exact ⟨script, reader_eq_ok_iff.2 ⟨hparse, rfl, rfl⟩, rfl, rfl⟩

/-- **Reading accepts exactly the phrases of the grammar.** A text that is made of tokens is read if
these are a script of the grammar, and only then. The statements of what was read are those of the
script, in order; and if the text is not read, then because it is malformed. -/
theorem reader_accepts_phrases (hlex : lex source = .ok lexemes) (hnodup : parameters.Nodup)
    (hsize : (registersAfter parameters (lexemes.map Lexeme.token)).length < UInt32.size) :
    ((∃ script, reader parameters source = .ok script) ↔
      ∃ ns registers, ScriptPhrase parameters (lexemes.map Lexeme.token) ns registers) ∧
    (∀ script ns registers, reader parameters source = .ok script →
      ScriptPhrase parameters (lexemes.map Lexeme.token) ns registers →
        script.root.unlocated = ⟨.script, ns, none⟩ ∧ script.registers = registers) ∧
    ∀ e, reader parameters source = .error e → ∃ message span, e = .malformed message span := by
  have hparameters : parameters.length ≤ UInt32.size :=
    Nat.le_trans (length_le_registersAfter ..) (Nat.le_of_lt hsize)
  -- a phrase determines the script that is read
  have hread : ∀ {ns registers},
      ScriptPhrase parameters (lexemes.map Lexeme.token) ns registers →
      ∃ script, reader parameters source = .ok script ∧
        script.root.unlocated = ⟨.script, ns, none⟩ ∧ script.registers = registers := by
    intro ns registers h
    have hregisters : registers.length ≤ UInt32.size := h.registers_eq ▸ Nat.le_of_lt hsize
    obtain ⟨root, hparse, hroot⟩ := h.exists_parse hlex hregisters
    obtain ⟨script, hscript, rfl, hsame⟩ := exists_reader hnodup hparse h
    exact ⟨script, hscript, hroot, hsame⟩
  refine ⟨⟨?_, ?_⟩, ?_, ?_⟩
  · rintro ⟨script, hscript⟩
    obtain ⟨ns, hns⟩ := exists_scriptPhrase hlex hparameters (reader_eq_ok_iff.1 hscript).1
    exact ⟨ns, _, hns⟩
  · rintro ⟨ns, registers, h⟩
    obtain ⟨script, hscript, -⟩ := hread h
    exact ⟨script, hscript⟩
  · intro script ns registers hscript h
    -- reading gives one result only
    obtain ⟨script', hscript', htree⟩ := hread h
    cases hscript.symm.trans hscript'
    exact htree
  · intro e he
    unfold reader at he
    split at he
    · next root registers hparse =>
      -- the layout has been accounted for
      obtain ⟨ns, hns⟩ := exists_scriptPhrase hlex hparameters hparse
      obtain ⟨script, hscript, -⟩ := exists_reader hnodup hparse hns
      unfold reader at hscript
      rw [hparse] at hscript
      cases hscript.symm.trans he
    · cases he
      exact ⟨_, _, rfl⟩

/-- A chain is nested to the left, the declared name is the next register, parentheses leave no
node, and the last semicolon no statement. -/
theorem reader_accepts_phrases_chain :
    ∃ lexemes script, lex "var t = 1 - x - 2; -(t);" = .ok lexemes ∧ ["x"].Nodup ∧
      (registersAfter ["x"] (lexemes.map Lexeme.token)).length < UInt32.size ∧
      reader ["x"] "var t = 1 - x - 2; -(t);" = .ok script ∧ script.registers = ["x", "t"] ∧
      script.root.unlocated = ⟨.script,
        [⟨.var "t" 1, [⟨.binary .sub, [⟨.binary .sub, [⟨.literal (.int 1), [], none⟩,
            ⟨.identifier "x" (some 0), [], none⟩], none⟩,
            ⟨.literal (.int 2), [], none⟩], none⟩], none⟩,
          ⟨.unary .neg, [⟨.identifier "t" (some 1), [], none⟩], none⟩], none⟩ := by
  have hlex : lex "var t = 1 - x - 2; -(t);" = .ok
      [⟨.var, ⟨0, 3⟩⟩, ⟨.name "t", ⟨4, 5⟩⟩, ⟨.assign, ⟨6, 7⟩⟩, ⟨.int 1, ⟨8, 9⟩⟩,
        ⟨.op .minus, ⟨10, 11⟩⟩, ⟨.name "x", ⟨12, 13⟩⟩, ⟨.op .minus, ⟨14, 15⟩⟩, ⟨.int 2, ⟨16, 17⟩⟩,
        ⟨.semicolon, ⟨17, 18⟩⟩, ⟨.op .minus, ⟨19, 20⟩⟩, ⟨.openParen, ⟨20, 21⟩⟩,
        ⟨.name "t", ⟨21, 22⟩⟩, ⟨.closeParen, ⟨22, 23⟩⟩, ⟨.semicolon, ⟨23, 24⟩⟩] := by
    decide +kernel
  have hnodup : ["x"].Nodup := by decide
  have hchain : Phrase (enrol ["x"] "t") .sum
      [.int 1, .op .minus, .name "x", .op .minus, .int 2] _ :=
    ((Phrase.atom (.int 1)).signed.product_sum.add (by decide) (Phrase.atom (.name "x")).signed).add
      (by decide) (Phrase.atom (.int 2)).signed
  have hminus : Phrase (enrol ["x"] "t") .sum
      [.op .minus, .openParen, .name "t", .closeParen] _ :=
    (Phrase.minus (.atom (.parens (Phrase.atom (.name "t")).signed.product_sum))).signed.product_sum
  have hphrase := ScriptPhrase.statements (.define "t" hchain)
    (.statement (.expression hminus) .semicolon)
  have haccepts := reader_accepts_phrases hlex hnodup (by decide)
  obtain ⟨script, hscript⟩ := haccepts.1.2 ⟨_, _, hphrase⟩
  obtain ⟨hroot, hregisters⟩ := haccepts.2.1 script _ _ hscript hphrase
  exact ⟨_, script, hlex, hnodup, by decide, hscript, hregisters, hroot⟩

end Scriptlet.Grammar
