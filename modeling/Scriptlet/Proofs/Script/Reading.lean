import Scriptlet.Proofs.Grammar.Derivations
import Scriptlet.Proofs.Script.Layouts

/-!
# What reading gives

A script that is read has the root and the registers of its text, as many parameters as the reader
was told, and the text as its source. Since a script carries its own consistency, the converse needs
no further condition.

* `Grammar.reader_eq_ok_iff`, `Grammar.read_eq_ok_iff` — reading gives what the grammar describes.
-/

namespace Scriptlet.Grammar

/-- Errors are renamed without touching results. -/
private theorem mapError_eq_ok {ε ε' α : Type} {f : ε → ε'} {result : Except ε α} {a : α} :
    result.mapError f = .ok a ↔ result = .ok a := by
  cases result with
  | ok b =>
    constructor
    · rintro ⟨⟩
      rfl
    · rintro ⟨⟩
      rfl
  | error e =>
    constructor
    · intro h
      cases h
    · intro h
      cases h

/-- What the reader gives has been parsed, and does not know its source yet. -/
theorem reader_eq_ok_iff {parameters : List String} {source : String} {script : Script} :
    reader parameters source = .ok script ↔
      parse parameters source = .ok (script.root, script.registers) ∧
        script.parameterCount = parameters.length ∧ script.source = none := by
  unfold reader
  split
  · next root registers hparse =>
    rw [mapError_eq_ok, Script.ofRegisters_eq_ok_iff, hparse, Except.ok.injEq, Prod.mk.injEq]
    constructor
    · rintro ⟨rfl, rfl, hcount, hsource⟩
      exact ⟨⟨rfl, rfl⟩, hcount, hsource⟩
    · rintro ⟨⟨rfl, rfl⟩, hcount, hsource⟩
      exact ⟨rfl, rfl, hcount, hsource⟩
  · next e hparse =>
    rw [hparse]
    simp

/-- **A script is read exactly if the grammar gives its parts.** -/
theorem read_eq_ok_iff {parameters : List String} {source : String} {script : Script} :
    Script.read (reader parameters) source = .ok script ↔
      parse parameters source = .ok (script.root, script.registers) ∧
        script.parameterCount = parameters.length ∧ script.source = some source := by
  constructor
  · intro h
    obtain ⟨bare, hbare, hscript⟩ := bind_eq_ok.1 h
    obtain ⟨hparse, hcount, hsource⟩ := reader_eq_ok_iff.1 hbare
    -- the reader has left no source, so that the text becomes it
    rw [hsource] at hscript
    cases hscript
    exact ⟨hparse, hcount, rfl⟩
  · rintro ⟨hparse, hcount, hsource⟩
    have hbare : reader parameters source = .ok { script with source := none } :=
      reader_eq_ok_iff.2 ⟨hparse, hcount, rfl⟩
    refine bind_eq_ok.2 ⟨_, hbare, ?_⟩
    -- a script is what it is without its source, and then with it
    obtain ⟨root, registers, count, kept, hroot, hle, hnodup⟩ := script
    dsimp only at hsource
    subst hsource
    rfl

end Scriptlet.Grammar
