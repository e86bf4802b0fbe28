import Mathlib.Data.List.Nodup
import Scriptlet.Script.Layout

/-!
# Which layouts make a script

A root, a list of registers and a number of parameters are a layout. A script is made of it if the
root is of kind `script`, there are enough registers and no name is given to two of them; of several
conditions that do not hold the first one is reported, in this order.

The names are checked one by one, and a name is held against all before it. The check keeps those in
reverse, so that the list of all registers is what it has seen, turned round, followed by what is
still to be checked; it has come to the first repeated name when the next one has been seen.

* `RepeatsFirstAt` — the least index of a name that occurs earlier;
* `firstRepeat?_eq_some_iff` — the check finds the name at that index;
* `Script.ofRegisters_eq_ok_iff`, `Script.ofRegisters_eq_error_iff` — what construction keeps, and
  what it reports;
* `Script.Obtained` — the scripts that can be obtained for a layout;
* `Script.construction_exact` — a script is made exactly of a consistent layout, and follows it.
-/

namespace Scriptlet

/-! ### Repeated names -/

section Names

variable {names before after seen : List String} {name : String} {i j : Nat}

/-- The name at index `i` occurs at an earlier index too. -/
def RepeatsAt (names : List String) (i : Nat) : Prop :=
  ∃ name, names[i]? = some name ∧ ∃ j < i, names[j]? = some name

/-- Index `i` is the least one of a name that occurs at an earlier index. -/
def RepeatsFirstAt (names : List String) (i : Nat) : Prop :=
  RepeatsAt names i ∧ ∀ j < i, ¬ RepeatsAt names j

/-- Only one index is the least. -/
theorem RepeatsFirstAt.unique (hi : RepeatsFirstAt names i) (hj : RepeatsFirstAt names j) :
    i = j := by
  rcases Nat.lt_trichotomy i j with hlt | heq | hgt
  · exact absurd hi.1 (hj.2 i hlt)
  · exact heq
  · exact absurd hj.1 (hi.2 j hgt)

/-- Distinct names are not repeated anywhere. -/
private theorem not_repeatsAt_of_nodup (h : names.Nodup) : ¬ RepeatsAt names i := by
  rintro ⟨name, hi, j, hlt, hj⟩
  obtain ⟨hlength, -⟩ := List.getElem?_eq_some_iff.1 hi
  have heq : i = j := (List.getElem?_inj hlength h).1 (hi.trans hj.symm)
  exact absurd hlt (heq ▸ Nat.lt_irrefl i)

/-- Names that follow change nothing. -/
theorem RepeatsAt.left (hi : i < before.length) (h : RepeatsAt (before ++ after) i) :
    RepeatsAt before i := by
  obtain ⟨name, hname, j, hlt, hj⟩ := h
  rw [List.getElem?_append_left hi] at hname
  rw [List.getElem?_append_left (Nat.lt_trans hlt hi)] at hj
  exact ⟨name, hname, j, hlt, hj⟩

/-- After distinct names, one of them is the first that occurs again. -/
private theorem repeatsFirstAt_length (hbefore : before.Nodup) (hmem : name ∈ before) :
    RepeatsFirstAt (before ++ name :: after) before.length := by
  constructor
  · obtain ⟨j, hj⟩ := List.mem_iff_getElem?.1 hmem
    obtain ⟨hlt, -⟩ := List.getElem?_eq_some_iff.1 hj
    refine ⟨name, by simp, j, hlt, ?_⟩
    rw [List.getElem?_append_left hlt, hj]
  · intro j hlt h
    exact not_repeatsAt_of_nodup hbefore (h.left hlt)

/-- **The check finds the name at the least index of a name that occurs earlier.** -/
theorem firstRepeat?_eq_some_iff (hseen : seen.Nodup) :
    firstRepeat? seen names = some name ↔
      ∃ i, (seen.reverse ++ names)[i]? = some name ∧ RepeatsFirstAt (seen.reverse ++ names) i := by
  -- what has been seen grows by the names that are passed
  induction names generalizing seen with
  | nil =>
    rw [firstRepeat?, List.append_nil]
    constructor
    · intro h
      cases h
    · rintro ⟨i, -, h, -⟩
      exact absurd h (not_repeatsAt_of_nodup (List.nodup_reverse.2 hseen))
  | cons first names ih =>
    rw [firstRepeat?]
    split
    · next hmem =>
      have hfirst : RepeatsFirstAt (seen.reverse ++ first :: names) seen.reverse.length :=
        repeatsFirstAt_length (List.nodup_reverse.2 hseen) (List.mem_reverse.2 hmem)
      have hget : (seen.reverse ++ first :: names)[seen.reverse.length]? = some first := by simp
      constructor
      · rintro ⟨⟩
        exact ⟨seen.reverse.length, hget, hfirst⟩
      · rintro ⟨i, hname, hi⟩
        rwa [hi.unique hfirst, hget] at hname
    · next hmem =>
      -- `first` joins what has been seen, and the list as a whole stays the same
      rw [ih (List.nodup_cons.2 ⟨hmem, hseen⟩), List.reverse_cons, List.append_assoc,
        List.singleton_append]

end Names

/-! ### Layouts -/

/-- The conditions under which a layout makes a script. -/
structure ConsistentLayout (root : Node) (registers : List String) (count : Nat) : Prop where
  root_kind : root.kind = .script
  count_le : count ≤ registers.length
  nodup_registers : registers.Nodup

/-- The error is about the first condition that the layout violates. The root comes first, then the
number of parameters, and the names of the registers last. -/
def LayoutError.Reports (root : Node) (registers : List String) (count : Nat) : LayoutError → Prop
  | rootNotScript found => root.kind ≠ .script ∧ found = root.kind.name
  | tooManyParameters parameters available =>
    root.kind = .script ∧ registers.length < count ∧ parameters = count ∧
      available = registers.length
  | duplicateRegister name =>
    root.kind = .script ∧ count ≤ registers.length ∧
      ∃ i, registers[i]? = some name ∧ RepeatsFirstAt registers i

namespace Script

variable {root : Node} {registers : List String} {count : Nat} {script : Script}

/-- **Construction keeps what it is given**, and adds no source. -/
theorem ofRegisters_eq_ok_iff :
    ofRegisters root registers count = .ok script ↔
      script.root = root ∧ script.registers = registers ∧ script.parameterCount = count ∧
        script.source = none := by
  constructor
  · intro h
    -- the three checks in their order; only after all of them there is a script
    unfold ofRegisters at h
    split at h
    · split at h
      · split at h
        · cases h
        · cases h
          exact ⟨rfl, rfl, rfl, rfl⟩
      · cases h
    · cases h
  · obtain ⟨root, registers, count, source, hroot, hcount, hnodup⟩ := script
    rintro ⟨rfl, rfl, rfl, hsource⟩
    dsimp only at hsource
    subst hsource
    -- every check succeeds, because the script has been built already
    have hnames : firstRepeat? [] registers = none :=
      firstRepeat?_eq_none_iff.2 ⟨hnodup, fun _ _ => List.not_mem_nil⟩
    unfold ofRegisters
    split
    · rw [dif_pos hcount]
      split
      · next hrepeat => cases hnames.symm.trans hrepeat
      · rfl
    · next hother => exact absurd hroot hother

/-- **Construction reports the first condition that is violated.** -/
theorem ofRegisters_eq_error_iff {e : LayoutError} :
    ofRegisters root registers count = .error e ↔ e.Reports root registers count := by
  have hrepeat : ∀ name, firstRepeat? [] registers = some name ↔
      ∃ i, registers[i]? = some name ∧ RepeatsFirstAt registers i :=
    fun name => firstRepeat?_eq_some_iff List.nodup_nil
  constructor
  · intro h
    unfold ofRegisters at h
    split at h
    · next hroot =>
      split at h
      · next hcount =>
        split at h
        · next name hname =>
          cases h
          exact ⟨hroot, hcount, (hrepeat name).1 hname⟩
        · cases h
      · next hcount =>
        cases h
        exact ⟨hroot, Nat.lt_of_not_le hcount, rfl, rfl⟩
    · next hother =>
      cases h
      exact ⟨hother, rfl⟩
  · intro h
    unfold ofRegisters
    -- each error is met by its own check, after those before it have passed
    cases e with
    | rootNotScript found =>
      obtain ⟨hroot, rfl⟩ := h
      split
      · next hscript => exact absurd hscript hroot
      · rfl
    | tooManyParameters parameters available =>
      obtain ⟨hroot, hcount, rfl, rfl⟩ := h
      split
      · rw [dif_neg (Nat.not_le_of_lt hcount)]
      · next hother => exact absurd hroot hother
    | duplicateRegister name =>
      obtain ⟨hroot, hcount, hname⟩ := h
      split
      · rw [dif_pos hcount]
        split
        · next found hfound =>
          cases hfound.symm.trans ((hrepeat name).2 hname)
          rfl
        · next hnone => cases hnone.symm.trans ((hrepeat name).2 hname)
      · next hother => exact absurd hroot hother

/-! ### Scripts and their layouts -/

/-- The script is laid out as it was asked for. -/
structure Follows (script : Script) (root : Node) (registers : List String) (count : Nat) :
    Prop where
  root_eq : script.root = root
  registers_eq : script.registers = registers
  append_eq : script.parameters ++ script.locals = registers
  length_parameters : script.parameters.length = count
  /-- Parameter `i` is register `i`. -/
  parameter : ∀ i < count, script.parameters[i]? = registers[i]?

/-- The scripts that can be obtained for a layout: by each way to construct them, and with other
source texts. -/
inductive Obtained (root : Node) : List String → Nat → Script → Prop
  | ofRegisters {registers : List String} {count : Nat} {script : Script} :
    Script.ofRegisters root registers count = .ok script → Obtained root registers count script
  | ofVariables {parameters locals : List String} {script : Script} :
    Script.ofVariables root parameters locals = .ok script →
      Obtained root (parameters ++ locals) parameters.length script
  | ofRoot {script : Script} : Script.ofRoot root = .ok script → Obtained root [] 0 script
  | withSource {registers : List String} {count : Nat} {script : Script} (source : String) :
    Obtained root registers count script →
      Obtained root registers count (script.withSource source)

/-- What is constructed has the layout that it was constructed from. -/
private theorem follows_of_ofRegisters (h : ofRegisters root registers count = .ok script) :
    script.Follows root registers count := by
  obtain ⟨rfl, rfl, rfl, -⟩ := ofRegisters_eq_ok_iff.1 h
  refine ⟨rfl, rfl, script.parameters_append_locals, ?_, fun i hi => ?_⟩
  · rw [parameters, List.length_take, Nat.min_eq_left script.parameterCount_le]
  · rw [parameters, List.getElem?_take_of_lt hi]

theorem Follows.withSource (h : script.Follows root registers count) (source : String) :
    (script.withSource source).Follows root registers count :=
  ⟨h.root_eq, h.registers_eq, h.append_eq, h.length_parameters, h.parameter⟩

/-- **Every script that is obtained for a layout follows it.** -/
theorem Obtained.follows (h : Obtained root registers count script) :
    script.Follows root registers count := by
  induction h with
  | ofRegisters h => exact follows_of_ofRegisters h
  | ofVariables h => exact follows_of_ofRegisters h
  | ofRoot h => exact follows_of_ofRegisters h
  | withSource source _ ih => exact ih.withSource source

/-- The layout that a script follows is consistent, as the script is. -/
private theorem Follows.consistent (h : script.Follows root registers count) :
    ConsistentLayout root registers count := by
  obtain ⟨rfl, rfl, -, rfl, -⟩ := h
  refine ⟨script.root_kind, ?_, script.nodup_registers⟩
  exact List.length_take_le' ..

/-- **Consistent layouts make scripts**, and no others do. -/
private theorem exists_ofRegisters_iff :
    (∃ script, ofRegisters root registers count = .ok script) ↔
      ConsistentLayout root registers count := by
  constructor
  · rintro ⟨script, h⟩
    exact (follows_of_ofRegisters h).consistent
  · rintro ⟨hroot, hcount, hnodup⟩
    exact ⟨⟨root, registers, count, none, hroot, hcount, hnodup⟩,
      ofRegisters_eq_ok_iff.2 ⟨rfl, rfl, rfl, rfl⟩⟩

section Variables

variable {parameters locals : List String}

/-- From separate names only the root and the names matter. -/
private theorem exists_ofVariables_iff :
    (∃ script, ofVariables root parameters locals = .ok script) ↔
      root.kind = .script ∧ (parameters ++ locals).Nodup := by
  unfold ofVariables
  rw [exists_ofRegisters_iff]
  constructor
  · rintro ⟨hroot, -, hnodup⟩
    exact ⟨hroot, hnodup⟩
  · rintro ⟨hroot, hnodup⟩
    refine ⟨hroot, ?_, hnodup⟩
    rw [List.length_append]
    exact Nat.le_add_right ..

/-- Registers that begin with the parameters are never too few for them. -/
private theorem ofVariables_ne_tooManyParameters (declared available : Nat) :
    ofVariables root parameters locals ≠ .error (.tooManyParameters declared available) := by
  intro h
  obtain ⟨-, hcount, -, -⟩ := ofRegisters_eq_error_iff.1 h
  rw [List.length_append] at hcount
  exact absurd (Nat.le_add_right ..) (Nat.not_le_of_lt hcount)

/-- Separate names are taken apart again as they were put together. -/
private theorem variables_of_ofVariables (h : ofVariables root parameters locals = .ok script) :
    script.parameters = parameters ∧ script.locals = locals := by
  have hfollows : script.Follows root (parameters ++ locals) parameters.length :=
    follows_of_ofRegisters h
  exact List.append_inj hfollows.append_eq hfollows.length_parameters

end Variables

/-- **A script is made exactly of a consistent layout, and follows it.** From registers and a number
of parameters there is a script if and only if the root is of kind `script`, the parameters are no
more than the registers, and the names are distinct; otherwise the error is about the first of these
that does not hold, and a repeated name is the one at the least index of those that occur earlier.
From separate parameters and local variables the number is never at fault. Every script that is
obtained in one of the ways to construct it, with or without a source text, has the root and the
registers of its layout, parameters first, and parameter `i` is register `i`. -/
theorem construction_exact (root : Node) (registers : List String) (count : Nat) :
    ((∃ script, ofRegisters root registers count = .ok script) ↔
      ConsistentLayout root registers count) ∧
    (∀ e, ofRegisters root registers count = .error e ↔ e.Reports root registers count) ∧
    (∀ parameters locals,
      ((∃ script, ofVariables root parameters locals = .ok script) ↔
        root.kind = .script ∧ (parameters ++ locals).Nodup) ∧
      (∀ declared available,
        ofVariables root parameters locals ≠ .error (.tooManyParameters declared available)) ∧
      ∀ script, ofVariables root parameters locals = .ok script →
        script.parameters = parameters ∧ script.locals = locals) ∧
    ∀ script, Obtained root registers count script →
      ConsistentLayout root registers count ∧ script.Follows root registers count := by
  refine ⟨exists_ofRegisters_iff, fun e => ofRegisters_eq_error_iff, fun parameters locals => ?_,
    fun script h => ?_⟩
  · exact ⟨exists_ofVariables_iff, ofVariables_ne_tooManyParameters,
      fun script h => variables_of_ofVariables h⟩
  · exact ⟨h.follows.consistent, h.follows⟩

/-- Two parameters and a local variable make a script. Of two names that are repeated, the one whose
second occurrence comes first is reported. -/
theorem construction_exact_crossed :
    (∃ script, Obtained ⟨.script, [], none⟩ ["x", "y", "tmp"] 2 script ∧
      script.source = some "x" ∧ script.Follows ⟨.script, [], none⟩ ["x", "y", "tmp"] 2) ∧
    ofRegisters ⟨.script, [], none⟩ ["a", "b", "b", "a"] 1 = .error (.duplicateRegister "b") := by
  -- the second `b` stands before the second `a`
  have hrepeats : RepeatsFirstAt (["a", "b"] ++ "b" :: ["a"]) 2 :=
    repeatsFirstAt_length (by decide) (by decide)
  obtain ⟨hadmits, -, -, hobtained⟩ := construction_exact ⟨.script, [], none⟩ ["x", "y", "tmp"] 2
  obtain ⟨-, hreports, -, -⟩ := construction_exact ⟨.script, [], none⟩ ["a", "b", "b", "a"] 1
  obtain ⟨script, h⟩ := hadmits.2 ⟨rfl, by decide, by decide⟩
  have hsource := (Obtained.ofRegisters h).withSource "x"
  refine ⟨⟨_, hsource, rfl, (hobtained _ hsource).2⟩, ?_⟩
  exact (hreports _).2 ⟨rfl, by decide, 2, rfl, hrepeats⟩

end Script

end Scriptlet
