import Scriptlet.Evaluation.Workspace
import Scriptlet.Proofs.Evaluation.Simulation
import Scriptlet.Script.Execution

/-!
# Runs over any context

A run asks a context for two things only, to read a variable and to write one. So a host may keep
its variables in whatever way it likes: as long as they can be seen as variables, with reading and
writing as they should be, a script does there what it does over the variables that are seen.

* `Context.View` — a way to see a context as variables;
* `Context.View.interpret` — the run of a tree is the same through a view;
* `Access.viewOf` — what is seen of a workspace through one of its handles;
* `Workspace.Observed` — what is seen through the other handles after a run;
* `Script.run_over_any_context` — scripts over a context and over what is seen of it; and what is
  seen through the other handles, if the context is a shared one.

That a shared handle can be seen as the variables behind it is not all there is to say about it. The
view that is used for it keeps in mind what the other tables hold, which no write changes.
-/

namespace Scriptlet

variable {γ δ : Type} {α : Type}

/-! ### Other contexts in an outcome -/

/-- The frame over another context. -/
def Frame.mapContext (f : γ → δ) (frame : Frame γ) : Frame δ := ⟨frame.registers, f frame.context⟩

/-- The outcome over another context. -/
def Outcome.mapContext (f : γ → δ) : Outcome γ α → Outcome δ α
  | returned value frame => returned value (frame.mapContext f)
  | failed failure frame => failed failure (frame.mapContext f)
  | unfinished => unfinished

/-! ### Views -/

/-- **A way to see a context as variables.** In the states that are valid, and that writing does not
lead out of, a variable reads as the one that is seen, and writing one is seen as writing it. -/
structure Context.View (γ : Type) [Context γ] where
  valid : γ → Prop
  contents : γ → Variables
  get_eq : ∀ {context : γ}, valid context →
    ∀ name, Context.get context name = (contents context).get name
  valid_set : ∀ {context : γ}, valid context →
    ∀ name value, valid (Context.set context name value)
  set_eq : ∀ {context : γ}, valid context →
    ∀ name value, contents (Context.set context name value) = (contents context).set name value

namespace Context.View

variable [Context γ] (view : Context.View γ)

/-- The second frame is what is seen of the first. -/
def Seen (f : Frame γ) (g : Frame Variables) : Prop :=
  view.valid f.context ∧ f.mapContext view.contents = g

variable {view}

/-- Frames that look the same hold the same variables. -/
theorem Seen.read?_eq {f : Frame γ} {g : Frame Variables} (h : view.Seen f g) (name : String)
    (register : Option Nat) : f.read? name register = g.read? name register := by
  obtain ⟨hvalid, rfl⟩ := h
  unfold Frame.read?
  rw [view.get_eq hvalid]
  rfl

/-- Reading a variable, or failing to. -/
private theorem simulates_resolve (policy : Policy) (name : String) (register : Option Nat) :
    Run.Simulates view.Seen (resolve policy name register) (resolve policy name register) := by
  intro f g h
  have hname : lookupName f.registers name register = lookupName g.registers name register := by
    rw [← h.2]
    rfl
  rw [resolve_apply, resolve_apply, h.read?_eq, hname]
  -- a variable that is not there is refused by both or void in both
  cases g.read? name register with
  | some value => exact .returned value h
  | none =>
    cases policy.strict with
    | true => exact .failed _ h
    | false => exact .returned _ h

/-- Writing a register does not touch the context. -/
private theorem simulates_store (register : Nat) (value : Value) :
    Run.Simulates view.Seen (Run.store register value) (Run.store register value) := by
  rintro f g ⟨hvalid, rfl⟩
  simp only [Run.store, Frame.mapContext]
  cases f.registers.store? register value with
  | some registers => exact .returned () ⟨hvalid, rfl⟩
  | none => exact .failed _ ⟨hvalid, rfl⟩

/-- Writing a variable, wherever it is kept. -/
private theorem simulates_assignVariable (name : String) (register : Option Nat) (value : Value) :
    Run.Simulates view.Seen (assignVariable name register value)
      (assignVariable name register value) := by
  cases register with
  | some register => exact simulates_store register value
  | none =>
    rintro f g ⟨hvalid, rfl⟩
    refine .returned () ⟨view.valid_set hvalid name value, ?_⟩
    show Frame.mk f.registers (view.contents (Context.set f.context name value)) = _
    rw [view.set_eq hvalid]
    rfl

/-- **The run of a tree is the same through a view.** -/
theorem interpret (view : Context.View γ) (policy : Policy) (rounds : Nat) (n : Node) :
    Run.Simulates view.Seen (n.interpret policy rounds) (n.interpret policy rounds) :=
  Run.Simulates.interpret (fun _ _ name register _ => simulates_resolve policy name register)
    (fun _ _ name register _ value => simulates_assignVariable name register value)
    simulates_store rounds

end Context.View

/-- Related outcomes are one outcome once the context is seen as variables. -/
theorem Outcome.Related.seen [Context γ] {view : Context.View γ} {outcome : Outcome γ α}
    {outcome' : Outcome Variables α} (h : Outcome.Related view.Seen outcome outcome') :
    outcome.mapContext view.contents = outcome' ∧
      ∀ frame, outcome.frame? = some frame → view.valid frame.context := by
  cases h with
  | returned value h =>
    obtain ⟨hvalid, rfl⟩ := h
    refine ⟨rfl, ?_⟩
    rintro _ ⟨rfl⟩
    exact hvalid
  | failed failure h =>
    obtain ⟨hvalid, rfl⟩ := h
    refine ⟨rfl, ?_⟩
    rintro _ ⟨rfl⟩
    exact hvalid
  | unfinished => exact ⟨rfl, nofun⟩

namespace Script

variable [Context γ] {view : Context.View γ} {context : γ}

/-- **Scripts do the same through a view**, and leave the context valid. -/
private theorem execute_seen (script : Script) (policy : Policy) (rounds : Nat) (args : List Value)
    (h : view.valid context) :
    Outcome.Related view.Seen (script.execute policy rounds args context)
      (script.execute policy rounds args (view.contents context)) :=
  view.interpret policy rounds script.root _ _ ⟨h, rfl⟩

private theorem evaluate_seen (script : Script) (policy : Policy) (rounds : Nat)
    (h : view.valid context) :
    Outcome.Related view.Seen (script.evaluate policy rounds context)
      (script.evaluate policy rounds (view.contents context)) := by
  unfold evaluate
  cases script.statements with
  | nil => exact .returned _ ⟨h, rfl⟩
  | cons first _ => exact view.interpret policy rounds first _ _ ⟨h, rfl⟩

end Script

/-! ### Shared tables -/

namespace Workspace

variable {w : Workspace} {h k : Handle}

/-- The handle gives access to a table of the workspace. -/
def Has (w : Workspace) (h : Handle) : Prop := h.table < w.tables.length

/-- **What is written through a handle is read through every handle on the same table**, and
through no other. -/
theorem read_write (hhas : w.Has h) (vars : Variables) (k : Handle) :
    (w.write h vars).read k = if k.table = h.table then vars else w.read k := by
  unfold read write
  by_cases hk : k.table = h.table
  · rw [if_pos hk, hk]
    dsimp only
    rw [List.getD_eq_getElem?_getD, List.getElem?_set_self hhas, Option.getD_some]
  · rw [if_neg hk]
    dsimp only
    rw [List.getD_eq_getElem?_getD, List.getElem?_set_ne (Ne.symm hk), ← List.getD_eq_getElem?_getD]

/-- No table comes or goes with a write. -/
private theorem has_write_iff (vars : Variables) : (w.write h vars).Has k ↔ w.Has k := by
  unfold Has write
  rw [List.length_set]

end Workspace

namespace Access

open Workspace in
/-- The variables behind the handle, and in all other tables what they held in `w`. -/
def viewOf (w : Workspace) (h : Handle) : Context.View Access where
  valid a := a.handle = h ∧ a.workspace.Has h ∧
    ∀ k : Handle, k.table ≠ h.table → a.workspace.read k = w.read k
  contents := content
  get_eq _ _ := rfl
  valid_set := by
    rintro a ⟨rfl, hhas, hothers⟩ name value
    refine ⟨rfl, (has_write_iff _).2 hhas, fun k hk => ?_⟩
    show (a.workspace.write a.handle _).read k = w.read k
    rw [read_write hhas, if_neg hk]
    exact hothers k hk
  set_eq := by
    rintro a ⟨rfl, hhas, -⟩ name value
    show (a.workspace.write a.handle _).read a.handle = _
    rw [read_write hhas, if_pos rfl]

end Access

namespace Workspace

/-- **What the handles see after a run through `h`**, of which a clone and a snapshot were taken
before, out of the workspace `w`. -/
structure Observed (w : Workspace) (h clone snapshot : Handle) (outcome : Outcome Access Value)
    (plain : Outcome Variables Value) : Prop where
  /-- The run is the one over the variables behind the handle. -/
  seen : outcome.mapContext Access.content = plain
  /-- The handle and its clone see all that was written. -/
  linked : ∀ frame, outcome.frame? = some frame →
    ∀ k ∈ [h, clone], frame.context.workspace.read k = frame.context.content
  /-- The snapshot sees nothing of it. -/
  snapshot : ∀ frame, outcome.frame? = some frame →
    frame.context.workspace.read snapshot = w.read h
  /-- So do all handles of the workspace, each by its table. -/
  others : ∀ frame, outcome.frame? = some frame → ∀ k, w.Has k →
    frame.context.workspace.read k =
      if k.table = h.table then frame.context.content else w.read k

/-- The handle of a snapshot, on the next table. -/
def snapshotHandle (w : Workspace) : Handle := ⟨w.tables.length, false⟩

variable {w : Workspace} {h k : Handle}

/-- A clone of a shared handle is the handle once more, and a snapshot comes with the next table. -/
private theorem clone_snapshot_eq (w : Workspace) (hshared : h.shared) :
    (w.clone h).snapshot h = ⟨w.tables ++ [w.read h], w.handles ++ [h, w.snapshotHandle]⟩ := by
  unfold clone
  rw [if_pos hshared]
  simp only [snapshot, add, snapshotHandle, List.append_assoc, List.singleton_append]
  rfl

/-- A new table takes nothing away from the others. -/
private theorem read_clone_snapshot (hshared : h.shared) (hhas : w.Has k) :
    ((w.clone h).snapshot h).read k = w.read k := by
  rw [clone_snapshot_eq w hshared]
  unfold read
  dsimp only
  rw [List.getD_eq_getElem?_getD, List.getElem?_append_left hhas, ← List.getD_eq_getElem?_getD]

/-- A snapshot holds what its handle held when it was taken. -/
private theorem read_snapshotHandle (hshared : h.shared) :
    ((w.clone h).snapshot h).read w.snapshotHandle = w.read h := by
  rw [clone_snapshot_eq w hshared, read, snapshotHandle, List.getD_eq_getElem?_getD,
    List.getElem?_concat_length, Option.getD_some]

/-- At the start, all tables hold what they hold. -/
private theorem valid_viewOf (hhas : w.Has h) (hshared : h.shared) :
    (Access.viewOf ((w.clone h).snapshot h) h).valid ⟨(w.clone h).snapshot h, h⟩ := by
  refine ⟨rfl, ?_, fun _ _ => rfl⟩
  rw [clone_snapshot_eq w hshared, Has, List.length_append]
  exact Nat.lt_add_right _ hhas

/-- What the view keeps in mind is what the other handles see. -/
private theorem Observed.of_related {outcome : Outcome Access Value}
    {plain : Outcome Variables Value} (hhas : w.Has h) (hshared : h.shared)
    (hrelated : Outcome.Related (Access.viewOf ((w.clone h).snapshot h) h).Seen outcome plain) :
    w.Observed h h w.snapshotHandle outcome plain := by
  obtain ⟨hseen, hvalid⟩ := hrelated.seen
  refine ⟨hseen, ?_, ?_, ?_⟩
  · intro frame hframe k hk
    obtain ⟨hhandle, -⟩ := hvalid frame hframe
    obtain rfl : k = h := by simpa using hk
    rw [Access.content, hhandle]
  · intro frame hframe
    obtain ⟨-, -, hothers⟩ := hvalid frame hframe
    -- the table of the snapshot is none that there was before
    have hapart : w.snapshotHandle.table ≠ h.table := Nat.ne_of_gt hhas
    rw [hothers _ hapart, read_snapshotHandle hshared]
  · intro frame hframe k hk
    obtain ⟨hhandle, -, hothers⟩ := hvalid frame hframe
    -- a handle sees the run by its table, whatever its own identity
    by_cases htable : k.table = h.table
    · rw [if_pos htable, Access.content, hhandle, read, read, htable]
    · rw [if_neg htable, hothers k htable, read_clone_snapshot hshared hk]

end Workspace

/-- **A script does the same over every context**, as far as variables are seen of it. Run or
evaluated, it gives the result that it gives over these variables, and in the end the variables that
are seen are those that it leaves there. Behind a shared handle they are seen through every clone of
it, and through no snapshot. -/
theorem Script.run_over_any_context (script : Script) (policy : Policy) (rounds : Nat)
    (args : List Value) :
    (∀ {γ : Type} [Context γ] (view : Context.View γ) (context : γ), view.valid context →
      (script.execute policy rounds args context).mapContext view.contents =
        script.execute policy rounds args (view.contents context) ∧
      (script.evaluate policy rounds context).mapContext view.contents =
        script.evaluate policy rounds (view.contents context)) ∧
    ∀ (w : Workspace) (h : Handle), w.Has h → h.shared →
      ∃ clone snapshot, ((w.clone h).snapshot h).handles = w.handles ++ [clone, snapshot] ∧
        ∀ through ∈ [h, clone],
          w.Observed h clone snapshot
            (script.execute policy rounds args (Access.mk ((w.clone h).snapshot h) through))
            (script.execute policy rounds args (w.read h)) ∧
          w.Observed h clone snapshot
            (script.evaluate policy rounds (Access.mk ((w.clone h).snapshot h) through))
            (script.evaluate policy rounds (w.read h)) := by
  constructor
  · intro γ _ view context hvalid
    exact ⟨(script.execute_seen policy rounds args hvalid).seen.1,
      (script.evaluate_seen policy rounds hvalid).seen.1⟩
  · intro w h hhas hshared
    refine ⟨h, w.snapshotHandle, by rw [Workspace.clone_snapshot_eq w hshared], ?_⟩
    intro through hthrough
    obtain rfl : through = h := by simpa using hthrough
    have hvalid := Workspace.valid_viewOf hhas hshared
    have hexecute := script.execute_seen policy rounds args hvalid
    have hevaluate := script.evaluate_seen policy rounds hvalid
    -- what is seen at the start are the variables behind the handle, which are those of before
    have hstart : (Access.viewOf ((w.clone through).snapshot through) through).contents
        ⟨(w.clone through).snapshot through, through⟩ = w.read through :=
      Workspace.read_clone_snapshot hshared hhas
    rw [hstart] at hexecute hevaluate
    exact ⟨.of_related hhas hshared hexecute, .of_related hhas hshared hevaluate⟩

/-! ### A context that only writes on -/

/-- A context that keeps every write, the latest first. It has nothing but the two operations. -/
structure Journal where
  writes : List (String × Value)

namespace Journal

instance : Context Journal where
  get journal name := Variables.findEntry name journal.writes
  set journal name value := ⟨(name, value) :: journal.writes⟩

/-- The variables that the writes have led to. -/
def contents (journal : Journal) : Variables :=
  journal.writes.foldr (fun write vars => vars.set write.1 write.2) .empty

/-- The latest write of a variable is the one that counts. -/
private theorem get_contents (journal : Journal) (name : String) :
    Context.get journal name = journal.contents.get name := by
  obtain ⟨writes⟩ := journal
  induction writes with
  | nil => rfl
  | cons write writes ih =>
    obtain ⟨n, v⟩ := write
    show Variables.findEntry name ((n, v) :: writes) =
      ((Journal.mk writes).contents.set n v).get name
    rw [Variables.get_set, Variables.findEntry, ← ih]
    rfl

/-- A journal is seen as the variables that its writes have led to. -/
def view : Context.View Journal where
  valid _ := True
  contents := contents
  get_eq _ := get_contents _
  valid_set _ _ _ := trivial
  set_eq _ _ _ := rfl

end Journal

/-- Adds one to the free variable `x`. -/
def Script.increment : Script where
  root := ⟨.script, [⟨.assign, [⟨.identifier "x" none, [], none⟩, ⟨.binary .add,
    [⟨.identifier "x" none, [], none⟩, ⟨.literal (.int 1), [], none⟩], none⟩], none⟩], none⟩
  registers := []
  parameterCount := 0
  source := none
  root_kind := rfl
  parameterCount_le := Nat.le_refl 0
  nodup_registers := .nil

/-- One shared table, on which one handle was given out. -/
def Workspace.single (vars : Variables) : Workspace := ⟨[vars], [⟨0, true⟩]⟩

/-- The latest of two writes is read from the journal. Of a shared table, the clone sees the
variable written, and the snapshot sees it as it was. -/
theorem Script.run_over_any_context_increment :
    (increment.execute {} 0 [] (Journal.mk [("x", .int 1), ("x", .int 7)])).mapContext
        Journal.contents =
      .returned (.int 2) ⟨.bind [] [], .ofList [("x", .int 2)]⟩ ∧
    ∃ clone snapshot,
      (Workspace.single (.ofList [("x", .int 1)])).Observed ⟨0, true⟩ clone snapshot
        (increment.execute {} 0 [] (Access.mk
          (((Workspace.single (.ofList [("x", .int 1)])).clone ⟨0, true⟩).snapshot ⟨0, true⟩)
          clone))
        (.returned (.int 2) ⟨.bind [] [], .ofList [("x", .int 2)]⟩) := by
  obtain ⟨hview, hshared⟩ := run_over_any_context increment {} 0 []
  constructor
  · exact (hview Journal.view ⟨[("x", .int 1), ("x", .int 7)]⟩ trivial).1
  · obtain ⟨clone, snapshot, -, hobserved⟩ :=
      hshared (Workspace.single (.ofList [("x", .int 1)])) ⟨0, true⟩ Nat.one_pos rfl
    exact ⟨clone, snapshot, (hobserved clone (by simp)).1⟩

end Scriptlet
