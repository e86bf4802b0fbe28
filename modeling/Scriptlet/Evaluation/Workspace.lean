import Scriptlet.Evaluation.Variables

/-!
# Shared variables

A host may hand out several handles on one table of variables: whatever is written through one of
them is read through all. A workspace holds the tables and the handles on them. A clone of a shared
handle is a further handle on the same table. A clone of any other handle, and a snapshot, come with
a table of their own that starts with the same variables.

* `Access` — a workspace seen through one handle, which is a context.
-/

namespace Scriptlet

/-- Access to a table of a workspace. A shared handle lets its clones use the same table. -/
structure Handle where
  table : Nat
  shared : Bool

/-- Tables of variables and the handles given out on them. -/
structure Workspace where
  tables : List Variables
  handles : List Handle

namespace Workspace

/-- A workspace without tables. -/
def empty : Workspace := ⟨[], []⟩

/-- The variables that a handle gives access to. -/
def read (w : Workspace) (h : Handle) : Variables := w.tables.getD h.table .empty

/-- Replaces the variables behind a handle. -/
def write (w : Workspace) (h : Handle) (vars : Variables) : Workspace :=
  { w with tables := w.tables.set h.table vars }

/-- Adds a table, and a handle on it. -/
def add (w : Workspace) (vars : Variables) (shared : Bool) : Workspace where
  tables := w.tables ++ [vars]
  handles := w.handles ++ [⟨w.tables.length, shared⟩]

/-- Adds a clone of the handle. -/
def clone (w : Workspace) (h : Handle) : Workspace :=
  if h.shared then { w with handles := w.handles ++ [h] } else w.add (w.read h) false

/-- Adds a handle on a copy of the current variables. -/
def snapshot (w : Workspace) (h : Handle) : Workspace := w.add (w.read h) false

end Workspace

/-- A workspace together with the handle through which it is used. -/
structure Access where
  workspace : Workspace
  handle : Handle

namespace Access

/-- The variables behind the handle. -/
def content (a : Access) : Variables := a.workspace.read a.handle

/-- Defines or overwrites a variable behind the handle. -/
def set (a : Access) (name : String) (value : Value) : Access :=
  { a with workspace := a.workspace.write a.handle (a.content.set name value) }

instance : Context Access where
  get a name := a.content.get name
  set := set

end Access

end Scriptlet
