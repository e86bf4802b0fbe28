import Scriptlet.Evaluation.Value

/-!
# Contexts and variables

A context is whatever a host keeps its named variables in. A run needs only to read a variable and
to define or overwrite one, so that is the whole interface.

`Variables` is the plain context: a finite map, kept as a list of entries in the order of their
names, which is also the order in which it is shown.

* `Variables.get_set` — a variable reads as what was last written to it.
-/

namespace Scriptlet

/-- A store of named variables. -/
class Context (γ : Type) where
  get : γ → String → Option Value
  set : γ → String → Value → γ
  /-- Whether the variable is defined. -/
  has : γ → String → Bool := fun context name => (get context name).isSome

/-- Variables by name, in the order of names. -/
structure Variables where
  entries : List (String × Value)
  sorted : entries.Pairwise fun a b => a.1 < b.1

namespace Variables

/-- No variables. -/
def empty : Variables := ⟨[], .nil⟩

instance : Inhabited Variables := ⟨empty⟩

/-- The entries with one defined or overwritten, in its place. -/
def insertEntry (name : String) (value : Value) : List (String × Value) → List (String × Value)
  | [] => [(name, value)]
  | (n, v) :: rest =>
    if name < n then (name, value) :: (n, v) :: rest
    else if name = n then (name, value) :: rest
    else (n, v) :: insertEntry name value rest

/-- Nothing else is in the list after an insertion. -/
private theorem mem_insertEntry {name : String} {value : Value} {entries : List (String × Value)}
    {e : String × Value} (h : e ∈ insertEntry name value entries) :
    e = (name, value) ∨ e ∈ entries := by
  induction entries with
  | nil => simpa [insertEntry] using h
  | cons head rest ih =>
    obtain ⟨n, v⟩ := head
    simp only [insertEntry] at h
    split at h
    -- in front, in the place of the head, or behind it
    · simpa using h
    · split at h
      · rcases List.mem_cons.1 h with h | h
        · exact .inl h
        · exact .inr (List.mem_cons_of_mem _ h)
      · rcases List.mem_cons.1 h with h | h
        · exact .inr (h ▸ List.mem_cons_self)
        · exact (ih h).imp_right (List.mem_cons_of_mem _)

/-- The names stay in order. -/
private theorem sorted_insertEntry (name : String) (value : Value) {entries : List (String × Value)}
    (h : entries.Pairwise fun a b => a.1 < b.1) :
    (insertEntry name value entries).Pairwise fun a b => a.1 < b.1 := by
  induction entries with
  | nil => simp [insertEntry]
  | cons head rest ih =>
    obtain ⟨n, v⟩ := head
    obtain ⟨hhead, hrest⟩ := List.pairwise_cons.1 h
    simp only [insertEntry]
    split
    · next hlt =>
      -- in front of all others
      refine List.pairwise_cons.2 ⟨fun e he => ?_, h⟩
      rcases List.mem_cons.1 he with rfl | he
      · exact hlt
      · exact String.lt_trans hlt (hhead e he)
    · next hnlt =>
      split
      · next heq =>
        subst heq
        exact List.pairwise_cons.2 ⟨hhead, hrest⟩
      · next hne =>
        -- behind the head, which comes before what is inserted and before what is there
        refine List.pairwise_cons.2 ⟨fun e he => ?_, ih hrest⟩
        rcases mem_insertEntry he with rfl | he
        · exact Std.lt_of_le_of_ne (String.not_lt.1 hnlt) (Ne.symm hne)
        · exact hhead e he

/-- The value of the entry with the given name. -/
def findEntry (name : String) : List (String × Value) → Option Value
  | [] => none
  | (n, v) :: rest => if name = n then some v else findEntry name rest

/-- Reads a variable. -/
def get (vars : Variables) (name : String) : Option Value := findEntry name vars.entries

/-- Defines or overwrites a variable. -/
def set (vars : Variables) (name : String) (value : Value) : Variables :=
  ⟨insertEntry name value vars.entries, sorted_insertEntry name value vars.sorted⟩

/-- The variables of a list of pairs; of several entries for one name the last wins. -/
def ofList (pairs : List (String × Value)) : Variables :=
  pairs.foldl (fun vars (name, value) => vars.set name value) empty

/-- The variables with their values, in the order of names. -/
def toList (vars : Variables) : List (String × Value) := vars.entries

/-- The number of variables. -/
def size (vars : Variables) : Nat := vars.entries.length

/-- Whether no variable is defined. -/
def isEmpty (vars : Variables) : Bool := vars.entries.isEmpty

instance : Context Variables where
  get := get
  set := set

/-- What is found is the new value under its name, and under any other name what was found
before. -/
private theorem findEntry_insertEntry (name other : String) (value : Value)
    (entries : List (String × Value)) :
    findEntry other (insertEntry name value entries) =
      if other = name then some value else findEntry other entries := by
  induction entries with
  | nil => rfl
  | cons head rest ih =>
    obtain ⟨n, v⟩ := head
    simp only [insertEntry]
    split
    · rfl
    · split
      · next heq =>
        subst heq
        simp only [findEntry]
        split <;> rfl
      · next hne =>
        simp only [findEntry, ih]
        split
        · next h => rw [if_neg (h ▸ Ne.symm hne)]
        · rfl

/-- **Reading after writing.** -/
theorem get_set (vars : Variables) (name other : String) (value : Value) :
    (vars.set name value).get other = if other = name then some value else vars.get other :=
  findEntry_insertEntry name other value vars.entries

end Variables

end Scriptlet
