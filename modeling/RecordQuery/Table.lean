/-!
Finite maps from names to values, kept as entries in the order of their names. `insert` replaces what stood
under a name, so that a table built from a run of entries holds the last one for each name.
-/
namespace RecordQuery

structure Table (α : Type) where
  entries : List (String × α)

namespace Table

variable {α β : Type}

def empty : Table α :=
  ⟨[]⟩

/-- Puts an entry at its place in the order of names; one of the same name gives way. -/
def insertEntry (name : String) (value : α) : List (String × α) → List (String × α)
  | [] => [(name, value)]
  | entry :: rest =>
    match compare name entry.1 with
    | .lt => (name, value) :: entry :: rest
    | .eq => (name, value) :: rest
    | .gt => entry :: insertEntry name value rest

def insert (t : Table α) (name : String) (value : α) : Table α :=
  ⟨insertEntry name value t.entries⟩

def ofList (entries : List (String × α)) : Table α :=
  entries.foldl (fun t entry => t.insert entry.1 entry.2) empty

def get? (t : Table α) (name : String) : Option α :=
  t.entries.lookup name

def names (t : Table α) : List String :=
  t.entries.map (·.1)

def size (t : Table α) : Nat :=
  t.entries.length

def isEmpty (t : Table α) : Bool :=
  t.entries.isEmpty

@[simp] theorem get?_empty (name : String) : (empty : Table α).get? name = none := rfl

theorem lookup_cons (name other : String) (value : α) (entries : List (String × α)) :
    ((name, value) :: entries).lookup other =
      if other = name then some value else entries.lookup other := by
  rw [List.lookup_cons]
  by_cases h : other = name
  · simp [h]
  · simp [h, beq_eq_false_iff_ne.2 h]

theorem lookup_insertEntry (name other : String) (value : α) (entries : List (String × α)) :
    (insertEntry name value entries).lookup other =
      if other = name then some value else entries.lookup other := by
  induction entries with
  | nil => exact lookup_cons ..
  | cons entry rest ih =>
    obtain ⟨key, old⟩ := entry
    unfold insertEntry
    split
    · exact lookup_cons ..
    · rename_i h
      obtain rfl : name = key := Std.LawfulEqCmp.eq_of_compare h
      grind [lookup_cons]
    · rename_i h
      have hne : name ≠ key := by rintro rfl; simp at h
      grind [lookup_cons]

/-- An insertion changes what is held under its own name, and nothing else. -/
@[grind =] theorem get?_insert (t : Table α) (name other : String) (value : α) :
    (t.insert name value).get? other = if other = name then some value else t.get? other :=
  lookup_insertEntry name other value t.entries

end Table

end RecordQuery
