/-!
# Tables of names

Instance variables, globals, constants and methods are kept in tables from names to values.  A table
is a list of entries with at most one entry for a name; the order of the entries is never shown.
-/

namespace Rite

universe u

variable {α : Type u}

/-- A finite map from names to values. -/
structure Table (α : Type u) where
  entries : List (String × α) := []
  deriving Inhabited

namespace Table

/-- The value of the first entry for `name`. -/
def findEntry (name : String) : List (String × α) → Option α
  | [] => none
  | (other, value) :: rest => if other = name then some value else findEntry name rest

/-- The value under `name`. -/
def find? (table : Table α) (name : String) : Option α := findEntry name table.entries

/-- Whether there is a value under `name`. -/
def has (table : Table α) (name : String) : Bool := (table.find? name).isSome

/-- Replace the value of the first entry for `name`, or append an entry. -/
def insertEntry (name : String) (value : α) : List (String × α) → List (String × α)
  | [] => [(name, value)]
  | (other, old) :: rest =>
    if other = name then (name, value) :: rest
    else (other, old) :: insertEntry name value rest

/-- The table with `value` under `name`. -/
def insert (table : Table α) (name : String) (value : α) : Table α :=
  ⟨insertEntry name value table.entries⟩

/-- The table without `name`. -/
def erase (table : Table α) (name : String) : Table α :=
  ⟨table.entries.filter (·.1 ≠ name)⟩

/-- Whether the table holds nothing. -/
def isEmpty (table : Table α) : Bool := table.entries.isEmpty

/-- The entries in the order of their names, by code point. -/
def sorted (table : Table α) : List (String × α) :=
  table.entries.mergeSort fun x y => !decide (y.1 < x.1)

/-- A table with the given entries, later ones winning. -/
def ofList (entries : List (String × α)) : Table α :=
  entries.foldl (fun table (name, value) => table.insert name value) {}

/-! ## Laws of the view `find?` -/

theorem findEntry_insertEntry (entries : List (String × α)) (name other : String) (value : α) :
    findEntry other (insertEntry name value entries) =
      if other = name then some value else findEntry other entries := by
  induction entries with
  | nil => grind [insertEntry, findEntry]
  | cons entry rest ih => grind [insertEntry, findEntry]

@[simp] theorem find?_insert (table : Table α) (name other : String) (value : α) :
    (table.insert name value).find? other =
      if other = name then some value else table.find? other :=
  findEntry_insertEntry table.entries name other value

theorem findEntry_filter_ne (entries : List (String × α)) (name other : String) :
    findEntry other (entries.filter (·.1 ≠ name)) =
      if other = name then none else findEntry other entries := by
  induction entries with
  | nil => simp [findEntry]
  | cons entry rest ih => grind [findEntry]

@[simp] theorem find?_erase (table : Table α) (name other : String) :
    (table.erase name).find? other = if other = name then none else table.find? other :=
  findEntry_filter_ne table.entries name other

end Table

end Rite
