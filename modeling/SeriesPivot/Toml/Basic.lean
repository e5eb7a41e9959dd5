import SeriesPivot.Binary64.Basic
import SeriesPivot.Keyed

/-!
# TOML documents

The values of a TOML document and the rules by which its lines build it up. A table is open to further
lines or not, as told by where it came from (`Origin`).

* `Table.insert` puts a value under a dotted key into the table of a header. A table that a header opened
  is closed to dotted keys, and only a table that dotted keys made may take values through them.
* `Table.enter` opens the table of a header: a new one, or one that other headers only implied.
* `Table.enterNext` opens the next table of a list of tables.

Where a path meets a list of tables it goes on in the last of them.
-/

namespace SeriesPivot.Toml

/-- Where a table came from. -/
inductive Origin where
  /-- A header names it, or it is the document or an item of a list of tables. -/
  | header
  /-- A longer header implies it. -/
  | implied
  /-- A dotted key made it. -/
  | dotted
  deriving DecidableEq, Repr

/-- A value of a document. -/
inductive Node where
  | string (s : String)
  | integer (n : Int)
  /-- A float; `none` for infinities and what is not a number. -/
  | float (x : Option Binary64)
  | boolean (b : Bool)
  /-- A date, a time or both, as written. -/
  | time (text : String)
  | array (items : List Node)
  /-- A table written as one value. -/
  | inlineTable (entries : List (String × Node))
  | table (origin : Origin) (entries : List (String × Node))
  | tables (items : List (List (String × Node)))
  deriving Repr, Inhabited

/-- The entries of a table. -/
abbrev Entries := List (String × Node)

/-- A table with its origin. -/
structure Table where
  origin : Origin
  entries : Entries
  deriving Repr

namespace Table

/-- An empty document. -/
def empty : Table := ⟨.header, []⟩

/-- The table with an entry put in, in place of one with its name. -/
def put (t : Table) (name : String) (node : Node) : Table :=
  { t with entries := Keyed.put name node t.entries }

/-- Change the table at a path, which is a dotted key or the path of a header. Tables that are missing on
the way are made. -/
def update (dotted : Bool) (change : Table → Option Table) : List String → Table → Option Table
  | [], t => change t
  | name :: path, t =>
    match Keyed.find? name t.entries with
    | none => do
      let child ← update dotted change path ⟨if dotted then .dotted else .implied, []⟩
      return t.put name (.table child.origin child.entries)
    | some (.table origin entries) =>
      if dotted ∧ origin = .header then none
      else do
        let child ← update dotted change path ⟨origin, entries⟩
        return t.put name (.table child.origin child.entries)
    | some (.tables items) =>
      match items.reverse with
      | [] => none
      | last :: others => do
        let child ← update dotted change path ⟨.header, last⟩
        return t.put name (.tables (others.reverse ++ [child.entries]))
    | some _ => none

/-- The names before the last one, and the last one. -/
def splitLast : List String → Option (List String × String)
  | [] => none
  | [name] => some ([], name)
  | name :: rest => (splitLast rest).map fun (path, last) => (name :: path, last)

/-- Put a value under a dotted key. -/
def insert (key : List String) (node : Node) (t : Table) : Option Table := do
  let (path, name) ← splitLast key
  update true (fun t =>
    if (t.origin = .dotted ↔ path ≠ []) ∧ (Keyed.find? name t.entries).isNone then
      some (t.put name node)
    else none) path t

/-- Open the table of a header. -/
def enter (key : List String) (t : Table) : Option Table := do
  let (path, name) ← splitLast key
  update false (fun t =>
    match Keyed.find? name t.entries with
    | none => some (t.put name (.table .header []))
    | some (.table .implied entries) => some (t.put name (.table .header entries))
    | some _ => none) path t

/-- Open the next table of a list of tables. -/
def enterNext (key : List String) (t : Table) : Option Table := do
  let (path, name) ← splitLast key
  update false (fun t =>
    match Keyed.find? name t.entries with
    | none => some (t.put name (.tables [[]]))
    | some (.tables items) => some (t.put name (.tables (items ++ [[]])))
    | some _ => none) path t

/-- Put a value under a dotted key into the table that a header opened. -/
def insertAt (header key : List String) (node : Node) (t : Table) : Option Table :=
  update false (insert key node) header t

end Table

/-- The entries of an inline table with a value put under a dotted key. -/
def insertInline (key : List String) (node : Node) (entries : Entries) : Option Entries :=
  (Table.insert key node ⟨.header, entries⟩).map (·.entries)

end SeriesPivot.Toml
