/-
Tables of TOML documents, built statement by statement.

Headers and keys lead through tables and create those that are missing.  A table is defined once:
by its header, by the keys that lead into it, or in braces, and each of these ways closes the
others.
-/
import LogLens.Json
import LogLens.Toml.Text

namespace LogLens
namespace Toml

/-- How a table came to be. -/
inductive Origin where
  /-- By its own header. -/
  | header
  /-- By a header that leads further; its own header may follow. -/
  | passed
  /-- By a key that leads into it; only such keys may add to it. -/
  | key
  deriving DecidableEq

inductive Node where
  /-- A value, which nothing adds to. -/
  | value (j : Json)
  | table (origin : Origin) (members : List (String × Node))
  /-- An array of tables, the last one first. -/
  | tables (elements : List (List (String × Node)))

/-- The members of a table in the order of their creation. -/
abbrev Members := List (String × Node)

/-- Replaces what stands under a name, if anything does, by what `f` makes of it. -/
def update? (name : String) (f : Option Node → Option Node) : Members → Option Members
  | [] => (f none).map fun node => [(name, node)]
  | (k, node) :: rest =>
    if k = name then (f (some node)).map fun node => (k, node) :: rest
    else (update? name f rest).map ((k, node) :: ·)

/-- Changes the table that the path of a header leads to.  Of an array of tables the last one is
meant. -/
def below? (f : Members → Option Members) : List String → Members → Option Members
  | [], members => f members
  | name :: path, members => update? name (fun
    | none => (below? f path []).map (.table .passed)
    | some (.table origin inner) => (below? f path inner).map (.table origin)
    | some (.tables (last :: before)) =>
      (below? f path last).map fun last => .tables (last :: before)
    | _ => none) members

/-- Puts a value where a key leads, which must be a place without a value.  The last table on the
way must have been made by keys alone. -/
def assign? (name : String) (j : Json) : List String → Members → Option Members
  | [], members => update? name (fun
    | none => some (.value j)
    | some _ => none) members
  | next :: path, members => update? next (fun
    | none => (assign? name j path []).map (.table .key)
    | some (.table .key inner) => (assign? name j path inner).map (.table .key)
    | some (.table .passed inner) =>
      if path.isEmpty then none else (assign? name j path inner).map (.table .passed)
    | _ => none) members

/-- What a header makes of what stands under its name. -/
def define? : Option Node → Option Node
  | none => some (.table .header [])
  | some (.table .passed members) => some (.table .header members)
  | _ => none

/-- What the header of an array of tables makes of what stands under its name. -/
def extend? : Option Node → Option Node
  | none => some (.tables [[]])
  | some (.tables elements) => some (.tables ([] :: elements))
  | _ => none

/-! ## Documents -/

inductive Statement where
  /-- The header of a table. -/
  | table (key : Key)
  /-- The header of one more table of an array. -/
  | element (key : Key)
  | assign (key : Key) (j : Json)

/-- All tables, and the path of the last header. -/
structure Building where
  root : Members := []
  current : List String := []

def Building.add? (b : Building) : Statement → Option Building
  | .table key => do
    return ⟨← below? (update? key.name define?) key.path b.root, key.path ++ [key.name]⟩
  | .element key => do
    return ⟨← below? (update? key.name extend?) key.path b.root, key.path ++ [key.name]⟩
  | .assign key j => do
    return { b with root := ← below? (assign? key.name j key.path) b.current b.root }

mutual

def Node.toJson : Node → Json
  | .value j => j
  | .table _ members => .object (membersJson members)
  | .tables elements => .array (elementsJson elements).reverse

def memberJson : String × Node → String × Json
  | (name, node) => (name, node.toJson)

def membersJson : List (String × Node) → List (String × Json)
  | [] => []
  | m :: rest => memberJson m :: membersJson rest

def elementsJson : List (List (String × Node)) → List Json
  | [] => []
  | members :: rest => .object (membersJson members) :: elementsJson rest

end

/-- The object that a list of statements describes. -/
def ofStatements? (statements : List Statement) : Option Json :=
  (statements.foldlM Building.add? {}).map fun b => .object (membersJson b.root)

end Toml
end LogLens
