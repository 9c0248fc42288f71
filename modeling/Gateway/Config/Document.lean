/-! Configuration documents: trees of tables, lists and plain values. -/
namespace Gateway.Config

/-- How a table came to be, which decides what may still be added to it. -/
inductive TableKind where
  /-- Written out between braces. -/
  | inline
  /-- Passed through by the header of another table. -/
  | implicit
  /-- Made by a dotted key. -/
  | dotted
  /-- Named by a header of its own. -/
  | header
  deriving DecidableEq

inductive Value where
  | null
  | bool (b : Bool)
  | int (n : Int)
  /-- A number that is no integer. -/
  | float
  | string (s : String)
  | list (items : List Value)
  /-- A list of tables, each named by a header. -/
  | tables (items : List (List (String × Value)))
  | table (kind : TableKind) (entries : List (String × Value))

instance : Inhabited Value := ⟨.null⟩

abbrev Entries := List (String × Value)

namespace Entries

/-- Gives a key a value in its place, or adds it at the end. -/
def put (es : Entries) (key : String) (v : Value) : Entries :=
  if es.any (·.1 == key) then es.map fun e => if e.1 == key then (key, v) else e
  else es ++ [(key, v)]

/-- A change of a table, which may fail. -/
abbrev Change := TableKind → Entries → Option (TableKind × Entries)

/-- Makes a change in the table that a path leads to. Tables missing on the way are made; dotted keys
do not go through tables that have a header, and nothing goes through inline tables. -/
def within (viaDots : Bool) (change : Change) : List String → Change
  | [], kind, es => change kind es
  | key :: path, kind, es =>
    match es.lookup key with
    | none => do
      let (k, inner) ← within viaDots change path (if viaDots then .dotted else .implicit) []
      some (kind, es.put key (.table k inner))
    | some (.table k inner) =>
      if k = .inline ∨ (viaDots ∧ k = .header) then none
      else do
        let (k, inner) ← within viaDots change path k inner
        some (kind, es.put key (.table k inner))
    | some (.tables items) => do
      let (_, last) ← within viaDots change path .header (items.getLast?.getD [])
      some (kind, es.put key (.tables (items.dropLast ++ [last])))
    | some _ => none

/-- Assigns a value to a dotted key, given by the parts before the last and the last. No key is
assigned twice, and a dotted key adds only to tables that dotted keys have made. -/
def assign (path : List String) (key : String) (v : Value) : Change :=
  within true (fun kind es =>
    if (!path.isEmpty && kind != .dotted) || es.any (·.1 == key) then none
    else some (kind, es ++ [(key, v)])) path

/-- Names a table by a header; only one that others have passed through may exist already. -/
def openTable (path : List String) (key : String) : Change :=
  within false (fun kind es =>
    match es.lookup key with
    | none => some (kind, es ++ [(key, .table .header [])])
    | some (.table .implicit inner) => some (kind, es.put key (.table .header inner))
    | some _ => none) path

/-- Adds a table to a list of tables. -/
def openItem (path : List String) (key : String) : Change :=
  within false (fun kind es =>
    match es.lookup key with
    | none => some (kind, es ++ [(key, .tables [[]])])
    | some (.tables items) => some (kind, es.put key (.tables (items ++ [[]])))
    | some _ => none) path

end Entries

end Gateway.Config
