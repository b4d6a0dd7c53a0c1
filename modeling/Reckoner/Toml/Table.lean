/-
Module: Reckoner.Toml.Table
Layer: Toml
Purpose: Tables while a document is being read. A document is a sequence of sections, the first of
  which has no header. Every table remembers the section that declared it, by its header or in a
  dotted key; a table that is only passed through on the way to another one is declared by none. A
  declared table is closed to all later sections, except that headers may lead through it, and a
  complete value is closed to everything.
Main exports: Toml.Item, Toml.Entries, Toml.assign, Toml.declareTable, Toml.appendTable,
  Toml.Item.datum
-/
import Reckoner.Datum

namespace Reckoner.Toml

/-- What stands behind a key while a document is being read. -/
inductive Item where
  /-- A value that is complete. -/
  | value (datum : Datum)
  /-- A table, with the section that declared it. -/
  | table (declared : Option Nat) (entries : List (String × Item))
  /-- An array of tables: those that are complete, the latest first, and the last one. -/
  | series (complete : List Datum) (last : List (String × Item))

/-- The keys of a table and what stands behind them. -/
abbrev Entries : Type := List (String × Item)

namespace Entries

/-- Puts an item behind a key, in the place of what stood there. -/
def store (key : String) (item : Item) : Entries → Entries
  | [] => [(key, item)]
  | (other, old) :: entries =>
      if other = key then (key, item) :: entries else (other, old) :: store key item entries

/-- Puts a value behind a key that is still free. -/
def insertValue (key : String) (datum : Datum) (entries : Entries) : Option Entries :=
  match entries.lookup key with
  | none => some (store key (.value datum) entries)
  | some _ => none

end Entries

/-!
### Ways into tables

On the way to a key, each step meets an item or nothing. A way of passing says whether the step is
allowed, which entries it leads to, and what stands there once they have been changed.
-/

/-- A way of passing what stands behind a key. -/
abbrev Passing : Type := Option Item → Option (Entries × (Entries → Item))

/-- How the keys of a header are passed: through tables, declared or not, and through the last table
    of an array of tables. What is missing becomes a table that no section declares. -/
def passHeader : Passing
  | none => some ([], .table none)
  | some (.table declared entries) => some (entries, .table declared)
  | some (.series complete last) => some (last, .series complete)
  | some (.value _) => none

/-- How a dotted key is passed in a section: through tables that no other section has declared. The
    section declares them. -/
def passDotted (current : Nat) : Passing
  | none => some ([], .table (some current))
  | some (.table none entries) => some (entries, .table (some current))
  | some (.table (some declared) entries) =>
      if declared = current then some (entries, .table (some current)) else none
  | some (.series ..) => none
  | some (.value _) => none

/-- Changes the entries at the end of a path. -/
def changeAt (pass : Passing) : List String → (Entries → Option Entries) → Entries → Option Entries
  | [], change, entries => change entries
  | key :: path, change, entries =>
      match pass (entries.lookup key) with
      | none => none
      | some (inside, close) =>
          match changeAt pass path change inside with
          | none => none
          | some changed => some (Entries.store key (close changed) entries)

/-!
### Statements
-/

/-- A key that may be dotted: the tables on the way, and the last part. -/
structure Key where
  path : List String
  last : String

/-- Assigns a value to a key in a section with the given header. -/
def assign (current : Nat) (header : List String) (key : Key) (datum : Datum) (entries : Entries) :
    Option Entries :=
  changeAt passHeader header
    (changeAt (passDotted current) key.path (Entries.insertValue key.last datum)) entries

/-- Declares the table at the end of a header. It may have been passed through, but not declared. -/
def declareTable (current : Nat) (key : Key) (entries : Entries) : Option Entries :=
  changeAt passHeader key.path
    (fun inside =>
      match inside.lookup key.last with
      | none => some (Entries.store key.last (.table (some current) []) inside)
      | some (.table none found) =>
          some (Entries.store key.last (.table (some current) found) inside)
      | _ => none)
    entries

mutual

def Item.datum : Item → Datum
  | .value datum => datum
  | .table _ entries => .table (dataOf entries)
  | .series complete last => .list (complete.reverse ++ [.table (dataOf last)])

def dataOf : List (String × Item) → List (String × Datum)
  | [] => []
  | (key, item) :: entries => (key, item.datum) :: dataOf entries

end

/-- Appends a table to the array of tables at the end of a header, which may be a new one. -/
def appendTable (key : Key) (entries : Entries) : Option Entries :=
  changeAt passHeader key.path
    (fun inside =>
      match inside.lookup key.last with
      | none => some (Entries.store key.last (.series [] []) inside)
      | some (.series complete last) =>
          some (Entries.store key.last (.series (.table (dataOf last) :: complete) []) inside)
      | _ => none)
    entries

end Reckoner.Toml
