import SearchQuery.Toml.Value
set_option autoImplicit false

/-!
# Tables under construction

A table comes into being by its own header, by the header of a table inside it, or by a dotted key,
and that decides what may still be added to it. A value that was written in one piece is closed.

Headers may pass through every table that is not closed, but may define only a table that so far
exists by the headers of others. Dotted keys may not add to a table that has a header.
-/

namespace SearchQuery.Toml

inductive Origin where
  | header
  | implied
  | dotted
deriving DecidableEq, Repr

/-- What a key stands for while a document is read. In an array of tables, the last one comes
first. -/
inductive Item where
  | value (value : Value)
  | table (origin : Origin) (entries : List (String × Item))
  | tables (last : List (String × Item)) (earlier : List (List (String × Item)))

abbrev Entries := List (String × Item)

mutual
/-- The value of an item that is complete. -/
def Item.toValue : Item → Value
  | .value written => written
  | .table _ entries => .table (Item.toEntries entries)
  | .tables last earlier => .array (Item.toTables earlier ++ [.table (Item.toEntries last)])

def Item.toEntries : List (String × Item) → List (String × Value)
  | [] => []
  | (key, item) :: rest => (key, item.toValue) :: Item.toEntries rest

/-- The values of tables that come last first. -/
def Item.toTables : List (List (String × Item)) → List Value
  | [] => []
  | entries :: rest => Item.toTables rest ++ [.table (Item.toEntries entries)]
end

namespace Entries

/-- The entries with the item of a key that is there replaced. -/
def replace (key : String) (item : Item) : Entries → Entries
  | [] => []
  | (other, current) :: rest =>
      if other = key then (other, item) :: rest else (other, current) :: replace key item rest

/-- Defines a value below tables that dotted keys make. -/
def define (key : String) (value : Value) : List String → Entries → Except Fault Entries
  | [], entries =>
      match entries.lookup key with
      | none => .ok (entries ++ [(key, .value value)])
      | some _ => .error (.duplicateKey key)
  | step :: path, entries =>
      match entries.lookup step with
      | none => do
          let inner ← define key value path []
          return entries ++ [(step, .table .dotted inner)]
      | some (.table origin inner) =>
          if origin = .header ∨ (path = [] ∧ origin ≠ .dotted) then .error (.duplicateKey step)
          else do
            let inner ← define key value path inner
            return replace step (.table origin inner) entries
      | some (.tables last earlier) =>
          if path = [] then .error (.duplicateKey step)
          else do
            let last ← define key value path last
            return replace step (.tables last earlier) entries
      | some (.value _) => .error (.closedValue step)

/-- Follows a path of headers and changes the entries at its end. Tables that are missing are
implied. -/
def follow (change : Entries → Except Fault Entries) : List String → Entries → Except Fault Entries
  | [], entries => change entries
  | step :: path, entries =>
      match entries.lookup step with
      | none => do
          let inner ← follow change path []
          return entries ++ [(step, .table .implied inner)]
      | some (.table origin inner) => do
          let inner ← follow change path inner
          return replace step (.table origin inner) entries
      | some (.tables last earlier) => do
          let last ← follow change path last
          return replace step (.tables last earlier) entries
      | some (.value _) => .error (.closedValue step)

/-- Defines a table by its header. -/
def openTable (key : String) (entries : Entries) : Except Fault Entries :=
  match entries.lookup key with
  | none => .ok (entries ++ [(key, .table .header [])])
  | some (.table .implied inner) => .ok (replace key (.table .header inner) entries)
  | some _ => .error (.duplicateKey key)

/-- Adds a table to an array of tables by its header. -/
def openTables (key : String) (entries : Entries) : Except Fault Entries :=
  match entries.lookup key with
  | none => .ok (entries ++ [(key, .tables [] [])])
  | some (.tables last earlier) => .ok (replace key (.tables [] (last :: earlier)) entries)
  | some _ => .error (.duplicateKey key)

end Entries

end SearchQuery.Toml
