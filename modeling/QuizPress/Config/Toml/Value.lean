/-! The values that TOML describes, and the rules by which its tables grow. -/
namespace QuizPress.Config.Toml

/-- How a table came to be: by a header, on the way to the table of a header, by a dotted key, or
between braces. -/
inductive Origin where
  | header
  | passed
  | dotted
  | inline
deriving DecidableEq, Repr

/-- Of a float and of a date or time nothing is kept, and of a number that is too great for its kind
not even the kind. The tables of an array that headers made are told apart from the values of an
array in brackets. -/
inductive Value where
  | string (text : String)
  | integer (n : Int)
  | boolean (b : Bool)
  | float
  | excessive
  | moment
  | list (values : List Value)
  | tables (tables : List (List (String × Value)))
  | table (origin : Origin) (entries : List (String × Value))
deriving Repr, Inhabited

mutual

def Value.fits : Value → Bool
  | .excessive => false
  | .list values => allFit values
  | .tables tables => tablesFit tables
  | .table _ entries => entriesFit entries
  | .string _ | .integer _ | .boolean _ | .float | .moment => true

def allFit : List Value → Bool
  | [] => true
  | value :: values => value.fits && allFit values

def entriesFit : List (String × Value) → Bool
  | [] => true
  | (_, value) :: entries => value.fits && entriesFit entries

def tablesFit : List (List (String × Value)) → Bool
  | [] => true
  | table :: tables => entriesFit table && tablesFit tables

end

abbrev Table := List (String × Value)

namespace Table

def put (table : Table) (name : String) (value : Value) : Table :=
  if (table.lookup name).isSome then
    table.map fun entry => if entry.1 = name then (name, value) else entry
  else table ++ [(name, value)]

/-- Adds a value under a dotted key. The tables on the way are made by dotted keys as well, or are
so from now on if headers have only passed them. Of an array of tables the last one may be on the
way, but not at its end; no name gets two values. -/
def insert? : List String → String → Value → Table → Option Table
  | [], name, value, table =>
    if (table.lookup name).isSome then none else some (table.put name value)
  | step :: steps, name, value, table =>
    match table.lookup step with
    | none => (insert? steps name value []).map fun inner => table.put step (.table .dotted inner)
    | some (.table origin inner) =>
      if origin = .dotted ∨ origin = .passed then
        (insert? steps name value inner).map fun inner => table.put step (.table .dotted inner)
      else none
    | some (.tables tables) =>
      if steps = [] then none
      else match tables.getLast? with
        | some last => (insert? steps name value last).map fun last =>
          table.put step (.tables (tables.dropLast ++ [last]))
        | none => none
    | some _ => none

/-- Changes the table that a header path leads to; of an array of tables that is the last. -/
def modify? (change : Table → Option Table) : List String → Table → Option Table
  | [], table => change table
  | step :: steps, table =>
    match table.lookup step with
    | none => (modify? change steps []).map fun inner => table.put step (.table .passed inner)
    | some (.table origin inner) =>
      if origin = .inline then none
      else (modify? change steps inner).map fun inner => table.put step (.table origin inner)
    | some (.tables tables) =>
      match tables.getLast? with
      | some last => (modify? change steps last).map fun last =>
        table.put step (.tables (tables.dropLast ++ [last]))
      | none => none
    | some _ => none

/-- The table of a header, which may have been passed before but not made. -/
def declare? (name : String) (table : Table) : Option Table :=
  match table.lookup name with
  | none => some (table.put name (.table .header []))
  | some (.table .passed inner) => some (table.put name (.table .header inner))
  | some _ => none

def append? (name : String) (table : Table) : Option Table :=
  match table.lookup name with
  | none => some (table.put name (.tables [[]]))
  | some (.tables tables) => some (table.put name (.tables (tables ++ [[]])))
  | some _ => none

end Table

end QuizPress.Config.Toml
