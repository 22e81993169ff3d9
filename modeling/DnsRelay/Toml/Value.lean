/-!
# Values of settings

Settings are strings, integers, booleans, arrays and tables. A table remembers how it was written, which decides what may
still be added to it: a dotted key may extend a table made by dotted keys, and a header may fill a table that longer
headers implied.
-/

namespace DnsRelay.Toml

/-- How a table was written. -/
inductive TableKind where
  | braces
  | dotted
  | implied
  | headed
  deriving DecidableEq, Repr

/-- A setting or a table of settings. -/
inductive Value where
  | string (text : String)
  | integer (value : Int)
  | boolean (value : Bool)
  | array (items : List Value)
  | table (kind : TableKind) (entries : List (String × Value))
  deriving Repr

/-- The settings of a table in the order in which their keys appear. -/
abbrev Entries := List (String × Value)

namespace Entries

/-- Adds a key that is not there yet. -/
def add? (entries : Entries) (key : String) (value : Value) : Option Entries :=
  if (entries.lookup key).isSome then none else some (entries ++ [(key, value)])

/-- Gives a key another value. -/
def replace (entries : Entries) (key : String) (value : Value) : Entries :=
  entries.map fun (k, v) => if k = key then (k, value) else (k, v)

/-- Adds the setting of a dotted key. -/
def addDotted? (entries : Entries) (value : Value) : List String → Option Entries
  | [] => none
  | [key] => entries.add? key value
  | key :: path =>
    match entries.lookup key with
    | none => (addDotted? [] value path).bind fun inner => entries.add? key (.table .dotted inner)
    | some (.table .dotted inner) =>
      (addDotted? inner value path).map fun inner => entries.replace key (.table .dotted inner)
    | some _ => none

/-- Adds all entries of another table; no key may be in both. -/
def addAll? (entries : Entries) : Entries → Option Entries
  | [] => some entries
  | (key, value) :: others => (entries.add? key value).bind fun entries => addAll? entries others

/-- The entries of the last table of an array that headers made, and the tables in front of it. -/
def lastTable? (items : List Value) : Option (List Value × Entries) :=
  match items.getLast? with
  | some (.table .headed entries) => some (items.dropLast, entries)
  | _ => none

/-- Adds the table under a header, or one more table of an array of tables if `array` is set. -/
def addTable? (entries : Entries) (array : Bool) (table : Entries) : List String → Option Entries
  | [] => none
  | [key] =>
    match entries.lookup key, array with
    | none, false => entries.add? key (.table .headed table)
    | none, true => entries.add? key (.array [.table .headed table])
    | some (.table .implied inner), false =>
      (addAll? table inner).map fun all => entries.replace key (.table .headed all)
    | some (.array items), true =>
      (lastTable? items).map fun _ => entries.replace key (.array (items ++ [.table .headed table]))
    | some _, _ => none
  | key :: path =>
    match entries.lookup key with
    | none => (addTable? [] array table path).bind fun inner => entries.add? key (.table .implied inner)
    | some (.table .implied inner) =>
      (addTable? inner array table path).map fun inner => entries.replace key (.table .implied inner)
    | some (.table .headed inner) =>
      (addTable? inner array table path).map fun inner => entries.replace key (.table .headed inner)
    | some (.array items) =>
      match lastTable? items with
      | none => none
      | some (others, inner) =>
        (addTable? inner array table path).map fun inner =>
          entries.replace key (.array (others ++ [.table .headed inner]))
    | some _ => none

end Entries

end DnsRelay.Toml
