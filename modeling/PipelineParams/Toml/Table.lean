import PipelineParams.Toml.Value

/-! # Building tables

A table is built up from definitions that may stand far apart: headers name tables, keys with dots name
places inside them.  An `Item` is a part of a table under construction and remembers how it came to be,
since that decides which later definitions it takes.

* `Item.atPath` acts on the item at the end of a path of headers.
* `Item.assign` gives a value to a path of keys.
* `Item.toValue` forgets how an item came to be.
-/

namespace PipelineParams.Toml

/-- How a table came to be. -/
inductive Origin where
  | header
  | path
  | dotted
  deriving DecidableEq

inductive Item where
  | value (v : Value)
  | table (origin : Origin) (entries : List (String × Item))
  /-- The tables of headers with double brackets, the latest one first. -/
  | tables (latest : List (String × Item)) (earlier : List (List (String × Item)))

namespace Item

abbrev Entries := List (String × Item)

def find? (es : Entries) (key : String) : Option Item :=
  match es with
  | [] => none
  | e :: es => if e.1 = key then some e.2 else find? es key

def set (es : Entries) (key : String) (item : Item) : Entries :=
  match es with
  | [] => [(key, item)]
  | e :: es => if e.1 = key then (key, item) :: es else e :: set es key item

/-- Acts on the item at the end of a path of headers.  Tables that are missing on the way are made, and
of several tables under one name the latest is entered. -/
def atPath (act : Option Item → Option Item) : List String → Entries → Option Entries
  | [], _ => none
  | [key], es => (act (find? es key)).map (set es key)
  | key :: next :: path, es =>
    match find? es key with
    | none => (atPath act (next :: path) []).map fun inner => set es key (.table .path inner)
    | some (.table origin inner) =>
      (atPath act (next :: path) inner).map fun inner => set es key (.table origin inner)
    -- of several tables the latest is the one that goes on
    | some (.tables latest earlier) =>
      (atPath act (next :: path) latest).map fun latest => set es key (.tables latest earlier)
    | some (.value _) => none

/-- Gives a value to a path of keys.  The last key must be new, in a table that takes keys: the one in
which the path starts, or one made by dots.  A table with a header of its own is not entered. -/
def assignIn (takesKeys : Bool) (v : Value) : List String → Entries → Option Entries
  | [], _ => none
  | [key], es =>
    if takesKeys && (find? es key).isNone then some (set es key (.value v)) else none
  | key :: next :: path, es =>
    match find? es key with
    | none =>
      (assignIn true v (next :: path) []).map fun inner => set es key (.table .dotted inner)
    -- dots do not reach into what a header has defined
    | some (.table .header _) => none
    | some (.table .path inner) =>
      (assignIn false v (next :: path) inner).map fun inner => set es key (.table .path inner)
    | some (.table .dotted inner) =>
      (assignIn true v (next :: path) inner).map fun inner => set es key (.table .dotted inner)
    | some (.tables latest earlier) =>
      (assignIn false v (next :: path) latest).map fun latest => set es key (.tables latest earlier)
    | some (.value _) => none

def assignAll (es : Entries) (assignments : List (List String × Value)) : Option Entries :=
  assignments.foldlM (fun es a => assignIn true a.2 a.1 es) es

/-- The table under a header, filled with the assignments that follow it.  It must be new, or have been
made on the path of another header. -/
def defineTable (assignments : List (List String × Value)) : Option Item → Option Item
  | none => (assignAll [] assignments).map (.table .header)
  | some (.table .path es) => (assignAll es assignments).map (.table .header)
  | _ => none

def defineElement (assignments : List (List String × Value)) : Option Item → Option Item
  | none => (assignAll [] assignments).map fun es => .tables es []
  | some (.tables latest earlier) =>
    (assignAll [] assignments).map fun es => .tables es (latest :: earlier)
  | _ => none

/-! ## The table that was built -/

mutual

def toValue : Item → Value
  | .value v => v
  | .table _ es => .table (entriesToValues es)
  | .tables latest earlier => .array (tablesToValues earlier [.table (entriesToValues latest)])

def entriesToValues : List (String × Item) → List (String × Value)
  | [] => []
  | (key, item) :: es => (key, toValue item) :: entriesToValues es

def tablesToValues : List (List (String × Item)) → List Value → List Value
  | [], later => later
  | es :: earlier, later => tablesToValues earlier (.table (entriesToValues es) :: later)

end

end Item

end PipelineParams.Toml
