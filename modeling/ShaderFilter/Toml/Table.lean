/-!
# Tables of TOML

The values of a TOML document, and how tables grow while a document is read. A table remembers its
origin, which decides what may still be added to it: a table that was only implied by a longer name may
be defined later, a table that has a definition may not be defined again, and a value is closed.
-/

namespace ShaderFilter.Toml

/-- How a table came into a document. -/
inductive Origin where
  /-- By a header of its own. -/
  | header
  /-- By the header of a table inside of it. -/
  | implied
  /-- By a dotted key. -/
  | dotted
  /-- As a value. -/
  | inline
  deriving DecidableEq

/-- A value of a document. -/
inductive Value where
  /-- A string. -/
  | string (s : String)
  /-- An integer. -/
  | integer (n : Int)
  /-- A floating-point number, as it is written. -/
  | float (literal : String)
  /-- A truth value. -/
  | bool (b : Bool)
  /-- A date, a time, or both, as it is written. -/
  | dateTime (literal : String)
  /-- An array. -/
  | array (items : List Value)
  /-- A table. -/
  | table (origin : Origin) (entries : List (String × Value))
  /-- An array of tables, each with a header of its own. -/
  | tables (elements : List (List (String × Value)))

/-- The entries of a table. -/
abbrev Table := List (String × Value)

namespace Table

/-- The value of a key. -/
def get? (t : Table) (key : String) : Option Value := t.lookup key

/-- The table with a value at a key, in the place of what was there. -/
def put (key : String) (v : Value) : Table → Table
  | [] => [(key, v)]
  | e :: es => if e.1 = key then (key, v) :: es else e :: put key v es

/-- Adds a value at a dotted key, which stands for tables inside each other. Each of them must be
implied, the innermost one by a dotted key, and the last key must be new. -/
def add : (path : List String) → (key : String) → Value → Table → Option Table
  | [], key, v, t => if (t.get? key).isSome then none else some (t.put key v)
  | p :: path, key, v, t =>
    match t.get? p with
    | none => (add path key v []).map fun sub => t.put p (.table .dotted sub)
    | some (.table origin sub) =>
      if origin = .dotted ∨ origin = .implied ∧ path ≠ [] then
        (add path key v sub).map fun sub => t.put p (.table origin sub)
      else none
    | some (.tables elements) =>
      match elements.getLast?, path with
      | some last, _ :: _ =>
        (add path key v last).map fun last => t.put p (.tables (elements.dropLast ++ [last]))
      | _, _ => none
    | some _ => none

/-- Changes what is at the name of a header. Tables on the way are implied where they are missing; of an
array of tables the last one is entered. -/
def update (f : Option Value → Option Value) : (name : List String) → Table → Option Table
  | [], _ => none
  | [key], t => (f (t.get? key)).map fun v => t.put key v
  | p :: path, t =>
    match t.get? p with
    | none => (update f path []).map fun sub => t.put p (.table .implied sub)
    | some (.table .inline _) => none
    | some (.table origin sub) => (update f path sub).map fun sub => t.put p (.table origin sub)
    | some (.tables elements) =>
      match elements.getLast? with
      | some last =>
        (update f path last).map fun last => t.put p (.tables (elements.dropLast ++ [last]))
      | none => none
    | some _ => none

end Table

/-- A key with its value; the key is preceded by the names of the tables that it dots into. -/
structure Item where
  /-- The names before the last dot. -/
  path : List String
  /-- The name after the last dot. -/
  key : String
  /-- The value. -/
  value : Value

/-- Adds items to a table. -/
def Table.addAll (items : List Item) (t : Table) : Option Table :=
  items.foldlM (fun t i => t.add i.path i.key i.value) t

/-- The table that is written as a value with some items. -/
def Value.ofItems? (items : List Item) : Option Value :=
  (Table.addAll items []).map (.table .inline)

/-- A header with the items below it. -/
structure Section where
  /-- The name in the header. -/
  name : List String
  /-- Whether the header adds a table to an array of tables. -/
  isElement : Bool
  /-- The items below the header. -/
  items : List Item

/-- What a section makes of what is at its name: nothing, a table that is implied only, or, if the
section is an element, the array of tables that it belongs to. -/
def Section.define (s : Section) : Option Value → Option Value
  | none =>
    (Table.addAll s.items []).map fun new => if s.isElement then .tables [new] else .table .header new
  | some (.table .implied sub) =>
    if s.isElement then none else (Table.addAll s.items sub).map (.table .header)
  | some (.tables elements) =>
    if s.isElement then (Table.addAll s.items []).map fun new => .tables (elements ++ [new]) else none
  | some _ => none

/-- Adds the table of a section. -/
def Section.addTo (t : Table) (s : Section) : Option Table := Table.update s.define s.name t

end ShaderFilter.Toml
