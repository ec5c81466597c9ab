import ShaderFilter.Toml.Number

/-!
# Documents of TOML

Values, lines, and the table of a whole document. A document is refused as a whole: there is no reading
of a part of it.
-/

namespace ShaderFilter.Toml

namespace Reader

/-! ### Values -/

/-- Takes items up to a closing mark, separated by commas. -/
def separated {α : Type} (item : Reader α) : Reader (List α) := do
  let first ← item
  let others ← many do
    if ← accept "," then return some (← item) else return none
  return first :: others

/-- Takes an item of an array with the comma after it, which may be missing after the last one. Blanks,
comments and line ends may stand around the item. -/
def arrayItem (value : Reader Value) : Reader (Option Value) := do
  space
  if ← accept "]" then return none
  let v ← value
  space
  unless ← accept "," do
    unless (← peek) = some ']' do failure
  return some v

/-- Takes the items of an array and its closing bracket. -/
def arrayItems (value : Reader Value) : Reader (List Value) := many (arrayItem value)

/-- Takes a key and its value. -/
def item (value : Reader Value) : Reader Item := do
  let names ← key
  expect "="
  gap
  let v ← value
  return ⟨names.dropLast, names.getLast?.getD "", v⟩

/-- Takes the items of a table that is written as a value, after its brace. -/
def tableItems (value : Reader Value) : Reader (List Item) := do
  gap
  if ← accept "\x7d" then return []
  let items ← separated do
    let i ← item value
    gap
    return i
  expect "\x7d"
  return items

/-- Takes a value that is neither an array nor a table. -/
def simpleValue : Reader Value := do
  if let some s ← string? then return .string s
  if ← accept "true" then return .bool true
  if ← accept "false" then return .bool false
  if let some v ← dateTime? then return v
  number

/-- Takes a value that lies less than `depth` arrays and tables deep. -/
def value : (depth : Nat) → Reader Value
  | 0 => simpleValue
  | depth + 1 => do
    if ← accept "[" then return .array (← arrayItems (value depth))
    if ← accept "\x7b" then
      match Value.ofItems? (← tableItems (value depth)) with
      | some t => return t
      | none => failure
    simpleValue

/-! ### Lines -/

/-- A line of a document that is not blank. -/
inductive Line where
  /-- The header of a table, or of an element of an array of tables. -/
  | header (name : List String) (isElement : Bool)
  /-- A key with its value. -/
  | item (i : Item)

/-- Takes what is on a line that is not blank, up to a comment or the end. -/
def statement : Reader Line := do
  if ← accept "[[" then
    let name ← key
    expect "]]"
    return .header name true
  if ← accept "[" then
    let name ← key
    expect "]"
    return .header name false
  return .item (← item (value (depthLimit - 1)))

/-- Takes a line that is not blank. -/
def line : Reader Line := do
  let result ← statement
  lineEnd
  return result

/-- Takes the next line that is not blank, if there is one. -/
def nextLine : Reader (Option Line) := do
  space
  match ← peek with
  | some _ => return some (← line)
  | none => return none

/-- Takes lines up to the end, blank ones and comments left out. -/
def lines : Reader (List Line) := many nextLine

end Reader

/-! ### The document -/

/-- Sorts lines into those before the first header and the sections. -/
def sections : List Reader.Line → List Item × List Section
  | [] => ([], [])
  | .item i :: lines => ((i :: (sections lines).1), (sections lines).2)
  | .header name isElement :: lines =>
    ([], ⟨name, isElement, (sections lines).1⟩ :: (sections lines).2)

/-- The table of some lines. -/
def tableOf? (lines : List Reader.Line) : Option Table := do
  let (items, others) := sections lines
  others.foldlM Section.addTo (← Table.addAll items [])

/-- A text without the mark of its encoding at the start. -/
def withoutMark : List Char → List Char
  | '\ufeff' :: cs => cs
  | cs => cs

/-- The table of a document. -/
def read? (text : String) : Option Table := do
  let (lines, _) ← StateT.run Reader.lines (withoutMark text.toList)
  tableOf? lines

end ShaderFilter.Toml
