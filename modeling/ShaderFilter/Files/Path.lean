import ShaderFilter.Text.Fields

/-!
# Paths

A path is a text whose parts are separated by slashes. Paths are compared part by part, not character
by character, so a folder's files stand together however its name continues in other paths.
-/

namespace ShaderFilter.Files

/-- A part of a path. -/
inductive Part where
  /-- The root of the file tree. -/
  | root
  /-- The folder itself. -/
  | here
  /-- The folder above. -/
  | up
  /-- An entry of the folder. -/
  | name (s : String)
  deriving DecidableEq

/-- The part that a text between slashes stands for. -/
def Part.ofText (s : String) : Part :=
  if s = "" ∨ s = "." then .here else if s = ".." then .up else .name s

/-- The number of a part, the same for all names. -/
def Part.number : Part → Nat
  | .root => 0
  | .here => 1
  | .up => 2
  | .name _ => 3

/-- The order of the parts; names are in the order of their characters. -/
def Part.compare : Part → Part → Ordering
  | .name a, .name b => Ord.compare a b
  | a, b => Ord.compare a.number b.number

namespace Path

/-- The texts between the slashes. -/
def texts (path : String) : List String :=
  (Text.pieces '/' path.toList).map String.ofList

/-- Whether a path starts at the root. -/
def isAbsolute (path : String) : Bool := path.toList.head? == some '/'

/-- The steps from the working folder to the end of a path. A slash at the end is a step too: it stays
where the path is and so demands a folder there. -/
def steps (path : String) : List Part :=
  (if isAbsolute path then [.root] else []) ++ (texts path).map Part.ofText

/-- The parts of a path by which it is compared: without the steps that stay in a folder, except for one
at the very start. -/
def parts (path : String) : List Part :=
  match texts path with
  | [] => []
  | first :: rest =>
    let rest := (rest.map Part.ofText).filter (· ≠ .here)
    if isAbsolute path then .root :: rest
    else if first = "" then rest
    else Part.ofText first :: rest

/-- The order of lists of parts, the first different part deciding. -/
def compareParts : List Part → List Part → Ordering
  | [], [] => .eq
  | [], _ :: _ => .lt
  | _ :: _, [] => .gt
  | a :: as, b :: bs => (a.compare b).then (compareParts as bs)

/-- Whether path `a` does not come after path `b`. -/
def le (a b : String) : Bool := compareParts (parts a) (parts b) != .gt

/-- The path of an entry of a folder. -/
def join (folder name : String) : String :=
  if folder = "" ∨ folder.toList.getLast? = some '/' then folder ++ name else folder ++ "/" ++ name

/-- Whether the text between two slashes is a step that stays where it is. -/
def isIdle (s : String) : Bool := Part.ofText s == .here

/-- The path of the folder that holds what a path leads to: the path without its last part. A path
without parts and the root have none. -/
def parent? (path : String) : Option String :=
  match texts path with
  | [] => none
  | first :: rest =>
    match rest.reverse.dropWhile isIdle with
    | [] => if first = "" then none else some ""
    | _ :: above =>
      let above := (above.dropWhile isIdle).reverse
      some (if first = "" ∧ above = [] then "/" else "/".intercalate (first :: above))

/-- A path and the folders above it, the nearest first; at most `n` of them. -/
def upwards : Nat → String → List String
  | 0, _ => []
  | n + 1, path => path :: match parent? path with
    | some folder => upwards n folder
    | none => []

/-- The name of the file that a path leads to. -/
def fileName? (path : String) : Option String :=
  match (parts path).getLast? with
  | some (.name s) => some s
  | _ => none

/-- The extension of a file name: what follows the last dot, unless the name starts with that dot. -/
def extension? (name : String) : Option String :=
  match (Text.pieces '.' name.toList).reverse with
  | last :: before :: others =>
    if before = [] ∧ others = [] then none else some (String.ofList last)
  | _ => none

end Path

end ShaderFilter.Files
