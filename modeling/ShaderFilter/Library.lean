import ShaderFilter.FilterFile

/-!
# The filter library

Finding filter files in folders by their extension, and loading them. The built-in filters are files like
all others; their folder is found from the place of the program.
-/

namespace ShaderFilter

open Files (OsError)

/-- Where a program is. -/
structure Installation where
  /-- The path of the program itself, if it is known. -/
  program : Option String
  /-- The folder of the program's sources. -/
  sources : String

namespace Installation

/-- Where the built-in filters may be near the program: beside it and in the two folders above. -/
def near (i : Installation) : List String :=
  ((i.program.bind Files.Path.parent?).toList.flatMap (Files.Path.upwards 3)).map
    (Files.Path.join · "filters")

/-- The built-in filters among the sources. -/
def own (i : Installation) : String := Files.Path.join i.sources "filters"

/-- The folder of the built-in filters: the nearest one to the program that is there, or else the one
among the sources. -/
def filters (i : Installation) (t : Files.Tree) : String := (i.near.find? t.has).getD i.own

end Installation

/-- A filter file that was found. -/
structure Found where
  /-- The path of the folder in which it was found. -/
  folder : String
  /-- Its name in the folder. -/
  name : String
  deriving DecidableEq

namespace Found

/-- The path of a found file. -/
def path (f : Found) : String := Files.Path.join f.folder f.name

/-- The order of found files is that of their paths. -/
def le (a b : Found) : Bool := Files.Path.le a.path b.path

end Found

namespace Library

/-- Whether the extension of a file name is one of `extensions`, in any case of ASCII letters. -/
def hasExtension (extensions : List String) (name : String) : Bool :=
  match Files.Path.extension? name with
  | some x => extensions.any fun y => Text.lower y == Text.lower x
  | none => false

/-- The names of the files in a listing, without folders and links. -/
def fileNames (listing : List (String × Files.Entry)) : List String :=
  listing.filterMap fun
    | (name, .file _) => some name
    | _ => none

/-- The names of the files in a folder; none if there is nothing at its path. -/
def names (t : Files.Tree) (folder : String) : Logged OsError (List String) :=
  if t.has folder then Logged.quiet ((t.list folder).map fileNames)
  else do
    Logged.note [⟨.debug, .library, s!"Filter directory {folder} does not exist"⟩]
    pure []

/-- The filter files of a folder. -/
def search (t : Files.Tree) (extensions : List String) (folder : String) :
    Logged OsError (List Found) := do
  let names ← names t folder
  pure ((names.filter (hasExtension extensions)).map fun name => ⟨folder, name⟩)

/-- The filter files of some folders, one after the other. -/
def searchAll (t : Files.Tree) (extensions : List String) : List String → Logged OsError (List Found)
  | [] => pure []
  | folder :: folders => do
    let found ← search t extensions folder
    let others ← searchAll t extensions folders
    pure (found ++ others)

/-- The filter files of some folders, in the order of their paths. -/
def list (t : Files.Tree) (folders : List String) (extensions : List String) :
    Logged OsError (List Found) := do
  let found ← searchAll t extensions folders
  pure (found.mergeSort Found.le)

/-- Loads a found file. -/
def load (t : Files.Tree) (f : Found) : Logged FilterError Definition := loadFilter t f.path

end Library

end ShaderFilter
