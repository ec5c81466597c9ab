import ShaderFilter.Files.Path

/-!
# File trees

The state of a file system as a value: files with their bytes, folders, and links to other places. A path
is followed step by step, through links too, from the working folder.
-/

namespace ShaderFilter.Files

/-- Why the file system refuses. -/
inductive OsError where
  /-- Nothing is at the place. -/
  | notFound
  /-- A path goes on where no folder is, or a folder is needed. -/
  | notAFolder
  /-- A file is needed. -/
  | isAFolder
  /-- A path or a name is too long. -/
  | nameTooLong
  /-- A path leads through too many links. -/
  | tooManyLinks
  /-- A path holds a character that no name can hold. -/
  | nulCharacter
  deriving DecidableEq

/-- The message of an error. -/
def OsError.message : OsError → String
  | .notFound => "No such file or directory (os error 2)"
  | .notAFolder => "Not a directory (os error 20)"
  | .isAFolder => "Is a directory (os error 21)"
  | .nameTooLong => "File name too long (os error 36)"
  | .tooManyLinks => "Too many levels of symbolic links (os error 40)"
  | .nulCharacter => "file name contained an unexpected NUL byte"

/-- What is at a place of a file tree. -/
inductive Entry where
  /-- A file with its bytes. -/
  | file (content : List UInt8)
  /-- A folder. -/
  | folder
  /-- A link to the place that a path leads to. -/
  | link (target : String)
  deriving DecidableEq

/-- A place, by the names on the way from the root. -/
abbrev Place := List String

/-- The place that steps lead to where no links are on the way. -/
def Place.walk (p : Place) : List Part → Place
  | [] => p
  | .root :: rest => walk [] rest
  | .here :: rest => walk p rest
  | .up :: rest => walk p.dropLast rest
  | .name s :: rest => walk (p ++ [s]) rest

/-- A file system. -/
structure Tree where
  /-- The entries by their places. -/
  entries : List (Place × Entry)
  /-- The working folder. -/
  working : Place

namespace Tree

/-- What is at a place; the root is always a folder. -/
def at? (t : Tree) (p : Place) : Option Entry :=
  if p = [] then some .folder else (t.entries.find? fun e => e.1 == p).map (·.2)

/-- Adds an entry, unless one is at the place. -/
def addAt (t : Tree) (p : Place) (e : Entry) : Tree :=
  if (t.at? p).isSome then t else { t with entries := t.entries ++ [(p, e)] }

/-- Adds an entry and the folders on the way to it. -/
def add (t : Tree) (p : Place) (e : Entry) : Tree :=
  let folders := (List.range p.length).map p.take
  (folders.foldl (fun t q => t.addAt q .folder) t).addAt p e

/-- Follows steps from a place. At most `links` links are followed. -/
def follow (t : Tree) (links : Nat) (p : Place) (steps : List Part) :
    Except OsError (Place × Entry) :=
  match t.at? p, steps with
  | none, _ => .error .notFound
  | some e, [] => .ok (p, e)
  | some .folder, .root :: rest => t.follow links [] rest
  | some .folder, .here :: rest => t.follow links p rest
  | some .folder, .up :: rest => t.follow links p.dropLast rest
  | some .folder, .name s :: rest =>
    if 255 < s.utf8ByteSize then .error .nameTooLong
    else match t.at? (p ++ [s]) with
      | some (.link target) =>
        if links = 0 then .error .tooManyLinks
        else t.follow (links - 1) p (Path.steps target ++ rest)
      | _ => t.follow links (p ++ [s]) rest
  | some _, _ :: _ => .error .notAFolder
termination_by (links, steps.length)

/-- The greatest number of links that a path may lead through. -/
def linkLimit : Nat := 40

/-- The place that a path leads to, and what is there. -/
def resolve (t : Tree) (path : String) : Except OsError (Place × Entry) :=
  if path.toList.contains '\x00' then .error .nulCharacter
  else if path = "" then .error .notFound
  else if 4096 ≤ path.utf8ByteSize then .error .nameTooLong
  else t.follow linkLimit t.working (Path.steps path)

/-- Whether a path leads to anything. -/
def has (t : Tree) (path : String) : Bool :=
  match t.resolve path with
  | .ok _ => true
  | .error _ => false

/-- The bytes of a file. -/
def read (t : Tree) (path : String) : Except OsError (List UInt8) := do
  match ← t.resolve path with
  | (_, .file content) => pure content
  | _ => throw .isAFolder

/-- The entries of a folder, by name. -/
def list (t : Tree) (path : String) : Except OsError (List (String × Entry)) := do
  match ← t.resolve path with
  | (p, .folder) => pure <| t.entries.filterMap fun (q, e) =>
      if q.dropLast = p then q.getLast?.map (·, e) else none
  | _ => throw .notAFolder

end Tree

end ShaderFilter.Files
