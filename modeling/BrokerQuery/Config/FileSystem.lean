import BrokerQuery.Text.Split
/-
  What a program can see of a file system: for each path a text, a folder or nothing.

  `FileSystem.ofFiles` is the file system of a few files.  A path is walked from the working
  folder: empty parts and single dots stay where they are, two dots leave a folder, and nothing but
  a folder can be walked through.  The folders above the working folder exist and hold nothing
  that could be seen.
-/

namespace BrokerQuery

/-- What stands at a path. -/
inductive FileEntry
  | missing
  | folder
  | text (content : String)
deriving DecidableEq

/-- What stands at each path. -/
abbrev FileSystem := String → FileEntry

/-- Whether there is something. -/
def FileEntry.isThere : FileEntry → Bool
  | .missing => false
  | .folder => true
  | .text _ => true

namespace FileSystem

/-- The path of something in a folder.  An absolute path stays as it is, and no slash comes between
where the folder ends with one or is nothing at all. -/
def join (folder path : String) : String :=
  if path.toList.head? = some '/' then path
  else if folder.toList.getLast?.all (· == '/') then folder ++ path
  else folder ++ "/" ++ path

/-- A place on a walk: so many folders above the start, then the names on the way down, the last
one first. -/
structure Place where
  above : Nat := 0
  down : List (List Char) := []

/-- The parts of a path that move. -/
def parts (path : List Char) : List (List Char) :=
  (Text.pieces '/' path).filter fun part => part ≠ [] ∧ part ≠ ['.']

/-- What stands at a place. -/
def entryAt (files : List (String × String)) (place : Place) : FileEntry :=
  let names := place.down.reverse
  if names.isEmpty then .folder
  else if place.above ≠ 0 then .missing
  else match files.find? fun file => parts file.1.toList = names with
    | some (_, content) => .text content
    | none =>
      if files.any fun file => names.isPrefixOf (parts file.1.toList) then .folder else .missing

/-- The place one part further. -/
def Place.move (place : Place) (part : List Char) : Place :=
  if part = [] ∨ part = ['.'] then place
  else if part = ['.', '.'] then
    match place.down with
    | [] => { place with above := place.above + 1 }
    | _ :: down => { place with down }
  else { place with down := part :: place.down }

/-- What stands at the end of a walk; every place before the end must be a folder. -/
def walk (files : List (String × String)) (place : Place) : List (List Char) → FileEntry
  | [] => entryAt files place
  | part :: rest =>
    if entryAt files place = .folder then walk files (place.move part) rest else .missing

/-- The file system of some files, each with its path below the working folder. -/
def ofFiles (files : List (String × String)) : FileSystem := fun path =>
  match path.toList with
  | [] => .missing
  | '/' :: rest => if parts rest = [] then .folder else .missing
  | cs => walk files {} (Text.pieces '/' cs)

end FileSystem
end BrokerQuery
