/-! What the program needs of files, and a tree of directories and files held as a value. Reading,
making directories and writing may each fail for a reason. In the tree, paths are followed from the
working directory; the directories above it and the system's root are there too, with nothing in them
but what is put there. -/
namespace Questionnaire

/-- Why a file cannot be used. -/
inductive FileError where
  | notFound
  | isDirectory
  | notDirectory
  | nameTooLong
  /-- The path holds a null character. -/
  | nullInPath
  /-- The content is no text. -/
  | notText
  /-- Another reason, in words. -/
  | other (reason : String)
deriving DecidableEq, Repr

/-- The message of a file error. -/
def FileError.message : FileError → String
  | notFound => "No such file or directory (os error 2)"
  | isDirectory => "Is a directory (os error 21)"
  | notDirectory => "Not a directory (os error 20)"
  | nameTooLong => "File name too long (os error 36)"
  | nullInPath => "file name contained an unexpected NUL byte"
  | notText => "stream did not contain valid UTF-8"
  | other reason => reason

/-- Access to files by their paths. -/
class FileAccess (m : Type → Type) where
  /-- The content of a file. -/
  read : String → m (Except FileError ByteArray)
  /-- Makes a directory and those above it; one that is there already is left as it is. -/
  makeDirectories : String → m (Except FileError Unit)
  /-- Gives a file a new content. -/
  write : String → ByteArray → m (Except FileError Unit)

/-- The text of a file. -/
def readTextFile {m : Type → Type} [Monad m] [FileAccess m] (path : String) :
    m (Except FileError String) := do
  match ← FileAccess.read path with
  | .error error => return .error error
  | .ok content =>
    match String.fromUTF8? content with
    | some text => return .ok text
    | none => return .error .notText

/-- A path without the slashes and current-directory marks at its end, last character first. -/
def trimPath : List Char → List Char
  | '/' :: rest => trimPath rest
  | '.' :: '/' :: rest => trimPath rest
  | path => path

/-- The directory part of a path: empty for a name without one, none for the root and the empty
path. -/
def parentPath? (path : String) : Option String :=
  match trimPath path.toList.reverse with
  | [] => none
  | reversed =>
    let above := reversed.dropWhile (· != '/')
    let parent := (trimPath above).reverse
    some (if above ≠ [] ∧ parent = [] then "/" else String.ofList parent)

/-- What lies at a place of a tree. -/
inductive FileTree.Entry where
  | directory
  | file (content : ByteArray)

/-- A tree of directories and files by their places. A place is the names on the way from the
working directory, perhaps after some `..`, or those behind a `/` from the system's root. -/
structure FileTree where
  entries : List (List String × FileTree.Entry)

namespace FileTree

/-- A tree with nothing in it. -/
def empty : FileTree where
  entries := []

/-- The place of the system's root. -/
def systemRoot : List String := ["/"]

/-- Whether a place is the working directory or one above it. -/
def isWorking (place : List String) : Bool :=
  place.all (· == "..")

/-- What lies at a place; the working directory, those above it and the system's root are always
there. -/
def find? (tree : FileTree) (place : List String) : Option Entry :=
  if isWorking place || place == systemRoot then some .directory else tree.entries.lookup place

/-- The place of the directory above; the system's root is its own. -/
def above (place : List String) : List String :=
  if isWorking place then place ++ [".."]
  else if place = systemRoot then place
  else place.dropLast

/-- The place from which a path is followed. -/
def start (path : String) : List String :=
  if path.startsWith "/" then systemRoot else []

/-- The number of bytes that a name may have. -/
def maxNameSize : Nat := 255

/-- The number of bytes that a path may have. -/
def maxPathSize : Nat := 4095

/-- Puts an entry at a place. -/
def put (tree : FileTree) (place : List String) (entry : Entry) : FileTree where
  entries := (tree.entries.filter fun held => held.1 != place) ++ [(place, entry)]

/-- The place that a path leads to from another one. Everything on the way must be a directory;
what lies at the place itself, if anything, does not matter. -/
def follow (tree : FileTree) : (place names : List String) → Except FileError (List String)
  | place, [] => .ok place
  | place, name :: names =>
    match tree.find? place with
    | none => .error .notFound
    | some (.file _) => .error .notDirectory
    | some .directory =>
      if name = "" ∨ name = "." then tree.follow place names
      else if name = ".." then tree.follow (above place) names
      else if maxNameSize < name.utf8ByteSize then .error .nameTooLong
      else tree.follow (place ++ [name]) names

/-- The place of a path; the empty path leads nowhere. -/
def placeOf (tree : FileTree) (path : String) : Except FileError (List String) :=
  if path.contains '\x00' then .error .nullInPath
  else if path = "" then .error .notFound
  else if maxPathSize < path.utf8ByteSize then .error .nameTooLong
  else tree.follow (start path) (path.splitOn "/")

/-- The content of the file at a path. -/
def read (tree : FileTree) (path : String) : Except FileError ByteArray := do
  match tree.find? (← tree.placeOf path) with
  | none => .error .notFound
  | some .directory => .error .isDirectory
  | some (.file content) => .ok content

/-- Makes the directories on a way from a place. -/
def makeAlong (tree : FileTree) : (place names : List String) → Except FileError FileTree
  | _, [] => .ok tree
  | place, name :: names =>
    if name = "" ∨ name = "." then tree.makeAlong place names
    else if name = ".." then tree.makeAlong (above place) names
    else if maxNameSize < name.utf8ByteSize then .error .nameTooLong
    else
      let next := place ++ [name]
      match tree.find? next with
      | none => (tree.put next .directory).makeAlong next names
      | some .directory => tree.makeAlong next names
      | some (.file _) => .error .notDirectory

/-- Makes the directory at a path and those above it. -/
def makeDirectories (tree : FileTree) (path : String) : Except FileError FileTree :=
  if path.contains '\x00' then .error .nullInPath
  else if maxPathSize < path.utf8ByteSize then .error .nameTooLong
  else tree.makeAlong (start path) (path.splitOn "/")

/-- Gives the file at a path a new content. -/
def write (tree : FileTree) (path : String) (content : ByteArray) : Except FileError FileTree := do
  let place ← tree.placeOf path
  match tree.find? place with
  | some .directory => .error .isDirectory
  | _ => .ok (tree.put place (.file content))

/-- Whether a tree has a file with this content at a place. -/
def hasFile (tree : FileTree) (place : List String) (content : ByteArray) : Bool :=
  match tree.find? place with
  | some (.file held) => held.data == content.data
  | _ => false

/-- Whether a place is outside of the working directory. -/
def isOutside (place : List String) : Bool :=
  place.head?.any fun name => name == ".." || name == "/"

/-- The files in the working directory of a tree whose content another tree does not have at their
place. -/
def filesNotIn (tree earlier : FileTree) : List (String × ByteArray) :=
  tree.entries.filterMap fun (place, entry) =>
    match entry with
    | .directory => none
    | .file content =>
      if isOutside place || earlier.hasFile place content then none
      else some ("/".intercalate place, content)

end FileTree

/-- Changes the tree of a computation, unless that fails. -/
def updateTree (change : FileTree → Except FileError FileTree) :
    StateM FileTree (Except FileError Unit) := fun tree =>
  match change tree with
  | .ok changed => (.ok (), changed)
  | .error error => (.error error, tree)

instance : FileAccess (StateM FileTree) where
  read path := fun tree => (tree.read path, tree)
  makeDirectories path := updateTree (·.makeDirectories path)
  write path content := updateTree (·.write path content)

end Questionnaire
