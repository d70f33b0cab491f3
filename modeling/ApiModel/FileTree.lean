import ApiModel.Text.Words

/-!
Files in memory: texts under absolute paths, and the directory that relative paths start from. A
directory exists where a file or the working directory is under it.
-/

namespace ApiModel

/-- Files and a working directory. A path is held as its names from the root on. -/
structure FileTree where
  workingDirectory : List String := []
  files : List (List String × String) := []
  deriving Inhabited

namespace FileTree

/-- The names between the slashes of a path, empty ones kept. -/
def names (path : String) : List String :=
  (Text.splitWhere (· = '/') path.toList).map String.ofList

/-- Where a relative path starts: at the root if it begins with a slash. -/
def start (tree : FileTree) (path : String) : List String :=
  if path.startsWith "/" then [] else tree.workingDirectory

/-- One step down a path. Two dots lead up, and an empty name or a dot leads nowhere. -/
def step (place : List String) (name : String) : List String :=
  if name = ".." then place.dropLast
  else if name = "" || name = "." then place
  else place ++ [name]

/-- Adds a file at a path, in the place of one that is there. -/
def write (tree : FileTree) (path text : String) : FileTree :=
  let place := (names path).foldl step (tree.start path)
  { tree with files := (place, text) :: tree.files }

/-- Whether a directory exists. -/
def isDirectory (tree : FileTree) (place : List String) : Bool :=
  place.isPrefixOf tree.workingDirectory ||
    tree.files.any fun (file, _) => place.isPrefixOf file && place.length < file.length

/-- The place a path leads to; none if it goes through something that is no directory. -/
def walk? (tree : FileTree) (place : List String) : List String → Option (List String)
  | [] => some place
  | name :: rest => if tree.isDirectory place then walk? tree (step place name) rest else none

/-- The text of the file at a path. -/
def read? (tree : FileTree) (path : String) : Option String :=
  (tree.walk? (tree.start path) (names path)).bind fun place => tree.files.lookup place

end FileTree

end ApiModel
