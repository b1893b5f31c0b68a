import LiveQuery.Text.Glyph
import LiveQuery.Text.Pieces

/-!
# Files and directories

The files that a program sees from its working directory. A path is walked name by name; every name
but the last has to lead to a directory. The tree itself is not changed but by `FileTree.write?`,
which either replaces the whole content of one file or fails.
-/

namespace LiveQuery

/-- Where a path leads: so many directories up from the working directory, or to the root, and from
there down by names. -/
structure Place where
  fromRoot : Bool
  up : Nat
  names : List Bytes
  deriving DecidableEq, Repr

namespace Place

/-- The working directory. -/
def here : Place := ⟨false, 0, []⟩

/-- The directory above all others. -/
def root : Place := ⟨true, 0, []⟩

/-- A name in a directory. -/
def child (name : Bytes) (p : Place) : Place := { p with names := p.names ++ [name] }

/-- The directory that holds a place; the root holds itself. -/
def parent (p : Place) : Place :=
  if p.names.isEmpty then { p with up := if p.fromRoot then p.up else p.up + 1 }
  else { p with names := p.names.dropLast }

/-- Whether a place lies below another one. -/
def isBelow (p q : Place) : Bool :=
  p.fromRoot = q.fromRoot && p.up = q.up && q.names.isPrefixOf p.names && p.names ≠ q.names

end Place

/-- What a place holds. -/
inductive FileNode where
  | file (content : Bytes)
  | directory
  /-- A file that may not be used. -/
  | locked
  deriving DecidableEq, Repr

/-- Why a path cannot be used. -/
inductive FileError where
  | notFound
  | notDirectory
  | isDirectory
  | nameTooLong
  | zeroByte
  | denied
  deriving DecidableEq, Repr

/-- The words for an error. -/
def FileError.message : FileError → String
  | notFound => "No such file or directory (os error 2)"
  | notDirectory => "Not a directory (os error 20)"
  | isDirectory => "Is a directory (os error 21)"
  | nameTooLong => "File name too long (os error 36)"
  | zeroByte => "file name contained an unexpected NUL byte"
  | denied => "Permission denied (os error 13)"

/-- The files and directories, by their places. The directories that the others lie in need no
entries of their own. -/
structure FileTree where
  entries : List (Place × FileNode)
  deriving DecidableEq, Repr

namespace FileTree

/-- A tree without files. -/
def empty : FileTree := ⟨[]⟩

/-- What stands at a place. -/
def at? (tree : FileTree) (p : Place) : Option FileNode :=
  if p.names.isEmpty then some .directory
  else
    match tree.entries.lookup p with
    | some node => some node
    | none => if tree.entries.any fun e => e.1.isBelow p then some .directory else none

/-- The slash between names. -/
def slash : UInt8 := 47

/-- The dot. -/
def dot : UInt8 := 46

/-- The longest name. -/
def maxName : Nat := 255

/-- The longest path. -/
def maxPath : Nat := 4095

/-- The names of a path. -/
def names (path : Bytes) : List Bytes :=
  (Text.pieces (· = slash) path).filter fun name => !name.isEmpty

/-- Follows one name from a place, which has to be a directory. -/
def enter (tree : FileTree) (p : Place) (name : Bytes) : Except FileError Place :=
  match tree.at? p with
  | none => .error .notFound
  | some (.file _) => .error .notDirectory
  | some .locked => .error .notDirectory
  | some .directory =>
    if name = [dot] then .ok p
    else if name = [dot, dot] then .ok p.parent
    else if maxName < name.length then .error .nameTooLong
    else .ok (p.child name)

/-- Where a path leads; nothing needs to be there. -/
def walk (tree : FileTree) (path : Bytes) : Except FileError Place :=
  if path.contains 0 then .error .zeroByte
  else if path.isEmpty then .error .notFound
  else if maxPath < path.length then .error .nameTooLong
  else
    (names path).foldlM tree.enter (if path.head? = some slash then .root else .here)

/-- What stands at a path. -/
def stat (tree : FileTree) (path : Bytes) : Except FileError FileNode := do
  match tree.at? (← tree.walk path) with
  | none => .error .notFound
  | some .directory => .ok .directory
  | some node => if path.getLast? = some slash then .error .notDirectory else .ok node

/-- Whether something stands at a path. -/
def exists_ (tree : FileTree) (path : Bytes) : Bool := (tree.stat path).isOk

/-- The content of a file. -/
def read? (tree : FileTree) (path : Bytes) : Except FileError Bytes := do
  match ← tree.stat path with
  | .directory => .error .isDirectory
  | .locked => .error .denied
  | .file content => .ok content

/-- The tree with a file at a place. -/
def put (p : Place) (content : Bytes) (tree : FileTree) : FileTree :=
  ⟨(p, .file content) :: tree.entries.filter fun e => e.1 ≠ p⟩

/-- The tree after a file has been written as a whole. -/
def write? (tree : FileTree) (path content : Bytes) : Except FileError FileTree := do
  let p ← tree.walk path
  if path.getLast? = some slash then .error .isDirectory
  else
    match tree.at? p with
    | some .directory => .error .isDirectory
    | some .locked => .error .denied
    | _ => .ok (tree.put p content)

/-- Where a path leads by its names alone, whatever is there. -/
def place (path : Bytes) : Place :=
  (names path).foldl
    (fun p name => if name = [dot] then p else if name = [dot, dot] then p.parent else p.child name)
    (if path.head? = some slash then .root else .here)

/-- The tree with one more file or directory. -/
def insert (path : Bytes) (node : FileNode) (tree : FileTree) : FileTree :=
  ⟨tree.entries ++ [(place path, node)]⟩

end FileTree
end LiveQuery
