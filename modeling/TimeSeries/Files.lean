import TimeSeries.Table

/-!
# Files: paths and a tree of files

A path is a text whose segments are separated by `/`. Two paths are taken to be
the same if they have the same components: empty segments and `.` do not count,
while `..` does. Only at the very front a separator and a `.` count as well. Walking
a path through a tree of files is stricter: every segment but the last has to name a
directory that exists, and `..` goes back to the one above.
-/

namespace TimeSeries

/-! ### Paths -/

/-- **Path**, as it was put together. -/
structure Path : Type where
  /-- its text -/
  text : String
  deriving DecidableEq, Repr

/-- **Components** of a path. Paths with the same components are the same path. -/
abbrev FileKey : Type := List String

namespace Path

/-- The texts between the separators. -/
def segments (p : Path) : List String := (p.text.toList.splitOn '/').map String.ofList

/-- Whether a segment counts as a component. -/
def isComponent (segment : String) : Bool := segment != "" && segment != "."

/-- The component that a separator or a `.` at the front of a path makes. -/
def front (p : Path) : FileKey :=
  if p.text.toList.head? = some '/' then ["/"]
  else if p.segments.head? = some "." then ["."]
  else []

/-- The components of a path. -/
def key (p : Path) : FileKey := p.front ++ p.segments.filter isComponent

/-- Continues a path. What begins with a separator starts anew. -/
def join (p : Path) (rest : String) : Path :=
  if rest.toList.head? = some '/' then ⟨rest⟩
  else if p.text.toList.getLast?.all (· == '/') then ⟨p.text ++ rest⟩
  else ⟨p.text ++ "/" ++ rest⟩

/-- A path without the separators at its end. -/
def dropEnd (p : Path) : Path :=
  ⟨String.ofList (p.text.toList.reverse.dropWhile (· == '/')).reverse⟩

/-- The path of some components. -/
def ofKey (key : FileKey) : Path := ⟨String.intercalate "/" key⟩

/-- The paths that lead to a path, from the one right above it up to its first
component. -/
def above (p : Path) : List Path :=
  ((List.range (p.key.length - 1)).map fun i => ofKey (p.key.take (i + 1))).reverse

end Path

/-! ### Trees of files -/

/-- **Node** of a tree of files. -/
inductive Node : Type where
  /-- a directory -/
  | directory
  /-- a file with its contents -/
  | file (contents : String)
  deriving DecidableEq, Repr

/-- **File fault**: why an operation on files fails. -/
inductive FileFault : Type where
  /-- something on the way does not exist -/
  | notFound
  /-- something on the way is no directory -/
  | notDirectory
  /-- the path leads to a directory -/
  | isDirectory
  /-- the path or a segment has more bytes than it may have -/
  | nameTooLong
  /-- the path holds the character that ends names -/
  | nulByte
  /-- there is something at the path already -/
  | occupied
  deriving DecidableEq, Repr

/-- The text of a fault. -/
def FileFault.text : FileFault → String
  | notFound => "No such file or directory (os error 2)"
  | notDirectory => "Not a directory (os error 20)"
  | isDirectory => "Is a directory (os error 21)"
  | nameTooLong => "File name too long (os error 36)"
  | nulByte => "file name contained an unexpected NUL byte"
  | occupied => "File exists (os error 17)"

/-- The largest number of bytes of a name. -/
def maxNameBytes : Nat := 255

/-- The largest number of bytes of a path. -/
def maxPathBytes : Nat := 4095

/-- **Tree of files**: what is at which place. A place is the components of a path
without `..`. -/
structure FileTree : Type where
  /-- the nodes, by their place -/
  nodes : Table FileKey Node := {}
  deriving DecidableEq, Repr

namespace FileTree

/-- The tree with one directory. -/
def ofDirectory (name : String) : FileTree := ⟨Table.empty.put [name] .directory⟩

/-- Checks that there is a directory at a place. Above all names there is one. -/
def checkDirectory (t : FileTree) (place : FileKey) : Except FileFault Unit :=
  if place.isEmpty then .ok ()
  else
    match t.nodes.find? place with
    | some .directory => .ok ()
    | some (.file _) => .error .notDirectory
    | none => .error .notFound

/-- Goes one segment on from a place, which has to be a directory. -/
def step (t : FileTree) (place : FileKey) (segment : String) : Except FileFault FileKey :=
  match t.checkDirectory place with
  | .error fault => .error fault
  | .ok () =>
    if segment = "" ∨ segment = "." then .ok place
    else if segment = ".." then .ok place.dropLast
    else if maxNameBytes < segment.utf8ByteSize then .error .nameTooLong
    else .ok (place ++ [segment])

/-- **Walks a path** to a place. There need not be anything at the place itself. -/
def walk (t : FileTree) (p : Path) : Except FileFault FileKey :=
  if p.text.toList.contains '\x00' then .error .nulByte
  else if maxPathBytes < p.text.utf8ByteSize then .error .nameTooLong
  else p.segments.foldlM t.step []

/-- What is at a path. -/
def node? (t : FileTree) (p : Path) : Option Node :=
  match t.walk p with
  | .ok place => if place.isEmpty then some .directory else t.nodes.find? place
  | .error _ => none

/-- Whether there is anything at a path. -/
def has (t : FileTree) (p : Path) : Bool := (t.node? p).isSome

/-- Whether there is a file at a path. -/
def hasFile (t : FileTree) (p : Path) : Bool :=
  match t.node? p with
  | some (.file _) => true
  | _ => false

/-- **Writes a file**, in place of one that is there. -/
def writeFile (t : FileTree) (p : Path) (contents : String) : Except FileFault FileTree :=
  match t.walk p, t.node? p with
  | .error fault, _ => .error fault
  | .ok _, some .directory => .error .isDirectory
  | .ok place, _ => .ok ⟨t.nodes.put place (.file contents)⟩

/-- **Removes a file.** -/
def removeFile (t : FileTree) (p : Path) : Except FileFault FileTree :=
  match t.walk p, t.node? p with
  | .error fault, _ => .error fault
  | .ok _, some .directory => .error .isDirectory
  | .ok _, none => .error .notFound
  | .ok place, some (.file _) => .ok ⟨t.nodes.erase place⟩

/-- **Makes a directory** in one that is there. A directory at the path itself is left
as it is. -/
def makeDirectory (t : FileTree) (p : Path) : Except FileFault FileTree :=
  match t.walk p.dropEnd, t.node? p.dropEnd with
  | .error fault, _ => .error fault
  | .ok _, some .directory => .ok t
  | .ok _, some (.file _) => .error .occupied
  | .ok place, none => .ok ⟨t.nodes.put place .directory⟩

/-- Makes a directory and, if something on the way is missing, first the ones above it,
of which the lowest comes first. What was made on the way stays if the last step fails. -/
def makeAll (t : FileTree) (p : Path) : List Path → Except FileFault Unit × FileTree
  | [] =>
    match t.makeDirectory p with
    | .ok t => (.ok (), t)
    | .error fault => (.error fault, t)
  | parent :: above =>
    match t.makeDirectory p with
    | .ok t => (.ok (), t)
    | .error .notFound =>
      match t.makeAll parent above with
      | (.error fault, t) => (.error fault, t)
      | (.ok (), t) =>
        match t.makeDirectory p with
        | .ok t => (.ok (), t)
        | .error fault => (.error fault, t)
    | .error fault => (.error fault, t)

/-- **Makes a directory** with all that are missing above it. -/
def makeDirectories (t : FileTree) (p : Path) : Except FileFault Unit × FileTree :=
  t.makeAll p p.above

/-- The contents of the file at a path. -/
def contents? (t : FileTree) (p : Path) : Option String :=
  match t.node? p with
  | some (.file contents) => some contents
  | _ => none

end FileTree

end TimeSeries
