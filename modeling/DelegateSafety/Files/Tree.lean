import DelegateSafety.Files.Path

/-! # Files in memory

A tree of files with a current directory, on which every command can run.
-/
namespace DelegateSafety

inductive Entry where
  | directory
  /-- A file, with its text if it is text. -/
  | file (text : Option String)
  deriving DecidableEq

abbrev Location := List String

structure FileTree where
  entries : List (Location × Entry)

namespace FileTree

def empty : FileTree := ⟨[]⟩

/-- The root is always there. -/
def find? (tree : FileTree) (location : Location) : Option Entry :=
  if location.isEmpty then some .directory else tree.entries.lookup location

def isDirectory (tree : FileTree) (location : Location) : Bool :=
  tree.find? location == some .directory

def put (tree : FileTree) (location : Location) (entry : Entry) : FileTree :=
  ⟨(location, entry) :: tree.entries.filter (·.1 != location)⟩

def add (tree : FileTree) (location : Location) (entry : Entry) : FileTree :=
  let above := (List.range location.length).map location.take
  let tree := above.foldl (fun t l => if (t.find? l).isSome then t else t.put l .directory) tree
  tree.put location entry

/-- Where a path leads from a directory. All but its last part must lead to directories. -/
def follow (tree : FileTree) (directory : Location) : List String → Option Location
  | [] => some directory
  | part :: rest =>
    if !tree.isDirectory directory then none
    else if part == "" || part == "." then follow tree directory rest
    else if part == ".." then follow tree directory.dropLast rest
    else follow tree (directory ++ [part]) rest

def locate? (tree : FileTree) (current : Location) (path : String) : Option Location :=
  if path.isEmpty then none
  else tree.follow (if FilePath.isAbsolute path then [] else current) (FilePath.parts path)

def read? (tree : FileTree) (current : Location) (path : String) : Option String :=
  match (tree.locate? current path).bind tree.find? with
  | some (.file text) => text
  | _ => none

def isPresent (tree : FileTree) (current : Location) (path : String) : Bool :=
  ((tree.locate? current path).bind tree.find?).isSome

/-- The tree with a file written, if its directory is there and nothing else has its place. -/
def write? (tree : FileTree) (current : Location) (path text : String) : Option FileTree :=
  (tree.locate? current path).bind fun location =>
    if tree.isDirectory location || !tree.isDirectory location.dropLast then none
    else some (tree.put location (.file (some text)))

def changesFrom (before after : FileTree) : List (Location × Option String) :=
  after.entries.filterMap fun (location, entry) =>
    match entry with
    | .file text => if before.find? location = some entry then none else some (location, text)
    | .directory => none

end FileTree

/-- A tree of files, the current directory in it, and all that was printed. -/
structure Workspace where
  tree : FileTree
  directory : Location
  printed : String

namespace Workspace

def host : Host (StateM Workspace) where
  currentDirectory := return "/" ++ "/".intercalate (← get).directory
  read? path := return (← get).tree.read? (← get).directory path
  isPresent path := return (← get).tree.isPresent (← get).directory path
  write path text := do
    let w ← get
    match w.tree.write? w.directory path text with
    | some tree => set { w with tree }; return true
    | none => return false
  print text := modify fun w => { w with printed := w.printed ++ text }
  colors := false

end Workspace

end DelegateSafety
