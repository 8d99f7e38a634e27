import DelegateSafety.Text.Split

/-! # Paths to files

A path is text. Its parts stand between slashes; an empty part counts for nothing, and so does a dot
anywhere but at the start of a relative path. Commands run on a system that takes files by their paths.
-/
namespace DelegateSafety

/-- What commands need of the system they run on. -/
structure Host (m : Type → Type) where
  currentDirectory : m String
  /-- The text of a file, if there is one that can be read. -/
  read? : (path : String) → m (Option String)
  isPresent : (path : String) → m Bool
  /-- Creates or replaces a file, and says whether that was possible. -/
  write : (path text : String) → m Bool
  print : (text : String) → m Unit
  /-- Whether what is printed may have colors. -/
  colors : Bool

namespace FilePath

def isAbsolute (path : String) : Bool := path.toList.head? == some '/'

/-- What stands between the slashes, the one that makes a path absolute apart. -/
def parts (path : String) : List String :=
  let chars := path.toList
  (cutAt (· == '/') (if isAbsolute path then chars.tail else chars)).map String.ofList

/-- The parts without those at the end that count for nothing. -/
def trimEnd (absolute : Bool) (parts : List String) : List String :=
  let kept := (parts.reverse.dropWhile fun part => part == "" || part == ".").reverse
  if kept.isEmpty && !absolute && parts.head? == some "." then ["."] else kept

/-- The directory that a path is in. Neither the root nor the empty path is in any. -/
def parent? (path : String) : Option String :=
  let absolute := isAbsolute path
  let trimmed := trimEnd absolute (parts path)
  if trimmed.isEmpty then none
  else
    let above := "/".intercalate (trimEnd absolute trimmed.dropLast)
    some (if absolute then "/" ++ above else above)

/-- A path, the directory that it is in, and so on upwards; at most `count` paths. -/
def ancestors : (count : Nat) → (path : String) → List String
  | 0, _ => []
  | count + 1, path => path :: (parent? path).elim [] (ancestors count)

/-- The path of a file in a directory. -/
def inside (directory name : String) : String :=
  if directory.isEmpty || directory.toList.getLast? == some '/' then directory ++ name
  else directory ++ "/" ++ name

theorem length_ancestors_le (count : Nat) (path : String) :
    (ancestors count path).length ≤ count := by
  induction count generalizing path with
  | zero => exact Nat.le_refl 0
  | succ count ih =>
    cases h : parent? path with
    | none => simp [ancestors, h]
    | some above => simpa [ancestors, h] using ih above

end FilePath

end DelegateSafety
