import DelegateSafety.Toml.Lexeme
import DelegateSafety.Toml.Scalar
import DelegateSafety.Toml.Table

/-! # Reading TOML documents

Brackets and braces are paired first; what they hold is then cut at commas, and everything outside
of them at line ends. A document is read as the JSON object of its values.
-/
namespace DelegateSafety.Toml

inductive Tree where
  | lexeme (l : Lexeme)
  | brackets (parts : List Tree)
  | braces (parts : List Tree)

/-- How many brackets and braces may be open at once. -/
def nestingLimit : Nat := 80

/-- Brackets and braces that are still open, the innermost first, each with what stood before it. -/
structure Pairing where
  opened : List (Char × List Tree)
  parts : List Tree

namespace Pairing

def enter (p : Pairing) (opener : Char) : Option Pairing :=
  if p.opened.length < nestingLimit then some ⟨(opener, p.parts) :: p.opened, []⟩ else none

def leave (p : Pairing) (opener : Char) (close : List Tree → Tree) : Option Pairing :=
  match p.opened with
  | (c, outer) :: opened =>
    if c = opener then some ⟨opened, close p.parts.reverse :: outer⟩ else none
  | [] => none

def push (p : Pairing) : Lexeme → Option Pairing
  | .char '[' => p.enter '['
  | .char '\x7b' => p.enter '\x7b'
  | .char ']' => p.leave '[' .brackets
  | .char '\x7d' => p.leave '\x7b' .braces
  | l => some ⟨p.opened, .lexeme l :: p.parts⟩

end Pairing

def trees? (lexemes : List Lexeme) : Option (List Tree) :=
  (lexemes.foldlM Pairing.push ⟨[], []⟩).bind fun p =>
    if p.opened.isEmpty then some p.parts.reverse else none

/-- A part of a line or of an item: a lexeme, or the value of what brackets or braces enclose. -/
inductive Piece where
  | lexeme (l : Lexeme)
  | value (v : Option Json)

namespace Piece

def isChar (p : Char → Bool) : Piece → Bool
  | .lexeme (.char c) => p c
  | _ => false

def char? : Piece → Option Char
  | .lexeme (.char c) => some c
  | _ => none

def isBlank : Piece → Bool := isChar fun c => c == ' ' || c == '\t'

def isSpace : Piece → Bool
  | .lexeme .newline => true
  | piece => piece.isBlank

end Piece

def isBareKeyChar (c : Char) : Bool := c.isAlphanum || c == '-' || c == '_'

def key? (pieces : List Piece) : Option String :=
  match trimmed Piece.isBlank pieces with
  | [.lexeme (.text s false)] => some s
  | pieces =>
    if !pieces.isEmpty && pieces.all (·.isChar isBareKeyChar) then
      some (String.ofList (pieces.filterMap Piece.char?))
    else none

def keyLimit : Nat := 80

def path? (pieces : List Piece) : Option (List String) :=
  let parts := cutAt (·.isChar (· == '.')) pieces
  if parts.length ≤ keyLimit then parts.mapM key? else none

def value? (pieces : List Piece) : Option Json :=
  match pieces with
  | [.value v] => v
  | [.lexeme (.text s _)] => some (.string s)
  | pieces => (pieces.mapM Piece.char?).bind scalar?

/-- A key and its value. Where lines do not count, the sign between them may stand on its own. -/
def assignment? (pieces : List Piece) : Option (List String × Json) :=
  match pieces.dropWhile (!·.isChar (· == '=')) with
  | [] => none
  | _ :: right => do
    let left := pieces.takeWhile (!·.isChar (· == '='))
    let path ← path? (trimmed Piece.isSpace left)
    some (path, ← value? (trimmed Piece.isSpace right))

/-- The items between commas; a comma may stand behind the last one too. -/
def items (pieces : List Piece) : List (List Piece) :=
  let items := (cutAt (·.isChar (· == ',')) pieces).map (trimmed Piece.isSpace)
  if items.getLast?.any List.isEmpty then items.dropLast else items

def arrayOf? (pieces : List Piece) : Option Json := ((items pieces).mapM value?).map .array

def tableOf? (pieces : List Piece) : Option Json := do
  let assignments ← (items pieces).mapM assignment?
  let members ← assignments.foldlM (fun m (path, v) => Members.assign v path m) []
  some (.object (Node.membersJson members))

mutual

def Tree.piece : Tree → Piece
  | .lexeme l => .lexeme l
  | .brackets parts => .value (arrayOf? (piecesOf parts))
  | .braces parts => .value (tableOf? (piecesOf parts))

def piecesOf : List Tree → List Piece
  | [] => []
  | tree :: rest => tree.piece :: piecesOf rest

end

namespace Tree

def isLineEnd : Tree → Bool
  | lexeme .newline => true
  | _ => false

def isBlank : Tree → Bool
  | lexeme l => (Piece.lexeme l).isBlank
  | _ => false

end Tree

/-- All that was read so far, and the header that assignments belong to. -/
structure Reading where
  header : List String
  root : Members

namespace Reading

def enterTable (r : Reading) (change : Option Node → Option Node) (parts : List Tree) :
    Option Reading := do
  let header ← path? (piecesOf parts)
  some ⟨header, ← Members.enter change header r.root⟩

def assign (r : Reading) (path : List String) (v : Json) : Option Reading :=
  if r.header.isEmpty then (Members.assign v path r.root).map (⟨[], ·⟩)
  else (Members.enter (Node.assigned? path v) r.header r.root).map (⟨r.header, ·⟩)

def addLine (r : Reading) (line : List Tree) : Option Reading :=
  match trimmed Tree.isBlank line with
  | [] => some r
  | [.brackets [.brackets parts]] => r.enterTable Node.element? parts
  | [.brackets parts] => r.enterTable Node.stated? parts
  | line => (assignment? (piecesOf line)).bind fun (path, v) => r.assign path v

end Reading

def read? (text : String) : Option Json := do
  let trees ← (lexemes? text).bind trees?
  let reading ← (cutAt Tree.isLineEnd trees).foldlM Reading.addLine ⟨[], []⟩
  some (.object (Node.membersJson reading.root))

end DelegateSafety.Toml
