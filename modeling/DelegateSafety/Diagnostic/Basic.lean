import DelegateSafety.Json.Value
import DelegateSafety.Program.Decl

/-! # Findings -/
namespace DelegateSafety

/-- Where a finding was established. -/
inductive ReportContext where
  | declaration (decl : String)
  /-- At some point of an explored path. -/
  | path (className method : String) (path : Nat)
  deriving DecidableEq

/-- The same context for every path through a method. -/
def ReportContext.withoutPath : ReportContext → ReportContext
  | declaration decl => declaration decl
  | path className method _ => path className method 0

/-- What all reports of one kind share. -/
structure ReportKind where
  title : String
  category : String
  deriving DecidableEq

structure Diagnostic where
  checker : String
  title : String
  category : String
  message : String
  file : String
  range : SourceRange
  context : ReportContext
  deriving DecidableEq

namespace Diagnostic

def atDeclaration (checker : String) (kind : ReportKind) (file decl : String) (range : SourceRange)
    (message : String) : Diagnostic :=
  ⟨checker, kind.title, kind.category, message, file, range, .declaration decl⟩

/-- The place of a finding, as `line:column`. -/
def position (d : Diagnostic) : String :=
  toString d.range.start.line.toNat ++ ":" ++ toString d.range.start.column.toNat

def oneLine (d : Diagnostic) : String :=
  d.file ++ ":" ++ d.position ++ ": " ++ d.title ++ " [" ++ d.checker ++ "]: " ++ d.message

/-- What two reports have in common when only the first is kept. -/
def coalescingKey (d : Diagnostic) : String × SourceRange × String × ReportContext :=
  (d.checker, d.range, d.message, d.context.withoutPath)

end Diagnostic

/-- Name of a method in reports: `-[Foo dealloc]`, or `+[Foo shared]` for a class method. -/
def methodName (className : String) (method : MethodDecl) : String :=
  match method.kind with
  | .instanceMethod => "-[" ++ className ++ " " ++ method.selector ++ "]"
  | .classMethod => "+[" ++ className ++ " " ++ method.selector ++ "]"

end DelegateSafety
