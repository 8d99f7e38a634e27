import DelegateSafety.Diagnostic.Basic
import DelegateSafety.Json.Print
import DelegateSafety.Program.Encode
import DelegateSafety.Text.Style

/-! # Writing findings -/
namespace DelegateSafety

inductive OutputFormat where
  | json | terminal
  deriving DecidableEq

def ReportContext.toJson : ReportContext → Json
  | declaration decl => .object [("kind", .string "declaration"), ("decl", .string decl)]
  | path className method id =>
    .object [("kind", .string "path"), ("class", .string className), ("method", .string method),
      ("path", .ofNat id)]

namespace Diagnostic

def toJson (d : Diagnostic) : Json :=
  .object [("checker", .string d.checker), ("title", .string d.title),
    ("category", .string d.category), ("message", .string d.message), ("file", .string d.file),
    ("range", d.range.toJson), ("context", d.context.toJson)]

def toTerminal (color : Bool) (d : Diagnostic) : String :=
  let origin := match d.context with
    | .declaration decl => "in " ++ decl
    | .path className method _ => "in -[" ++ className ++ " " ++ method ++ "]"
  d.file ++ ":" ++ d.position ++ ": " ++ Style.boldYellow.paint color "warning" ++ ": " ++
    Style.bold.paint color d.title ++ " [" ++ Style.dimmed.paint color d.checker ++ "]\n  " ++
    d.category ++ " (" ++ origin ++ ")\n  " ++ d.message ++ "\n\n"

end Diagnostic

/-- The line below all findings. -/
def findingsSummary (color : Bool) : Nat → String
  | 0 => Style.green.paint color "No issues found"
  | 1 => Style.yellow.paint color "1 issue found"
  | n => Style.yellow.paint color (toString n ++ " issues found")

def writeDiagnostics (format : OutputFormat) (color : Bool) (ds : List Diagnostic) : String :=
  match format with
  | .json =>
    (Json.object [("count", .ofNat ds.length), ("diagnostics", .array (ds.map (·.toJson)))]).pretty
      ++ "\n"
  | .terminal =>
    String.join (ds.map (·.toTerminal color)) ++ findingsSummary color ds.length ++ "\n"

end DelegateSafety
