import DelegateSafety.Diagnostic.Write
import DelegateSafety.Error

/-! # Commands -/
namespace DelegateSafety

structure CheckRequest where
  inputs : List String
  /-- A configuration file to be used in place of the one that would be found. -/
  config : Option String
  format : OutputFormat
  /-- Where the report goes, if it is not to be printed. -/
  output : Option String
  enable : List String
  disable : List String
  failOnFindings : Bool
  deriving DecidableEq

inductive Command where
  | check (request : CheckRequest)
  | listCheckers (format : OutputFormat)
  | init (force : Bool)
  deriving DecidableEq

/-- Why a command failed. -/
inductive CommandError where
  | badConfiguration (path : String) (cause : Error)
  | unknownChecker (name : String)
  | badUnit (path : String) (cause : Error)
  | outputNotCreated (path : String)
  | findings (count : Nat)
  | configExists
  | configNotWritten (path : String)
  deriving DecidableEq

namespace CommandError

def message : CommandError → String
  | badConfiguration path _ => "Failed to load configuration " ++ path
  | unknownChecker name =>
    "Unknown checker '" ++ name ++ "'. Run \x60delegatecheck list-checkers\x60 to see the " ++
      "available names."
  | badUnit path _ => "Failed to load translation unit " ++ path
  | outputNotCreated path => "Failed to create output file " ++ path
  | findings count => toString count ++ " issue(s) reported"
  | configExists => "Configuration file already exists. Use --force to overwrite."
  | configNotWritten path => "Failed to write " ++ path

def cause? : CommandError → Option Error
  | badConfiguration _ cause | badUnit _ cause => some cause
  | _ => none

end CommandError

end DelegateSafety
