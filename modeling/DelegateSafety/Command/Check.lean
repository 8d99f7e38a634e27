import DelegateSafety.Command.Basic
import DelegateSafety.Config.Load
import DelegateSafety.Files.Path
import DelegateSafety.Program.Decode

/-! # Checking source units -/
namespace DelegateSafety

/-- The selection with other names to enable, if there are any, and more to disable. -/
def CheckerSelection.overriddenBy (s : CheckerSelection) (enable disable : List String) :
    CheckerSelection where
  enabled := if enable.isEmpty then s.enabled else enable
  disabled := disable.foldl
    (fun names name => if names.contains name then names else names ++ [name]) s.disabled

namespace CheckRequest

/-- The configuration with what the request says about checkers. -/
def override (request : CheckRequest) (config : AnalyzerConfig) : AnalyzerConfig :=
  if request.enable.isEmpty && request.disable.isEmpty then config
  else
    { config with
      checkers := some (config.checkerSelection.overriddenBy request.enable request.disable) }

def unknownChecker? (request : CheckRequest) : Option String :=
  (request.enable ++ request.disable).find? (!isKnownChecker ·)

/-- The unit that a file describes, given the file's text. -/
def unitOf (path : String) : Option String → Except Error SourceUnit
  | none => .error (.fileSystem ("cannot read " ++ path))
  | some text => SourceUnit.parse text path

variable {m : Type → Type} [Monad m]

def loadConfig (host : Host m) (request : CheckRequest) :
    ExceptT CommandError m AnalyzerConfig := do
  match request.config with
  | some path =>
    let text ← host.read? path
    MonadExcept.ofExcept
      ((AnalyzerConfig.ofFile path text).mapError (CommandError.badConfiguration path))
  | none =>
    let start ← host.currentDirectory
    let texts ← (AnalyzerConfig.candidates start).mapM fun path => host.read? path
    return .firstGood AnalyzerConfig.parse texts

def resolveConfig (host : Host m) (request : CheckRequest) :
    ExceptT CommandError m AnalyzerConfig := do
  let config ← request.loadConfig host
  match request.unknownChecker? with
  | some name => throw (.unknownChecker name)
  | none => return request.override config

/-- The findings of all inputs, up to the first that cannot be read. -/
def findings (host : Host m) (config : AnalyzerConfig) :
    List String → ExceptT CommandError m (List Diagnostic)
  | [] => return []
  | path :: rest => do
    let text ← host.read? path
    let unit ← MonadExcept.ofExcept ((unitOf path text).mapError (CommandError.badUnit path))
    return (config.analyze unit).diagnostics ++ (← findings host config rest)

def deliver (host : Host m) (request : CheckRequest) (report : String) :
    ExceptT CommandError m Unit := do
  match request.output with
  | none => host.print report
  | some path => if !(← host.write path report) then throw (.outputNotCreated path)

def run (host : Host m) (request : CheckRequest) : ExceptT CommandError m Unit := do
  let config ← request.resolveConfig host
  let found ← findings host config request.inputs
  request.deliver host (writeDiagnostics request.format host.colors found)
  if request.failOnFindings && !found.isEmpty then throw (.findings found.length)

end CheckRequest

end DelegateSafety
