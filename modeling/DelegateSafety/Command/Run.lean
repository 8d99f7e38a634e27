import DelegateSafety.Command.Check
import DelegateSafety.Command.Init
import DelegateSafety.Command.Line

/-! # Running commands -/
namespace DelegateSafety

def CheckerInfo.toJson (c : CheckerInfo) : Json :=
  .object [("name", .string c.name), ("description", .string c.description)]

def padTo (width : Nat) (text : String) : String :=
  text ++ String.ofList (List.replicate (width - text.length) ' ')

/-- A list of checkers: an array, or a line for each with the names in a column. -/
def writeCheckers (format : OutputFormat) (color : Bool) (checkers : List CheckerInfo) : String :=
  match format with
  | .json => (Json.array (checkers.map (·.toJson))).pretty ++ "\n"
  | .terminal =>
    let width := checkers.foldl (fun n c => max n c.name.length) 0
    String.join (checkers.map fun c =>
      Style.bold.paint color (padTo width c.name) ++ "  " ++ c.description ++ "\n")

def Command.run {m : Type → Type} [Monad m] (host : Host m) :
    Command → ExceptT CommandError m Unit
  | check request => request.run host
  | listCheckers format => host.print (writeCheckers format host.colors availableCheckers)
  | init force => initConfig host force

def versionText : String := "delegatecheck 0.3.0\n"

def helpText : String := "\n".intercalate [
  "Static checker for dangling delegate references in Objective-C",
  "",
  "Usage: delegatecheck [OPTIONS] <COMMAND>",
  "",
  "Commands:",
  "  check          Run the enabled checkers over exported translation units",
  "  list-checkers  List the available checkers",
  "  init           Write a default .delegatecheck.toml into the current directory",
  "  help           Print this message",
  "",
  "Options of check:",
  "  -c, --config <CONFIG>    Configuration file (defaults to the nearest .delegatecheck.toml)",
  "  -f, --format <FORMAT>    Output format: json or terminal (also of list-checkers)",
  "  -o, --output <OUTPUT>    Output file (defaults to stdout)",
  "      --enable <ENABLE>    Run only these checkers",
  "      --disable <DISABLE>  Never run these checkers",
  "      --fail-on-findings   Exit with a non-zero status when anything is reported",
  "",
  "Options of init:",
  "      --force              Overwrite an existing file",
  "",
  "Options:",
  "  -v, --verbose            Increase log verbosity (can be repeated: -v, -vv)",
  "  -h, --help               Print help",
  "  -V, --version            Print version",
  ""]

/-- How a run of the program ended. -/
inductive Outcome where
  | done
  | misused (e : CommandLine.UsageError)
  | failed (e : CommandError)
  deriving DecidableEq

def Outcome.status : Outcome → Nat
  | done => 0
  | failed _ => 1
  | misused _ => 2

/-- Carries out a command line. Asking for help is no misuse. -/
def runLine {m : Type → Type} [Monad m] (host : Host m) (args : List String) : m Outcome := do
  match CommandLine.parse args with
  | .error .helpWanted => host.print helpText; return .done
  | .error .versionWanted => host.print versionText; return .done
  | .error e => return .misused e
  | .ok invocation =>
    match ← invocation.command.run host with
    | .ok () => return .done
    | .error e => return .failed e

end DelegateSafety
