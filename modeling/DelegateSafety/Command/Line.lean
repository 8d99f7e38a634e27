import DelegateSafety.Command.Basic
import DelegateSafety.Text.Split

/-! # The command line

A setting that takes a value takes it from the same argument or from the next one. It is checked
only once the next setting or input comes up, or the line ends; an unknown argument is noticed
before that.
-/
namespace DelegateSafety.CommandLine

/-- Why a command line is not carried out. -/
inductive UsageError where
  | helpWanted | versionWanted
  | nothingGiven | missingCommand | unknownCommand
  | unknownArgument | invalidValue | tooManyValues
  | conflict
  | missingInput
  deriving DecidableEq

inductive Setting where
  | verbose | help | version | failOnFindings | force
  | config | format | output | enable | disable
  deriving DecidableEq

def Setting.takesValue : Setting → Bool
  | config | format | output | enable | disable => true
  | verbose | help | version | failOnFindings | force => false

/-- Where a setting may stand: before the command, or behind it. -/
inductive Scope where
  | program | check | listCheckers | init
  deriving DecidableEq

namespace Scope

def named? : String → Option Scope
  | "check" => some check
  | "list-checkers" => some listCheckers
  | "init" => some init
  | _ => none

def long? : Scope → String → Option Setting
  | _, "verbose" => some .verbose
  | _, "help" => some .help
  | program, "version" => some .version
  | check, "config" => some .config
  | check, "format" | listCheckers, "format" => some .format
  | check, "output" => some .output
  | check, "enable" => some .enable
  | check, "disable" => some .disable
  | check, "fail-on-findings" => some .failOnFindings
  | init, "force" => some .force
  | _, _ => none

def short? : Scope → Char → Option Setting
  | _, 'v' => some .verbose
  | _, 'h' => some .help
  | program, 'V' => some .version
  | check, 'c' => some .config
  | check, 'f' | listCheckers, 'f' => some .format
  | check, 'o' => some .output
  | _, _ => none

end Scope

/-- What was given last and is still to be checked. -/
inductive Pending where
  | nothing
  | setting (s : Setting) (value : Option String)
  | inputs (paths : List String)

structure Given where
  verbosity : Option Nat
  inputs : List String
  config : Option String
  format : Option OutputFormat
  output : Option String
  enable : List String
  disable : List String
  failOnFindings : Bool
  force : Bool
  pending : Pending

namespace Given

def nothing : Given := ⟨none, [], none, none, none, [], [], false, false, .nothing⟩

def nonempty (value : String) : Except UsageError String :=
  if value.isEmpty then .error .invalidValue else .ok value

def formatOf : String → Except UsageError OutputFormat
  | "json" => .ok .json
  | "terminal" => .ok .terminal
  | _ => .error .invalidValue

def once {α : Type} (old : Option α) (new : Except UsageError α) : Except UsageError (Option α) :=
  if old.isSome then .error .conflict else new.map some

def names (value : String) : List String := (cutAt (· == ',') value.toList).map String.ofList

def setValue (g : Given) (s : Setting) (value : String) : Except UsageError Given :=
  match s with
  | .config => (once g.config (nonempty value)).map fun config => { g with config }
  | .output => (once g.output (nonempty value)).map fun output => { g with output }
  | .format => (once g.format (formatOf value)).map fun format => { g with format }
  | .enable => .ok { g with enable := g.enable ++ names value }
  | .disable => .ok { g with disable := g.disable ++ names value }
  | .verbose | .help | .version | .failOnFindings | .force => .ok g

def settle (g : Given) : Except UsageError Given :=
  let settled := { g with pending := .nothing }
  match g.pending with
  | .nothing => .ok settled
  | .setting _ none => .error .invalidValue
  | .setting s (some value) => settled.setValue s value
  | .inputs paths =>
    if paths.any String.isEmpty then .error .invalidValue
    else .ok { settled with inputs := g.inputs ++ paths }

/-- The count of repetitions fills one byte at most. -/
def setFlag (g : Given) (s : Setting) : Except UsageError Given := do
  let g ← g.settle
  match s with
  | .verbose => return { g with verbosity := some (min 255 (g.verbosity.getD 0 + 1)) }
  | .help => throw .helpWanted
  | .version => throw .versionWanted
  | .failOnFindings =>
    if g.failOnFindings then throw .conflict else return { g with failOnFindings := true }
  | .force => if g.force then throw .conflict else return { g with force := true }
  | .config | .format | .output | .enable | .disable => return g

/-- A setting, with the value that came in the same argument. -/
def apply (g : Given) (s : Setting) (attached : Option String) : Except UsageError Given :=
  match s.takesValue, attached with
  | true, some value => g.settle.bind (·.setValue s value)
  | true, none => g.settle.map fun g => { g with pending := .setting s none }
  | false, some _ => .error .tooManyValues
  | false, none => g.setFlag s

def input (scope : Scope) (g : Given) (arg : String) : Except UsageError Given :=
  match scope, g.pending with
  | .check, .inputs paths => .ok { g with pending := .inputs (paths ++ [arg]) }
  | .check, _ => g.settle.map fun g => { g with pending := .inputs [arg] }
  | _, _ => .error .unknownArgument

def long (scope : Scope) (g : Given) (text : List Char) : Except UsageError Given :=
  let name := String.ofList (text.takeWhile (· != '='))
  let attached := match text.dropWhile (· != '=') with
    | [] => none
    | _ :: value => some (String.ofList value)
  match scope.long? name with
  | some s => g.apply s attached
  | none => .error .unknownArgument

/-- Settings of one letter each. The last one may have its value right behind it. -/
def letters (scope : Scope) (g : Given) : List Char → Except UsageError Given
  | [] => .ok g
  | c :: rest =>
    match scope.short? c with
    | none => .error .unknownArgument
    | some s =>
      if s.takesValue then
        match rest with
        | [] => g.apply s none
        | '=' :: value => g.apply s (some (String.ofList value))
        | value => g.apply s (some (String.ofList value))
      else (g.setFlag s).bind fun g => letters scope g rest

/-- An argument that is not taken as it stands. -/
def argument (scope : Scope) (g : Given) (arg : String) : Except UsageError Given :=
  match arg.toList, g.pending with
  | '-' :: '-' :: text, _ => g.long scope text
  | '-' :: c :: rest, _ => g.letters scope (c :: rest)
  | _, .setting s none => .ok { g with pending := .setting s (some arg) }
  | _, _ => g.input scope arg

/-- The arguments behind a command. Two dashes make inputs of all that follow. -/
def arguments (scope : Scope) (g : Given) : List String → Except UsageError Given
  | [] => g.settle
  | arg :: rest =>
    if arg = "--" then (rest.foldlM (input scope) g).bind settle
    else (g.argument scope arg).bind fun g => arguments scope g rest

def command (scope : Scope) (g : Given) : Except UsageError Command :=
  let format := g.format.getD .terminal
  match scope with
  | .program => .error .missingCommand
  | .listCheckers => .ok (.listCheckers format)
  | .init => .ok (.init g.force)
  | .check =>
    if g.inputs.isEmpty then .error .missingInput
    else .ok (.check ⟨g.inputs, g.config, format, g.output, g.enable, g.disable, g.failOnFindings⟩)

end Given

structure Invocation where
  verbosity : Nat
  command : Command
  deriving DecidableEq

def helpOn : List String → UsageError
  | [] => .helpWanted
  | [name] => if name = "help" || (Scope.named? name).isSome then .helpWanted else .unknownCommand
  | _ => .unknownCommand

/-- The command and what stands before it. Settings behind the command win. -/
def parseFrom (g : Given) : List String → Except UsageError Invocation
  | [] => .error (if g.verbosity.isSome then .missingCommand else .nothingGiven)
  | arg :: rest =>
    if arg = "--" then
      match rest with
      | [] => .error (if g.verbosity.isSome then .missingCommand else .nothingGiven)
      | name :: _ =>
        .error (if name = "help" || (Scope.named? name).isSome then .unknownArgument
          else .unknownCommand)
    else if arg = "help" then .error (helpOn rest)
    else
      match Scope.named? arg with
      | some scope => do
        let inner ← Given.nothing.arguments scope rest
        return ⟨(inner.verbosity <|> g.verbosity).getD 0, ← inner.command scope⟩
      | none =>
        match arg.toList with
        | '-' :: _ :: _ => (g.argument .program arg).bind fun g => parseFrom g rest
        | _ => .error .unknownCommand

def parse (args : List String) : Except UsageError Invocation := parseFrom .nothing args

end DelegateSafety.CommandLine
