import DelegateSafety.Config.Json
import DelegateSafety.Config.Validation
import DelegateSafety.Error
import DelegateSafety.Files.Path
import DelegateSafety.Toml.Document

/-! # Configuration files

A file that somebody names has to be good. Files that are only found are tried from the nearest
directory upwards, and the first good one counts.
-/
namespace DelegateSafety

def configFileName : String := ".delegatecheck.toml"

/-- In how many directories a file is looked for. -/
def searchDepth : Nat := 10

namespace AnalyzerConfig

/-- The configuration that a text states, if nothing is wrong with it. -/
def parse (text : String) : Except Error AnalyzerConfig :=
  match (Toml.read? text).bind ofJson? with
  | none =>
    .error (.configuration ("Failed to parse " ++ configFileName ++ ": not a configuration"))
  | some config =>
    if config.problems.isEmpty then .ok config
    else .error (.validation (toString config.problems.length ++
      " problem(s) in configuration:\n" ++ ConfigProblem.lines config.problems))

theorem problems_of_parse {text : String} {config : AnalyzerConfig} (h : parse text = .ok config) :
    config.problems = [] := by
  unfold parse at h
  split at h
  · cases h
  · split at h
    · cases h
      simpa using ‹config.problems.isEmpty = true›
    · cases h

/-- The configuration of a file that was asked for, given the file's text. -/
def ofFile (path : String) : Option String → Except Error AnalyzerConfig
  | none => .error (.fileSystem ("cannot read config " ++ path))
  | some text => (parse text).mapError (.inContext path)

/-- The first good configuration among texts, or else the default. -/
def firstGood (parse : String → Except Error AnalyzerConfig) (texts : List (Option String)) :
    AnalyzerConfig :=
  (texts.findSome? fun text => text.bind fun t => (parse t).toOption).getD default

theorem firstGood_cons (parse : String → Except Error AnalyzerConfig) (text : Option String)
    (rest : List (Option String)) :
    firstGood parse (text :: rest) =
      (text.bind fun t => (parse t).toOption).getD (firstGood parse rest) := by
  cases h : text.bind fun t => (parse t).toOption <;> simp [firstGood, h]

/-- Where a configuration is looked for, the nearest place first. -/
def candidates (start : String) : List String :=
  (FilePath.ancestors searchDepth start).map (FilePath.inside · configFileName)

/-- The configuration for a directory, given the text of each file. -/
def discover (parse : String → Except Error AnalyzerConfig) (read? : String → Option String)
    (start : String) : AnalyzerConfig :=
  firstGood parse ((candidates start).map read?)

end AnalyzerConfig

end DelegateSafety
