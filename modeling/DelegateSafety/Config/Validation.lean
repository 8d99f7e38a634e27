import DelegateSafety.Checkers
import DelegateSafety.Text.Split

/-! # What is wrong with a configuration

All problems are found at once, in the order of the sections and their keys.
-/
namespace DelegateSafety

structure ConfigProblem where
  /-- The key, behind its section. -/
  field : String
  message : String
  deriving DecidableEq

namespace ConfigProblem

def line (p : ConfigProblem) : String := "  - " ++ p.field ++ ": " ++ p.message

/-- All problems, one per line. -/
def lines (problems : List ConfigProblem) : String := "\n".intercalate (problems.map line)

end ConfigProblem

/-- A problem if something is wrong. -/
def problemIf (wrong : Bool) (field message : String) : List ConfigProblem :=
  if wrong then [⟨field, message⟩] else []

def AnalysisSettings.problems (s : AnalysisSettings) : List ConfigProblem :=
  problemIf (s.maxPaths == 0) "analysis.max_paths_per_method" "must be at least 1"

def unknownCheckers (field : String) (names : List String) : List ConfigProblem :=
  names.flatMap fun name =>
    problemIf (!isKnownChecker name) field ("unknown checker '" ++ name ++ "'")

def CheckerSelection.problems (s : CheckerSelection) : List ConfigProblem :=
  unknownCheckers "checkers.enabled" s.enabled ++ unknownCheckers "checkers.disabled" s.disabled

def DelegateConfig.problems (c : DelegateConfig) : List ConfigProblem :=
  let mustNotBeEmpty := "must not be empty"
  problemIf (isBlankText c.teardownMethod) "dangling_delegate.teardown_method" mustNotBeEmpty ++
    problemIf (c.pseudoInitNames.any isBlankText) "dangling_delegate.pseudo_init_prefixes"
      "entries must not be empty" ++
    problemIf c.addTarget.isEmpty "dangling_delegate.add_target_prefix" mustNotBeEmpty ++
    problemIf c.removeTarget.isEmpty "dangling_delegate.remove_target_prefix" mustNotBeEmpty ++
    problemIf c.addObserver.isEmpty "dangling_delegate.add_observer_prefix" mustNotBeEmpty ++
    problemIf c.removeObserver.isEmpty "dangling_delegate.remove_observer_prefix" mustNotBeEmpty

def AnalyzerConfig.problems (c : AnalyzerConfig) : List ConfigProblem :=
  c.analysis.elim [] (·.problems) ++ c.checkers.elim [] (·.problems) ++
    c.delegate.elim [] (·.problems)

theorem AnalyzerConfig.problems_default : AnalyzerConfig.default.problems = [] := rfl

end DelegateSafety
