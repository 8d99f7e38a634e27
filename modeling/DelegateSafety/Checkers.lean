import DelegateSafety.Dangling.Check
import DelegateSafety.Diagnostic.Collection
import DelegateSafety.Lint.OncePredicate
import DelegateSafety.Lint.RepeatedOperand
import DelegateSafety.Lint.RespondsToSelector

/-! # All checkers together -/
namespace DelegateSafety

structure CheckerInfo where
  name : String
  description : String
  deriving DecidableEq

def availableCheckers : List CheckerInfo :=
  [ ⟨danglingDelegateName,
      "Non-owning references to self left behind when a field's object is released"⟩,
    ⟨repeatedOperandName, "Boolean expressions repeating the same variable, e.g. x || x"⟩,
    ⟨oncePredicateName, "dispatch_once_t predicates without static storage"⟩,
    ⟨respondsToSelectorName,
      "respondsToSelector: checks guarding a possibly misspelled selector"⟩ ]

def isKnownChecker (name : String) : Bool := availableCheckers.any (·.name == name)

def lintRules : List LintRule := [repeatedOperandRule, oncePredicateRule, respondsToSelectorRule]

/-- The checkers that a selection leaves, in the order in which they run. -/
def CheckerSelection.names (s : CheckerSelection) : List String :=
  (availableCheckers.map (·.name)).filter s.isEnabled

structure Summary where
  file : String
  diagnostics : List Diagnostic
  duplicates : Nat
  exploration : Stats
  deriving DecidableEq

namespace AnalyzerConfig

variable (config : AnalyzerConfig) (unit : SourceUnit)

def subjectOf : Subject := .ofUnit unit config.analysisSettings.autoReleaseFields

/-- What the path-sensitive checker finds, before reports are coalesced. -/
def exploreUnit : Analysis Diagnostic :=
  (danglingDelegateCheck config.delegateConfig).run (config.subjectOf unit)
    config.analysisSettings.limits

/-- The part of an analysis that follows paths; nothing if its checker is not enabled. -/
def exploreIfEnabled : Analysis Diagnostic :=
  if config.checkerSelection.isEnabled danglingDelegateName then config.exploreUnit unit
  else ⟨0, []⟩

/-- What the enabled rules report, rule by rule. -/
def lintReports : List Diagnostic :=
  (lintRules.filter fun rule => config.checkerSelection.isEnabled rule.name).flatMap
    (·.run (config.subjectOf unit))

/-- What the enabled checkers report, in the order in which they run. -/
def rawReports : List Diagnostic :=
  (config.exploreIfEnabled unit).reports ++ config.lintReports unit

def analyze : Summary :=
  let explored := config.exploreIfEnabled unit
  let collected := Collection.ofReports (explored.reports ++ config.lintReports unit)
  ⟨unit.path, collected.kept, collected.duplicates, explored.stats⟩

end AnalyzerConfig

end DelegateSafety
