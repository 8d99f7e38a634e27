import DelegateSafety.Exploration.Paths
import DelegateSafety.Text.Lowercase
import DelegateSafety.Text.Split

/-! # Configuration

Every section may be left out, and then has its defaults.
-/
namespace DelegateSafety

structure AnalysisSettings where
  maxPaths : Nat
  maxLoopUnroll : Nat
  /-- Takes the place of the language options of each source unit. -/
  autoReleaseFields : Option Bool
  deriving DecidableEq

namespace AnalysisSettings

def default : AnalysisSettings := ⟨512, 2, none⟩

def limits (s : AnalysisSettings) : Limits := ⟨s.maxPaths, s.maxLoopUnroll⟩

end AnalysisSettings

structure CheckerSelection where
  /-- If there are any, only these run. -/
  enabled : List String
  disabled : List String
  deriving DecidableEq

namespace CheckerSelection

def default : CheckerSelection := ⟨[], []⟩

def isEnabled (s : CheckerSelection) (name : String) : Bool :=
  (s.enabled.isEmpty || s.enabled.contains name) && !s.disabled.contains name

end CheckerSelection

/-- A class method that returns an instance shared by the whole process. -/
structure SingletonAccessor where
  className : String
  selector : String
  deriving DecidableEq

structure DelegateConfig where
  /-- Methods whose names begin so are set-up code, whatever the case of the letters. -/
  pseudoInitNames : List String
  teardownMethod : String
  releaseSelectors : List String
  addTarget : String
  removeTarget : String
  addObserver : String
  removeObserver : String
  singletonAccessors : List SingletonAccessor
  /-- Takes a comparison that guards a branch as proof that the branch is safe. -/
  assumeSafeBranch : Bool
  /-- Lets values go that are known to be nil. -/
  suppressIfNull : Bool
  deriving DecidableEq

namespace DelegateConfig

def default : DelegateConfig where
  pseudoInitNames := ["setup", "_setup", "load", "_load", "viewdidload", "_viewdidload"]
  teardownMethod := "dealloc"
  releaseSelectors := ["release", "autorelease"]
  addTarget := "addTarget:"
  removeTarget := "removeTarget:"
  addObserver := "addObserver:"
  removeObserver := "removeObserver:"
  singletonAccessors := [⟨"NSNotificationCenter", "defaultCenter"⟩]
  assumeSafeBranch := true
  suppressIfNull := true

def isPseudoInitName (c : DelegateConfig) (method : String) : Bool :=
  c.pseudoInitNames.any fun name => beginsWith (lowercase method) (lowercase name)

def isReleaseSelector (c : DelegateConfig) (selector : String) : Bool :=
  c.releaseSelectors.contains selector

end DelegateConfig

structure AnalyzerConfig where
  analysis : Option AnalysisSettings
  checkers : Option CheckerSelection
  delegate : Option DelegateConfig
  deriving DecidableEq

namespace AnalyzerConfig

def default : AnalyzerConfig := ⟨none, none, none⟩

def analysisSettings (c : AnalyzerConfig) : AnalysisSettings := c.analysis.getD .default

def checkerSelection (c : AnalyzerConfig) : CheckerSelection := c.checkers.getD .default

def delegateConfig (c : AnalyzerConfig) : DelegateConfig := c.delegate.getD .default

end AnalyzerConfig

end DelegateSafety
