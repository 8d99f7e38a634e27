import DelegateSafety.Lint.Rule

/-! # Predicates of one-time code

`dispatch_once` needs a predicate that lives as long as the process.
-/
namespace DelegateSafety

def oncePredicateName : String := "semantic.DispatchOnceStorage"

def nonStaticPredicate : ReportKind :=
  ⟨"Non-Global/Static variable for dispatch_once_t", "Semantic error"⟩

def shortLivedMessage : String :=
  "Using an instance variable or local variable as the predicate passed to " ++
    "dispatch_once/dispatch_once_f causes undefined behavior. Please use a statically " ++
    "allocated dispatch_once_t instead"

def isShortLivedPredicate (d : Declaration) : Bool :=
  d.type.spelling == "dispatch_once_t" && !d.hasStaticStorage

def oncePredicateRule : LintRule where
  name := oncePredicateName
  onDecl subject d :=
    if isShortLivedPredicate d then
      [.atDeclaration oncePredicateName nonStaticPredicate subject.unit.path d.displayName d.range
        shortLivedMessage]
    else []
  onBody _ _ := []

end DelegateSafety
