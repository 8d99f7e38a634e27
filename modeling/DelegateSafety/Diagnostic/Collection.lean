import DelegateSafety.Diagnostic.Basic

/-! # Collected findings

A report that agrees with an earlier one in everything but the path is counted and dropped.
-/
namespace DelegateSafety

structure Collection where
  kept : List Diagnostic
  duplicates : Nat
  deriving DecidableEq

namespace Collection

def empty : Collection := ⟨[], 0⟩

def add (c : Collection) (d : Diagnostic) : Collection :=
  if c.kept.any (·.coalescingKey == d.coalescingKey) then { c with duplicates := c.duplicates + 1 }
  else { c with kept := c.kept ++ [d] }

def ofReports (reports : List Diagnostic) : Collection := reports.foldl add empty

@[simp] theorem ofReports_nil : ofReports [] = empty := rfl

theorem ofReports_append_singleton (reports : List Diagnostic) (d : Diagnostic) :
    ofReports (reports ++ [d]) = (ofReports reports).add d := by
  simp [ofReports]

end Collection

end DelegateSafety
