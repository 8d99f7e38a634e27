import DelegateSafety.Dangling.State
import DelegateSafety.Diagnostic.Basic

/-! # Reporting what was left behind -/
namespace DelegateSafety

def leakingSelf : ReportKind := ⟨"Leaking unsafe reference to self", "Memory error"⟩

/-- The dangerous properties that were not cleared, by name. -/
def leftovers (dangerous cleared : NameSet) : List String :=
  dangerous.toList.filter (· ∉ cleared)

theorem mem_leftovers {dangerous cleared : NameSet} {property : String} :
    property ∈ leftovers dangerous cleared ↔ property ∈ dangerous.toList ∧ property ∉ cleared := by
  simp [leftovers]

def leftoverMessage (field property : String) (type : Option TypeRef) (decl : Option String) :
    String :=
  let location := decl.elim "" fun name => " (in " ++ name ++ ")"
  let holder := (type.bind (·.className?)).elim "object" fun name => "instance of " ++ name
  let place := field ++ "." ++ property
  "Leaking unsafe reference to self stored in " ++ place ++ location ++
    ". The assign property '" ++ property ++ "' of the " ++ holder ++ " stored in '" ++ field ++
    "' appears to occasionally point to self. For memory safety, you need to clear this " ++
    "property explicitly before losing reference to this object, typically by adding a line: '" ++
    place ++ " = nil;'. In case of a false warning, consider adding an assert instead: 'assert(" ++
    place ++ " != self);' or, if applicable: 'assert(!" ++ field ++ ");'."

/-- One message for each property left behind. -/
def leftoverMessages (dangerous cleared : NameSet) (field : String) (type : Option TypeRef)
    (decl : Option String) : List String :=
  (leftovers dangerous cleared).map (leftoverMessage field · type decl)

end DelegateSafety
