import DelegateSafety.Dangling.Facts

/-! # What a path has cleared -/
namespace DelegateSafety

/-- The ways back to `self` that have been cleared on the object in one field. -/
structure Cleared where
  properties : NameSet
  target : Bool
  observer : Bool
  deriving DecidableEq

namespace Cleared

def nothing : Cleared := ⟨∅, false, false⟩

def all (facts : FieldFacts) : Cleared :=
  ⟨facts.properties, facts.mayTargetSelf, facts.mayObserveSelf⟩

def clear (c : Cleared) (property : String) : Cleared :=
  { c with properties := c.properties.insert property }

def unclear (c : Cleared) (property : String) : Cleared :=
  { c with properties := c.properties.erase property }

def clearTarget (c : Cleared) : Cleared := { c with target := true }

def clearObserver (c : Cleared) : Cleared := { c with observer := true }

def meet (a b : Cleared) : Cleared :=
  ⟨a.properties.inter b.properties, a.target && b.target, a.observer && b.observer⟩

end Cleared

structure DelegateState where
  fields : NameMap Cleared
  /-- Whether the first callback of the path is past. -/
  isInitialized : Bool
  currentClass : Option String
  deriving DecidableEq

namespace DelegateState

def start : DelegateState := ⟨∅, false, none⟩

/-- What is cleared for a field. A field without an entry has had nothing cleared. -/
def field (s : DelegateState) (name : String) : Cleared := (s.fields.find? name).getD .nothing

def set (s : DelegateState) (name : String) (c : Cleared) : DelegateState :=
  { s with fields := s.fields.insert name c }

def update (s : DelegateState) (name : String) (f : Cleared → Cleared) : DelegateState :=
  s.set name (f (s.field name))

def begin (s : DelegateState) (className : String) : DelegateState :=
  { s with isInitialized := true, currentClass := some className }

def clearFields (s : DelegateState) (facts : List (String × FieldFacts)) : DelegateState :=
  facts.foldl (fun s entry => s.set entry.1 (.all entry.2)) s

/-- What two paths that come together have both cleared. -/
def meet (a b : DelegateState) : DelegateState where
  fields := a.fields.intersectWith Cleared.meet b.fields
  isInitialized := a.isInitialized && b.isInitialized
  currentClass := a.currentClass.or b.currentClass

@[simp] theorem field_start (name : String) : start.field name = .nothing := rfl

@[simp] theorem field_begin (s : DelegateState) (className name : String) :
    (s.begin className).field name = s.field name := rfl

@[simp] theorem field_set (s : DelegateState) (name other : String) (c : Cleared) :
    (s.set name c).field other = if other = name then c else s.field other := by
  by_cases h : other = name <;> simp [field, set, h]

@[simp] theorem field_update (s : DelegateState) (name other : String) (f : Cleared → Cleared) :
    (s.update name f).field other = if other = name then f (s.field other) else s.field other := by
  by_cases h : other = name <;> simp [update, h]

end DelegateState

end DelegateSafety
