import DelegateSafety.Names.Set

/-! # Facts about a class

What the methods of a class, taken together, may do with `self`. Facts are what is left of a list of
observations once order and repetition are forgotten.
-/
namespace DelegateSafety

/-- Ways in which the object in one field may come to refer to `self`. -/
structure FieldFacts where
  /-- Its properties without ownership that `self` is stored into. -/
  properties : NameSet
  mayTargetSelf : Bool
  mayObserveSelf : Bool
  deriving DecidableEq

namespace FieldFacts

def none : FieldFacts := ⟨∅, false, false⟩

def isEmpty (f : FieldFacts) : Bool :=
  f.properties.isEmpty && !f.mayTargetSelf && !f.mayObserveSelf

end FieldFacts

structure ClassFacts where
  fields : NameMap FieldFacts
  pseudoInits : NameSet
  hasTeardown : Bool
  /-- Methods that register `self` with an object shared by the whole process, by that object. -/
  sharedObservers : NameMap NameSet
  deriving DecidableEq

inductive Observation where
  | property (field property : String)
  | target (field : String)
  | observer (field : String)
  | shared (singleton method : String)
  | pseudoInit (method : String)
  | teardown
  deriving DecidableEq

namespace ClassFacts

def empty : ClassFacts := ⟨∅, ∅, false, ∅⟩

def field? (facts : ClassFacts) (field : String) : Option FieldFacts := facts.fields.find? field

/-- Whether the object in a field may come to refer to `self` at all. -/
def isInteresting (facts : ClassFacts) (field : String) : Bool := facts.fields.contains field

def hasInterestingFields (facts : ClassFacts) : Bool := !facts.fields.isEmpty

def isPseudoInit (facts : ClassFacts) (method : String) : Bool := method ∈ facts.pseudoInits

def updateField (facts : ClassFacts) (field : String) (f : FieldFacts → FieldFacts) : ClassFacts :=
  { facts with fields := facts.fields.insert field (f ((facts.field? field).getD .none)) }

def record (facts : ClassFacts) : Observation → ClassFacts
  | .property field property =>
    facts.updateField field fun f => { f with properties := f.properties.insert property }
  | .target field => facts.updateField field fun f => { f with mayTargetSelf := true }
  | .observer field => facts.updateField field fun f => { f with mayObserveSelf := true }
  | .shared singleton method =>
    let methods := (facts.sharedObservers.find? singleton).getD ∅
    { facts with sharedObservers := facts.sharedObservers.insert singleton (methods.insert method) }
  | .pseudoInit method => { facts with pseudoInits := facts.pseudoInits.insert method }
  | .teardown => { facts with hasTeardown := true }

def ofObservations (observations : List Observation) : ClassFacts := observations.foldl record empty

end ClassFacts

abbrev FactsByClass := NameMap ClassFacts

def FactsByClass.insertIfAbsent (known : FactsByClass) (className : String) (facts : ClassFacts) :
    FactsByClass :=
  if known.contains className then known else known.insert className facts

end DelegateSafety
