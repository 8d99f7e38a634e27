import DelegateSafety.Dangling.Check
import DelegateSafety.Sample.Build

/-! # Small source units

A class `Foo` with a field of class `Bar`, whose delegate is not owned.
-/
namespace DelegateSafety.Sample

def barInterface : InterfaceDecl where
  name := "Bar"
  superclass := some "NSObject"
  fields := []
  properties := [property "delegate" .id .assign, property "dataSource" .id .assign,
    property "owner" .id .weak, property "title" (.object "NSString") .copy]
  methods := []
  range := .unknown

def subBarInterface : InterfaceDecl := ⟨"SubBar", some "Bar", [], [], [], .unknown⟩

def fooInterface : InterfaceDecl where
  name := "Foo"
  superclass := some "NSObject"
  fields := [⟨"_bar", .object "Bar", .ofLine 4⟩]
  properties := [backedProperty "bar" (.object "Bar") .strong]
  methods := []
  range := .unknown

/-- Fields are released by themselves. -/
def delegatePair (methods : List MethodDecl) : SourceUnit where
  path := "Foo.m"
  lang := ⟨true⟩
  interfaces := [barInterface, subBarInterface, fooInterface]
  implementations := [⟨"Foo", [], methods, .ofLine 10⟩]
  globals := []

/-- Fields are released by hand. -/
def manualReleasePair (methods : List MethodDecl) : SourceUnit :=
  { delegatePair methods with lang := ⟨false⟩ }

/-- The implementation declares one more field, of a subclass of `Bar`. -/
def twoFieldPair (methods : List MethodDecl) : SourceUnit :=
  { delegatePair methods with
    implementations := [⟨"Foo", [⟨"_sub", .object "SubBar", .ofLine 11⟩], methods, .ofLine 10⟩] }

/-- The method of `Foo` at a place in the implementation. -/
def fooFrame (unit : SourceUnit) (i : Nat) : Frame :=
  ⟨.ofUnit unit none, "Foo",
    ((unit.implementations.flatMap (·.methods))[i]?).getD (method "" [])⟩

/-- The facts of all classes under the default configuration. -/
def knownFacts (unit : SourceUnit) : FactsByClass :=
  ((danglingDelegateCheck .default).scanAll (.ofUnit unit none) ∅ unit.implementations).1

def fooFacts (unit : SourceUnit) : ClassFacts := ((knownFacts unit).find? "Foo").getD .empty

end DelegateSafety.Sample
