import DelegateSafety.Program.Decl

/-! # Looking declarations up

Of two declarations of one name the later one counts. Inherited members are found along the chain
of superclasses; a chain that comes back to a class it has passed ends there.
-/
namespace DelegateSafety

/-- The last declaration of a class name. -/
def findInterface? (decls : List InterfaceDecl) (name : String) : Option InterfaceDecl :=
  decls.reverse.find? (·.name == name)

theorem findInterface?_mem {decls : List InterfaceDecl} {name : String} {d : InterfaceDecl}
    (h : findInterface? decls name = some d) : d ∈ decls ∧ d.name = name :=
  ⟨List.mem_reverse.mp (List.mem_of_find?_eq_some h), by simpa using List.find?_some h⟩

def otherInterfaces (decls : List InterfaceDecl) (name : String) : List InterfaceDecl :=
  decls.filter (·.name != name)

theorem length_otherInterfaces_lt {decls : List InterfaceDecl} {name : String}
    {d : InterfaceDecl} (h : findInterface? decls name = some d) :
    (otherInterfaces decls name).length < decls.length := by
  obtain ⟨mem, named⟩ := findInterface?_mem h
  exact List.length_filter_lt_length_iff_exists.mpr ⟨d, mem, by simp [named]⟩

/-- The interfaces of a class and its ancestors, nearest first. A class is taken out of `decls`
once it is passed, so no class is met twice. -/
def lineageIn (decls : List InterfaceDecl) (name : String) : List InterfaceDecl :=
  match _h : findInterface? decls name with
  | none => []
  | some d => d :: match d.superclass with
    | none => []
    | some parent => lineageIn (otherInterfaces decls name) parent
termination_by decls.length
decreasing_by exact length_otherInterfaces_lt _h

theorem lineageIn_of_none {decls : List InterfaceDecl} {name : String}
    (h : findInterface? decls name = none) : lineageIn decls name = [] := by
  rw [lineageIn]
  split
  · rfl
  · simp_all

theorem lineageIn_of_some {decls : List InterfaceDecl} {name : String} {d : InterfaceDecl}
    (h : findInterface? decls name = some d) :
    lineageIn decls name = d :: match d.superclass with
      | none => []
      | some parent => lineageIn (otherInterfaces decls name) parent := by
  rw [lineageIn]
  split
  · simp_all
  · rename_i found
    obtain rfl : d = _ := Option.some.inj (h.symm.trans found)
    rfl

def MethodDecl.isInstanceMethod (m : MethodDecl) (selector : String) : Bool :=
  m.kind == .instanceMethod && m.selector == selector

def InterfaceDecl.property? (d : InterfaceDecl) (name : String) : Option PropertyDecl :=
  d.properties.find? (·.name == name)

def InterfaceDecl.propertyBySetter? (d : InterfaceDecl) (selector : String) :
    Option PropertyDecl :=
  d.properties.find? (·.setter == selector)

def InterfaceDecl.field? (d : InterfaceDecl) (name : String) : Option FieldDecl :=
  d.fields.find? (·.name == name)

/-- Whether a class's own interface says that its instances respond to a selector. -/
def InterfaceDecl.declares (d : InterfaceDecl) (selector : String) : Bool :=
  d.methods.any (fun m => m.kind == .instanceMethod && m.selector == selector) ||
    d.properties.any fun p => p.name == selector || p.setter == selector

def ImplementationDecl.field? (d : ImplementationDecl) (name : String) : Option FieldDecl :=
  d.fields.find? (·.name == name)

def ImplementationDecl.instanceMethod? (d : ImplementationDecl) (selector : String) :
    Option MethodDecl :=
  d.methods.find? (·.isInstanceMethod selector)

namespace SourceUnit

def interface? (unit : SourceUnit) (name : String) : Option InterfaceDecl :=
  findInterface? unit.interfaces name

def implementation? (unit : SourceUnit) (name : String) : Option ImplementationDecl :=
  unit.implementations.reverse.find? (·.name == name)

def superclass? (unit : SourceUnit) (name : String) : Option String :=
  (unit.interface? name).bind (·.superclass)

def lineage (unit : SourceUnit) (name : String) : List InterfaceDecl :=
  lineageIn unit.interfaces name

/-- The names of a class and its ancestors, with or without an interface of their own. -/
def ancestry (unit : SourceUnit) (name : String) : List String :=
  name :: (unit.lineage name).filterMap (·.superclass)

def findProperty? (unit : SourceUnit) (className property : String) : Option PropertyDecl :=
  (unit.lineage className).findSome? (·.property? property)

def findPropertyBySetter? (unit : SourceUnit) (className selector : String) :
    Option PropertyDecl :=
  (unit.lineage className).findSome? (·.propertyBySetter? selector)

/-- A field of a class: the implementation's own fields come before the inherited ones. -/
def findField? (unit : SourceUnit) (className field : String) : Option FieldDecl :=
  ((unit.implementation? className).bind (·.field? field)).or
    ((unit.lineage className).findSome? (·.field? field))

def findMethod? (unit : SourceUnit) (className selector : String) : Option MethodDecl :=
  (unit.ancestry className).findSome? fun name =>
    (unit.implementation? name).bind (·.instanceMethod? selector)

/-- Whether instances of a class are known to respond to a selector. -/
def declaresMethod (unit : SourceUnit) (className selector : String) : Bool :=
  (unit.lineage className).any (·.declares selector) || (unit.findMethod? className selector).isSome

end SourceUnit

end DelegateSafety
