import DelegateSafety.Program.Lookup

/-! # Types seen from inside a class

Within the methods of one class `self` has a type, and with it fields, accessors and what they
return.
-/
namespace DelegateSafety

structure ClassScope where
  unit : SourceUnit
  className : String

namespace ClassScope

def field? (scope : ClassScope) (name : String) : Option FieldDecl :=
  scope.unit.findField? scope.className name

/-- A send without arguments that could read a property. -/
def isGetterShape (m : Message α) : Bool := m.args.isEmpty && !m.selector.contains ':'

/-- The declared type of an expression, as far as declarations tell. -/
def staticType? (scope : ClassScope) : Expr → Option TypeRef
  | .paren inner _ => scope.staticType? inner
  | .cast (.object name) _ _ => some (.object name)
  | .cast _ inner _ => scope.staticType? inner
  | .self _ => some (.object scope.className)
  | .field name _ => (scope.field? name).map (·.type)
  | .var _ type _ => type
  | .send ⟨.object target, selector, args⟩ _ =>
    if isGetterShape (⟨.object target, selector, args⟩ : Message Expr) then
      ((scope.staticType? target).bind (·.className?)).bind fun className =>
        (scope.unit.findProperty? className selector).map (·.type)
    else none
  | .send ⟨.super, selector, args⟩ _ =>
    if isGetterShape (⟨.super, selector, args⟩ : Message Expr) then
      (scope.unit.superclass? scope.className).bind fun className =>
        (scope.unit.findProperty? className selector).map (·.type)
    else none
  | _ => none

/-- The class of the object that a message is sent to. -/
def receiverClass? (scope : ClassScope) : Receiver Expr → Option String
  | .object target => (scope.staticType? target).bind (·.className?)
  | .super => scope.unit.superclass? scope.className
  | .named _ => none

/-- The property that a send without arguments reads. -/
def getter? (scope : ClassScope) (m : Message Expr) : Option PropertyDecl :=
  if isGetterShape m then
    (scope.receiverClass? m.receiver).bind (scope.unit.findProperty? · m.selector)
  else none

/-- The property that a send with one argument writes. -/
def setter? (scope : ClassScope) (m : Message Expr) : Option PropertyDecl :=
  if m.args.length = 1 then
    (scope.receiverClass? m.receiver).bind (scope.unit.findPropertyBySetter? · m.selector)
  else none

theorem staticType?_send (scope : ClassScope) (m : Message Expr) (r : SourceRange) :
    scope.staticType? (.send m r) = (scope.getter? m).map (·.type) := by
  obtain ⟨receiver, selector, args⟩ := m
  simp only [getter?]
  cases receiver with
  | object _ | super =>
    simp only [staticType?]
    split
    · exact (Option.map_bind ..).symm
    · rfl
  | named _ => split <;> rfl

/-- The implementation that a send resolves to. -/
def definition? (scope : ClassScope) (m : Message Expr) : Option MethodDecl :=
  (scope.receiverClass? m.receiver).bind (scope.unit.findMethod? · m.selector)

end ClassScope

end DelegateSafety
