import DelegateSafety.Diagnostic.Basic
import DelegateSafety.Exploration.Check

/-! # Rules that need no paths

Such a rule looks at each declaration and at each method body once.
-/
namespace DelegateSafety

inductive Declaration where
  | var (decl : VarDecl)
  | field (className : String) (decl : FieldDecl)
  | property (className : String) (decl : PropertyDecl)

namespace Declaration

def type : Declaration → TypeRef
  | var d => d.type
  | field _ d => d.type
  | property _ d => d.type

def range : Declaration → SourceRange
  | var d => d.range
  | field _ d => d.range
  | property _ d => d.range

def displayName : Declaration → String
  | var d => d.name
  | field className d => className ++ "." ++ d.name
  | property className d => className ++ "." ++ d.name

/-- Fields and properties live no longer than their object. -/
def hasStaticStorage : Declaration → Bool
  | var d => d.hasStaticStorage
  | field _ _ | property _ _ => false

end Declaration

structure CodeBody where
  className : String
  method : MethodDecl
  body : Stmt

def CodeBody.name (code : CodeBody) : String := methodName code.className code.method

structure LintRule where
  name : String
  onDecl : Subject → Declaration → List Diagnostic
  onBody : Subject → CodeBody → List Diagnostic

namespace LintRule

variable (rule : LintRule) (subject : Subject)

/-- A method's own variables come before its code. -/
def onMethod (className : String) (method : MethodDecl) : List Diagnostic :=
  method.body.elim [] fun body =>
    body.locals.flatMap (fun v => rule.onDecl subject (.var v)) ++
      rule.onBody subject ⟨className, method, body⟩

def onInterface (d : InterfaceDecl) : List Diagnostic :=
  d.fields.flatMap (fun f => rule.onDecl subject (.field d.name f)) ++
    d.properties.flatMap fun p => rule.onDecl subject (.property d.name p)

def onImplementation (d : ImplementationDecl) : List Diagnostic :=
  d.fields.flatMap (fun f => rule.onDecl subject (.field d.name f)) ++
    d.methods.flatMap (rule.onMethod subject d.name)

def run : List Diagnostic :=
  subject.unit.globals.flatMap (fun v => rule.onDecl subject (.var v)) ++
    subject.unit.interfaces.flatMap (rule.onInterface subject) ++
    subject.unit.implementations.flatMap (rule.onImplementation subject)

end LintRule

end DelegateSafety
