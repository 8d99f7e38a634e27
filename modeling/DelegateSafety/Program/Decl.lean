import DelegateSafety.Program.Stmt

/-! # Declarations

Classes as they are declared and implemented in one source unit, and the naming conventions
that tie properties and methods together.
-/
namespace DelegateSafety

/-- What a property's setter does with the reference it stores. -/
inductive Ownership where
  | strong | copy
  /-- Not owned, and cleared when the object goes away. -/
  | weak
  /-- Not owned, and left as it is when the object goes away. -/
  | assign
  deriving DecidableEq

def Ownership.isUnsafe : Ownership → Bool
  | assign => true
  | strong | copy | weak => false

structure FieldDecl where
  name : String
  type : TypeRef
  range : SourceRange
  deriving DecidableEq

structure PropertyDecl where
  name : String
  type : TypeRef
  ownership : Ownership
  backingField : Option String
  range : SourceRange
  deriving DecidableEq

/-- The conventional setter of a property: `setDelegate:` for `delegate`. -/
def setterSelector (property : String) : String :=
  match property.toList with
  | [] => ""
  | first :: rest => "set" ++ String.ofList (first.toUpper :: rest) ++ ":"

def PropertyDecl.setter (p : PropertyDecl) : String := setterSelector p.name

inductive MethodKind where
  | instanceMethod | classMethod
  deriving DecidableEq

structure MethodSignature where
  selector : String
  kind : MethodKind
  deriving DecidableEq

structure InterfaceDecl where
  name : String
  superclass : Option String
  fields : List FieldDecl
  properties : List PropertyDecl
  methods : List MethodSignature
  range : SourceRange
  deriving DecidableEq

structure ParamDecl where
  name : String
  type : TypeRef
  deriving DecidableEq

structure MethodDecl where
  selector : String
  kind : MethodKind
  params : List ParamDecl
  body : Option Stmt
  /-- Generated, like the accessors of a property. -/
  implicit : Bool
  range : SourceRange

def MethodDecl.isExplicit (m : MethodDecl) : Bool := !m.implicit && m.body.isSome

/-- Whether the first word of a selector is `init`, leading underscores aside. -/
def isInitSelector (selector : String) : Bool :=
  match selector.toList.dropWhile (· == '_') with
  | 'i' :: 'n' :: 'i' :: 't' :: rest => !rest.head?.any Char.isLower
  | _ => false

structure ImplementationDecl where
  name : String
  fields : List FieldDecl
  methods : List MethodDecl
  range : SourceRange

structure LangOptions where
  /-- Fields are released by themselves when their object is torn down. -/
  autoReleaseFields : Bool
  deriving DecidableEq

structure SourceUnit where
  path : String
  lang : LangOptions
  interfaces : List InterfaceDecl
  implementations : List ImplementationDecl
  globals : List VarDecl

end DelegateSafety
