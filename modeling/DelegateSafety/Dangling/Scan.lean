import DelegateSafety.Dangling.Facts
import DelegateSafety.Dangling.Pattern

/-! # Scanning a class for facts -/
namespace DelegateSafety

inductive MethodRole where
  /-- Starts with everything cleared, and still is where `self` is handed out. -/
  | initializer
  /-- Named like set-up code: starts with everything cleared and tells nothing. -/
  | pseudoInit
  | regular
  deriving DecidableEq

def DelegateConfig.roleOf (config : DelegateConfig) (selector : String) : MethodRole :=
  if isInitSelector selector then .initializer
  else if config.isPseudoInitName selector then .pseudoInit
  else .regular

variable (scope : ClassScope) (config : DelegateConfig)

/-- What a send in the named method tells. It must hand `self` to an object as its first
argument. -/
def observeSend (method : String) (m : Message Expr) : Option Observation :=
  m.target?.bind fun receiver =>
    if m.passesSelf then
      match scope.fieldOf? receiver with
      | some field =>
        match scope.unsafeSetter? m with
        | some property => some (.property field property.name)
        | none =>
          if beginsWith m.selector config.addTarget then some (.target field)
          else if beginsWith m.selector config.addObserver then some (.observer field)
          else none
      | none =>
        if beginsWith m.selector config.addObserver then
          (singletonOf? config.singletonAccessors receiver).map (.shared · method)
        else none
    else none

def observeExpr (method : String) : Expr → Option Observation
  | .send m _ => observeSend scope config method m
  | _ => none

def observeMethod (method : MethodDecl) : List Observation :=
  let role := config.roleOf method.selector
  (if method.selector = config.teardownMethod then [.teardown] else []) ++
    (if role = .regular then [] else [.pseudoInit method.selector]) ++
    (if role = .pseudoInit then []
      else (method.body.elim [] Stmt.allExprs).filterMap (observeExpr scope config method.selector))

/-- The facts of a class, from all methods of one implementation. -/
def classFacts (decl : ImplementationDecl) : ClassFacts :=
  .ofObservations (decl.methods.flatMap (observeMethod scope config))

end DelegateSafety
