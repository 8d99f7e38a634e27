import DelegateSafety.Config.Basic
import DelegateSafety.Program.Scope

/-! # Shapes of code that matter to delegates

Nothing here looks at what a path knows.
-/
namespace DelegateSafety

/-- The field whose object an expression denotes: `_x`, or `self.x` where `x` is backed by `_x`. -/
def ClassScope.fieldOf? (scope : ClassScope) (e : Expr) : Option String :=
  match e.strip with
  | .field name _ => some name
  | .send m _ =>
    if m.target?.any (·.isSelf) then (scope.getter? m).bind (·.backingField) else none
  | _ => none

/-- The property without ownership that a send writes. -/
def ClassScope.unsafeSetter? (scope : ClassScope) (m : Message Expr) : Option PropertyDecl :=
  (scope.setter? m).filter (·.ownership.isUnsafe)

def Message.passesSelf (m : Message Expr) : Bool := (m.arg? 0).any (·.isSelf)

/-- The shared instance that an expression fetches, as `+[Class selector]`. -/
def singletonOf? (accessors : List SingletonAccessor) (e : Expr) : Option String :=
  match e.strip with
  | .send ⟨.named className, selector, _⟩ _ =>
    if accessors.contains ⟨className, selector⟩ then
      some ("+[" ++ className ++ " " ++ selector ++ "]")
    else none
  | _ => none

/-- What is compared with `self`. -/
def otherThanSelf? (lhs rhs : Expr) : Option Expr :=
  if rhs.isSelf then some lhs else if lhs.isSelf then some rhs else none

/-- What is compared with nil. -/
def otherThanNull? (lhs rhs : Expr) : Option Expr :=
  if rhs.isNullLiteral then some lhs else if lhs.isNullLiteral then some rhs else none

end DelegateSafety
