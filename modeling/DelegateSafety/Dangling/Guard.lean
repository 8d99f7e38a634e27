import DelegateSafety.Dangling.Facts
import DelegateSafety.Dangling.Pattern

/-! # Conditions that show a branch to be safe

Guards such as `_x.delegate != self`, `_x.delegate == nil`, `self.x == nil` or `!_x`, taken on the
side where they rule the danger out.
-/
namespace DelegateSafety

inductive SafeOutcome where
  /-- The property does not refer to `self`. -/
  | propertyCleared (field property : String)
  /-- The field holds no object. -/
  | fieldCleared (field : String)
  deriving DecidableEq

variable (scope : ClassScope) (facts : ClassFacts)

/-- A property without ownership of the object in an interesting field. -/
def interestingDelegate? (e : Expr) : Option SafeOutcome :=
  match e.strip with
  | .send m _ =>
    ((m.target?.bind scope.fieldOf?).filter facts.isInteresting).bind fun field =>
      ((scope.getter? m).filter (·.ownership.isUnsafe)).map fun property =>
        .propertyCleared field property.name
  | _ => none

/-- What follows from an expression being nil. -/
def nullOutcome? (e : Expr) : Option SafeOutcome :=
  (interestingDelegate? scope facts e).or
    (((scope.fieldOf? e).filter facts.isInteresting).map .fieldCleared)

/-- What follows from a condition turning out as assumed. -/
def safeOutcomes (assumption : Bool) : Expr → List SafeOutcome
  | .paren inner _ => safeOutcomes assumption inner
  | .cast _ inner _ => safeOutcomes assumption inner
  | .unary .not operand _ => safeOutcomes (!assumption) operand
  | .binary op lhs rhs _ =>
    if (op == .and && assumption) || (op == .or && !assumption) then
      safeOutcomes assumption lhs ++ safeOutcomes assumption rhs
    else if op.isEquality then
      if (op == .eq) == assumption then
        ((otherThanNull? lhs rhs).bind (nullOutcome? scope facts)).toList
      else ((otherThanSelf? lhs rhs).bind (interestingDelegate? scope facts)).toList
    else []
  | e => if assumption then [] else (nullOutcome? scope facts e).toList

end DelegateSafety
