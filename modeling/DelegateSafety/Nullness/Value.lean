import DelegateSafety.Program.Expr

/-! # Nullness

What is known of a value: whether it is nil. Truth is read the same way, so a condition that holds
is `nonNull`.
-/
namespace DelegateSafety

inductive Nullness where
  | null | nonNull | unknown
  deriving DecidableEq

namespace Nullness

def isDefinite : Nullness → Bool
  | unknown => false
  | null | nonNull => true

def ofTruth (truth : Bool) : Nullness := if truth then nonNull else null

def ofInt (value : Int64) : Nullness := ofTruth (value != 0)

/-- Whether a value is known to be nil. An unknown one is not. -/
def isNull (v : Nullness) : Bool := v == null

def not : Nullness → Nullness
  | null => nonNull
  | nonNull => null
  | unknown => unknown

def eq : Nullness → Nullness → Nullness
  | null, null => nonNull
  | null, nonNull | nonNull, null => null
  | _, _ => unknown

/-- Both operands are evaluated, and a nil one decides. -/
def and : Nullness → Nullness → Nullness
  | null, _ | _, null => null
  | nonNull, nonNull => nonNull
  | _, _ => unknown

def or : Nullness → Nullness → Nullness
  | nonNull, _ | _, nonNull => nonNull
  | null, null => null
  | _, _ => unknown

end Nullness

/-- Nullness of a binary expression, given that of its operands. -/
def BinaryOp.nullness (op : BinaryOp) (lhs rhs : Nullness) : Nullness :=
  match op with
  | .eq => lhs.eq rhs
  | .ne => (lhs.eq rhs).not
  | .and => lhs.and rhs
  | .or => lhs.or rhs
  | _ => .unknown

def UnaryOp.nullness (op : UnaryOp) (operand : Nullness) : Nullness :=
  match op with
  | .not => operand.not
  | .addressOf => .nonNull
  | .neg | .deref => .unknown

end DelegateSafety
