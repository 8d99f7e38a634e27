import DelegateSafety.Lint.Rule

/-! # Repeated operands

The same variable on both sides of a logical or bitwise operator is nearly always a slip of the pen.
-/
namespace DelegateSafety

def repeatedOperandName : String := "logic.DoubleBooleanArgument"

def repeatedOperand : ReportKind := ⟨"Repeated operand in boolean expression", "API error"⟩

/-- The variable that an operand names, casts aside. -/
def operandVar? : Expr → Option String
  | .cast _ inner _ => operandVar? inner
  | .var name _ _ => some name
  | _ => none

/-- The variable that an operator is given twice. -/
def repeatedVar? : Expr → Option String
  | .binary op lhs rhs _ =>
    if op.isLogical || op.isBitwise then
      (operandVar? lhs).filter fun name => operandVar? rhs == some name
    else none
  | _ => none

def repeatedOperandRule : LintRule where
  name := repeatedOperandName
  onDecl _ _ := []
  onBody subject code := code.body.allExprs.filterMap fun e =>
    (repeatedVar? e).map fun name =>
      .atDeclaration repeatedOperandName repeatedOperand subject.unit.path code.name e.range
        ("Boolean expression contains argument " ++ name ++ " more than once.")

end DelegateSafety
