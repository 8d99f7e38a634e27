import DelegateSafety.Lint.Rule

/-! # Guards that ask for one selector before another is used

Code under `[x respondsToSelector:@selector(a)]` that sends `b` to `x`, where the class of `x` does
not declare `b`, has usually one of the two names wrong.
-/
namespace DelegateSafety

def respondsToSelectorName : String := "semantic.SuspiciousRespondsToSelector"

def suspiciousSelector : ReportKind :=
  ⟨"Suspicious use of respondsToSelector", "Semantic issue"⟩

def varName? (e : Expr) : Option String :=
  match e.strip with
  | .var name _ _ => some name
  | _ => none

def selectorLiteral? (e : Expr) : Option String :=
  match e.strip with
  | .selector name _ => some name
  | _ => none

/-- The variable that a condition asks and the selector that it asks for. -/
structure SelectorGuard where
  receiver : String
  selector : String

def SelectorGuard.ofCond? (cond : Expr) : Option SelectorGuard :=
  match cond.strip with
  | .send m _ =>
    if m.selector = "respondsToSelector:" then do
      let receiver ← m.target?.bind varName?
      let selector ← (m.arg? 0).bind selectorLiteral?
      some ⟨receiver, selector⟩
    else none
  | _ => none

/-- The selector that a send comes down to: `performSelector:` sends the one it is given. -/
def effectiveSelector (m : Message Expr) : String :=
  if m.selector.toList.takeWhile (· != ':') = "performSelector".toList then
    ((m.arg? 0).bind selectorLiteral?).getD m.selector
  else m.selector

/-- The first send to a variable in an expression, arguments of sends left out. -/
def firstUse? (receiver : String) : Expr → Option (Message Expr × SourceRange)
  | .paren inner _ => firstUse? receiver inner
  | .cast _ inner _ => firstUse? receiver inner
  | .send m range => if m.target?.bind varName? = some receiver then some (m, range) else none
  | .call _ args _ => firstUseIn? args
  | .unary _ operand _ => firstUse? receiver operand
  | .binary _ lhs rhs _ => (firstUse? receiver lhs).or (firstUse? receiver rhs)
  | .assign lhs rhs _ => (firstUse? receiver lhs).or (firstUse? receiver rhs)
  | _ => none
where
  firstUseIn? : List Expr → Option (Message Expr × SourceRange)
    | [] => none
    | e :: rest => (firstUse? receiver e).or (firstUseIn? rest)

/-- The first send to a variable in one statement, nested statements left out. -/
def firstUseInStmt? (receiver : String) : Stmt → Option (Message Expr × SourceRange)
  | .expr e => firstUse? receiver e
  | .ret value => value.bind (firstUse? receiver)
  | .decl v => v.init.bind (firstUse? receiver)
  | .block _ | .branch _ _ _ | .loop _ _ => none

def topLevel : Stmt → List Stmt
  | .block body => body
  | s => [s]

/-- Whether the class of a send's receiver is known to answer a selector. -/
def isDeclaredOnReceiver (scope : ClassScope) (m : Message Expr) (selector : String) : Bool :=
  ((m.target?.bind scope.staticType?).bind (·.className?)).any
    (scope.unit.declaresMethod · selector)

/-- The selector used under a guard that neither asks for it nor knows it to exist. -/
def suspiciousUse? (scope : ClassScope) (guard : SelectorGuard) (body : Stmt) :
    Option (String × SourceRange) :=
  ((topLevel body).findSome? (firstUseInStmt? guard.receiver)).bind fun (m, range) =>
    let selector := effectiveSelector m
    if selector = guard.selector || isDeclaredOnReceiver scope m selector then none
    else some (selector, range)

def checkGuard (subject : Subject) (code : CodeBody) : Stmt → Option Diagnostic
  | .branch cond yes _ =>
    (SelectorGuard.ofCond? cond).bind fun guard =>
      (suspiciousUse? ⟨subject.unit, code.className⟩ guard yes).map fun (selector, range) =>
        .atDeclaration respondsToSelectorName suspiciousSelector subject.unit.path code.name range
          ("Suspicious use of respondsToSelector. A condition checks if " ++ guard.receiver ++
            " responds to selector " ++ guard.selector ++ " and subsequently selector " ++
            selector ++ " is used. The selector name might have been misspelled.")
  | _ => none

def respondsToSelectorRule : LintRule where
  name := respondsToSelectorName
  onDecl _ _ := []
  onBody subject code := code.body.walk.filterMap (checkGuard subject code)

end DelegateSafety
