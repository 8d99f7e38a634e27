import DelegateSafety.Program.Decl

/-! # Building method bodies

Short ways to write what a body is made of. Nothing has a place in a source file unless it is given
one.
-/
namespace DelegateSafety.Sample

def send (receiver : Receiver Expr) (selector : String) (args : List Expr) : Expr :=
  .send ⟨receiver, selector, args⟩ .unknown

def getProperty (target : Expr) (property : String) : Expr := send (.object target) property []

/-- An assignment to a property, as the send that it stands for. -/
def setProperty (target : Expr) (property : String) (value : Expr) : Expr :=
  send (.object target) (if property.isEmpty then "set:" else setterSelector property) [value]

/-- The same expression on one line of the source. -/
def onLine (line : UInt32) (e : Expr) : Expr :=
  let r := SourceRange.ofLine line
  match e with
  | .self _ => .self r
  | .nil _ => .nil r
  | .int v _ => .int v r
  | .var name type _ => .var name type r
  | .field name _ => .field name r
  | .send m _ => .send m r
  | .assign target value _ => .assign target value r
  | .binary op lhs rhs _ => .binary op lhs rhs r
  | .unary op operand _ => .unary op operand r
  | .paren inner _ => .paren inner r
  | .cast type inner _ => .cast type inner r
  | .selector name _ => .selector name r
  | .call callee args _ => .call callee args r
  | .other parts _ => .other parts r

def localVar (name : String) (type : TypeRef) (value : Option Expr) : Stmt :=
  .decl ⟨name, type, .local, value, .unknown⟩

/-- An instance method with a body. -/
def method (selector : String) (body : List Stmt) : MethodDecl :=
  ⟨selector, .instanceMethod, [], some (.block body), false, .unknown⟩

def property (name : String) (type : TypeRef) (ownership : Ownership) : PropertyDecl :=
  ⟨name, type, ownership, none, .unknown⟩

/-- A property that a field of its name holds, behind an underscore. -/
def backedProperty (name : String) (type : TypeRef) (ownership : Ownership) : PropertyDecl :=
  { property name type ownership with backingField := some ("_" ++ name) }

end DelegateSafety.Sample
