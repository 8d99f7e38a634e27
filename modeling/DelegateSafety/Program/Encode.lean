import DelegateSafety.Json.Value
import DelegateSafety.Program.Decl

/-! # Source units as JSON

Every field is written, those that have their default value too.
-/
namespace DelegateSafety

def Position.toJson (p : Position) : Json :=
  .object [("line", .ofNat p.line.toNat), ("column", .ofNat p.column.toNat)]

def SourceRange.toJson (r : SourceRange) : Json :=
  .object [("begin", r.start.toJson), ("end", r.stop.toJson)]

def TypeRef.toJson : TypeRef → Json
  | object name => .object [("kind", .string "object"), ("name", .string name)]
  | id => .object [("kind", .string "id")]
  | scalar name => .object [("kind", .string "scalar"), ("name", .string name)]

def Ownership.name : Ownership → String
  | strong => "strong"
  | copy => "copy"
  | weak => "weak"
  | assign => "assign"

def MethodKind.name : MethodKind → String
  | .instanceMethod => "instance"
  | .classMethod => "class"

def StorageClass.name : StorageClass → String
  | .local => "local"
  | .staticLocal => "static_local"
  | .global => "global"

def BinaryOp.name : BinaryOp → String
  | eq => "eq"
  | ne => "ne"
  | lt => "lt"
  | gt => "gt"
  | le => "le"
  | ge => "ge"
  | and => "and"
  | or => "or"
  | bitAnd => "bit_and"
  | bitOr => "bit_or"
  | bitXor => "bit_xor"
  | add => "add"
  | sub => "sub"
  | mul => "mul"
  | div => "div"

def UnaryOp.name : UnaryOp → String
  | not => "not"
  | neg => "neg"
  | addressOf => "addr_of"
  | deref => "deref"

def Expr.kind : Expr → String
  | self _ => "self_ref"
  | nil _ => "nil"
  | int _ _ => "int_literal"
  | var _ _ _ => "var"
  | field _ _ => "field_ref"
  | send _ _ => "message"
  | assign _ _ _ => "assign"
  | binary _ _ _ _ => "binary"
  | unary _ _ _ => "unary"
  | paren _ _ => "paren"
  | cast _ _ _ => "cast"
  | selector _ _ => "selector_literal"
  | call _ _ _ => "call"
  | other _ _ => "opaque"

/-- An expression's own fields behind its kind, its range last. -/
def Expr.jsonWith (e : Expr) (fields : List (String × Json)) : Json :=
  .object (("kind", .string e.kind) :: fields ++ [("range", e.range.toJson)])

mutual

def Expr.toJson : Expr → Json
  | .self r => (Expr.self r).jsonWith []
  | .nil r => (Expr.nil r).jsonWith []
  | .int value r => (Expr.int value r).jsonWith [("value", .integer value.toInt)]
  | .var name type r =>
    (Expr.var name type r).jsonWith
      [("name", .string name), ("ty", .ofOption TypeRef.toJson type)]
  | .field name r => (Expr.field name r).jsonWith [("field", .string name)]
  | .send ⟨.object target, sel, args⟩ r =>
    (Expr.send ⟨.object target, sel, args⟩ r).jsonWith
      [("receiver", .object [("kind", .string "instance"), ("expr", Expr.toJson target)]),
        ("selector", .string sel), ("args", .array (Expr.listToJson args))]
  | .send ⟨.named className, sel, args⟩ r =>
    (Expr.send ⟨.named className, sel, args⟩ r).jsonWith
      [("receiver", .object [("kind", .string "class"), ("name", .string className)]),
        ("selector", .string sel), ("args", .array (Expr.listToJson args))]
  | .send ⟨.super, sel, args⟩ r =>
    (Expr.send ⟨.super, sel, args⟩ r).jsonWith
      [("receiver", .object [("kind", .string "super")]), ("selector", .string sel),
        ("args", .array (Expr.listToJson args))]
  | .assign target value r =>
    (Expr.assign target value r).jsonWith
      [("lhs", Expr.toJson target), ("rhs", Expr.toJson value)]
  | .binary op lhs rhs r =>
    (Expr.binary op lhs rhs r).jsonWith
      [("op", .string op.name), ("lhs", Expr.toJson lhs), ("rhs", Expr.toJson rhs)]
  | .unary op operand r =>
    (Expr.unary op operand r).jsonWith [("op", .string op.name), ("operand", Expr.toJson operand)]
  | .paren inner r => (Expr.paren inner r).jsonWith [("inner", Expr.toJson inner)]
  | .cast type inner r =>
    (Expr.cast type inner r).jsonWith [("ty", type.toJson), ("inner", Expr.toJson inner)]
  | .selector name r => (Expr.selector name r).jsonWith [("selector", .string name)]
  | .call callee args r =>
    (Expr.call callee args r).jsonWith
      [("callee", .string callee), ("args", .array (Expr.listToJson args))]
  | .other parts r => (Expr.other parts r).jsonWith [("children", .array (Expr.listToJson parts))]

def Expr.listToJson : List Expr → List Json
  | [] => []
  | e :: rest => Expr.toJson e :: Expr.listToJson rest

end

def VarDecl.toJson (v : VarDecl) : Json :=
  .object [("name", .string v.name), ("ty", v.type.toJson), ("storage", .string v.storage.name),
    ("init", .ofOption Expr.toJson v.init), ("range", v.range.toJson)]

def Stmt.kind : Stmt → String
  | expr _ => "expr"
  | block _ => "block"
  | branch _ _ _ => "if"
  | loop _ _ => "while"
  | ret _ => "return"
  | decl _ => "decl"

mutual

def Stmt.toJson : Stmt → Json
  | .expr e => .object [("kind", .string "expr"), ("expr", e.toJson)]
  | .block body => .object [("kind", .string "block"), ("stmts", .array (Stmt.listToJson body))]
  | .branch cond yes none =>
    .object [("kind", .string "if"), ("cond", cond.toJson), ("then", Stmt.toJson yes),
      ("otherwise", .null)]
  | .branch cond yes (some no) =>
    .object [("kind", .string "if"), ("cond", cond.toJson), ("then", Stmt.toJson yes),
      ("otherwise", Stmt.toJson no)]
  | .loop cond body =>
    .object [("kind", .string "while"), ("cond", cond.toJson), ("body", Stmt.toJson body)]
  | .ret value => .object [("kind", .string "return"), ("value", .ofOption Expr.toJson value)]
  | .decl v => .object [("kind", .string "decl"), ("decl", v.toJson)]

def Stmt.listToJson : List Stmt → List Json
  | [] => []
  | s :: rest => Stmt.toJson s :: Stmt.listToJson rest

end

def FieldDecl.toJson (d : FieldDecl) : Json :=
  .object [("name", .string d.name), ("ty", d.type.toJson), ("range", d.range.toJson)]

def PropertyDecl.toJson (d : PropertyDecl) : Json :=
  .object [("name", .string d.name), ("ty", d.type.toJson),
    ("ownership", .string d.ownership.name), ("backing_field", .ofOption .string d.backingField),
    ("range", d.range.toJson)]

def MethodSignature.toJson (d : MethodSignature) : Json :=
  .object [("selector", .string d.selector), ("kind", .string d.kind.name)]

def ParamDecl.toJson (d : ParamDecl) : Json :=
  .object [("name", .string d.name), ("ty", d.type.toJson)]

def MethodDecl.toJson (d : MethodDecl) : Json :=
  .object [("selector", .string d.selector), ("kind", .string d.kind.name),
    ("params", .array (d.params.map (·.toJson))), ("body", .ofOption Stmt.toJson d.body),
    ("implicit", .bool d.implicit), ("range", d.range.toJson)]

def InterfaceDecl.toJson (d : InterfaceDecl) : Json :=
  .object [("name", .string d.name), ("superclass", .ofOption .string d.superclass),
    ("fields", .array (d.fields.map (·.toJson))),
    ("properties", .array (d.properties.map (·.toJson))),
    ("methods", .array (d.methods.map (·.toJson))), ("range", d.range.toJson)]

def ImplementationDecl.toJson (d : ImplementationDecl) : Json :=
  .object [("name", .string d.name), ("fields", .array (d.fields.map (·.toJson))),
    ("methods", .array (d.methods.map (·.toJson))), ("range", d.range.toJson)]

def LangOptions.toJson (o : LangOptions) : Json :=
  .object [("auto_release_fields", .bool o.autoReleaseFields)]

def SourceUnit.toJson (unit : SourceUnit) : Json :=
  .object [("path", .string unit.path), ("lang", unit.lang.toJson),
    ("interfaces", .array (unit.interfaces.map (·.toJson))),
    ("implementations", .array (unit.implementations.map (·.toJson))),
    ("globals", .array (unit.globals.map (·.toJson)))]

end DelegateSafety
