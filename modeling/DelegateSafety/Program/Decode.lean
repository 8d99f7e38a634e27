import DelegateSafety.Error
import DelegateSafety.Json.Fields
import DelegateSafety.Json.Read
import DelegateSafety.Program.Decl

/-! # Source units from JSON

At most 127 arrays and objects may be open at once, which also bounds how deep expressions and
statements nest.
-/
namespace DelegateSafety

open Json

def Position.decode? (place : Place) (j : Json) : Option Position := do
  let _ ← place.inside?
  let [line, column] ← fields? ["line", "column"] j | none
  some ⟨← required uint32? line, ← required uint32? column⟩

def SourceRange.decode? (place : Place) (j : Json) : Option SourceRange := do
  let inside ← place.inside?
  let [start, stop] ← fields? ["begin", "end"] j | none
  some ⟨← required (Position.decode? inside) start, ← required (Position.decode? inside) stop⟩

/-- A range, or the unknown one where none is given. -/
def rangeOrUnknown (place : Place) : Option Json → Option SourceRange :=
  orElse .unknown (SourceRange.decode? place)

/-- The kinds of type, each with whether it bears a name. -/
def typeKinds : List (String × Option (String → TypeRef)) :=
  [("object", some .object), ("id", none), ("scalar", some .scalar)]

def TypeRef.decode? (place : Place) (j : Json) : Option TypeRef := do
  let inside ← place.inside?
  let [kind, name] ← fields? ["kind", "name"] j | none
  let isArray := match j with
    | .array _ => true
    | _ => false
  let kind? := if isArray then tagMeaning? typeKinds inside.whole else choice? typeKinds inside
  match ← required kind? kind, name with
  | some make, name => make <$> required string? name
  | none, some .null => some .id
  | none, none => if isArray then none else some .id
  | none, some _ => none

def Ownership.decode? : Place → Json → Option Ownership :=
  choice? [("strong", .strong), ("copy", .copy), ("weak", .weak), ("assign", .assign)]

def MethodKind.decode? : Place → Json → Option MethodKind :=
  choice? [("instance", .instanceMethod), ("class", .classMethod)]

def StorageClass.decode? : Place → Json → Option StorageClass :=
  choice? [("local", .local), ("static_local", .staticLocal), ("global", .global)]

def BinaryOp.decode? : Place → Json → Option BinaryOp :=
  choice? [("eq", .eq), ("ne", .ne), ("lt", .lt), ("gt", .gt), ("le", .le), ("ge", .ge),
    ("and", .and), ("or", .or), ("bit_and", .bitAnd), ("bit_or", .bitOr), ("bit_xor", .bitXor),
    ("add", .add), ("sub", .sub), ("mul", .mul), ("div", .div)]

def UnaryOp.decode? : Place → Json → Option UnaryOp :=
  choice? [("not", .not), ("neg", .neg), ("addr_of", .addressOf), ("deref", .deref)]

/-- The kinds of expression, in the order of their numbers. -/
def exprKinds : List String :=
  ["self_ref", "nil", "int_literal", "var", "field_ref", "message", "assign", "binary", "unary",
    "paren", "cast", "selector_literal", "call", "opaque"]

def receiverKinds : List String := ["instance", "class", "super"]

def stmtKinds : List String := ["expr", "block", "if", "while", "return", "decl"]

namespace Decode

/-- All of an object but its range can be kept. -/
def isKeepable (whole : Bool) (depth : Nat) (members : List (String × Json)) : Bool :=
  whole || members.all fun (key, value) => key == "range" || value.isKeepable depth

mutual

/-- An expression at a depth. It is always an object. -/
def expr? (whole : Bool) : Nat → Json → Option Expr
  | 0, _ => none
  | depth + 1, .object members => do
    guard (isKeepable whole depth members)
    let range ← (member? members "range").bind (rangeOrUnknown ⟨depth, whole⟩)
    let kind ← (member? members "kind").bind (required (tag? exprKinds true))
    let inside : Place := ⟨depth, true⟩
    match kind with
    | "self_ref" => some (.self range)
    | "nil" => some (.nil range)
    | "int_literal" =>
      let [value] ← fields? ["value"] (.object members) | none
      some (.int (← required int64? value) range)
    | "var" =>
      let [name, type] ← fields? ["name", "ty"] (.object members) | none
      some (.var (← required string? name)
        (← orElse none (nullable (TypeRef.decode? inside)) type) range)
    | "field_ref" =>
      let [field] ← fields? ["field"] (.object members) | none
      some (.field (← required string? field) range)
    | "message" =>
      let [receiver, selector, args] ← fields? ["receiver", "selector", "args"] (.object members)
        | none
      some (.send ⟨← required (receiver? depth) receiver, ← required string? selector,
        ← orElse [] (exprs? depth) args⟩ range)
    | "assign" =>
      let [lhs, rhs] ← fields? ["lhs", "rhs"] (.object members) | none
      some (.assign (← required (expr? true depth) lhs) (← required (expr? true depth) rhs) range)
    | "binary" =>
      let [op, lhs, rhs] ← fields? ["op", "lhs", "rhs"] (.object members) | none
      some (.binary (← required (BinaryOp.decode? inside) op) (← required (expr? true depth) lhs)
        (← required (expr? true depth) rhs) range)
    | "unary" =>
      let [op, operand] ← fields? ["op", "operand"] (.object members) | none
      some (.unary (← required (UnaryOp.decode? inside) op)
        (← required (expr? true depth) operand) range)
    | "paren" =>
      let [inner] ← fields? ["inner"] (.object members) | none
      some (.paren (← required (expr? true depth) inner) range)
    | "cast" =>
      let [type, inner] ← fields? ["ty", "inner"] (.object members) | none
      some (.cast (← required (TypeRef.decode? inside) type)
        (← required (expr? true depth) inner) range)
    | "selector_literal" =>
      let [selector] ← fields? ["selector"] (.object members) | none
      some (.selector (← required string? selector) range)
    | "call" =>
      let [callee, args] ← fields? ["callee", "args"] (.object members) | none
      some (.call (← required string? callee) (← orElse [] (exprs? depth) args) range)
    | "opaque" =>
      let [parts] ← fields? ["children"] (.object members) | none
      some (.other (← orElse [] (exprs? depth) parts) range)
    | _ => none
  | _ + 1, _ => none

def exprs? : Nat → Json → Option (List Expr)
  | 0, _ => none
  | depth + 1, j => match j with
    | .array items => items.mapM (expr? true depth)
    | _ => none

def receiver? : Nat → Json → Option (Receiver Expr)
  | 0, _ => none
  | depth + 1, j => do
    match ← tagged? receiverKinds ⟨depth + 1, true⟩ j with
    | ("instance", rest) =>
      let [target] ← fields? ["expr"] rest | none
      .object <$> required (expr? true depth) target
    | ("class", rest) =>
      let [name] ← fields? ["name"] rest | none
      .named <$> required string? name
    | ("super", rest) =>
      let [] ← fields? [] rest | none
      some .super
    | _ => none

end

def varDecl? (place : Place) (j : Json) : Option VarDecl := do
  let inside ← place.inside?
  let [name, type, storage, init, range] ← fields? ["name", "ty", "storage", "init", "range"] j
    | none
  some {
    name := ← required string? name
    type := ← required (TypeRef.decode? inside) type
    storage := ← orElse .local (StorageClass.decode? inside) storage
    init := ← orElse none (nullable (expr? inside.whole inside.depth)) init
    range := ← rangeOrUnknown inside range }

mutual

def stmt? (whole : Bool) : Nat → Json → Option Stmt
  | 0, _ => none
  | depth + 1, j => do
    match ← tagged? stmtKinds ⟨depth + 1, whole⟩ j with
    | ("expr", rest) =>
      let [e] ← fields? ["expr"] rest | none
      .expr <$> required (expr? true depth) e
    | ("block", rest) =>
      let [body] ← fields? ["stmts"] rest | none
      .block <$> orElse [] (stmts? depth) body
    | ("if", rest) =>
      let [cond, yes, no] ← fields? ["cond", "then", "otherwise"] rest | none
      some (.branch (← required (expr? true depth) cond) (← required (stmt? true depth) yes)
        (← orElse none (nullable (stmt? true depth)) no))
    | ("while", rest) =>
      let [cond, body] ← fields? ["cond", "body"] rest | none
      some (.loop (← required (expr? true depth) cond) (← required (stmt? true depth) body))
    | ("return", rest) =>
      let [value] ← fields? ["value"] rest | none
      .ret <$> orElse none (nullable (expr? true depth)) value
    | ("decl", rest) =>
      let [decl] ← fields? ["decl"] rest | none
      .decl <$> required (varDecl? ⟨depth, true⟩) decl
    | _ => none

def stmts? : Nat → Json → Option (List Stmt)
  | 0, _ => none
  | depth + 1, j => match j with
    | .array items => items.mapM (stmt? true depth)
    | _ => none

end

def fieldDecl? (place : Place) (j : Json) : Option FieldDecl := do
  let inside ← place.inside?
  let [name, type, range] ← fields? ["name", "ty", "range"] j | none
  some ⟨← required string? name, ← required (TypeRef.decode? inside) type,
    ← rangeOrUnknown inside range⟩

def propertyDecl? (place : Place) (j : Json) : Option PropertyDecl := do
  let inside ← place.inside?
  let [name, type, ownership, backing, range] ←
    fields? ["name", "ty", "ownership", "backing_field", "range"] j | none
  some {
    name := ← required string? name
    type := ← required (TypeRef.decode? inside) type
    ownership := ← orElse .strong (Ownership.decode? inside) ownership
    backingField := ← orElse none (nullable string?) backing
    range := ← rangeOrUnknown inside range }

def methodSignature? (place : Place) (j : Json) : Option MethodSignature := do
  let inside ← place.inside?
  let [selector, kind] ← fields? ["selector", "kind"] j | none
  some ⟨← required string? selector, ← orElse .instanceMethod (MethodKind.decode? inside) kind⟩

def paramDecl? (place : Place) (j : Json) : Option ParamDecl := do
  let inside ← place.inside?
  let [name, type] ← fields? ["name", "ty"] j | none
  some ⟨← required string? name, ← required (TypeRef.decode? inside) type⟩

def methodDecl? (place : Place) (j : Json) : Option MethodDecl := do
  let inside ← place.inside?
  let [selector, kind, params, body, implicit, range] ←
    fields? ["selector", "kind", "params", "body", "implicit", "range"] j | none
  some {
    selector := ← required string? selector
    kind := ← orElse .instanceMethod (MethodKind.decode? inside) kind
    params := ← orElse [] (list? paramDecl? inside) params
    body := ← orElse none (nullable (stmt? inside.whole inside.depth)) body
    implicit := ← orElse false bool? implicit
    range := ← rangeOrUnknown inside range }

def interfaceDecl? (place : Place) (j : Json) : Option InterfaceDecl := do
  let inside ← place.inside?
  let [name, superclass, fields, properties, methods, range] ←
    fields? ["name", "superclass", "fields", "properties", "methods", "range"] j | none
  some {
    name := ← required string? name
    superclass := ← orElse none (nullable string?) superclass
    fields := ← orElse [] (list? fieldDecl? inside) fields
    properties := ← orElse [] (list? propertyDecl? inside) properties
    methods := ← orElse [] (list? methodSignature? inside) methods
    range := ← rangeOrUnknown inside range }

def implementationDecl? (place : Place) (j : Json) : Option ImplementationDecl := do
  let inside ← place.inside?
  let [name, fields, methods, range] ← fields? ["name", "fields", "methods", "range"] j | none
  some {
    name := ← required string? name
    fields := ← orElse [] (list? fieldDecl? inside) fields
    methods := ← orElse [] (list? methodDecl? inside) methods
    range := ← rangeOrUnknown inside range }

def langOptions? (place : Place) (j : Json) : Option LangOptions := do
  let _ ← place.inside?
  let [autoRelease] ← fields? ["auto_release_fields"] j | none
  some ⟨← orElse true bool? autoRelease⟩

def sourceUnit? (place : Place) (j : Json) : Option SourceUnit := do
  let inside ← place.inside?
  let [path, lang, interfaces, implementations, globals] ←
    fields? ["path", "lang", "interfaces", "implementations", "globals"] j | none
  some {
    path := ← orElse "" string? path
    lang := ← orElse ⟨true⟩ (langOptions? inside) lang
    interfaces := ← orElse [] (list? interfaceDecl? inside) interfaces
    implementations := ← orElse [] (list? implementationDecl? inside) implementations
    globals := ← orElse [] (list? varDecl? inside) globals }

end Decode

/-- How many arrays and objects may be open at once. -/
def nestingLimit : Nat := 127

def SourceUnit.ofJson? (j : Json) : Option SourceUnit :=
  Decode.sourceUnit? ⟨nestingLimit, false⟩ j

/-- A unit that does not say which file it is of is taken to be of the file it was read from. -/
def SourceUnit.withOrigin (unit : SourceUnit) (origin : String) : SourceUnit :=
  if unit.path = "" then { unit with path := origin } else unit

/-- The source unit that a text describes. -/
def SourceUnit.parse (text origin : String) : Except Error SourceUnit :=
  match (Json.read? text).bind ofJson? with
  | some unit => .ok (unit.withOrigin origin)
  | none => .error (.input origin "not a source unit")

end DelegateSafety
