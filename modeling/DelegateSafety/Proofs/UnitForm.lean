import DelegateSafety.Program.Encode
import DelegateSafety.Proofs.Form

/-! # Forms of a source unit in JSON

What may be left out is what the front ends may leave out: an unknown range, empty lists, absent
parts and the usual kinds. What the encoder writes is one of the forms, with every field written.
-/
namespace DelegateSafety

open Json

def Position.form (p : Position) : Form :=
  .object [.required "line" (.exactly (.ofNat p.line.toNat)),
    .required "column" (.exactly (.ofNat p.column.toNat))]

def SourceRange.form (r : SourceRange) : Form :=
  .object [.required "begin" r.start.form, .required "end" r.stop.form]

/-- The field for a range, which an unknown one does without. -/
def rangeField (r : SourceRange) : Field := .optional "range" (r = .unknown) r.form

@[simp] theorem key_rangeField (r : SourceRange) : (rangeField r).key = "range" := rfl

@[simp] theorem form_rangeField (r : SourceRange) : (rangeField r).form = r.form := rfl

def TypeRef.form : TypeRef → Form
  | object name => .object [.required "kind" (.text "object"), .required "name" (.text name)]
  | id => .object [.required "kind" (.text "id")]
  | scalar name => .object [.required "kind" (.text "scalar"), .required "name" (.text name)]

/-- The form of an expression: its kind, its own fields and its range. -/
def Expr.formWith (e : Expr) (fields : List Field) : Form :=
  .object (.required "kind" (.text e.kind) :: fields ++ [rangeField e.range])

mutual

def Expr.form : Expr → Form
  | .self r => (Expr.self r).formWith []
  | .nil r => (Expr.nil r).formWith []
  | .int value r =>
    (Expr.int value r).formWith [.required "value" (.exactly (.integer value.toInt))]
  | .var name type r =>
    (Expr.var name type r).formWith
      [.required "name" (.text name), .optional "ty" (type = none) (.option TypeRef.form type)]
  | .field name r => (Expr.field name r).formWith [.required "field" (.text name)]
  | .send ⟨.object target, sel, args⟩ r =>
    (Expr.send ⟨.object target, sel, args⟩ r).formWith
      [.required "receiver"
          (.object [.required "kind" (.text "instance"), .required "expr" (Expr.form target)]),
        .required "selector" (.text sel),
        .optional "args" (args = []) (.array (Expr.formList args))]
  | .send ⟨.named className, sel, args⟩ r =>
    (Expr.send ⟨.named className, sel, args⟩ r).formWith
      [.required "receiver"
          (.object [.required "kind" (.text "class"), .required "name" (.text className)]),
        .required "selector" (.text sel),
        .optional "args" (args = []) (.array (Expr.formList args))]
  | .send ⟨.super, sel, args⟩ r =>
    (Expr.send ⟨.super, sel, args⟩ r).formWith
      [.required "receiver" (.object [.required "kind" (.text "super")]),
        .required "selector" (.text sel),
        .optional "args" (args = []) (.array (Expr.formList args))]
  | .assign target value r =>
    (Expr.assign target value r).formWith
      [.required "lhs" (Expr.form target), .required "rhs" (Expr.form value)]
  | .binary op lhs rhs r =>
    (Expr.binary op lhs rhs r).formWith
      [.required "op" (.text op.name), .required "lhs" (Expr.form lhs),
        .required "rhs" (Expr.form rhs)]
  | .unary op operand r =>
    (Expr.unary op operand r).formWith
      [.required "op" (.text op.name), .required "operand" (Expr.form operand)]
  | .paren inner r => (Expr.paren inner r).formWith [.required "inner" (Expr.form inner)]
  | .cast type inner r =>
    (Expr.cast type inner r).formWith
      [.required "ty" type.form, .required "inner" (Expr.form inner)]
  | .selector name r => (Expr.selector name r).formWith [.required "selector" (.text name)]
  | .call callee args r =>
    (Expr.call callee args r).formWith
      [.required "callee" (.text callee),
        .optional "args" (args = []) (.array (Expr.formList args))]
  | .other parts r =>
    (Expr.other parts r).formWith
      [.optional "children" (parts = []) (.array (Expr.formList parts))]

def Expr.formList : List Expr → List Form
  | [] => []
  | e :: rest => Expr.form e :: Expr.formList rest

end

def VarDecl.form (v : VarDecl) : Form :=
  .object [.required "name" (.text v.name), .required "ty" v.type.form,
    .optional "storage" (v.storage = .local) (.text v.storage.name),
    .optional "init" (v.init = none) (.option Expr.form v.init), rangeField v.range]

mutual

def Stmt.form : Stmt → Form
  | .expr e => .object [.required "kind" (.text "expr"), .required "expr" e.form]
  | .block body =>
    .object [.required "kind" (.text "block"),
      .optional "stmts" (body = []) (.array (Stmt.formList body))]
  | .branch cond yes none =>
    .object [.required "kind" (.text "if"), .required "cond" cond.form,
      .required "then" (Stmt.form yes),
      .optional "otherwise" ((none : Option Stmt) = none) (.exactly .null)]
  | .branch cond yes (some no) =>
    .object [.required "kind" (.text "if"), .required "cond" cond.form,
      .required "then" (Stmt.form yes), .optional "otherwise" (some no = none) (Stmt.form no)]
  | .loop cond body =>
    .object [.required "kind" (.text "while"), .required "cond" cond.form,
      .required "body" (Stmt.form body)]
  | .ret value =>
    .object [.required "kind" (.text "return"),
      .optional "value" (value = none) (.option Expr.form value)]
  | .decl v => .object [.required "kind" (.text "decl"), .required "decl" v.form]

def Stmt.formList : List Stmt → List Form
  | [] => []
  | s :: rest => Stmt.form s :: Stmt.formList rest

end

def FieldDecl.form (d : FieldDecl) : Form :=
  .object [.required "name" (.text d.name), .required "ty" d.type.form, rangeField d.range]

def PropertyDecl.form (d : PropertyDecl) : Form :=
  .object [.required "name" (.text d.name), .required "ty" d.type.form,
    .optional "ownership" (d.ownership = .strong) (.text d.ownership.name),
    .optional "backing_field" (d.backingField = none) (.option .text d.backingField),
    rangeField d.range]

def MethodSignature.form (d : MethodSignature) : Form :=
  .object [.required "selector" (.text d.selector),
    .optional "kind" (d.kind = .instanceMethod) (.text d.kind.name)]

def ParamDecl.form (d : ParamDecl) : Form :=
  .object [.required "name" (.text d.name), .required "ty" d.type.form]

def MethodDecl.form (d : MethodDecl) : Form :=
  .object [.required "selector" (.text d.selector),
    .optional "kind" (d.kind = .instanceMethod) (.text d.kind.name),
    .optional "params" (d.params = []) (.array (d.params.map ParamDecl.form)),
    .optional "body" (d.body = none) (.option Stmt.form d.body),
    .optional "implicit" (d.implicit = false) (.exactly (.bool d.implicit)), rangeField d.range]

def InterfaceDecl.form (d : InterfaceDecl) : Form :=
  .object [.required "name" (.text d.name),
    .optional "superclass" (d.superclass = none) (.option .text d.superclass),
    .optional "fields" (d.fields = []) (.array (d.fields.map FieldDecl.form)),
    .optional "properties" (d.properties = []) (.array (d.properties.map PropertyDecl.form)),
    .optional "methods" (d.methods = []) (.array (d.methods.map MethodSignature.form)),
    rangeField d.range]

def ImplementationDecl.form (d : ImplementationDecl) : Form :=
  .object [.required "name" (.text d.name),
    .optional "fields" (d.fields = []) (.array (d.fields.map FieldDecl.form)),
    .optional "methods" (d.methods = []) (.array (d.methods.map MethodDecl.form)),
    rangeField d.range]

def LangOptions.form (o : LangOptions) : Form :=
  .object [.optional "auto_release_fields" (o.autoReleaseFields = true)
    (.exactly (.bool o.autoReleaseFields))]

def SourceUnit.form (unit : SourceUnit) : Form :=
  .object [.optional "path" (unit.path = "") (.text unit.path),
    .optional "lang" (unit.lang = ⟨true⟩) unit.lang.form,
    .optional "interfaces" (unit.interfaces = []) (.array (unit.interfaces.map InterfaceDecl.form)),
    .optional "implementations" (unit.implementations = [])
      (.array (unit.implementations.map ImplementationDecl.form)),
    .optional "globals" (unit.globals = []) (.array (unit.globals.map VarDecl.form))]

/-! ## What the encoder writes -/

theorem Expr.formList_eq_map (es : List Expr) : Expr.formList es = es.map Expr.form := by
  induction es with
  | nil => rfl
  | cons e rest ih => rw [Expr.formList, ih, List.map_cons]

theorem Stmt.formList_eq_map (ss : List Stmt) : Stmt.formList ss = ss.map Stmt.form := by
  induction ss with
  | nil => rfl
  | cons s rest ih => rw [Stmt.formList, ih, List.map_cons]

theorem Stmt.form_branch (cond : Expr) (yes : Stmt) (no : Option Stmt) :
    Stmt.form (.branch cond yes no) = .object [.required "kind" (.text "if"),
      .required "cond" cond.form, .required "then" yes.form,
      .optional "otherwise" (no = none) (.option Stmt.form no)] := by
  cases no <;> rfl

@[simp] theorem Position.form_toJson (p : Position) : p.form p.toJson :=
  Form.object_of_forall₂ (by simp) (by simp)

@[simp] theorem SourceRange.form_toJson (r : SourceRange) : r.form r.toJson :=
  Form.object_of_forall₂ (by simp) (by simp)

@[simp] theorem TypeRef.form_toJson (type : TypeRef) : type.form type.toJson := by
  cases type <;> exact Form.object_of_forall₂ (by simp) (by simp)

theorem Expr.formWith_jsonWith (e : Expr) {fields : List Field} {members : List (String × Json)}
    (hNodup : ("kind" :: (fields.map (·.key) ++ ["range"])).Nodup)
    (h : List.Forall₂ (fun field member => field.key = member.1 ∧ field.form member.2)
      fields members) : e.formWith fields (e.jsonWith members) := by
  refine Form.object_of_forall₂ (by simpa using hNodup) ?_
  exact .cons ⟨rfl, rfl⟩ (List.rel_append h (.cons ⟨rfl, e.range.form_toJson⟩ .nil))

mutual

theorem Expr.form_toJson : ∀ e : Expr, e.form e.toJson
  | .self _ | .nil _ | .int _ _ | .var _ _ _ | .field _ _ | .selector _ _ =>
    Expr.formWith_jsonWith _ (by simp) (by simp)
  | .send ⟨.object target, _, args⟩ _ => by
    have hReceiver : Form.object [.required "kind" (.text "instance"), .required "expr" target.form]
        (.object [("kind", .string "instance"), ("expr", target.toJson)]) :=
      Form.object_of_forall₂ (by simp) (by simp [Expr.form_toJson target])
    exact Expr.formWith_jsonWith _ (by simp) (by simp [hReceiver, Expr.formList_listToJson args])
  | .send ⟨.named _, _, args⟩ _ | .send ⟨.super, _, args⟩ _ =>
    Expr.formWith_jsonWith _ (by simp) (.cons ⟨rfl, Form.object_of_forall₂ (by simp) (by simp)⟩
      (by simp [Expr.formList_listToJson args]))
  | .assign lhs rhs _ | .binary _ lhs rhs _ =>
    Expr.formWith_jsonWith _ (by simp) (by simp [Expr.form_toJson lhs, Expr.form_toJson rhs])
  | .unary _ inner _ | .paren inner _ | .cast _ inner _ =>
    Expr.formWith_jsonWith _ (by simp) (by simp [Expr.form_toJson inner])
  | .call _ parts _ | .other parts _ =>
    Expr.formWith_jsonWith _ (by simp) (by simp [Expr.formList_listToJson parts])

theorem Expr.formList_listToJson : ∀ es : List Expr,
    Form.array (Expr.formList es) (.array (Expr.listToJson es))
  | [] => ⟨_, rfl, .nil⟩
  | e :: rest => by
    obtain ⟨items, hItems, hRest⟩ := Expr.formList_listToJson rest
    cases hItems
    exact ⟨_, rfl, .cons (Expr.form_toJson e) hRest⟩

end

attribute [simp] Expr.form_toJson

@[simp] theorem VarDecl.form_toJson (v : VarDecl) : v.form v.toJson :=
  Form.object_of_forall₂ (by simp) (by simp)

mutual

theorem Stmt.form_toJson : ∀ s : Stmt, s.form s.toJson
  | .expr _ | .ret _ | .decl _ => Form.object_of_forall₂ (by simp) (by simp)
  | .block body => Form.object_of_forall₂ (by simp) (by simp [Stmt.formList_listToJson body])
  | .branch _ yes none => Form.object_of_forall₂ (by simp) (by simp [Stmt.form_toJson yes])
  | .branch _ yes (some no) =>
    Form.object_of_forall₂ (by simp) (by simp [Stmt.form_toJson yes, Stmt.form_toJson no])
  | .loop _ body => Form.object_of_forall₂ (by simp) (by simp [Stmt.form_toJson body])

theorem Stmt.formList_listToJson : ∀ ss : List Stmt,
    Form.array (Stmt.formList ss) (.array (Stmt.listToJson ss))
  | [] => ⟨_, rfl, .nil⟩
  | s :: rest => by
    obtain ⟨items, hItems, hRest⟩ := Stmt.formList_listToJson rest
    cases hItems
    exact ⟨_, rfl, .cons (Stmt.form_toJson s) hRest⟩

end

attribute [simp] Stmt.form_toJson

@[simp] theorem FieldDecl.form_toJson (d : FieldDecl) : d.form d.toJson :=
  Form.object_of_forall₂ (by simp) (by simp)

@[simp] theorem PropertyDecl.form_toJson (d : PropertyDecl) : d.form d.toJson :=
  Form.object_of_forall₂ (by simp) (by simp)

@[simp] theorem MethodSignature.form_toJson (d : MethodSignature) : d.form d.toJson :=
  Form.object_of_forall₂ (by simp) (by simp)

@[simp] theorem ParamDecl.form_toJson (d : ParamDecl) : d.form d.toJson :=
  Form.object_of_forall₂ (by simp) (by simp)

@[simp] theorem MethodDecl.form_toJson (d : MethodDecl) : d.form d.toJson :=
  Form.object_of_forall₂ (by simp) (by simp)

@[simp] theorem InterfaceDecl.form_toJson (d : InterfaceDecl) : d.form d.toJson :=
  Form.object_of_forall₂ (by simp) (by simp)

@[simp] theorem ImplementationDecl.form_toJson (d : ImplementationDecl) : d.form d.toJson :=
  Form.object_of_forall₂ (by simp) (by simp)

@[simp] theorem LangOptions.form_toJson (o : LangOptions) : o.form o.toJson :=
  Form.object_of_forall₂ (by simp) (by simp)

theorem SourceUnit.form_toJson (unit : SourceUnit) : unit.form unit.toJson :=
  Form.object_of_forall₂ (by simp) (by simp)

end DelegateSafety
