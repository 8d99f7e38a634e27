import DelegateSafety.Program.Decode
import DelegateSafety.Proofs.JsonText
import DelegateSafety.Proofs.UnitForm

/-! # Source units come back as they were written

Whatever JSON value has the form of a source unit is read as that unit, its parts by their own
forms. With the reader of texts this covers every text that writes the unit.
-/
namespace DelegateSafety

open Json

namespace Json

variable {place : Place}

/-- A structure of the given fields is read inside of its object, by all its field names. -/
theorem Form.object.exists_values {fields : List Field} {j : Json} (names : List String)
    (hNames : fields.map (·.key) = names) (h : Form.object fields j)
    (hKeep : j.isKeepable place.depth) :
    ∃ inside values, place.inside? = some inside ∧ fields? names j = some values ∧
      List.Forall₂ (fun field value => field.Reads inside.depth value) fields values := by
  obtain ⟨members, depth, rfl, hDepth, hKept⟩ := h.exists_kept hKeep
  obtain ⟨values, hValues, hReads⟩ := hKept.fields? fields (List.Subset.refl _)
  exact ⟨⟨depth, place.whole⟩, values, by rw [Place.inside?, hDepth], hNames ▸ hValues, hReads⟩

theorem string?_form {s : String} {j : Json} (h : Form.text s j) : string? j = some s := by
  obtain rfl : j = .string s := h
  rfl

theorem uint32?_form {n : UInt32} {j : Json} (h : Form.exactly (.ofNat n.toNat) j) :
    uint32? j = some n := by
  obtain rfl : j = .ofNat n.toNat := h
  have hLt : (n.toNat : Int) < wordSize 32 := by exact_mod_cast n.toNat_lt
  simp [uint32?, ofNat, hLt]

theorem choice?_form {α : Type} {names : List (String × α)} {name : String} {x : α} {j : Json}
    (hName : names.lookup name = some x) (h : Form.text name j) : choice? names place j = some x := by
  obtain rfl : j = .string name := h
  exact hName

theorem int64?_form {n : Int64} {j : Json} (h : Form.exactly (.integer n.toInt) j) :
    int64? j = some n := by
  obtain rfl : j = .integer n.toInt := h
  have hLow : -(wordSize 63 : Int) ≤ n.toInt := n.le_toInt
  have hHigh : n.toInt < wordSize 63 := n.toInt_lt
  simp [int64?, hLow, hHigh]

theorem bool?_form {b : Bool} {j : Json} (h : Form.exactly (.bool b) j) : bool? j = some b := by
  obtain rfl : j = .bool b := h
  rfl

theorem tag?_eq {tag : String} {tags : List String} (hTag : tags.contains tag) {depth : Nat}
    {value : Option Json} (h : (Field.required "kind" (.text tag)).Reads depth value)
    (whole : Bool) : required (tag? tags whole) value = some tag := by
  refine required_eq h fun j hj _ => ?_
  obtain rfl : j = .string tag := hj
  rw [tag?, if_pos hTag]

/-- A tagged choice is read by its tag, and its fields next to the tag. -/
theorem Form.object.exists_tagged {tag : String} {fields : List Field} {j : Json} {depth : Nat}
    (tags : List String) (hTag : tags.contains tag) (names : List String)
    (hNames : fields.map (·.key) = names) (whole : Bool)
    (h : Form.object (.required "kind" (.text tag) :: fields) j) (hKeep : j.isKeepable depth) :
    ∃ inside values, depth = inside + 1 ∧ tagged? tags ⟨depth, whole⟩ j = some (tag, j) ∧
      fields? names j = some values ∧
      List.Forall₂ (fun field value => field.Reads inside value) fields values := by
  obtain ⟨members, inside, rfl, hDepth, hKept⟩ := h.exists_kept hKeep
  obtain ⟨values, hValues, hReads⟩ := hKept.fields? fields (List.subset_cons_self _ _)
  obtain ⟨kind, hKind, hTagReads⟩ := hKept.member? List.mem_cons_self
  rw [Field.key_required] at hKind
  refine ⟨inside, values, hDepth, ?_, hNames ▸ hValues, hReads⟩
  simp [tagged?, hKeep, hKind, tag?_eq hTag hTagReads whole]

end Json

section Leaves

variable {place : Place} {j : Json}

theorem Position.decode?_form {p : Position} (h : p.form j) (hKeep : j.isKeepable place.depth) :
    Position.decode? place j = some p := by
  obtain ⟨inside, values, hInside, hValues, hReads⟩ := h.exists_values ["line", "column"] rfl hKeep
  obtain _ | ⟨hLine, _ | ⟨hColumn, _ | _⟩⟩ := hReads
  have hLine := required_eq hLine fun _ h _ => uint32?_form h
  have hColumn := required_eq hColumn fun _ h _ => uint32?_form h
  simp only [Position.decode?, hInside, hValues, hLine, hColumn, Option.bind_eq_bind,
    Option.bind_some]

theorem SourceRange.decode?_form {r : SourceRange} (h : r.form j)
    (hKeep : j.isKeepable place.depth) : SourceRange.decode? place j = some r := by
  obtain ⟨inside, values, hInside, hValues, hReads⟩ := h.exists_values ["begin", "end"] rfl hKeep
  obtain _ | ⟨hStart, _ | ⟨hStop, _ | _⟩⟩ := hReads
  have hStart := required_eq hStart fun _ h hKeep => Position.decode?_form h hKeep
  have hStop := required_eq hStop fun _ h hKeep => Position.decode?_form h hKeep
  simp only [SourceRange.decode?, hInside, hValues, hStart, hStop, Option.bind_eq_bind,
    Option.bind_some]

theorem rangeOrUnknown_eq {r : SourceRange} {value : Option Json}
    (h : (rangeField r).Reads place.depth value) : rangeOrUnknown place value = some r :=
  orElse_eq h fun _ h hKeep => SourceRange.decode?_form h hKeep

theorem TypeRef.decode?_null : TypeRef.decode? place .null = none := by
  unfold TypeRef.decode?
  cases place.inside? <;> rfl

theorem TypeRef.decode?_form {type : TypeRef} (h : type.form j)
    (hKeep : j.isKeepable place.depth) : TypeRef.decode? place j = some type := by
  cases type with
  | object name | scalar name =>
    obtain ⟨members, rfl⟩ : ∃ members, j = .object members := h.imp fun _ hMembers => hMembers.1
    obtain ⟨inside, values, hInside, hValues, hReads⟩ := h.exists_values ["kind", "name"] rfl hKeep
    obtain _ | ⟨hKind, _ | ⟨hName, _ | _⟩⟩ := hReads
    have hKind : required (choice? typeKinds inside) _ = _ :=
      required_eq hKind fun _ h _ => choice?_form rfl h
    have hName := required_eq hName fun _ h _ => string?_form h
    simp [TypeRef.decode?, hInside, hValues, hKind, hName]
  | id =>
    obtain ⟨members, depth, rfl, hDepth, hKept⟩ := h.exists_kept hKeep
    obtain ⟨kind, hMember, hKind⟩ := hKept.member? List.mem_cons_self
    rw [Field.key_required] at hMember
    have hName := hKept.member?_eq_none (show "name" ∉ ["kind"] by decide)
    have hKind : required (choice? typeKinds ⟨depth, place.whole⟩) kind = _ :=
      required_eq hKind fun _ h _ => choice?_form rfl h
    simp [TypeRef.decode?, Place.inside?, hDepth, fields?, hMember, hName, hKind]

theorem Ownership.decode?_form {o : Ownership} (h : Form.text o.name j) :
    Ownership.decode? place j = some o := by
  cases o <;> exact choice?_form rfl h

theorem MethodKind.decode?_form {k : MethodKind} (h : Form.text k.name j) :
    MethodKind.decode? place j = some k := by
  cases k <;> exact choice?_form rfl h

theorem StorageClass.decode?_form {c : StorageClass} (h : Form.text c.name j) :
    StorageClass.decode? place j = some c := by
  cases c <;> exact choice?_form rfl h

theorem BinaryOp.decode?_form {o : BinaryOp} (h : Form.text o.name j) :
    BinaryOp.decode? place j = some o := by
  cases o <;> exact choice?_form rfl h

theorem UnaryOp.decode?_form {o : UnaryOp} (h : Form.text o.name j) :
    UnaryOp.decode? place j = some o := by
  cases o <;> exact choice?_form rfl h

end Leaves

/-! ## Expressions -/

namespace Decode

/-- An object whose kind and range are those of the expression, all of which can be kept. -/
structure Opens (e : Expr) (whole : Bool) (depth : Nat) (members : List (String × Json)) : Prop where
  keepable : isKeepable whole depth members
  range : (member? members "range").bind (rangeOrUnknown ⟨depth, whole⟩) = some e.range
  kind : (member? members "kind").bind (required (tag? exprKinds true)) = some e.kind

theorem Opens.guard {e : Expr} {whole : Bool} {depth : Nat} {members : List (String × Json)}
    (h : Opens e whole depth members) :
    (guard (isKeepable whole depth members) : Option Unit) = some () :=
  if_pos h.keepable

theorem exists_opens {e : Expr} {fields : List Field} {j : Json} {depth : Nat} (whole : Bool)
    (names : List String) (hNames : fields.map (·.key) = names) (h : e.formWith fields j)
    (hKeep : j.isKeepable depth) :
    ∃ members inside values, j = .object members ∧ depth = inside + 1 ∧
      Opens e whole inside members ∧ fields? names (.object members) = some values ∧
      List.Forall₂ (fun field value => field.Reads inside value) fields values := by
  obtain ⟨members, inside, rfl, rfl, hKept⟩ := Form.object.exists_kept h hKeep
  obtain ⟨values, hValues, hReads⟩ := hKept.fields? fields (by simp)
  refine ⟨members, inside, values, rfl, rfl, ⟨?_, ?_, ?_⟩, hNames ▸ hValues, hReads⟩
  · rw [isKeepable, Bool.or_eq_true, List.all_eq_true]
    refine .inr fun member hMember => ?_
    simp [hKept.keepable member hMember]
  · obtain ⟨value, hValue, hRange⟩ := hKept.member? (List.mem_append_right _ List.mem_cons_self)
    rw [key_rangeField] at hValue
    rw [hValue, Option.bind_some]
    exact rangeOrUnknown_eq hRange
  · obtain ⟨value, hValue, hKind⟩ := hKept.member? List.mem_cons_self
    rw [Field.key_required] at hValue
    rw [hValue, Option.bind_some]
    exact tag?_eq (by cases e <;> rfl) hKind true

/-- Whatever has the form of the expression is read as the expression. -/
def Readable (e : Expr) : Prop :=
  ∀ (whole : Bool) (depth : Nat) (j : Json), e.form j → j.isKeepable depth →
    expr? whole depth j = some e

namespace Readable

attribute [local simp] expr? Expr.kind Expr.range

variable {range : SourceRange}

theorem required {e : Expr} (he : Readable e) {key : String} {depth : Nat} {value : Option Json}
    (h : (Field.required key e.form).Reads depth value) :
    Json.required (expr? true depth) value = some e :=
  required_eq h fun j => he true depth j

theorem orElse {es : List Expr} (hAll : ∀ e ∈ es, Readable e) {key : String} {depth : Nat}
    {value : Option Json}
    (h : (Field.optional key (es = []) (.array (Expr.formList es))).Reads depth value) :
    Json.orElse [] (exprs? depth) value = some es := by
  refine orElse_eq h fun j hj hKeep => ?_
  rw [Expr.formList_eq_map] at hj
  obtain ⟨items, inside, rfl, rfl, hItems⟩ :=
    exists_items (expr? true) hj hKeep fun e he inside => hAll e he true inside
  exact hItems

theorem self : Readable (.self range) := by
  intro whole depth j h hKeep
  obtain ⟨members, inside, values, rfl, rfl, hOpens, -, -⟩ := exists_opens whole [] rfl h hKeep
  simp [↓hOpens.guard, hOpens.range, hOpens.kind]

theorem nil : Readable (.nil range) := by
  intro whole depth j h hKeep
  obtain ⟨members, inside, values, rfl, rfl, hOpens, -, -⟩ := exists_opens whole [] rfl h hKeep
  simp [↓hOpens.guard, hOpens.range, hOpens.kind]

theorem int {value : Int64} : Readable (.int value range) := by
  intro whole depth j h hKeep
  obtain ⟨members, inside, values, rfl, rfl, hOpens, hValues, hReads⟩ :=
    exists_opens whole ["value"] rfl h hKeep
  obtain _ | ⟨hValue, _ | _⟩ := hReads
  have hValue := required_eq hValue fun _ h _ => int64?_form h
  simp [↓hOpens.guard, hOpens.range, hOpens.kind, hValues, hValue]

theorem var {name : String} {type : Option TypeRef} : Readable (.var name type range) := by
  intro whole depth j h hKeep
  obtain ⟨members, inside, values, rfl, rfl, hOpens, hValues, hReads⟩ :=
    exists_opens whole ["name", "ty"] rfl h hKeep
  obtain _ | ⟨hName, _ | ⟨hType, _ | _⟩⟩ := hReads
  have hName := required_eq hName fun _ h _ => string?_form h
  have hType : Json.orElse none (nullable (TypeRef.decode? ⟨inside, true⟩)) _ = _ :=
    orElse_eq hType fun _ h hKeep => nullable_eq h TypeRef.decode?_null
      fun _ _ h => TypeRef.decode?_form h hKeep
  simp [↓hOpens.guard, hOpens.range, hOpens.kind, hValues, hName, hType]

theorem field {name : String} : Readable (.field name range) := by
  intro whole depth j h hKeep
  obtain ⟨members, inside, values, rfl, rfl, hOpens, hValues, hReads⟩ :=
    exists_opens whole ["field"] rfl h hKeep
  obtain _ | ⟨hName, _ | _⟩ := hReads
  have hName := required_eq hName fun _ h _ => string?_form h
  simp [↓hOpens.guard, hOpens.range, hOpens.kind, hValues, hName]

theorem selector {name : String} : Readable (.selector name range) := by
  intro whole depth j h hKeep
  obtain ⟨members, inside, values, rfl, rfl, hOpens, hValues, hReads⟩ :=
    exists_opens whole ["selector"] rfl h hKeep
  obtain _ | ⟨hName, _ | _⟩ := hReads
  have hName := required_eq hName fun _ h _ => string?_form h
  simp [↓hOpens.guard, hOpens.range, hOpens.kind, hValues, hName]

theorem assign {lhs rhs : Expr} (hLhs : Readable lhs) (hRhs : Readable rhs) :
    Readable (.assign lhs rhs range) := by
  intro whole depth j h hKeep
  obtain ⟨members, inside, values, rfl, rfl, hOpens, hValues, hReads⟩ :=
    exists_opens whole ["lhs", "rhs"] rfl h hKeep
  obtain _ | ⟨hLeft, _ | ⟨hRight, _ | _⟩⟩ := hReads
  simp [↓hOpens.guard, hOpens.range, hOpens.kind, hValues,
    hLhs.required hLeft, hRhs.required hRight]

theorem binary {op : BinaryOp} {lhs rhs : Expr} (hLhs : Readable lhs) (hRhs : Readable rhs) :
    Readable (.binary op lhs rhs range) := by
  intro whole depth j h hKeep
  obtain ⟨members, inside, values, rfl, rfl, hOpens, hValues, hReads⟩ :=
    exists_opens whole ["op", "lhs", "rhs"] rfl h hKeep
  obtain _ | ⟨hOp, _ | ⟨hLeft, _ | ⟨hRight, _ | _⟩⟩⟩ := hReads
  have hOp : Json.required (BinaryOp.decode? ⟨inside, true⟩) _ = _ :=
    required_eq hOp fun _ h _ => BinaryOp.decode?_form h
  simp [↓hOpens.guard, hOpens.range, hOpens.kind, hValues, hOp,
    hLhs.required hLeft, hRhs.required hRight]

theorem unary {op : UnaryOp} {inner : Expr} (hInner : Readable inner) :
    Readable (.unary op inner range) := by
  intro whole depth j h hKeep
  obtain ⟨members, inside, values, rfl, rfl, hOpens, hValues, hReads⟩ :=
    exists_opens whole ["op", "operand"] rfl h hKeep
  obtain _ | ⟨hOp, _ | ⟨hOperand, _ | _⟩⟩ := hReads
  have hOp : Json.required (UnaryOp.decode? ⟨inside, true⟩) _ = _ :=
    required_eq hOp fun _ h _ => UnaryOp.decode?_form h
  simp [↓hOpens.guard, hOpens.range, hOpens.kind, hValues, hOp, hInner.required hOperand]

theorem paren {inner : Expr} (hInner : Readable inner) : Readable (.paren inner range) := by
  intro whole depth j h hKeep
  obtain ⟨members, inside, values, rfl, rfl, hOpens, hValues, hReads⟩ :=
    exists_opens whole ["inner"] rfl h hKeep
  obtain _ | ⟨hValue, _ | _⟩ := hReads
  simp [↓hOpens.guard, hOpens.range, hOpens.kind, hValues, hInner.required hValue]

theorem cast {type : TypeRef} {inner : Expr} (hInner : Readable inner) :
    Readable (.cast type inner range) := by
  intro whole depth j h hKeep
  obtain ⟨members, inside, values, rfl, rfl, hOpens, hValues, hReads⟩ :=
    exists_opens whole ["ty", "inner"] rfl h hKeep
  obtain _ | ⟨hType, _ | ⟨hValue, _ | _⟩⟩ := hReads
  have hType : Json.required (TypeRef.decode? ⟨inside, true⟩) _ = _ :=
    required_eq hType fun _ h hKeep => TypeRef.decode?_form h hKeep
  simp [↓hOpens.guard, hOpens.range, hOpens.kind, hValues, hType, hInner.required hValue]

theorem call {callee : String} {args : List Expr} (hArgs : ∀ e ∈ args, Readable e) :
    Readable (.call callee args range) := by
  intro whole depth j h hKeep
  obtain ⟨members, inside, values, rfl, rfl, hOpens, hValues, hReads⟩ :=
    exists_opens whole ["callee", "args"] rfl h hKeep
  obtain _ | ⟨hCallee, _ | ⟨hAll, _ | _⟩⟩ := hReads
  have hCallee := required_eq hCallee fun _ h _ => string?_form h
  simp [↓hOpens.guard, hOpens.range, hOpens.kind, hValues, hCallee, orElse hArgs hAll]

theorem other {parts : List Expr} (hParts : ∀ e ∈ parts, Readable e) :
    Readable (.other parts range) := by
  intro whole depth j h hKeep
  obtain ⟨members, inside, values, rfl, rfl, hOpens, hValues, hReads⟩ :=
    exists_opens whole ["children"] rfl h hKeep
  obtain _ | ⟨hAll, _ | _⟩ := hReads
  simp [↓hOpens.guard, hOpens.range, hOpens.kind, hValues, orElse hParts hAll]

/-- A message is read once its receiver is. -/
theorem send {m : Message Expr} {receiver : Form}
    (hForm : (Expr.send m range).form = (Expr.send m range).formWith
      [.required "receiver" receiver, .required "selector" (.text m.selector),
        .optional "args" (m.args = []) (.array (Expr.formList m.args))])
    (hReceiver : ∀ {j depth}, receiver j → j.isKeepable depth → receiver? depth j = some m.receiver)
    (hArgs : ∀ e ∈ m.args, Readable e) : Readable (.send m range) := by
  intro whole depth j h hKeep
  rw [hForm] at h
  obtain ⟨members, inside, values, rfl, rfl, hOpens, hValues, hReads⟩ :=
    exists_opens whole ["receiver", "selector", "args"] rfl h hKeep
  obtain _ | ⟨hTo, _ | ⟨hSelector, _ | ⟨hAll, _ | _⟩⟩⟩ := hReads
  have hTo := required_eq hTo fun _ h hKeep => hReceiver h hKeep
  have hSelector := required_eq hSelector fun _ h _ => string?_form h
  simp [↓hOpens.guard, hOpens.range, hOpens.kind, hValues, hTo, hSelector, orElse hArgs hAll]

end Readable

section Receivers

variable {j : Json} {depth : Nat}

theorem receiver?_object {target : Expr} (hTarget : Readable target)
    (h : Form.object [.required "kind" (.text "instance"), .required "expr" target.form] j)
    (hKeep : j.isKeepable depth) : receiver? depth j = some (.object target) := by
  obtain ⟨inside, values, rfl, hTagged, hValues, hReads⟩ :=
    h.exists_tagged receiverKinds rfl ["expr"] rfl true hKeep
  obtain _ | ⟨hExpr, _ | _⟩ := hReads
  simp [receiver?, hTagged, hValues, hTarget.required hExpr]

theorem receiver?_named {className : String}
    (h : Form.object [.required "kind" (.text "class"), .required "name" (.text className)] j)
    (hKeep : j.isKeepable depth) : receiver? depth j = some (.named className) := by
  obtain ⟨inside, values, rfl, hTagged, hValues, hReads⟩ :=
    h.exists_tagged receiverKinds rfl ["name"] rfl true hKeep
  obtain _ | ⟨hName, _ | _⟩ := hReads
  have hName := required_eq hName fun _ h _ => string?_form h
  simp [receiver?, hTagged, hValues, hName]

theorem receiver?_super (h : Form.object [.required "kind" (.text "super")] j)
    (hKeep : j.isKeepable depth) : receiver? depth j = some .super := by
  obtain ⟨inside, values, rfl, hTagged, hValues, hReads⟩ :=
    h.exists_tagged receiverKinds rfl [] rfl true hKeep
  cases hReads
  simp [receiver?, hTagged, hValues]

end Receivers

theorem readable (e : Expr) : Readable e := by
  induction e using Expr.inductionOn with
  | step e ih =>
  cases e with
  | self _ => exact .self
  | nil _ => exact .nil
  | int _ _ => exact .int
  | var _ _ _ => exact .var
  | field _ _ => exact .field
  | selector _ _ => exact .selector
  | send m _ =>
    obtain ⟨target | className | _, sel, args⟩ := m
    · obtain ⟨hTarget, hArgs⟩ := List.forall_mem_cons.mp ih
      exact .send rfl (receiver?_object hTarget) hArgs
    · exact .send rfl receiver?_named ih
    · exact .send rfl receiver?_super ih
  | assign lhs rhs _ =>
    obtain ⟨hLhs, hRhs⟩ := List.forall_mem_cons.mp ih
    exact .assign hLhs (hRhs rhs List.mem_cons_self)
  | binary _ lhs rhs _ =>
    obtain ⟨hLhs, hRhs⟩ := List.forall_mem_cons.mp ih
    exact .binary hLhs (hRhs rhs List.mem_cons_self)
  | unary _ inner _ => exact .unary (ih inner List.mem_cons_self)
  | paren inner _ => exact .paren (ih inner List.mem_cons_self)
  | cast _ inner _ => exact .cast (ih inner List.mem_cons_self)
  | call _ _ _ => exact .call ih
  | other _ _ => exact .other ih

theorem expr?_null (whole : Bool) (depth : Nat) : expr? whole depth .null = none := by
  cases depth <;> rfl

theorem orElse_expr? {value : Option Expr} {key : String} {depth : Nat} {j : Option Json}
    (whole : Bool)
    (h : (Field.optional key (value = none) (.option Expr.form value)).Reads depth j) :
    Json.orElse none (nullable (expr? whole depth)) j = some value :=
  orElse_eq h fun j h hKeep => nullable_eq h (expr?_null whole depth)
    fun e _ h => readable e whole depth j h hKeep

/-! ## Declarations of variables and statements -/

theorem varDecl?_form {v : VarDecl} {place : Place} {j : Json} (h : v.form j)
    (hKeep : j.isKeepable place.depth) : varDecl? place j = some v := by
  obtain ⟨inside, values, hInside, hValues, hReads⟩ :=
    h.exists_values ["name", "ty", "storage", "init", "range"] rfl hKeep
  obtain _ | ⟨hName, _ | ⟨hType, _ | ⟨hStorage, _ | ⟨hInit, _ | ⟨hRange, _ | _⟩⟩⟩⟩⟩ := hReads
  have hName := required_eq hName fun _ h _ => string?_form h
  have hType := required_eq hType fun _ h hKeep => TypeRef.decode?_form h hKeep
  have hStorage : Json.orElse .local (StorageClass.decode? inside) _ = _ :=
    orElse_eq hStorage fun _ h _ => StorageClass.decode?_form h
  have hInit := orElse_expr? inside.whole hInit
  have hRange := rangeOrUnknown_eq hRange
  simp [varDecl?, hInside, hValues, hName, hType, hStorage, hInit, hRange]

theorem stmt?_null (whole : Bool) (depth : Nat) : stmt? whole depth .null = none := by
  cases depth <;> rfl

/-- Whatever has the form of the statement is read as the statement. -/
def ReadableStmt (s : Stmt) : Prop :=
  ∀ (whole : Bool) (depth : Nat) (j : Json), s.form j → j.isKeepable depth →
    stmt? whole depth j = some s

theorem ReadableStmt.required {s : Stmt} (hs : ReadableStmt s) {key : String} {depth : Nat}
    {value : Option Json} (h : (Field.required key s.form).Reads depth value) :
    Json.required (stmt? true depth) value = some s :=
  required_eq h fun j => hs true depth j

theorem ReadableStmt.orElse {ss : List Stmt} (hAll : ∀ s ∈ ss, ReadableStmt s) {key : String}
    {depth : Nat} {value : Option Json}
    (h : (Field.optional key (ss = []) (.array (Stmt.formList ss))).Reads depth value) :
    Json.orElse [] (stmts? depth) value = some ss := by
  refine orElse_eq h fun j hj hKeep => ?_
  rw [Stmt.formList_eq_map] at hj
  obtain ⟨items, inside, rfl, rfl, hItems⟩ :=
    exists_items (stmt? true) hj hKeep fun s hs inside => hAll s hs true inside
  exact hItems

theorem ReadableStmt.branch {cond : Expr} {yes : Stmt} {no : Option Stmt} (hYes : ReadableStmt yes)
    (hNo : ∀ s ∈ no, ReadableStmt s) : ReadableStmt (.branch cond yes no) := by
  intro whole depth j h hKeep
  rw [Stmt.form_branch] at h
  obtain ⟨inside, values, rfl, hTagged, hValues, hReads⟩ :=
    h.exists_tagged stmtKinds rfl ["cond", "then", "otherwise"] rfl whole hKeep
  obtain _ | ⟨hCond, _ | ⟨hThen, _ | ⟨hOtherwise, _ | _⟩⟩⟩ := hReads
  have hCond := (readable cond).required hCond
  have hThen := hYes.required hThen
  have hOtherwise := orElse_eq hOtherwise fun j h hKeep =>
    nullable_eq h (stmt?_null true inside) fun s hs h => hNo s hs true inside j h hKeep
  simp [stmt?, hTagged, hValues, hCond, hThen, hOtherwise]

mutual

theorem readableStmt : ∀ s : Stmt, ReadableStmt s
  | .expr e => by
    intro whole depth j h hKeep
    obtain ⟨inside, values, rfl, hTagged, hValues, hReads⟩ :=
      h.exists_tagged stmtKinds rfl ["expr"] rfl whole hKeep
    obtain _ | ⟨hExpr, _ | _⟩ := hReads
    have hExpr := (readable e).required hExpr
    simp [stmt?, hTagged, hValues, hExpr]
  | .block body => by
    intro whole depth j h hKeep
    obtain ⟨inside, values, rfl, hTagged, hValues, hReads⟩ :=
      h.exists_tagged stmtKinds rfl ["stmts"] rfl whole hKeep
    obtain _ | ⟨hBody, _ | _⟩ := hReads
    have hBody := ReadableStmt.orElse (forall_readableStmt body) hBody
    simp [stmt?, hTagged, hValues, hBody]
  | .branch _ yes none => .branch (readableStmt yes) nofun
  | .branch _ yes (some no) =>
    .branch (readableStmt yes) fun _ h => Option.mem_some.mp h ▸ readableStmt no
  | .loop cond body => by
    intro whole depth j h hKeep
    obtain ⟨inside, values, rfl, hTagged, hValues, hReads⟩ :=
      h.exists_tagged stmtKinds rfl ["cond", "body"] rfl whole hKeep
    obtain _ | ⟨hCond, _ | ⟨hBody, _ | _⟩⟩ := hReads
    have hCond := (readable cond).required hCond
    have hBody := (readableStmt body).required hBody
    simp [stmt?, hTagged, hValues, hCond, hBody]
  | .ret value => by
    intro whole depth j h hKeep
    obtain ⟨inside, values, rfl, hTagged, hValues, hReads⟩ :=
      h.exists_tagged stmtKinds rfl ["value"] rfl whole hKeep
    obtain _ | ⟨hValue, _ | _⟩ := hReads
    have hValue := orElse_expr? true hValue
    simp [stmt?, hTagged, hValues, hValue]
  | .decl v => by
    intro whole depth j h hKeep
    obtain ⟨inside, values, rfl, hTagged, hValues, hReads⟩ :=
      h.exists_tagged stmtKinds rfl ["decl"] rfl whole hKeep
    obtain _ | ⟨hDecl, _ | _⟩ := hReads
    have hDecl : Json.required (varDecl? ⟨inside, true⟩) _ = _ :=
      required_eq hDecl fun _ h hKeep => varDecl?_form h hKeep
    simp [stmt?, hTagged, hValues, hDecl]

theorem forall_readableStmt : ∀ ss : List Stmt, ∀ s ∈ ss, ReadableStmt s
  | [] => nofun
  | s :: rest => List.forall_mem_cons.mpr ⟨readableStmt s, forall_readableStmt rest⟩

end

/-! ## Declarations -/

section Declarations

variable {place : Place} {j : Json}

theorem fieldDecl?_form {d : FieldDecl} (h : d.form j) (hKeep : j.isKeepable place.depth) :
    fieldDecl? place j = some d := by
  obtain ⟨inside, values, hInside, hValues, hReads⟩ :=
    h.exists_values ["name", "ty", "range"] rfl hKeep
  obtain _ | ⟨hName, _ | ⟨hType, _ | ⟨hRange, _ | _⟩⟩⟩ := hReads
  have hName := required_eq hName fun _ h _ => string?_form h
  have hType := required_eq hType fun _ h hKeep => TypeRef.decode?_form h hKeep
  have hRange := rangeOrUnknown_eq hRange
  simp [fieldDecl?, hInside, hValues, hName, hType, hRange]

theorem propertyDecl?_form {d : PropertyDecl} (h : d.form j) (hKeep : j.isKeepable place.depth) :
    propertyDecl? place j = some d := by
  obtain ⟨inside, values, hInside, hValues, hReads⟩ :=
    h.exists_values ["name", "ty", "ownership", "backing_field", "range"] rfl hKeep
  obtain _ | ⟨hName, _ | ⟨hType, _ | ⟨hOwnership, _ | ⟨hBacking, _ | ⟨hRange, _ | _⟩⟩⟩⟩⟩ := hReads
  have hName := required_eq hName fun _ h _ => string?_form h
  have hType := required_eq hType fun _ h hKeep => TypeRef.decode?_form h hKeep
  have hOwnership : orElse .strong (Ownership.decode? inside) _ = _ :=
    orElse_eq hOwnership fun _ h _ => Ownership.decode?_form h
  have hBacking := orElse_eq hBacking fun _ h _ => nullable_eq h rfl fun _ _ => string?_form
  have hRange := rangeOrUnknown_eq hRange
  simp [propertyDecl?, hInside, hValues, hName, hType, hOwnership, hBacking, hRange]

theorem methodSignature?_form {d : MethodSignature} (h : d.form j)
    (hKeep : j.isKeepable place.depth) : methodSignature? place j = some d := by
  obtain ⟨inside, values, hInside, hValues, hReads⟩ :=
    h.exists_values ["selector", "kind"] rfl hKeep
  obtain _ | ⟨hSelector, _ | ⟨hKind, _ | _⟩⟩ := hReads
  have hSelector := required_eq hSelector fun _ h _ => string?_form h
  have hKind : orElse .instanceMethod (MethodKind.decode? inside) _ = _ :=
    orElse_eq hKind fun _ h _ => MethodKind.decode?_form h
  simp [methodSignature?, hInside, hValues, hSelector, hKind]

theorem paramDecl?_form {d : ParamDecl} (h : d.form j) (hKeep : j.isKeepable place.depth) :
    paramDecl? place j = some d := by
  obtain ⟨inside, values, hInside, hValues, hReads⟩ := h.exists_values ["name", "ty"] rfl hKeep
  obtain _ | ⟨hName, _ | ⟨hType, _ | _⟩⟩ := hReads
  have hName := required_eq hName fun _ h _ => string?_form h
  have hType := required_eq hType fun _ h hKeep => TypeRef.decode?_form h hKeep
  simp [paramDecl?, hInside, hValues, hName, hType]

/-- A list that may be left out when it is empty. -/
theorem orElse_list? {α : Type} {decode : Place → Json → Option α} {form : α → Form} {xs : List α}
    {key : String} {value : Option Json}
    (h : (Field.optional key (xs = []) (.array (xs.map form))).Reads place.depth value)
    (hDecode : ∀ {x place j}, form x j → j.isKeepable place.depth → decode place j = some x) :
    orElse [] (list? decode place) value = some xs :=
  orElse_eq h fun _ h hKeep => list?_eq h hKeep fun _ _ _ _ => hDecode

theorem methodDecl?_form {d : MethodDecl} (h : d.form j) (hKeep : j.isKeepable place.depth) :
    methodDecl? place j = some d := by
  obtain ⟨inside, values, hInside, hValues, hReads⟩ :=
    h.exists_values ["selector", "kind", "params", "body", "implicit", "range"] rfl hKeep
  obtain _ | ⟨hSelector, _ | ⟨hKind, _ | ⟨hParams, _ | ⟨hBody, _ | ⟨hImplicit,
    _ | ⟨hRange, _ | _⟩⟩⟩⟩⟩⟩ := hReads
  have hSelector := required_eq hSelector fun _ h _ => string?_form h
  have hKind : orElse .instanceMethod (MethodKind.decode? inside) _ = _ :=
    orElse_eq hKind fun _ h _ => MethodKind.decode?_form h
  have hParams := orElse_list? hParams paramDecl?_form
  have hBody := orElse_eq hBody fun j h hKeep =>
    nullable_eq h (stmt?_null inside.whole inside.depth)
      fun s _ h => readableStmt s inside.whole inside.depth j h hKeep
  have hImplicit := orElse_eq hImplicit fun _ h _ => bool?_form h
  have hRange := rangeOrUnknown_eq hRange
  simp [methodDecl?, hInside, hValues, hSelector, hKind, hParams, hBody, hImplicit, hRange]

theorem interfaceDecl?_form {d : InterfaceDecl} (h : d.form j) (hKeep : j.isKeepable place.depth) :
    interfaceDecl? place j = some d := by
  obtain ⟨inside, values, hInside, hValues, hReads⟩ :=
    h.exists_values ["name", "superclass", "fields", "properties", "methods", "range"] rfl hKeep
  obtain _ | ⟨hName, _ | ⟨hSuperclass, _ | ⟨hFields, _ | ⟨hProperties, _ | ⟨hMethods,
    _ | ⟨hRange, _ | _⟩⟩⟩⟩⟩⟩ := hReads
  have hName := required_eq hName fun _ h _ => string?_form h
  have hSuperclass := orElse_eq hSuperclass fun _ h _ => nullable_eq h rfl fun _ _ => string?_form
  have hFields := orElse_list? hFields fieldDecl?_form
  have hProperties := orElse_list? hProperties propertyDecl?_form
  have hMethods := orElse_list? hMethods methodSignature?_form
  have hRange := rangeOrUnknown_eq hRange
  simp [interfaceDecl?, hInside, hValues, hName, hSuperclass, hFields, hProperties, hMethods, hRange]

theorem implementationDecl?_form {d : ImplementationDecl} (h : d.form j)
    (hKeep : j.isKeepable place.depth) : implementationDecl? place j = some d := by
  obtain ⟨inside, values, hInside, hValues, hReads⟩ :=
    h.exists_values ["name", "fields", "methods", "range"] rfl hKeep
  obtain _ | ⟨hName, _ | ⟨hFields, _ | ⟨hMethods, _ | ⟨hRange, _ | _⟩⟩⟩⟩ := hReads
  have hName := required_eq hName fun _ h _ => string?_form h
  have hFields := orElse_list? hFields fieldDecl?_form
  have hMethods := orElse_list? hMethods methodDecl?_form
  have hRange := rangeOrUnknown_eq hRange
  simp [implementationDecl?, hInside, hValues, hName, hFields, hMethods, hRange]

theorem langOptions?_form {o : LangOptions} (h : o.form j) (hKeep : j.isKeepable place.depth) :
    langOptions? place j = some o := by
  obtain ⟨inside, values, hInside, hValues, hReads⟩ :=
    h.exists_values ["auto_release_fields"] rfl hKeep
  obtain _ | ⟨hAutoRelease, _ | _⟩ := hReads
  have hAutoRelease := orElse_eq hAutoRelease fun _ h _ => bool?_form h
  simp [langOptions?, hInside, hValues, hAutoRelease]

theorem sourceUnit?_form {unit : SourceUnit} (h : unit.form j) (hKeep : j.isKeepable place.depth) :
    sourceUnit? place j = some unit := by
  obtain ⟨inside, values, hInside, hValues, hReads⟩ :=
    h.exists_values ["path", "lang", "interfaces", "implementations", "globals"] rfl hKeep
  obtain _ | ⟨hPath, _ | ⟨hLang, _ | ⟨hInterfaces, _ | ⟨hImplementations,
    _ | ⟨hGlobals, _ | _⟩⟩⟩⟩⟩ := hReads
  have hPath := orElse_eq hPath fun _ h _ => string?_form h
  have hLang := orElse_eq hLang fun _ h hKeep => langOptions?_form h hKeep
  have hInterfaces := orElse_list? hInterfaces interfaceDecl?_form
  have hImplementations := orElse_list? hImplementations implementationDecl?_form
  have hGlobals := orElse_list? hGlobals varDecl?_form
  simp [sourceUnit?, hInside, hValues, hPath, hLang, hInterfaces, hImplementations, hGlobals]

end Declarations

end Decode

/-- What the encoder writes has the form of the unit, and every text that writes the unit in its form
is read as the unit; without a path of its own the unit gets that of its text. -/
theorem SourceUnit.parse_undoes_writing (unit : SourceUnit) :
    unit.form unit.toJson ∧
      ∀ (j : Json) (text : String), unit.form j → j.Writes text → j.nesting ≤ 127 →
        ∀ origin : String,
          (unit.path ≠ "" → SourceUnit.parse text origin = .ok unit) ∧
          (unit.path = "" → SourceUnit.parse text origin = .ok { unit with path := origin }) := by
  refine ⟨unit.form_toJson, fun j text hForm hText hNesting origin => ?_⟩
  have hKeep : j.isKeepable nestingLimit :=
    (isKeepable_iff j nestingLimit).mpr ⟨isReadable_of_writes hText, hNesting⟩
  have hUnit : SourceUnit.ofJson? j = some unit := Decode.sourceUnit?_form hForm hKeep
  have hParse : SourceUnit.parse text origin = .ok (unit.withOrigin origin) := by
    rw [SourceUnit.parse, read?_of_writes hText, Option.bind_some, hUnit]
  rw [hParse, SourceUnit.withOrigin]
  exact ⟨fun hPath => by rw [if_neg hPath], fun hPath => by rw [if_pos hPath]⟩

/-- Keys out of order, blanks, and fields left out on two levels. -/
def Sample.globalBeforePath : String :=
  "\x7b \"globals\":\n [\x7b\"ty\":\x7b\"kind\":\"id\"\x7d, \"name\":\"shared\"\x7d], \"path\":\"a.m\" \x7d"

theorem SourceUnit.parse_global_before_path :
    SourceUnit.parse Sample.globalBeforePath "b.m" =
      .ok { path := "a.m", lang := ⟨true⟩, interfaces := [], implementations := [],
            globals := [⟨"shared", .id, .local, none, .unknown⟩] } := by
  let global : Json := .object [("ty", TypeRef.id.toJson), ("name", .string "shared")]
  have hGlobal : VarDecl.form ⟨"shared", .id, .local, none, .unknown⟩ global := by
    refine ⟨_, rfl, .perm ?_ (.swap _ _ _)⟩
    refine .cons (.cons ?_ (by simp) (TypeRef.form_toJson .id)) (by simp) rfl
    exact .skip (.skip (.skip .nil (by simp) rfl) (by simp) rfl) (by simp) rfl
  refine ((SourceUnit.parse_undoes_writing _).2
    (.object [("globals", .array [global]), ("path", .string "a.m")]) _ ?_ ?_ (by decide) _).1
      (by decide)
  · refine ⟨_, rfl, .perm ?_ (.swap _ _ _)⟩
    refine .cons (.skip (.skip (.skip ?_ (by simp) rfl) (by simp) rfl) (by simp) rfl) (by simp) rfl
    exact .cons .nil (by simp) ⟨_, rfl, .cons hGlobal .nil⟩
  · refine .mark rfl <| .blank rfl <| .plain rfl <| .mark rfl <| .blank rfl <| .blank rfl ?_
    refine .mark rfl <| .mark rfl <| .plain rfl <| .mark rfl ?_
    refine .mark rfl <| .plain rfl <| .mark rfl <| .plain rfl <| .mark rfl ?_
    refine .mark rfl <| .blank rfl <| .plain rfl <| .mark rfl <| .plain rfl ?_
    refine .mark rfl <| .mark rfl <| .mark rfl <| .blank rfl ?_
    exact .plain rfl <| .mark rfl <| .plain rfl <| .blank rfl <| .mark rfl .nil

end DelegateSafety
