import Mathlib.Data.List.Forall2
import Mathlib.Data.Option.Basic
import DelegateSafety.Program.Scope

/-! # Source code that differs in places

Two expressions are related by `Expr.Rewrites` if one comes from the other by replacing parts anywhere
in it, each by a given kind of step. Statements, methods and units are related if their expressions are
and they are otherwise the same.
-/
namespace DelegateSafety

section

variable {α β γ : Type} {R : α → β → Prop}

theorem any_eq_of_rel {a : Option α} {b : Option β} {f : α → Bool} {g : β → Bool}
    (h : Option.Rel R a b) (hEq : ∀ x y, R x y → f x = g y) : a.any f = b.any g := by
  cases h with
  | some hxy => exact hEq _ _ hxy
  | none => rfl

theorem bind_eq_of_rel {a : Option α} {b : Option β} {f : α → Option γ} {g : β → Option γ}
    (h : Option.Rel R a b) (hEq : ∀ x y, R x y → f x = g y) : a.bind f = b.bind g := by
  cases h with
  | some hxy => exact hEq _ _ hxy
  | none => rfl

theorem rel_refl {R : α → α → Prop} (h : ∀ a, R a a) : ∀ a : Option α, Option.Rel R a a
  | none => .none
  | some a => .some (h a)

theorem rel_mono {S : α → β → Prop} (hImp : ∀ x y, R x y → S x y) {a : Option α} {b : Option β}
    (h : Option.Rel R a b) : Option.Rel S a b := by
  cases h with
  | some hxy => exact .some (hImp _ _ hxy)
  | none => exact .none

theorem forall₂_toList_of_rel {a : Option α} {b : Option β} (h : Option.Rel R a b) :
    List.Forall₂ R a.toList b.toList := by
  cases h with
  | some hxy => exact .cons hxy .nil
  | none => exact .nil

theorem map_eq_of_rel {as : List α} {bs : List β} {f : α → γ} {g : β → γ}
    (h : List.Forall₂ R as bs) (hEq : ∀ x y, R x y → f x = g y) : as.map f = bs.map g := by
  induction h with
  | nil => rfl
  | cons hxy _ ih => rw [List.map_cons, List.map_cons, hEq _ _ hxy, ih]

theorem flatMap_eq_of_rel {as : List α} {bs : List β} {f : α → List γ} {g : β → List γ}
    (h : List.Forall₂ R as bs) (hEq : ∀ x y, R x y → f x = g y) : as.flatMap f = bs.flatMap g := by
  rw [List.flatMap_def, List.flatMap_def, map_eq_of_rel h hEq]

theorem findSome?_eq_of_rel {as : List α} {bs : List β} {f : α → Option γ} {g : β → Option γ}
    (h : List.Forall₂ R as bs) (hEq : ∀ x y, R x y → f x = g y) : as.findSome? f = bs.findSome? g := by
  induction h with
  | nil => rfl
  | cons hxy _ ih => rw [List.findSome?_cons, List.findSome?_cons, hEq _ _ hxy, ih]

end

namespace Expr

/-- The same expression with other operands, as long as they are as many. -/
def withOperands : Expr → List Expr → Expr
  | send ⟨.object _, sel, _⟩ r, target :: args => send ⟨.object target, sel, args⟩ r
  | send ⟨.named className, sel, _⟩ r, args => send ⟨.named className, sel, args⟩ r
  | send ⟨.super, sel, _⟩ r, args => send ⟨.super, sel, args⟩ r
  | assign _ _ r, [target, value] => assign target value r
  | binary op _ _ r, [lhs, rhs] => binary op lhs rhs r
  | unary op _ r, [operand] => unary op operand r
  | paren _ r, [inner] => paren inner r
  | cast type _ r, [inner] => cast type inner r
  | call callee _ r, args => call callee args r
  | other _ r, parts => other parts r
  | e, _ => e

theorem withOperands_operands (e : Expr) : e.withOperands e.operands = e := by
  cases e with
  | send m _ =>
    obtain ⟨receiver, _, _⟩ := m
    cases receiver <;> rfl
  | _ => rfl

/-- A send with other operands sends a message with the same selector. -/
theorem exists_withOperands_send {R : Expr → Expr → Prop} {m : Message Expr} {parts : List Expr}
    (h : List.Forall₂ R m.operands parts) (r : SourceRange) :
    ∃ m', (send m r).withOperands parts = send m' r ∧ m'.operands = parts ∧
      m.selector = m'.selector ∧ Option.Rel R m.target? m'.target? ∧ List.Forall₂ R m.args m'.args := by
  obtain ⟨receiver, selector, args⟩ := m
  cases receiver with
  | object target =>
    obtain _ | ⟨hTarget, hArgs⟩ := h
    exact ⟨_, rfl, rfl, rfl, .some hTarget, hArgs⟩
  | named className => exact ⟨_, rfl, rfl, rfl, .none, h⟩
  | super => exact ⟨_, rfl, rfl, rfl, .none, h⟩

theorem operands_withOperands {R : Expr → Expr → Prop} {e : Expr} {parts : List Expr}
    (h : List.Forall₂ R e.operands parts) : (e.withOperands parts).operands = parts := by
  cases e with
  | self _ | nil _ | int _ _ | var _ _ _ | field _ _ | selector _ _ =>
    cases h
    rfl
  | send m r =>
    obtain ⟨m', hSend, hOperands, -⟩ := exists_withOperands_send h r
    rw [hSend]
    exact hOperands
  | assign _ _ _ | binary _ _ _ _ =>
    obtain _ | ⟨_, _ | ⟨_, ⟨⟩⟩⟩ := h
    rfl
  | unary _ _ _ | paren _ _ | cast _ _ _ =>
    obtain _ | ⟨_, ⟨⟩⟩ := h
    rfl
  | call _ _ _ | other _ _ => rfl

/-- Some of the parts of an expression, itself included, are replaced by what a step gives, and then
possibly parts of that. -/
inductive Rewrites (step : Expr → Expr → Prop) : Expr → Expr → Prop
  | parts {e : Expr} {parts : List Expr} (hLength : e.operands.length = parts.length)
    (hParts : ∀ a b, (a, b) ∈ e.operands.zip parts → Rewrites step a b) :
    Rewrites step e (e.withOperands parts)
  | here {e d e' : Expr} (hStep : step e d) (hRest : Rewrites step d e') : Rewrites step e e'

namespace Rewrites

variable {step : Expr → Expr → Prop} {P : Expr → Expr → Prop}

theorem congr {e : Expr} {parts : List Expr} (h : List.Forall₂ (Rewrites step) e.operands parts) :
    Rewrites step e (e.withOperands parts) :=
  .parts h.length_eq fun _ _ hMem => List.forall₂_zip h hMem

theorem send {target target' : Expr} {args args' : List Expr} (hTarget : Rewrites step target target')
    (hArgs : List.Forall₂ (Rewrites step) args args') (sel : String) (r : SourceRange) :
    Rewrites step (.send ⟨.object target, sel, args⟩ r) (.send ⟨.object target', sel, args'⟩ r) :=
  @congr step (.send ⟨.object target, sel, args⟩ r) (target' :: args') (.cons hTarget hArgs)

theorem refl (e : Expr) : Rewrites step e e := by
  induction e using Expr.inductionOn with
  | step e ih =>
    have hSame := congr (List.forall₂_same.mpr ih)
    rwa [withOperands_operands] at hSame

theorem of_step {e e' : Expr} (h : step e e') : Rewrites step e e' := .here h (.refl e')

/-- What every step has, and what passes from operands to expressions, holds of all that is
rewritten. -/
theorem inductionOn
    (parts : ∀ e parts, List.Forall₂ (Rewrites step) e.operands parts →
      List.Forall₂ P e.operands parts → P e (e.withOperands parts))
    (here : ∀ e d e', step e d → P d e' → P e e') {e e' : Expr} (h : Rewrites step e e') :
    P e e' := by
  induction h with
  | parts hLength hParts ih =>
    exact parts _ _ (List.forall₂_iff_zip.mpr ⟨hLength, fun h => hParts _ _ h⟩)
      (List.forall₂_iff_zip.mpr ⟨hLength, fun h => ih _ _ h⟩)
  | here hStep _ ih => exact here _ _ _ hStep ih

end Rewrites

end Expr

/-! ## Statements and declarations -/

mutual

/-- The same statement but for its expressions. -/
inductive Stmt.Related (R : Expr → Expr → Prop) : Stmt → Stmt → Prop
  | expr {e e' : Expr} : R e e' → Related R (.expr e) (.expr e')
  | block {body body' : List Stmt} : RelatedAll R body body' → Related R (.block body) (.block body')
  | branch {cond cond' : Expr} {yes yes' : Stmt} : R cond cond' → Related R yes yes' →
    Related R (.branch cond yes none) (.branch cond' yes' none)
  | branchElse {cond cond' : Expr} {yes yes' no no' : Stmt} : R cond cond' → Related R yes yes' →
    Related R no no' → Related R (.branch cond yes (some no)) (.branch cond' yes' (some no'))
  | loop {cond cond' : Expr} {body body' : Stmt} : R cond cond' → Related R body body' →
    Related R (.loop cond body) (.loop cond' body')
  | ret {value value' : Option Expr} : Option.Rel R value value' → Related R (.ret value) (.ret value')
  | decl {v : VarDecl} {init : Option Expr} : Option.Rel R v.init init →
    Related R (.decl v) (.decl { v with init := init })

inductive Stmt.RelatedAll (R : Expr → Expr → Prop) : List Stmt → List Stmt → Prop
  | nil : RelatedAll R [] []
  | cons {s s' : Stmt} {rest rest' : List Stmt} : Related R s s' → RelatedAll R rest rest' →
    RelatedAll R (s :: rest) (s' :: rest')

end

/-- The same method but for expressions of its body. -/
structure MethodDecl.Related (R : Expr → Expr → Prop) (m m' : MethodDecl) : Prop where
  selector : m.selector = m'.selector
  kind : m.kind = m'.kind
  params : m.params = m'.params
  implicit : m.implicit = m'.implicit
  range : m.range = m'.range
  body : Option.Rel (Stmt.Related R) m.body m'.body

structure ImplementationDecl.Related (R : Expr → Expr → Prop) (d d' : ImplementationDecl) : Prop where
  name : d.name = d'.name
  fields : d.fields = d'.fields
  range : d.range = d'.range
  methods : List.Forall₂ (MethodDecl.Related R) d.methods d'.methods

/-- The same unit but for expressions in the bodies of methods. How these are related may depend on the
class that a method belongs to. -/
structure SourceUnit.Related (R : String → Expr → Expr → Prop) (unit unit' : SourceUnit) : Prop where
  path : unit.path = unit'.path
  lang : unit.lang = unit'.lang
  interfaces : unit.interfaces = unit'.interfaces
  globals : unit.globals = unit'.globals
  implementations : List.Forall₂ (fun d d' => ImplementationDecl.Related (R d.name) d d')
    unit.implementations unit'.implementations

/-! ### Other bodies -/

section

variable (B : Stmt → Stmt → Prop)

/-- The same method but for its body. -/
structure MethodDecl.Revised (m m' : MethodDecl) : Prop where
  selector : m.selector = m'.selector
  kind : m.kind = m'.kind
  params : m.params = m'.params
  implicit : m.implicit = m'.implicit
  range : m.range = m'.range
  body : Option.Rel B m.body m'.body

structure ImplementationDecl.Revised (d d' : ImplementationDecl) : Prop where
  name : d.name = d'.name
  fields : d.fields = d'.fields
  range : d.range = d'.range
  methods : List.Forall₂ (MethodDecl.Revised B) d.methods d'.methods

end

/-- The same unit but for the bodies of methods. -/
structure SourceUnit.Revised (B : String → Stmt → Stmt → Prop) (unit unit' : SourceUnit) : Prop where
  path : unit.path = unit'.path
  lang : unit.lang = unit'.lang
  interfaces : unit.interfaces = unit'.interfaces
  globals : unit.globals = unit'.globals
  implementations : List.Forall₂ (fun d d' => ImplementationDecl.Revised (B d.name) d d')
    unit.implementations unit'.implementations

theorem MethodDecl.Related.revised {R : Expr → Expr → Prop} {m m' : MethodDecl} (h : m.Related R m') :
    m.Revised (Stmt.Related R) m' :=
  ⟨h.selector, h.kind, h.params, h.implicit, h.range, h.body⟩

theorem ImplementationDecl.Related.revised {R : Expr → Expr → Prop} {d d' : ImplementationDecl}
    (h : d.Related R d') : d.Revised (Stmt.Related R) d' :=
  ⟨h.name, h.fields, h.range, h.methods.imp fun _ _ hMethod => hMethod.revised⟩

theorem SourceUnit.Related.revised {R : String → Expr → Expr → Prop} {unit unit' : SourceUnit}
    (h : unit.Related R unit') : unit.Revised (fun className => Stmt.Related (R className)) unit' :=
  ⟨h.path, h.lang, h.interfaces, h.globals, h.implementations.imp fun _ _ hDecl => hDecl.revised⟩

namespace Stmt

variable {R S : Expr → Expr → Prop}

mutual

theorem related_mono (h : ∀ e e', R e e' → S e e') : ∀ (s : Stmt) {s' : Stmt},
    Related R s s' → Related S s s'
  | .expr _, _, .expr he => .expr (h _ _ he)
  | .block body, _, .block hBody => .block (relatedAll_mono h body hBody)
  | .branch _ yes none, _, .branch hCond hYes => .branch (h _ _ hCond) (related_mono h yes hYes)
  | .branch _ yes (some no), _, .branchElse hCond hYes hNo =>
    .branchElse (h _ _ hCond) (related_mono h yes hYes) (related_mono h no hNo)
  | .loop _ body, _, .loop hCond hBody => .loop (h _ _ hCond) (related_mono h body hBody)
  | .ret _, _, .ret hValue => .ret (rel_mono h hValue)
  | .decl _, _, .decl hInit => .decl (rel_mono h hInit)

theorem relatedAll_mono (h : ∀ e e', R e e' → S e e') : ∀ (ss : List Stmt) {ss' : List Stmt},
    RelatedAll R ss ss' → RelatedAll S ss ss'
  | [], _, .nil => .nil
  | s :: rest, _, .cons hs hRest => .cons (related_mono h s hs) (relatedAll_mono h rest hRest)

end

mutual

theorem related_refl (h : ∀ e, R e e) : ∀ s : Stmt, Related R s s
  | .expr e => .expr (h e)
  | .block body => .block (relatedAll_refl h body)
  | .branch cond yes none => .branch (h cond) (related_refl h yes)
  | .branch cond yes (some no) => .branchElse (h cond) (related_refl h yes) (related_refl h no)
  | .loop cond body => .loop (h cond) (related_refl h body)
  | .ret value => .ret (rel_refl h value)
  | .decl v => .decl (rel_refl h v.init)

theorem relatedAll_refl (h : ∀ e, R e e) : ∀ ss : List Stmt, RelatedAll R ss ss
  | [] => .nil
  | s :: rest => .cons (related_refl h s) (relatedAll_refl h rest)

end

/-- Each statement inside a statement, with its own expressions. -/
def ownExprs (s : Stmt) : List Expr := s.walk.flatMap exprs

theorem allExprs_eq (s : Stmt) : s.allExprs = s.ownExprs.flatMap Expr.walk := by
  rw [allExprs, ownExprs, List.flatMap_assoc]

mutual

theorem ownExprs_rel : ∀ (s : Stmt) {s' : Stmt}, Related R s s' →
    List.Forall₂ R s.ownExprs s'.ownExprs
  | .expr _, _, .expr he => .cons he .nil
  | .block body, _, .block hBody => walkAll_rel body hBody
  | .branch _ yes none, _, .branch hCond hYes => .cons hCond (ownExprs_rel yes hYes)
  | .branch _ yes (some no), _, .branchElse hCond hYes hNo => by
    simp only [ownExprs, walk, List.flatMap_cons, List.flatMap_append]
    exact .cons hCond (List.rel_append (ownExprs_rel yes hYes) (ownExprs_rel no hNo))
  | .loop _ body, _, .loop hCond hBody => .cons hCond (ownExprs_rel body hBody)
  | .ret _, _, .ret hValue => by
    simpa [ownExprs, walk, exprs] using forall₂_toList_of_rel hValue
  | .decl _, _, .decl hInit => by
    simpa [ownExprs, walk, exprs] using forall₂_toList_of_rel hInit

theorem walkAll_rel : ∀ (ss : List Stmt) {ss' : List Stmt}, RelatedAll R ss ss' →
    List.Forall₂ R ((walkAll ss).flatMap exprs) ((walkAll ss').flatMap exprs)
  | [], _, .nil => .nil
  | s :: rest, _, .cons hs hRest => by
    simp only [walkAll, List.flatMap_append]
    exact List.rel_append (ownExprs_rel s hs) (walkAll_rel rest hRest)

end

end Stmt

end DelegateSafety
