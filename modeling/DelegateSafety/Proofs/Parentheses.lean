import DelegateSafety.Checkers
import DelegateSafety.Proofs.Correspondence
import DelegateSafety.Proofs.Linting
import DelegateSafety.Sample.Units

/-! # Parentheses in front of rules

The rules about one-time code and about guards see through parentheses wherever they look. The rule about
repeated operands looks for a variable through casts alone, so parentheses around an operand hide a repetition
from it. Nothing else is lost: what is hidden and what is shown add up to the same in all units that differ in
parentheses (`repetitions_eq`).
-/
namespace DelegateSafety

/-- An expression in one pair of parentheses. -/
inductive Expr.InParens (e : Expr) : Expr → Prop
  | paren (r : SourceRange) : InParens e (.paren e r)

/-- Parentheses are put around parts of an expression. -/
abbrev Expr.Parenthesized : Expr → Expr → Prop := Rewrites InParens

/-! ## Guards -/

/-- What counts of a use under a guard. -/
def usedOn (scope : ClassScope) (use : Message Expr × SourceRange) :
    String × Option TypeRef × SourceRange :=
  (effectiveSelector use.1, use.1.target?.bind scope.staticType?, use.2)

/-- What counts of an expression in a guard or under one. -/
structure Expr.GuardsAlike (scope scope' : ClassScope) (e e' : Expr) : Prop where
  varName? : varName? e = varName? e'
  selectorLiteral? : selectorLiteral? e = selectorLiteral? e'
  ofCond? : SelectorGuard.ofCond? e = SelectorGuard.ofCond? e'
  staticType? : scope.staticType? e = scope'.staticType? e'
  firstUse? : ∀ receiver,
    (firstUse? receiver e).map (usedOn scope) = (firstUse? receiver e').map (usedOn scope')

section

variable {scope scope' : ClassScope}

/-- The same node over parts that count the same. -/
theorem Expr.GuardsAlike.of_operands {e : Expr} {parts : List Expr}
    (h : List.Forall₂ (GuardsAlike scope scope') e.operands parts)
    (hType : scope.staticType? e = scope'.staticType? (e.withOperands parts)) :
    e.GuardsAlike scope scope' (e.withOperands parts) := by
  cases e with
  | self _ | nil _ | int _ _ | var _ _ _ | field _ _ | selector _ _ =>
    cases h
    exact ⟨rfl, rfl, rfl, hType, fun _ => rfl⟩
  | send m r =>
    obtain ⟨m', hSend, -, hSelector, hTarget, hArgs⟩ := Expr.exists_withOperands_send h r
    have hVar : m.target?.bind DelegateSafety.varName? = m'.target?.bind DelegateSafety.varName? :=
      bind_eq_of_rel hTarget fun _ _ hSame => hSame.varName?
    have hReceiver : m.target?.bind scope.staticType? = m'.target?.bind scope'.staticType? :=
      bind_eq_of_rel hTarget fun _ _ hSame => hSame.staticType?
    have hLiteral : (m.arg? 0).bind DelegateSafety.selectorLiteral? =
        (m'.arg? 0).bind DelegateSafety.selectorLiteral? := by
      obtain ⟨_, _, args⟩ := m
      obtain ⟨_, _, args'⟩ := m'
      cases hArgs with
      | nil => rfl
      | cons hArg _ => exact hArg.selectorLiteral?
    rw [hSend] at hType ⊢
    refine ⟨rfl, rfl, ?_, hType, fun receiver => ?_⟩
    · simp only [SelectorGuard.ofCond?, strip, hSelector, hVar, hLiteral]
    · simp only [DelegateSafety.firstUse?, hVar]
      split
      · simp only [Option.map_some, usedOn, effectiveSelector, hSelector, hLiteral, hReceiver]
      · rfl
  | assign _ _ r | binary _ _ _ r =>
    obtain _ | ⟨hLhs, _ | ⟨hRhs, ⟨⟩⟩⟩ := h
    refine ⟨rfl, rfl, rfl, hType, fun receiver => ?_⟩
    simp only [withOperands, DelegateSafety.firstUse?, Option.map_or, hLhs.firstUse?, hRhs.firstUse?]
  | unary _ _ _ =>
    obtain _ | ⟨hOperand, ⟨⟩⟩ := h
    exact ⟨rfl, rfl, rfl, hType, hOperand.firstUse?⟩
  | paren _ _ | cast _ _ _ =>
    obtain _ | ⟨hInner, ⟨⟩⟩ := h
    exact ⟨hInner.varName?, hInner.selectorLiteral?, hInner.ofCond?, hType, hInner.firstUse?⟩
  | call _ args _ =>
    refine ⟨rfl, rfl, rfl, hType, fun receiver => ?_⟩
    simp only [withOperands, DelegateSafety.firstUse?, firstUseIn?_eq_findSome?, List.map_findSome?]
    exact findSome?_eq_of_rel h fun _ _ hArg => hArg.firstUse? receiver
  | other _ _ => exact ⟨rfl, rfl, rfl, hType, fun _ => rfl⟩

theorem Expr.Parenthesized.staticType?_eq (hScope : scope.Resembles scope') {e e' : Expr}
    (h : e.Parenthesized e') : scope.staticType? e = scope'.staticType? e' := by
  refine (h.alike hScope ?_).staticType?
  rintro e _ ⟨r⟩
  exact (Alike.refl scope e).wrap .bare (.paren r) rfl

theorem Expr.Parenthesized.guardsAlike (hScope : scope.Resembles scope') {e e' : Expr}
    (h : e.Parenthesized e') : e.GuardsAlike scope scope' e' := by
  refine h.inductionOn (P := GuardsAlike scope scope') (fun e parts hParts hAlike => ?_) ?_
  · exact .of_operands hAlike (staticType?_eq hScope (.congr hParts))
  · rintro e _ e' ⟨r⟩ hRest
    exact ⟨hRest.varName?, hRest.selectorLiteral?, hRest.ofCond?, hRest.staticType?, hRest.firstUse?⟩

theorem firstUseInStmt?_eq {s s' : Stmt} (h : s.Related (Expr.GuardsAlike scope scope') s')
    (receiver : String) : (firstUseInStmt? receiver s).map (usedOn scope) =
      (firstUseInStmt? receiver s').map (usedOn scope') := by
  cases h with
  | expr he => exact he.firstUse? receiver
  | ret hValue | decl hValue =>
    simp only [firstUseInStmt?, Option.map_bind]
    exact bind_eq_of_rel hValue fun _ _ he => he.firstUse? receiver
  | block _ | branch _ _ | branchElse _ _ _ | loop _ _ => rfl

theorem topLevel_rel {R : Expr → Expr → Prop} {s s' : Stmt} (h : s.Related R s') :
    List.Forall₂ (Stmt.Related R) (topLevel s) (topLevel s') := by
  cases h with
  | block hBody => exact hBody.forall₂
  | expr _ | branch _ _ | branchElse _ _ _ | loop _ _ | ret _ | decl _ =>
    exact .cons (by constructor <;> assumption) .nil

/-- A suspicious use is told by what counts of the first use. -/
theorem suspiciousUse?_eq_usedOn (scope : ClassScope) (guard : SelectorGuard) (body : Stmt) :
    suspiciousUse? scope guard body =
      (((topLevel body).findSome? (firstUseInStmt? guard.receiver)).map (usedOn scope)).bind
        fun (selector, type, range) =>
          if selector = guard.selector ||
            (type.bind (·.className?)).any (scope.unit.declaresMethod · selector) then none
          else some (selector, range) := by
  rw [Option.bind_map]
  rfl

theorem suspiciousUse?_eq (hScope : scope.Resembles scope') (hDeclares : scope.unit.declaresMethod =
      scope'.unit.declaresMethod) (guard : SelectorGuard) {body body' : Stmt}
    (h : body.Related Expr.Parenthesized body') :
    suspiciousUse? scope guard body = suspiciousUse? scope' guard body' := by
  have hRel := topLevel_rel (Stmt.related_mono (fun _ _ he => he.guardsAlike hScope) body h)
  rw [suspiciousUse?_eq_usedOn, suspiciousUse?_eq_usedOn, List.map_findSome?, List.map_findSome?,
    hDeclares]
  exact congrArg (Option.bind · _) (findSome?_eq_of_rel hRel fun s s' hs => firstUseInStmt?_eq hs _)

end

theorem SourceUnit.SameDeclarations.declaresMethod {unit unit' : SourceUnit}
    (h : unit.SameDeclarations unit') : unit.declaresMethod = unit'.declaresMethod := by
  funext className selector
  have hMethod := congrArg Option.isSome (h.findMethod? className selector)
  rw [Option.isSome_map, Option.isSome_map] at hMethod
  rw [SourceUnit.declaresMethod, SourceUnit.declaresMethod, h.lineage, hMethod]

section

variable {subject subject' : Subject}
  (h : subject.unit.Related (fun _ => Expr.Parenthesized) subject'.unit)

include h

theorem checkGuard_eq {code code' : CodeBody} (hName : code.name = code'.name)
    (hClass : code.className = code'.className) {s s' : Stmt} (hStmt : s.Related Expr.Parenthesized s') :
    checkGuard subject code s = checkGuard subject' code' s' := by
  have hSame : subject.unit.SameDeclarations subject'.unit := h.revised.sameDeclarations
  have hScope : ClassScope.Resembles ⟨subject.unit, code.className⟩ ⟨subject'.unit, code'.className⟩ :=
    ClassScope.Matches.resembles ⟨hClass, hSame⟩
  -- What is under the condition counts, and not what is done otherwise.
  have hCheck {cond cond' : Expr} {yes yes' : Stmt} (no no' : Option Stmt)
      (hCond : cond.Parenthesized cond') (hYes : yes.Related Expr.Parenthesized yes') :
      checkGuard subject code (.branch cond yes no) = checkGuard subject' code' (.branch cond' yes' no') := by
    simp only [checkGuard, (hCond.guardsAlike hScope).ofCond?, h.path, hName,
      suspiciousUse?_eq hScope hSame.declaresMethod _ hYes]
  cases hStmt with
  | branch hCond hYes => exact hCheck none none hCond hYes
  | branchElse hCond hYes _ => exact hCheck _ _ hCond hYes
  | expr _ | block _ | loop _ _ | ret _ | decl _ => rfl

theorem run_respondsToSelectorRule_eq :
    respondsToSelectorRule.run subject = respondsToSelectorRule.run subject' := by
  refine LintRule.run_related .eq h (fun _ => rfl) (fun _ _ => rfl) fun code code' hName hClass hBody => ?_
  simp only [respondsToSelectorRule, List.filterMap_eq_flatMap_toList]
  exact flatMap_eq_of_rel (Stmt.walk_related _ hBody) fun s s' hs =>
    congrArg Option.toList (checkGuard_eq h hName hClass hs)

theorem run_oncePredicateRule_eq : oncePredicateRule.run subject = oncePredicateRule.run subject' := by
  refine LintRule.run_related .eq h (fun d => ?_) (fun _ _ => rfl) fun _ _ _ _ _ => rfl
  simp only [oncePredicateRule, h.path]

end

/-! ## Repetitions -/

/-- The variable on both sides of an operator, for a way to tell which variable an operand is. -/
def repeatedBy? (operand? : Expr → Option String) : Expr → Option String
  | .binary op lhs rhs _ =>
    if op.isLogical || op.isBitwise then (operand? lhs).filter fun name => operand? rhs == some name
    else none
  | _ => none

theorem repeatedVar?_eq (e : Expr) : repeatedVar? e = repeatedBy? operandVar? e := by
  cases e <;> rfl

theorem varName?_of_operandVar? {e : Expr} {name : String} (h : operandVar? e = some name) :
    varName? e = some name := by
  fun_induction operandVar? e with
  | case1 _ inner _ ih => exact ih h
  | case2 _ _ _ => exact h
  | case3 _ _ _ => cases h

/-- What is repeated as operands are taken in one way is repeated as they are taken in another, if that finds
the same variables at least. -/
theorem repeatedBy?_imp {operand? operand'? : Expr → Option String} {lhs lhs' rhs rhs' : Expr}
    {name : String} (hLhs : operand? lhs = some name → operand'? lhs' = some name)
    (hRhs : operand? rhs = some name → operand'? rhs' = some name) {op : BinaryOp} {r : SourceRange}
    (h : repeatedBy? operand? (.binary op lhs rhs r) = some name) :
    repeatedBy? operand'? (.binary op lhs' rhs' r) = some name := by
  simp only [repeatedBy?] at h ⊢
  split at h
  · rename_i hOp
    obtain ⟨hLeft, hRight⟩ := Option.filter_eq_some_iff.mp h
    rw [if_pos hOp]
    exact Option.filter_eq_some_iff.mpr ⟨hLhs hLeft, beq_iff_eq.mpr (hRhs (eq_of_beq hRight))⟩
  · cases h

theorem repeatedBy?_of_repeatedVar? {e : Expr} {name : String} (h : repeatedVar? e = some name) :
    repeatedBy? varName? e = some name := by
  cases e with
  | binary op lhs rhs r => exact repeatedBy?_imp varName?_of_operandVar? varName?_of_operandVar? h
  | _ => cases h

/-- Only operators repeat, and they are still that with other operands. -/
theorem repeats_or_none {R : Expr → Expr → Prop} {e : Expr} {parts : List Expr}
    (h : List.Forall₂ R e.operands parts) :
    (∃ op lhs rhs lhs' rhs' r, R lhs lhs' ∧ R rhs rhs' ∧ e = .binary op lhs rhs r ∧
      e.withOperands parts = .binary op lhs' rhs' r) ∨
    ∀ operand?, repeatedBy? operand? e = none ∧ repeatedBy? operand? (e.withOperands parts) = none := by
  cases e with
  | binary op lhs rhs r =>
    obtain _ | ⟨hLhs, _ | ⟨hRhs, ⟨⟩⟩⟩ := h
    exact .inl ⟨op, lhs, rhs, _, _, r, hLhs, hRhs, rfl, rfl⟩
  | send m r =>
    obtain ⟨m', hSend, -⟩ := Expr.exists_withOperands_send h r
    rw [hSend]
    exact .inr fun _ => ⟨rfl, rfl⟩
  | self _ | nil _ | int _ _ | var _ _ _ | field _ _ | selector _ _ =>
    cases h
    exact .inr fun _ => ⟨rfl, rfl⟩
  | assign _ _ _ =>
    obtain _ | ⟨_, _ | ⟨_, ⟨⟩⟩⟩ := h
    exact .inr fun _ => ⟨rfl, rfl⟩
  | unary _ _ _ | paren _ _ | cast _ _ _ =>
    obtain _ | ⟨_, ⟨⟩⟩ := h
    exact .inr fun _ => ⟨rfl, rfl⟩
  | call _ _ _ | other _ _ => exact .inr fun _ => ⟨rfl, rfl⟩

namespace Expr.Parenthesized

variable {e e' : Expr}

/-- Parentheses make no variable of an operand that was none. -/
theorem operandVar?_of_some (h : e.Parenthesized e') :
    ∀ name, operandVar? e' = some name → operandVar? e = some name := by
  refine h.inductionOn (P := fun e e' => ∀ name, operandVar? e' = some name → operandVar? e = some name)
    (fun e parts _ ih name hName => ?_) ?_
  · cases e with
    | self _ | nil _ | int _ _ | var _ _ _ | field _ _ | selector _ _ =>
      cases ih
      exact hName
    | send m r =>
      obtain ⟨m', hSend, -⟩ := Expr.exists_withOperands_send ih r
      rw [hSend] at hName
      cases hName
    | assign _ _ _ | binary _ _ _ _ =>
      obtain _ | ⟨_, _ | ⟨_, ⟨⟩⟩⟩ := ih
      cases hName
    | unary _ _ _ | paren _ _ =>
      obtain _ | ⟨_, ⟨⟩⟩ := ih
      cases hName
    | cast _ _ _ =>
      obtain _ | ⟨hInner, ⟨⟩⟩ := ih
      exact hInner name hName
    | call _ _ _ | other _ _ => cases hName
  -- For the rule an operand in parentheses is no variable, so there is nothing to find inside.
  · rintro e _ e' ⟨r⟩ hRest name hName
    cases hRest name hName

/-- What is gathered from an expression and its parts, for anything that parentheses do not have
themselves. -/
theorem walk_filterMap {α : Type} {S : List α → List α → Prop} (hS : Appends S) {f g : Expr → Option α}
    (hParen : ∀ e r, f (.paren e r) = none)
    (hNode : ∀ e parts, List.Forall₂ Expr.Parenthesized e.operands parts →
      S (f e).toList (g (e.withOperands parts)).toList)
    (h : e.Parenthesized e') : S (e.walk.filterMap f) (e'.walk.filterMap g) := by
  have hWalk (f : Expr → Option α) (e : Expr) : e.walk.filterMap f =
      (f e).toList ++ e.operands.flatMap fun c => c.walk.filterMap f := by
    rw [walk_eq, List.filterMap_cons, List.filterMap_flatMap]
    cases f e <;> rfl
  refine h.inductionOn (P := fun e e' => S (e.walk.filterMap f) (e'.walk.filterMap g))
    (fun e parts hParts ih => ?_) ?_
  · rw [hWalk f e, hWalk g, operands_withOperands hParts]
    exact hS.append (hNode e parts hParts) (hS.flatMap ih fun _ _ hPart => hPart)
  -- The new parentheses are left out, and what is below them is what there was.
  · rintro e _ e' ⟨r⟩ hRest
    rwa [hWalk f, hParen, operands, List.flatMap_singleton] at hRest

end Expr.Parenthesized

/-- All expressions in the bodies of methods, in order. -/
def SourceUnit.bodyExprs (unit : SourceUnit) : List Expr :=
  unit.implementations.flatMap fun d => d.methods.flatMap fun m => m.body.elim [] Stmt.allExprs

/-- How many operators have one variable on both sides without the rule seeing it. -/
def SourceUnit.hiddenRepetitions (unit : SourceUnit) : Nat :=
  unit.bodyExprs.countP fun e => (repeatedBy? varName? e).isSome && !(repeatedVar? e).isSome

theorem allExprs_filterMap {α : Type} {S : List α → List α → Prop} (hS : Appends S) {f g : Expr → Option α}
    (hParen : ∀ e r, f (.paren e r) = none)
    (hNode : ∀ e parts, List.Forall₂ Expr.Parenthesized e.operands parts →
      S (f e).toList (g (e.withOperands parts)).toList)
    {s s' : Stmt} (h : s.Related Expr.Parenthesized s') :
    S (s.allExprs.filterMap f) (s'.allExprs.filterMap g) := by
  simp only [Stmt.allExprs_eq, List.filterMap_flatMap]
  exact hS.flatMap (Stmt.ownExprs_rel _ h) fun _ _ he => he.walk_filterMap hS hParen hNode

theorem length_run_repeatedOperandRule (subject : Subject) : (repeatedOperandRule.run subject).length =
    subject.unit.bodyExprs.countP fun e => (repeatedVar? e).isSome := by
  have hMethod (className : String) (m : MethodDecl) :
      (repeatedOperandRule.onMethod subject className m).length =
        (m.body.elim [] Stmt.allExprs).countP fun e => (repeatedVar? e).isSome := by
    unfold LintRule.onMethod
    cases m.body with
    | none => rfl
    | some body =>
      have hLocals : body.locals.flatMap (fun v => repeatedOperandRule.onDecl subject (.var v)) = [] :=
        List.flatMap_eq_nil_iff.mpr fun _ _ => rfl
      rw [Option.elim_some, hLocals, List.nil_append]
      simp only [repeatedOperandRule, List.length_filterMap_eq_countP, Option.isSome_map, Option.elim_some]
  rw [LintRule.run_of_onDecl (fun _ _ => rfl) subject, SourceUnit.bodyExprs]
  simp only [List.length_flatMap, List.countP_flatMap, Function.comp_def, hMethod]

/-- A repetition is shown or hidden. -/
theorem repetitions_eq (subject : Subject) :
    (repeatedOperandRule.run subject).length + subject.unit.hiddenRepetitions =
      (subject.unit.bodyExprs.filterMap (repeatedBy? varName?)).length := by
  rw [length_run_repeatedOperandRule, SourceUnit.hiddenRepetitions, List.length_filterMap_eq_countP]
  induction subject.unit.bodyExprs with
  | nil => rfl
  | cons e rest ih =>
    simp only [List.countP_cons]
    cases hShown : repeatedVar? e with
    | none =>
      simp only [Option.isSome_none, Bool.not_false, Bool.and_true, Bool.false_eq_true, if_false]
      omega
    | some name =>
      simp only [repeatedBy?_of_repeatedVar? hShown, Option.isSome_some, Bool.not_true, Bool.and_false,
        Bool.false_eq_true, if_true, if_false]
      omega

section

variable {subject subject' : Subject}
  (h : subject.unit.Related (fun _ => Expr.Parenthesized) subject'.unit)

include h

theorem bodyExprs_repeatedBy?_eq : subject.unit.bodyExprs.filterMap (repeatedBy? varName?) =
    subject'.unit.bodyExprs.filterMap (repeatedBy? varName?) := by
  have hScope : ClassScope.Resembles ⟨subject.unit, ""⟩ ⟨subject.unit, ""⟩ := .refl _
  have hNode (e : Expr) (parts : List Expr) (hParts : List.Forall₂ Expr.Parenthesized e.operands parts) :
      (repeatedBy? varName? e).toList = (repeatedBy? varName? (e.withOperands parts)).toList := by
    rcases repeats_or_none hParts with ⟨op, lhs, rhs, lhs', rhs', r, hLhs, hRhs, rfl, hEq⟩ | hNone
    · rw [hEq]
      simp only [repeatedBy?, (hLhs.guardsAlike hScope).varName?, (hRhs.guardsAlike hScope).varName?]
    · rw [(hNone varName?).1, (hNone varName?).2]
  simp only [SourceUnit.bodyExprs, List.filterMap_flatMap]
  refine flatMap_eq_of_rel h.implementations fun d d' hd => flatMap_eq_of_rel hd.methods fun m m' hm => ?_
  have hBody := hm.body
  generalize m.body = body, m'.body = body' at hBody ⊢
  cases hBody with
  | none => rfl
  | some hStmt => exact allExprs_filterMap .eq (fun _ _ => rfl) hNode hStmt

theorem run_repeatedOperandRule_sublist :
    (repeatedOperandRule.run subject').Sublist (repeatedOperandRule.run subject) := by
  refine LintRule.run_related (S := fun as bs => bs.Sublist as) .sublist h (fun _ => rfl) (fun _ _ => rfl)
    fun code code' hName _ hBody => ?_
  refine allExprs_filterMap (S := fun as bs => bs.Sublist as) .sublist (fun _ _ => rfl)
    (fun e parts hParts => ?_) hBody
  rw [← h.path, ← hName]
  rcases repeats_or_none hParts with ⟨op, lhs, rhs, lhs', rhs', r, hLhs, hRhs, rfl, hEq⟩ | hNone
  · rw [hEq]
    cases hRepeated : repeatedVar? (.binary op lhs' rhs' r) with
    | none => exact List.nil_sublist _
    | some name =>
      have hStill : repeatedVar? (.binary op lhs rhs r) = some name :=
        repeatedBy?_imp (hLhs.operandVar?_of_some name) (hRhs.operandVar?_of_some name) (r := r) hRepeated
      rw [hStill]
      exact .refl _
  · simp only [repeatedVar?_eq, (hNone operandVar?).1, (hNone operandVar?).2]
    exact .refl _

end

/-- Around operands of an operator parentheses leave out reports, as many as they hide repetitions. Anywhere
else they make no difference. -/
theorem parentheses_only_hide_repetitions {subject subject' : Subject}
    (h : subject.unit.Related (fun _ => Expr.Parenthesized) subject'.unit) :
    oncePredicateRule.run subject' = oncePredicateRule.run subject ∧
      respondsToSelectorRule.run subject' = respondsToSelectorRule.run subject ∧
      (repeatedOperandRule.run subject').Sublist (repeatedOperandRule.run subject) ∧
      (repeatedOperandRule.run subject' = repeatedOperandRule.run subject ↔
        subject'.unit.hiddenRepetitions = subject.unit.hiddenRepetitions) := by
  have hSublist := run_repeatedOperandRule_sublist h
  have hTotal : (repeatedOperandRule.run subject).length + subject.unit.hiddenRepetitions =
      (repeatedOperandRule.run subject').length + subject'.unit.hiddenRepetitions := by
    rw [repetitions_eq, repetitions_eq, bodyExprs_repeatedBy?_eq h]
  refine ⟨(run_oncePredicateRule_eq h).symm, (run_respondsToSelectorRule_eq h).symm, hSublist, ?_⟩
  constructor
  · intro hEq
    rw [hEq] at hTotal
    omega
  · intro hHidden
    exact hSublist.eq_of_length (by omega)

namespace Sample

def inParens (e : Expr) : Expr := .paren e .unknown

/-- Each rule has something to report, and nothing of it is an operand of an operator. -/
def slips (wrap : Expr → Expr) : SourceUnit :=
  delegatePair [method "notify"
    [localVar "token" (.scalar "dispatch_once_t") none,
      .branch (send (.object (wrap (.var "d" none .unknown))) "respondsToSelector:"
          [wrap (.selector "finish" .unknown)])
        (.expr (send (.object (wrap (.var "d" none .unknown))) "finsh" [])) none,
      .expr (wrap (.binary .or (.var "d" none .unknown) (.var "d" none .unknown) .unknown))]]

/-- The operator and its right operand stay as they are. -/
def repeats (wrap : Expr → Expr) : SourceUnit :=
  delegatePair [method "notify"
    [.expr (.binary .or (wrap (.var "d" none .unknown)) (.var "d" none .unknown) .unknown)]]

theorem delegatePair_related {selector : String} {body body' : List Stmt}
    (h : Stmt.RelatedAll Expr.Parenthesized body body') :
    (delegatePair [method selector body]).Related (fun _ => Expr.Parenthesized)
      (delegatePair [method selector body']) :=
  ⟨rfl, rfl, rfl, rfl, .cons ⟨rfl, rfl, rfl, .cons ⟨rfl, rfl, rfl, rfl, rfl, .some (.block h)⟩ .nil⟩ .nil⟩

theorem parenthesized_inParens (e : Expr) : e.Parenthesized (inParens e) := .of_step (.paren .unknown)

theorem slips_related : (slips id).Related (fun _ => Expr.Parenthesized) (slips inParens) :=
  delegatePair_related (.cons (.decl .none) (.cons
    (.branch (.send (parenthesized_inParens _) (.cons (parenthesized_inParens _) .nil) _ _)
      (.expr (.send (parenthesized_inParens _) .nil _ _)))
    (.cons (.expr (parenthesized_inParens _)) .nil)))

theorem repeats_related : (repeats id).Related (fun _ => Expr.Parenthesized) (repeats inParens) :=
  delegatePair_related (.cons (.expr (@Expr.Rewrites.congr _ (.binary .or _ _ _) [_, _]
    (.cons (parenthesized_inParens _) (.cons (.refl _) .nil)))) .nil)

end Sample

open Sample in
theorem parenthesized_slips_are_reported :
    (slips id).Related (fun _ => Expr.Parenthesized) (slips inParens) ∧
      oncePredicateRule.run (.ofUnit (slips inParens) none) = oncePredicateRule.run (.ofUnit (slips id) none) ∧
      respondsToSelectorRule.run (.ofUnit (slips inParens) none) =
        respondsToSelectorRule.run (.ofUnit (slips id) none) ∧
      repeatedOperandRule.run (.ofUnit (slips inParens) none) =
        repeatedOperandRule.run (.ofUnit (slips id) none) ∧
      (lintRules.flatMap (·.run (.ofUnit (slips id) none))).length = 3 := by
  have hRelated : (Subject.ofUnit (slips id) none).unit.Related (fun _ => Expr.Parenthesized)
      (Subject.ofUnit (slips inParens) none).unit := slips_related
  obtain ⟨hOnce, hGuard, -, hRepeated⟩ := parentheses_only_hide_repetitions hRelated
  exact ⟨hRelated, hOnce, hGuard, hRepeated.mpr (by decide +kernel), by decide +kernel⟩

open Sample in
theorem parenthesized_operand_is_no_repetition :
    (repeats id).Related (fun _ => Expr.Parenthesized) (repeats inParens) ∧
      (repeatedOperandRule.run (.ofUnit (repeats id) none)).length = 1 ∧
      repeatedOperandRule.run (.ofUnit (repeats inParens) none) = [] :=
  ⟨repeats_related, by decide +kernel, by decide +kernel⟩

end DelegateSafety
