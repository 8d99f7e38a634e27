import DelegateSafety.Proofs.Correspondence
import DelegateSafety.Proofs.Invariant
import DelegateSafety.Sample.Units

/-! # Parentheses and casts

Parentheses, and casts to anything but a class, are seen by nobody: expressions in them look like what is
inside, and their evaluation adds calls that a check does not answer.
-/
namespace DelegateSafety

open PathM

variable {config : DelegateConfig} {known : FactsByClass} {frame : Frame}

/-! ## Paths that are open -/

/-- On an open path an expression that assigns to no field is passed over. -/
theorem consult_beforeEffect {p : Path DelegateState} (h : p.state.isInitialized = true) {e : Expr}
    (hAssigned : assignedField? frame.scope e = none) :
    consult frame (fun site s => (delegatePaths config known).beforeEffect site s e) p = ⟨(), p, []⟩ := by
  rw [consult_beforeEffect_eq hAssigned, openPath_of_isInitialized h]

theorem isInitialized_afterSend (site : Site) (s : DelegateState) (event : SendEvent) :
    ((delegatePaths config known).afterSend site s event).1.isInitialized = true := by
  obtain ⟨transitions, hState⟩ := @exists_afterSend_fst config known site s event
  rw [hState, isInitialized_foldl_apply, isInitialized_openPath]

/-- After an evaluation a path is open. -/
theorem isInitialized_evaluate (e : Expr) (p : Path DelegateState) :
    (evaluate frame (delegatePaths config known) e p).path.state.isInitialized = true := by
  have hKeeps : ∀ values, (effect frame (delegatePaths config known) e values).Keeps
      (fun _ s => s.isInitialized = true) (fun _ => True) (fun _ => True) :=
    keeps_effect (fun event => keeps_consult fun n store s _ _ =>
      ⟨isInitialized_afterSend ⟨frame, n, store⟩ s event, fun _ _ => trivial⟩) e
  rw [evaluate_eq]
  exact (hKeeps _ _ (isInitialized_openPath _ _ _) fun _ _ => trivial).1

/-! ## Wrapping -/

/-- Where nothing but the operand's value counts, evaluation is that of the operand. -/
theorem evaluate_of_operand {e w : Expr} {f : Nullness → Nullness} (hOperands : w.operands = [e])
    (hAssigned : assignedField? frame.scope w = none)
    (hEffect : ∀ value, effect frame (delegatePaths config known) w [value] = pure (f value)) :
    evaluate frame (delegatePaths config known) w = (do
      let value ← evaluate frame (delegatePaths config known) e
      pure (f value)) := by
  funext p
  have hOpen := @isInitialized_evaluate config known frame e p
  rw [evaluate_eq, hOperands, bind_apply, bind_apply]
  simp only [List.map_cons, List.map_nil, inOrder, bind_apply, pure_apply, List.append_nil]
  rw [consult_beforeEffect hOpen hAssigned, hEffect]
  simp only [pure_apply, List.append_nil]

theorem evaluate_wraps {e w : Expr} (h : e.Wraps w) :
    evaluate frame (delegatePaths config known) w = evaluate frame (delegatePaths config known) e := by
  cases h with
  | bare => rfl
  | paren r => exact (evaluate_of_operand rfl rfl fun _ => rfl).trans (bind_pure _)
  | cast type r => exact (evaluate_of_operand rfl rfl fun _ => rfl).trans (bind_pure _)

/-- An expression in parentheses, or cast to `id` or to what is no object. -/
inductive Expr.Wrapped : Expr → Expr → Prop
  | paren (e : Expr) (r : SourceRange) : Wrapped e (.paren e r)
  | cast (e : Expr) {type : TypeRef} (hType : type.className? = none) (r : SourceRange) :
    Wrapped e (.cast type e r)

theorem Expr.Wrapped.alike {e w : Expr} (h : e.Wrapped w) (scope : ClassScope) :
    e.Alike scope scope w := by
  cases h with
  | paren r => exact (Alike.refl scope e).wrap .bare (.paren r) rfl
  | @cast type hType r =>
    refine (Alike.refl scope e).wrap .bare (.cast type r) ?_
    cases type with
    | object name => cases hType
    | id | scalar _ => rfl

theorem Expr.Wrapped.evaluate {e w : Expr} (h : e.Wrapped w) :
    evaluate frame (delegatePaths config known) e = evaluate frame (delegatePaths config known) w := by
  cases h with
  | paren r => exact (evaluate_wraps (.paren r)).symm
  | cast _ r => exact (evaluate_wraps (.cast _ r)).symm

/-- Wrapping expressions anywhere in the bodies of methods changes nothing in the analysis. -/
theorem wrappers_change_nothing (config : DelegateConfig) (settings : AnalysisSettings)
    {unit unit' : SourceUnit} (h : unit.Related (fun _ => Expr.Rewrites Expr.Wrapped) unit') :
    (danglingDelegateCheck config).run (.ofUnit unit settings.autoReleaseFields) settings.limits =
      (danglingDelegateCheck config).run (.ofUnit unit' settings.autoReleaseFields) settings.limits := by
  have hLang := Subject.lang_ofUnit_congr h.lang settings.autoReleaseFields
  refine run_of_rewrites h hLang (fun _ e w hWrapped => hWrapped.alike _) ?_ settings.limits
  exact fun _ _ _ e w hWrapped => hWrapped.evaluate

namespace Sample

/-- `self` is stored in `init`, and `reset` lets a field go that it finds occupied. Each operand is spelled
in a given way. -/
def resetWhenSet (spell : Expr → Expr) : SourceUnit :=
  let bar : Expr := .field "_bar" .unknown
  delegatePair [
    method "init" [.expr (setProperty (spell bar) "delegate" (spell (.self .unknown)))],
    method "reset" [.branch (spell bar) (.expr (.assign (spell bar) (spell (.nil .unknown)) .unknown))
      none]]

theorem method_related {R : Expr → Expr → Prop} {body body' : List Stmt}
    (h : Stmt.RelatedAll R body body') (selector : String) :
    (method selector body).Related R (method selector body') :=
  ⟨rfl, rfl, rfl, rfl, rfl, .some (.block h)⟩

def inParentheses (e : Expr) : Expr := .paren (.cast .id e .unknown) .unknown

theorem rewrites_inParentheses (e : Expr) : Expr.Rewrites Expr.Wrapped e (inParentheses e) :=
  .here (.cast e rfl .unknown) (.of_step (.paren _ .unknown))

theorem related_inParentheses : (resetWhenSet id).Related (fun _ => Expr.Rewrites Expr.Wrapped)
    (resetWhenSet inParentheses) := by
  have hBar := rewrites_inParentheses (.field "_bar" .unknown)
  have hSelf := rewrites_inParentheses (.self .unknown)
  have hNil := rewrites_inParentheses (.nil .unknown)
  have hStore : Expr.Rewrites Expr.Wrapped
      (setProperty (.field "_bar" .unknown) "delegate" (.self .unknown))
      (setProperty (inParentheses (.field "_bar" .unknown)) "delegate" (inParentheses (.self .unknown))) :=
    .send hBar (.cons hSelf .nil) _ _
  have hReset := @Expr.Rewrites.congr _ (.assign (.field "_bar" .unknown) (.nil .unknown) .unknown) _
    (.cons hBar (.cons hNil .nil))
  have hInit := method_related (.cons (.expr hStore) .nil) "init"
  have hBranch := method_related (.cons (.branch hBar (.expr hReset)) .nil) "reset"
  exact ⟨rfl, rfl, rfl, rfl, .cons ⟨rfl, rfl, rfl, .cons hInit (.cons hBranch .nil)⟩ .nil⟩

end Sample

open Sample in
/-- In parentheses or not, `reset` is reported for what it lets go, and the class for what it lets go by
itself. -/
theorem reset_in_parentheses_is_reported :
    (resetWhenSet id).Related (fun _ => Expr.Rewrites Expr.Wrapped) (resetWhenSet inParentheses) ∧
    ((danglingDelegateCheck .default).run (.ofUnit (resetWhenSet inParentheses) none)
      AnalysisSettings.default.limits).reports =
      ((danglingDelegateCheck .default).run (.ofUnit (resetWhenSet id) none)
        AnalysisSettings.default.limits).reports ∧
    ((danglingDelegateCheck .default).run (.ofUnit (resetWhenSet id) none)
      AnalysisSettings.default.limits).reports.length = 2 := by
  have hRun := wrappers_change_nothing .default .default related_inParentheses
  exact ⟨related_inParentheses, congrArg Analysis.reports hRun.symm, by decide +kernel⟩

end DelegateSafety
