import DelegateSafety.Lint.RespondsToSelector
import DelegateSafety.Proofs.Rewriting

/-! # Rules on related units

A rule goes through a unit part by part, so what it reports of two units whose parts correspond is related as
it is part by part (`LintRule.run_related`), as long as the relation is kept by appending.
-/
namespace DelegateSafety

/-! ## Parts of related code -/

namespace Stmt

variable {R : Expr → Expr → Prop}

mutual

/-- The statements inside related statements are related in order. -/
theorem walk_related : ∀ (s : Stmt) {s' : Stmt}, Related R s s' →
    List.Forall₂ (Related R) s.walk s'.walk
  | .expr _, _, .expr he => .cons (.expr he) .nil
  | .block body, _, .block hBody => .cons (.block hBody) (walkAll_related body hBody)
  | .branch _ yes none, _, .branch hCond hYes => .cons (.branch hCond hYes) (walk_related yes hYes)
  | .branch _ yes (some no), _, .branchElse hCond hYes hNo =>
    .cons (.branchElse hCond hYes hNo) (List.rel_append (walk_related yes hYes) (walk_related no hNo))
  | .loop _ body, _, .loop hCond hBody => .cons (.loop hCond hBody) (walk_related body hBody)
  | .ret _, _, .ret hValue => .cons (.ret hValue) .nil
  | .decl _, _, .decl hInit => .cons (.decl hInit) .nil

theorem walkAll_related : ∀ (ss : List Stmt) {ss' : List Stmt}, RelatedAll R ss ss' →
    List.Forall₂ (Related R) (walkAll ss) (walkAll ss')
  | [], _, .nil => .nil
  | s :: rest, _, .cons hs hRest => List.rel_append (walk_related s hs) (walkAll_related rest hRest)

end

theorem RelatedAll.forall₂ {ss ss' : List Stmt} (h : RelatedAll R ss ss') :
    List.Forall₂ (Related R) ss ss' := by
  induction ss generalizing ss' with
  | nil =>
    cases h
    exact .nil
  | cons s rest ih =>
    cases h with
    | cons hHere hRest => exact .cons hHere (ih hRest)

/-- Related statements declare the same variables, but for what these begin with. -/
theorem locals_related {s s' : Stmt} (h : s.Related R s') :
    List.Forall₂ (fun v v' => ∃ init, v' = { v with init := init }) s.locals s'.locals := by
  refine List.rel_filterMap (fun c c' hc => ?_) (walk_related s h)
  cases hc with
  | decl _ => exact .some ⟨_, rfl⟩
  | expr _ | block _ | branch _ _ | branchElse _ _ _ | loop _ _ | ret _ => exact .none

end Stmt

theorem firstUseIn?_eq_findSome? (receiver : String) (es : List Expr) :
    firstUse?.firstUseIn? receiver es = es.findSome? (firstUse? receiver) := by
  induction es with
  | nil => rfl
  | cons e rest ih =>
    rw [firstUse?.firstUseIn?, ih, List.findSome?_cons]
    cases firstUse? receiver e <;> rfl

/-! ## Runs -/

/-- A relation between lists that is kept by appending. -/
structure Appends {α : Type} (S : List α → List α → Prop) : Prop where
  refl : ∀ as, S as as
  append : ∀ {as bs cs ds}, S as bs → S cs ds → S (as ++ cs) (bs ++ ds)

namespace Appends

variable {α β : Type}

theorem eq : Appends (α := α) (· = ·) := ⟨fun _ => rfl, fun h h' => congrArg₂ _ h h'⟩

theorem sublist : Appends (α := α) fun as bs => bs.Sublist as := ⟨List.Sublist.refl, List.Sublist.append⟩

variable {S : List α → List α → Prop} (hS : Appends S)

include hS

theorem flatMap {γ : Type} {R : β → γ → Prop} {bs : List β} {cs : List γ} {f : β → List α}
    {g : γ → List α} (h : List.Forall₂ R bs cs) (hEach : ∀ b c, R b c → S (f b) (g c)) :
    S (bs.flatMap f) (cs.flatMap g) := by
  induction h with
  | nil => exact hS.refl []
  | cons hHere _ ih =>
    rw [List.flatMap_cons, List.flatMap_cons]
    exact hS.append (hEach _ _ hHere) ih

end Appends

namespace LintRule

variable {rule rule' : LintRule} {subject subject' : Subject} {R : Expr → Expr → Prop}
  {S : List Diagnostic → List Diagnostic → Prop}

theorem onMethod_related (hS : Appends S) (hDecl : ∀ d, rule.onDecl subject d = rule'.onDecl subject' d)
    (hVar : ∀ v init, rule.onDecl subject (.var { v with init := init }) = rule.onDecl subject (.var v))
    (hBody : ∀ code code', code.name = code'.name → code.className = code'.className →
      code.body.Related R code'.body → S (rule.onBody subject code) (rule'.onBody subject' code'))
    (className : String) {m m' : MethodDecl} (h : m.Related R m') :
    S (rule.onMethod subject className m) (rule'.onMethod subject' className m') := by
  have hName : methodName className m = methodName className m' := by
    simp only [methodName, h.kind, h.selector]
  have hRel := h.body
  unfold onMethod
  generalize m.body = body, m'.body = body' at hRel ⊢
  cases hRel with
  | none => exact hS.refl []
  | some hStmt =>
    refine hS.append (hS.flatMap (Stmt.locals_related hStmt) ?_) (hBody _ _ hName rfl hStmt)
    rintro v _ ⟨init, rfl⟩
    rw [← hDecl, hVar v init]
    exact hS.refl _

/-- Where two rules say the same of declarations, what they report of related units is related as what they
report of related bodies. -/
theorem run_related (hS : Appends S) (h : subject.unit.Related (fun _ => R) subject'.unit)
    (hDecl : ∀ d, rule.onDecl subject d = rule'.onDecl subject' d)
    (hVar : ∀ v init, rule.onDecl subject (.var { v with init := init }) = rule.onDecl subject (.var v))
    (hBody : ∀ code code', code.name = code'.name → code.className = code'.className →
      code.body.Related R code'.body → S (rule.onBody subject code) (rule'.onBody subject' code')) :
    S (rule.run subject) (rule'.run subject') := by
  have hInterface : rule.onInterface subject = rule'.onInterface subject' := by
    funext d
    simp only [onInterface, hDecl]
  unfold run
  refine hS.append ?_ (hS.flatMap h.implementations fun d d' hd => ?_)
  · simp only [h.globals, h.interfaces, hDecl, hInterface]
    exact hS.refl _
  · unfold onImplementation
    rw [hd.fields, hd.name]
    simp only [hDecl]
    exact hS.append (hS.refl _) (hS.flatMap hd.methods fun m m' hm =>
      onMethod_related hS hDecl hVar hBody d'.name hm)

/-- A rule that says nothing of declarations looks at methods only. -/
theorem run_of_onDecl (h : ∀ subject d, rule.onDecl subject d = []) (subject : Subject) :
    rule.run subject =
      subject.unit.implementations.flatMap fun d => d.methods.flatMap (rule.onMethod subject d.name) := by
  have hNone {α : Type} (as : List α) : as.flatMap (fun _ => ([] : List Diagnostic)) = [] :=
    List.flatMap_eq_nil_iff.mpr fun _ _ => rfl
  have hInterface : rule.onInterface subject = fun _ => [] := by
    funext d
    simp only [onInterface, h, hNone, List.append_nil]
  have hImplementation : rule.onImplementation subject = fun d =>
      d.methods.flatMap (rule.onMethod subject d.name) := by
    funext d
    simp only [onImplementation, h, hNone, List.nil_append]
  simp only [run, h, hInterface, hImplementation, hNone, List.nil_append]

end LintRule

end DelegateSafety
