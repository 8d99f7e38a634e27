import DelegateSafety.Proofs.Exchange
import DelegateSafety.Proofs.Filing

/-! # Units that correspond

Two units that are the same but for expressions which may be exchanged tell the scan the same and are
reported alike (`run_of_rewrites`).
-/
namespace DelegateSafety

/-! ## Lookups -/

theorem find?_rel {α β : Type} {R : α → β → Prop} {c : α → Bool} {c' : β → Bool} {as : List α}
    {bs : List β} (h : List.Forall₂ R as bs) (hEq : ∀ a b, R a b → c a = c' b) :
    Option.Rel R (as.find? c) (bs.find? c') := by
  induction h with
  | nil => exact .none
  | @cons a b _ _ hab _ ih =>
    rw [List.find?_cons, List.find?_cons, hEq a b hab]
    cases c' b with
    | true => exact .some hab
    | false => exact ih

section

variable {B : Stmt → Stmt → Prop}

theorem MethodDecl.Revised.isSome_body {m m' : MethodDecl} (h : m.Revised B m') :
    m.body.isSome = m'.body.isSome := by
  have hBody := h.body
  generalize m.body = body, m'.body = body' at hBody
  cases hBody <;> rfl

theorem ImplementationDecl.Revised.instanceMethod?_eq {d d' : ImplementationDecl} (h : d.Revised B d')
    (selector : String) : (d.instanceMethod? selector).map (fun m => (m.implicit, m.isExplicit)) =
      (d'.instanceMethod? selector).map fun m => (m.implicit, m.isExplicit) := by
  have hMethod : Option.Rel (MethodDecl.Revised B) (d.instanceMethod? selector)
      (d'.instanceMethod? selector) := find?_rel h.methods fun m m' hm => by
    rw [MethodDecl.isInstanceMethod, MethodDecl.isInstanceMethod, hm.kind, hm.selector]
  generalize d.instanceMethod? selector = m, d'.instanceMethod? selector = m' at hMethod
  cases hMethod with
  | none => rfl
  | some hm =>
    simp only [Option.map_some, MethodDecl.isExplicit, hm.implicit, hm.isSome_body]

end

namespace SourceUnit.Revised

variable {B : String → Stmt → Stmt → Prop} {unit unit' : SourceUnit} (h : unit.Revised B unit')

include h

theorem implementation?_rel (name : String) :
    Option.Rel (fun d d' => ImplementationDecl.Revised (B d.name) d d') (unit.implementation? name)
      (unit'.implementation? name) :=
  find?_rel (List.rel_reverse h.implementations) fun _ _ hDecl => by rw [hDecl.name]

theorem findField?_eq : unit.findField? = unit'.findField? := by
  funext className field
  rw [findField?, findField?, lineage, lineage, h.interfaces]
  congr 1
  refine bind_eq_of_rel (h.implementation?_rel className) fun d d' hDecl => ?_
  rw [ImplementationDecl.field?, ImplementationDecl.field?, hDecl.fields]

theorem findMethod?_eq (className selector : String) :
    (unit.findMethod? className selector).map (fun m => (m.implicit, m.isExplicit)) =
      (unit'.findMethod? className selector).map fun m => (m.implicit, m.isExplicit) := by
  rw [findMethod?, findMethod?, ancestry, ancestry, lineage, lineage, h.interfaces]
  rw [List.map_findSome?, List.map_findSome?]
  refine congrArg (List.findSome? · _) (funext fun name => ?_)
  rw [Function.comp_apply, Function.comp_apply, Option.map_bind, Option.map_bind]
  exact bind_eq_of_rel (h.implementation?_rel name) fun d d' hDecl => hDecl.instanceMethod?_eq selector

/-- Bodies of methods are no matter for lookups. -/
theorem sameDeclarations : unit.SameDeclarations unit' where
  path := h.path
  lineage := by
    funext name
    rw [lineage, lineage, h.interfaces]
  findField? := h.findField?_eq
  findMethod? := h.findMethod?_eq

end SourceUnit.Revised

/-! ## Scans -/

section

variable {scope scope' : ClassScope} {config : DelegateConfig}

/-- Statements from which scans learn the same, in whatever method they are. -/
def Stmt.TellsSame (scope scope' : ClassScope) (config : DelegateConfig) (s s' : Stmt) : Prop :=
  ∀ method, s.allExprs.filterMap (observeExpr scope config method) =
    s'.allExprs.filterMap (observeExpr scope' config method)

theorem observeMethod_eq_of_tellsSame {m m' : MethodDecl}
    (h : m.Revised (Stmt.TellsSame scope scope' config) m') :
    observeMethod scope config m = observeMethod scope' config m' := by
  have hBody : (m.body.elim [] Stmt.allExprs).filterMap (observeExpr scope config m.selector) =
      (m'.body.elim [] Stmt.allExprs).filterMap (observeExpr scope' config m.selector) := by
    have hRel := h.body
    generalize m.body = body, m'.body = body' at hRel
    cases hRel with
    | none => rfl
    | some hStmt => exact hStmt m.selector
  rw [observeMethod, observeMethod, ← h.selector, hBody]

theorem observeMethod_eq_of_related {R : Expr → Expr → Prop} (hExprs : ∀ e e', R e e' →
      ∀ method, e.observations scope config method = e'.observations scope' config method)
    {m m' : MethodDecl} (h : m.Revised (Stmt.Related R) m') :
    observeMethod scope config m = observeMethod scope' config m' := by
  have hTells (s s' : Stmt) (hStmt : s.Related R s') : s.TellsSame scope scope' config s' := by
    intro method
    simp only [Stmt.allExprs_eq, List.filterMap_flatMap]
    exact flatMap_eq_of_rel (Stmt.ownExprs_rel _ hStmt) fun e e' he => hExprs e e' he method
  exact observeMethod_eq_of_tellsSame
    ⟨h.selector, h.kind, h.params, h.implicit, h.range, rel_mono hTells h.body⟩

/-- A method tells the same in classes that resemble each other. -/
theorem observeMethod_resembles (hScope : scope.Resembles scope') :
    observeMethod scope config = observeMethod scope' config := by
  funext m
  refine observeMethod_eq_of_related (R := Expr.Alike scope scope')
    (fun e e' he method => he.observations config method) ?_
  exact ⟨rfl, rfl, rfl, rfl, rfl, rel_refl (Stmt.related_refl (.of_resembles hScope)) _⟩

theorem classFacts_eq_of_related {R : Expr → Expr → Prop} (hExprs : ∀ e e', R e e' →
      ∀ method, e.observations scope config method = e'.observations scope' config method)
    {d d' : ImplementationDecl} (h : d.Revised (Stmt.Related R) d') :
    classFacts scope config d = classFacts scope' config d' := by
  rw [classFacts, classFacts]
  exact congrArg _ (flatMap_eq_of_rel h.methods fun m m' hm => observeMethod_eq_of_related hExprs hm)

end

section

variable {config : DelegateConfig} {subject subject' : Subject} {d d' : ImplementationDecl}
  (hScope : ClassScope.Resembles ⟨subject.unit, d.name⟩ ⟨subject'.unit, d'.name⟩)
  (hPath : subject.unit.path = subject'.unit.path) (hLang : subject.lang = subject'.lang)

include hScope hPath hLang

theorem checkImplicitTeardown_eq_of_resembles (hRange : d.range = d'.range) :
    checkImplicitTeardown config subject d = checkImplicitTeardown config subject' d' := by
  have hName : d.name = d'.name := hScope.className
  have hField (field : String) : subject.unit.findField? d'.name field =
      subject'.unit.findField? d'.name field := hName ▸ congrFun hScope.field? field
  funext facts
  simp only [checkImplicitTeardown, hField, hName, hRange, hLang, hPath]

/-- Declarations of the same class with the same facts are scanned alike. -/
theorem scanClass_eq (hRange : d.range = d'.range) (hFacts : classFacts ⟨subject.unit, d.name⟩ config d =
      classFacts ⟨subject'.unit, d.name⟩ config d') (known : FactsByClass) :
    scanClass config subject known d = scanClass config subject' known d' := by
  have hName : d.name = d'.name := hScope.className
  have hTeardown := @checkImplicitTeardown_eq_of_resembles config _ _ _ _ hScope hPath hLang hRange
  simp only [scanClass, ← hName, hFacts, hTeardown]

end

theorem scanAll_eq {config : DelegateConfig} {subject subject' : Subject}
    {decls decls' : List ImplementationDecl}
    (h : List.Forall₂ (fun d d' => ∀ known, scanClass config subject known d =
      scanClass config subject' known d') decls decls') (known : FactsByClass) :
    (danglingDelegateCheck config).scanAll subject known decls =
      (danglingDelegateCheck config).scanAll subject' known decls' := by
  induction h generalizing known with
  | nil => rfl
  | @cons d d' _ _ hDecl _ ih =>
    have hOne : (danglingDelegateCheck config).scanOne subject known d =
        (danglingDelegateCheck config).scanOne subject' known d' := by
      simp only [UnitCheck.scanOne, danglingDelegateCheck, hDecl known]
    simp only [UnitCheck.scanAll, hOne, ih]

section

variable {config : DelegateConfig} {subject subject' : Subject} {B : String → Stmt → Stmt → Prop}
  (h : subject.unit.Revised B subject'.unit) (hLang : subject.lang = subject'.lang)
  (hFacts : ∀ d d', d.Revised (B d.name) d' →
    classFacts ⟨subject.unit, d.name⟩ config d = classFacts ⟨subject'.unit, d.name⟩ config d')

include h hLang hFacts

/-- Where other bodies tell the same, units that are the same but for bodies are scanned alike. -/
theorem scanAll_revised (known : FactsByClass) :
    (danglingDelegateCheck config).scanAll subject known subject.unit.implementations =
      (danglingDelegateCheck config).scanAll subject' known subject'.unit.implementations :=
  scanAll_eq (h.implementations.imp fun d d' hDecl =>
    scanClass_eq (ClassScope.Matches.resembles ⟨hDecl.name, h.sameDeclarations⟩) h.path hLang hDecl.range
      (hFacts d d' hDecl)) known

theorem scannedFacts_revised : scannedFacts config subject = scannedFacts config subject' :=
  congrArg Prod.fst (scanAll_revised h hLang hFacts ∅)

end

/-! ## Runs -/

theorem Subject.lang_ofUnit_congr {unit unit' : SourceUnit} (h : unit.lang = unit'.lang)
    (autoReleaseFields : Option Bool) :
    (ofUnit unit autoReleaseFields).lang = (ofUnit unit' autoReleaseFields).lang := by
  simp only [ofUnit, h]

/-- The methods of units that are the same but for bodies correspond. -/
theorem frames_rel {subject subject' : Subject} {B : String → Stmt → Stmt → Prop}
    (h : subject.unit.Revised B subject'.unit) (hLang : subject.lang = subject'.lang) :
    List.Forall₂ (fun frame frame' => frame.Matches frame' ∧ frame.subject = subject ∧
        Option.Rel (B frame.className) frame.method.body frame'.method.body)
      (UnitCheck.frames subject) (UnitCheck.frames subject') := by
  refine List.rel_flatMap h.implementations fun d d' hDecl => ?_
  rw [List.forall₂_map_left_iff, List.forall₂_map_right_iff, ← hDecl.name]
  refine (List.rel_filter (fun m m' hm => ?_) hDecl.methods).imp fun m m' hm => ?_
  · exact iff_of_eq (congrArg (· = true) hm.isSome_body)
  · exact ⟨⟨⟨rfl, h.sameDeclarations⟩, hLang, hm.selector, hm.range⟩, rfl, hm.body⟩

section

variable {config : DelegateConfig} {subject subject' : Subject} {step : String → Expr → Expr → Prop}
  (hRelated : subject.unit.Related (fun className => Expr.Rewrites (step className)) subject'.unit)
  (hLang : subject.lang = subject'.lang)
  (hAlike : ∀ className e d, step className e d →
    e.Alike ⟨subject.unit, className⟩ ⟨subject.unit, className⟩ d)

include hRelated hAlike

theorem classFacts_of_rewrites (d d' : ImplementationDecl)
    (hDecl : d.Revised (Stmt.Related (Expr.Rewrites (step d.name))) d') :
    classFacts ⟨subject.unit, d.name⟩ config d = classFacts ⟨subject'.unit, d.name⟩ config d' := by
  have hScope : ClassScope.Matches ⟨subject.unit, d.name⟩ ⟨subject'.unit, d.name⟩ :=
    ⟨rfl, hRelated.revised.sameDeclarations⟩
  refine classFacts_eq_of_related (fun e e' he method => ?_) hDecl
  exact (he.alike hScope.resembles (hAlike d.name)).observations config method

include hLang

theorem scannedFacts_of_rewrites : scannedFacts config subject = scannedFacts config subject' :=
  scannedFacts_revised hRelated.revised hLang (classFacts_of_rewrites hRelated hAlike)

/-- Units that differ by steps to what looks and is evaluated the same are analyzed alike. -/
theorem run_of_rewrites (hEvaluate : ∀ frame : Frame, frame.subject = subject → ∀ known e d,
      step frame.className e d → evaluate frame (delegatePaths config known) e =
        evaluate frame (delegatePaths config known) d) (limits : Limits) :
    (danglingDelegateCheck config).run subject limits =
      (danglingDelegateCheck config).run subject' limits := by
  have hExplore : List.Forall₂ (fun frame frame' =>
      (explore frame limits (delegatePaths config (scannedFacts config subject))).stats =
        (explore frame' limits (delegatePaths config (scannedFacts config subject))).stats ∧
      (explore frame limits (delegatePaths config (scannedFacts config subject))).reports =
        (explore frame' limits (delegatePaths config (scannedFacts config subject))).reports)
      (UnitCheck.frames subject) (UnitCheck.frames subject') := by
    refine (frames_rel hRelated.revised hLang).imp fun frame frame' ⟨hFrame, hSubject, hBody⟩ => ?_
    refine explore_exchangeable hFrame.resembles
      (rel_mono (fun s _ => s.related_mono fun e e' he => ?_) hBody) limits
    refine he.exchangeable hFrame fun e d hStep => ⟨?_, hEvaluate frame hSubject _ e d hStep⟩
    have hHere := hAlike frame.className e d hStep
    rwa [← hSubject] at hHere
  rw [run_eq, run_eq, ← scannedFacts_of_rewrites hRelated hLang hAlike,
    scanAll_revised hRelated.revised hLang (classFacts_of_rewrites hRelated hAlike),
    map_eq_of_rel hExplore fun _ _ h => h.1, flatMap_eq_of_rel hExplore fun _ _ h => h.2]

end

end DelegateSafety
