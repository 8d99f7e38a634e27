import DelegateSafety.Proofs.Correspondence

/-! # One method among others

A unit with one method left out can be given different bodies for it. As long as a scan learns the same from
them, a run differs at most where the method itself is explored (`MethodContext.run_of_explored`).
-/
namespace DelegateSafety

/-! ## Explorations one by one -/

/-- The methods of an implementation that have a body to explore, with its name. -/
def ImplementationDecl.written (d : ImplementationDecl) : List (String × MethodDecl) :=
  (d.methods.filter (·.body.isSome)).map (Prod.mk d.name)

def SourceUnit.written (unit : SourceUnit) : List (String × MethodDecl) :=
  unit.implementations.flatMap (·.written)

theorem frames_eq (subject : Subject) :
    UnitCheck.frames subject = subject.unit.written.map fun x => ⟨subject, x.1, x.2⟩ := by
  simp only [UnitCheck.frames, SourceUnit.written, ImplementationDecl.written, List.map_flatMap,
    List.map_map]
  rfl

/-- The exploration of a method of a class, with the facts of all classes of the unit at hand. -/
def exploreMethod (config : DelegateConfig) (subject : Subject) (limits : Limits)
    (x : String × MethodDecl) : Explored Diagnostic Unit :=
  explore ⟨subject, x.1, x.2⟩ limits (delegatePaths config (scannedFacts config subject))

def explorations (config : DelegateConfig) (subject : Subject) (limits : Limits) :
    List (Explored Diagnostic Unit) :=
  subject.unit.written.map (exploreMethod config subject limits)

def scanReports (config : DelegateConfig) (subject : Subject) : List Diagnostic :=
  ((danglingDelegateCheck config).scanAll subject ∅ subject.unit.implementations).2

theorem run_eq_explorations (config : DelegateConfig) (subject : Subject) (limits : Limits) :
    (danglingDelegateCheck config).run subject limits =
      ⟨((explorations config subject limits).map (·.stats)).foldl (· + ·) 0,
        scanReports config subject ++ (explorations config subject limits).flatMap (·.reports)⟩ := by
  rw [run_eq, frames_eq, explorations, List.map_map, List.map_map, List.flatMap_map, List.flatMap_map]
  rfl

/-- Units that are the same but for bodies, and a scan learns the same from these. -/
def SourceUnit.TellsSame (config : DelegateConfig) (unit unit' : SourceUnit) : Prop :=
  unit.Revised (fun name => Stmt.TellsSame ⟨unit, name⟩ ⟨unit, name⟩ config) unit'

section

variable {config : DelegateConfig} {subject subject' : Subject}
  (hTells : subject.unit.TellsSame config subject'.unit)
  (hLang : subject.lang = subject'.lang)

include hTells

theorem classFacts_of_tellsSame (d d' : ImplementationDecl)
    (hDecl : d.Revised (Stmt.TellsSame ⟨subject.unit, d.name⟩ ⟨subject.unit, d.name⟩ config) d') :
    classFacts ⟨subject.unit, d.name⟩ config d = classFacts ⟨subject'.unit, d.name⟩ config d' := by
  have hScope : ClassScope.Matches ⟨subject.unit, d.name⟩ ⟨subject'.unit, d.name⟩ :=
    ⟨rfl, hTells.sameDeclarations⟩
  rw [classFacts, classFacts, ← observeMethod_resembles hScope.resembles]
  exact congrArg _ (flatMap_eq_of_rel hDecl.methods fun _ _ hMethod =>
    observeMethod_eq_of_tellsSame hMethod)

include hLang

theorem scanReports_of_tellsSame : scanReports config subject = scanReports config subject' :=
  congrArg Prod.snd (scanAll_revised hTells hLang (classFacts_of_tellsSame hTells) ∅)

theorem scannedFacts_of_tellsSame : scannedFacts config subject = scannedFacts config subject' :=
  scannedFacts_revised hTells hLang (classFacts_of_tellsSame hTells)

/-- A method is explored alike in both units, whatever has become of the others. -/
theorem exploreMethod_of_tellsSame (limits : Limits) :
    exploreMethod config subject limits = exploreMethod config subject' limits := by
  funext x
  have hFrame : Frame.Matches ⟨subject, x.1, x.2⟩ ⟨subject', x.1, x.2⟩ :=
    ⟨⟨rfl, hTells.sameDeclarations⟩, hLang, rfl, rfl⟩
  rw [exploreMethod, exploreMethod, ← scannedFacts_of_tellsSame hTells hLang]
  exact explore_eq_of_matches hFrame rfl limits

end

/-! ## A method in its place -/

def MethodDecl.withBody (m : MethodDecl) (body : List Stmt) : MethodDecl :=
  { m with body := some (.block body) }

/-- A source unit with one method left out of one of its implementations. -/
structure MethodContext where
  path : String
  lang : LangOptions
  interfaces : List InterfaceDecl
  globals : List VarDecl
  implementationsBefore : List ImplementationDecl
  implementationsAfter : List ImplementationDecl
  className : String
  fields : List FieldDecl
  range : SourceRange
  methodsBefore : List MethodDecl
  methodsAfter : List MethodDecl

namespace MethodContext

variable (c : MethodContext)

def around (methods : List MethodDecl) : ImplementationDecl := ⟨c.className, c.fields, methods, c.range⟩

def fill (m : MethodDecl) : SourceUnit where
  path := c.path
  lang := c.lang
  interfaces := c.interfaces
  implementations := c.implementationsBefore ++
    c.around (c.methodsBefore ++ m :: c.methodsAfter) :: c.implementationsAfter
  globals := c.globals

/-- The unit with a body for the method left out, under the language options that the settings give. -/
def analyzed (settings : AnalysisSettings) (m : MethodDecl) (body : List Stmt) : Subject :=
  .ofUnit (c.fill (m.withBody body)) settings.autoReleaseFields

def writtenBefore : List (String × MethodDecl) :=
  c.implementationsBefore.flatMap (·.written) ++ (c.around c.methodsBefore).written

def writtenAfter : List (String × MethodDecl) :=
  (c.around c.methodsAfter).written ++ c.implementationsAfter.flatMap (·.written)

/-- The reports of a run in which the exploration of the method left out gives certain reports. -/
def reportsAround (config : DelegateConfig) (subject : Subject) (limits : Limits)
    (reports : List Diagnostic) : List Diagnostic :=
  scanReports config subject ++
    (c.writtenBefore.map (exploreMethod config subject limits)).flatMap (·.reports) ++ reports ++
    (c.writtenAfter.map (exploreMethod config subject limits)).flatMap (·.reports)

theorem written_analyzed (settings : AnalysisSettings) (m : MethodDecl) (body : List Stmt) :
    (c.analyzed settings m body).unit.written =
      c.writtenBefore ++ (c.className, m.withBody body) :: c.writtenAfter := by
  have hBody : (m.withBody body).body.isSome = true := rfl
  simp only [SourceUnit.written, analyzed, Subject.ofUnit, fill, around, writtenBefore, writtenAfter,
    ImplementationDecl.written, List.flatMap_append, List.flatMap_cons, List.filter_append,
    List.filter_cons, hBody, if_true, List.map_append, List.map_cons, List.append_assoc, List.cons_append]

variable {c}

theorem revised_fill {B : String → Stmt → Stmt → Prop} (hRefl : ∀ className s, B className s s)
    {m m' : MethodDecl} (h : m.Revised (B c.className) m') : (c.fill m).Revised B (c.fill m') := by
  have hMethods (className : String) (methods : List MethodDecl) :
      List.Forall₂ (MethodDecl.Revised (B className)) methods methods :=
    List.forall₂_same.mpr fun _ _ => ⟨rfl, rfl, rfl, rfl, rfl, rel_refl (hRefl className) _⟩
  have hOthers (decls : List ImplementationDecl) :
      List.Forall₂ (fun d d' => ImplementationDecl.Revised (B d.name) d d') decls decls :=
    List.forall₂_same.mpr fun d _ => ⟨rfl, rfl, rfl, hMethods d.name d.methods⟩
  have hHere : (c.around (c.methodsBefore ++ m :: c.methodsAfter)).Revised (B c.className)
      (c.around (c.methodsBefore ++ m' :: c.methodsAfter)) :=
    ⟨rfl, rfl, rfl, List.rel_append (hMethods _ _) (.cons h (hMethods _ _))⟩
  exact ⟨rfl, rfl, rfl, rfl, List.rel_append (hOthers _) (.cons hHere (hOthers _))⟩

section

variable {config : DelegateConfig} {settings : AnalysisSettings} {m : MethodDecl} {body body' : List Stmt}

theorem explorations_analyzed (limits : Limits) :
    explorations config (c.analyzed settings m body) limits =
      c.writtenBefore.map (exploreMethod config (c.analyzed settings m body) limits) ++
        exploreMethod config (c.analyzed settings m body) limits (c.className, m.withBody body) ::
        c.writtenAfter.map (exploreMethod config (c.analyzed settings m body) limits) := by
  rw [explorations, written_analyzed, List.map_append, List.map_cons]

/-- Another body from which the scan learns the same may change the reports of its own exploration. If it
changes nothing else there, those reports are all that changes. -/
theorem run_of_explored {limits : Limits} {reports : List Diagnostic}
    (hTells : ∀ scope, Stmt.TellsSame scope scope config (.block body) (.block body'))
    (hExplored : exploreMethod config (c.analyzed settings m body) limits (c.className, m.withBody body') =
      { exploreMethod config (c.analyzed settings m body) limits (c.className, m.withBody body) with
        reports := reports }) :
    let subject := c.analyzed settings m body
    let subject' := c.analyzed settings m body'
    let run (subject : Subject) := (danglingDelegateCheck config).run subject limits
    (run subject).reports = c.reportsAround config subject limits
      (exploreMethod config subject limits (c.className, m.withBody body)).reports ∧
    (run subject').reports = c.reportsAround config subject limits reports ∧
    (run subject').stats = (run subject).stats ∧
    (explorations config subject' limits).map (fun x => (x.nextPath, x.forks, x.stats)) =
      (explorations config subject limits).map (fun x => (x.nextPath, x.forks, x.stats)) ∧
    scannedFacts config subject' = scannedFacts config subject := by
  intro subject subject' run
  have hUnit : subject.unit.TellsSame config subject'.unit :=
    revised_fill (fun _ _ _ => rfl) ⟨rfl, rfl, rfl, rfl, rfl, .some (hTells _)⟩
  have hLang : subject.lang = subject'.lang := rfl
  have hHere : explorations config subject limits = _ := explorations_analyzed limits
  have hThere : explorations config subject' limits =
      c.writtenBefore.map (exploreMethod config subject limits) ++
        { exploreMethod config subject limits (c.className, m.withBody body) with reports := reports } ::
        c.writtenAfter.map (exploreMethod config subject limits) := by
    rw [← hExplored, exploreMethod_of_tellsSame hUnit hLang]
    exact explorations_analyzed limits
  refine ⟨?_, ?_, ?_, ?_, (scannedFacts_of_tellsSame hUnit hLang).symm⟩
  · simp only [run, run_eq_explorations, hHere, reportsAround, List.flatMap_append, List.flatMap_cons,
      List.append_assoc]
    rfl
  · simp only [run, run_eq_explorations, hThere, reportsAround, List.flatMap_append, List.flatMap_cons,
      List.append_assoc, scanReports_of_tellsSame hUnit hLang]
  · simp only [run, run_eq_explorations, hHere, hThere, List.map_append, List.map_cons]
    rfl
  · simp only [hHere, hThere, List.map_append, List.map_cons]
    rfl

end

end MethodContext

end DelegateSafety
