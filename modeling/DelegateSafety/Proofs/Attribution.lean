import DelegateSafety.Checkers
import DelegateSafety.Proofs.Origin

/-! # Who reports what

What a checker reports carries the checker's name, the one kind of its reports and the file of the unit
(`reported_mem_reportsOf`), and the reports of a run are those of the enabled checkers, one checker after
another (`rawReports_eq`).
-/
namespace DelegateSafety

/-- A report in the name of a checker. -/
structure Diagnostic.Reported (checker : String) (kind : ReportKind) (file : String)
    (d : Diagnostic) : Prop where
  checker : d.checker = checker
  title : d.title = kind.title
  category : d.category = kind.category
  file : d.file = file

theorem reported_atDeclaration (checker : String) (kind : ReportKind) (file decl : String)
    (range : SourceRange) (message : String) :
    (Diagnostic.atDeclaration checker kind file decl range message).Reported checker kind file :=
  ⟨rfl, rfl, rfl, rfl⟩

/-! ## Rules that need no paths -/

section

variable {subject : Subject} {P : Diagnostic → Prop} {d : Diagnostic}

theorem LintRule.forall_mem_run {rule : LintRule}
    (hDecl : ∀ decl, ∀ d ∈ rule.onDecl subject decl, P d)
    (hBody : ∀ code, ∀ d ∈ rule.onBody subject code, P d) : ∀ d ∈ rule.run subject, P d := by
  have hMethod : ∀ className method, ∀ d ∈ rule.onMethod subject className method, P d := by
    intro className method d hd
    unfold LintRule.onMethod at hd
    cases hCode : method.body with
    | none => simp [hCode] at hd
    | some body =>
      rw [hCode, Option.elim_some] at hd
      rcases List.mem_append.mp hd with hd | hd
      · obtain ⟨v, -, hd⟩ := List.mem_flatMap.mp hd
        exact hDecl _ d hd
      · exact hBody _ d hd
  intro d hd
  rcases List.mem_append.mp hd with hd | hd
  · rcases List.mem_append.mp hd with hd | hd
    · obtain ⟨v, -, hd⟩ := List.mem_flatMap.mp hd
      exact hDecl _ d hd
    · obtain ⟨interface, -, hd⟩ := List.mem_flatMap.mp hd
      rcases List.mem_append.mp hd with hd | hd <;> obtain ⟨member, -, hd⟩ := List.mem_flatMap.mp hd
      · exact hDecl _ d hd
      · exact hDecl _ d hd
  · obtain ⟨implementation, -, hd⟩ := List.mem_flatMap.mp hd
    rcases List.mem_append.mp hd with hd | hd <;> obtain ⟨member, -, hd⟩ := List.mem_flatMap.mp hd
    · exact hDecl _ d hd
    · exact hMethod _ _ d hd

theorem reported_mem_repeatedOperand (hd : d ∈ repeatedOperandRule.run subject) :
    d.Reported repeatedOperandName repeatedOperand subject.unit.path := by
  refine LintRule.forall_mem_run (fun decl d hd => nomatch hd) (fun code d hd => ?_) d hd
  obtain ⟨e, -, hd⟩ := List.mem_filterMap.mp hd
  obtain ⟨name, -, rfl⟩ := Option.map_eq_some_iff.mp hd
  exact reported_atDeclaration _ _ _ _ _ _

theorem reported_mem_oncePredicate (hd : d ∈ oncePredicateRule.run subject) :
    d.Reported oncePredicateName nonStaticPredicate subject.unit.path := by
  refine LintRule.forall_mem_run (fun decl d hd => ?_) (fun code d hd => nomatch hd) d hd
  simp only [oncePredicateRule] at hd
  split at hd
  · obtain rfl := List.mem_singleton.mp hd
    exact reported_atDeclaration _ _ _ _ _ _
  · cases hd

theorem reported_mem_respondsToSelector (hd : d ∈ respondsToSelectorRule.run subject) :
    d.Reported respondsToSelectorName suspiciousSelector subject.unit.path := by
  refine LintRule.forall_mem_run (fun decl d hd => nomatch hd) (fun code d hd => ?_) d hd
  obtain ⟨s, -, hd⟩ := List.mem_filterMap.mp hd
  cases s with
  | branch cond yes no =>
    obtain ⟨guard, -, hd⟩ := Option.bind_eq_some_iff.mp hd
    obtain ⟨use, -, rfl⟩ := Option.map_eq_some_iff.mp hd
    exact reported_atDeclaration _ _ _ _ _ _
  | _ => cases hd

end

/-! ## The check that follows paths -/

theorem reported_mem_run {config : DelegateConfig} {subject : Subject} {limits : Limits}
    {d : Diagnostic} (hd : d ∈ ((danglingDelegateCheck config).run subject limits).reports) :
    d.Reported danglingDelegateName leakingSelf subject.unit.path := by
  rcases mem_reports_run_iff.mp hd with hScan | ⟨frame, hFrame, made, hMade, hFiled⟩
  · obtain ⟨decl, -, -, -, hReport⟩ := exists_first_of_mem_scanAll hScan
    obtain ⟨field, property, -, rfl⟩ := exists_of_mem_checkImplicitTeardown hReport
    exact reported_atDeclaration _ _ _ _ _ _
  · obtain ⟨-, -, r, site, property, rfl, -, rfl⟩ := exists_records_of_mem_filed hMade hFiled
    exact ⟨rfl, rfl, rfl, congrArg (·.unit.path) (subject_of_mem_frames hFrame)⟩

/-! ## All checkers -/

/-- The kind of a checker's reports. -/
def reportKind (checker : String) : ReportKind :=
  if checker = danglingDelegateName then leakingSelf
  else if checker = repeatedOperandName then repeatedOperand
  else if checker = oncePredicateName then nonStaticPredicate
  else suspiciousSelector

theorem reported_mem_rule {rule : LintRule} (hRule : rule ∈ lintRules) {subject : Subject}
    {d : Diagnostic} (hd : d ∈ rule.run subject) :
    d.Reported rule.name (reportKind rule.name) subject.unit.path := by
  simp only [lintRules, List.mem_cons, List.not_mem_nil, or_false] at hRule
  rcases hRule with rfl | rfl | rfl
  · exact reported_mem_repeatedOperand hd
  · exact reported_mem_oncePredicate hd
  · exact reported_mem_respondsToSelector hd

def checkerNames : List String := availableCheckers.map (·.name)

theorem nodup_checkerNames : checkerNames.Nodup := by decide

theorem checkerNames_eq : checkerNames = danglingDelegateName :: lintRules.map (·.name) := rfl

namespace AnalyzerConfig

variable (config : AnalyzerConfig) (unit : SourceUnit)

/-- What one checker reports, whether it is enabled or not. -/
def reportsOf (checker : String) : List Diagnostic :=
  if checker = danglingDelegateName then (config.exploreUnit unit).reports
  else (lintRules.filter (·.name == checker)).flatMap (·.run (config.subjectOf unit))

theorem reportsOf_danglingDelegate :
    config.reportsOf unit danglingDelegateName = (config.exploreUnit unit).reports :=
  if_pos rfl

theorem reportsOf_rule {rule : LintRule} (hRule : rule ∈ lintRules) :
    config.reportsOf unit rule.name = rule.run (config.subjectOf unit) := by
  simp only [lintRules, List.mem_cons, List.not_mem_nil, or_false] at hRule
  rcases hRule with rfl | rfl | rfl <;> exact List.append_nil _

theorem rawReports_eq :
    config.rawReports unit = config.checkerSelection.names.flatMap (config.reportsOf unit) := by
  have hLint : config.lintReports unit = (lintRules.filter fun rule =>
      config.checkerSelection.isEnabled rule.name).flatMap fun rule =>
        config.reportsOf unit rule.name :=
    List.flatMap_congr fun rule hRule => (reportsOf_rule config unit (List.mem_filter.mp hRule).1).symm
  have hNames : config.checkerSelection.names =
      (if config.checkerSelection.isEnabled danglingDelegateName then [danglingDelegateName] else []) ++
        (lintRules.filter fun rule => config.checkerSelection.isEnabled rule.name).map (·.name) := by
    rw [CheckerSelection.names, ← checkerNames, checkerNames_eq, List.filter_cons, List.filter_map]
    split <;> rfl
  rw [rawReports, hLint, hNames, List.flatMap_append, List.flatMap_map, exploreIfEnabled]
  congr 1
  split
  · rw [List.flatMap_singleton, reportsOf_danglingDelegate]
  · rfl

variable {config unit}

theorem mem_names {s : CheckerSelection} {checker : String} :
    checker ∈ s.names ↔ checker ∈ checkerNames ∧ s.isEnabled checker = true :=
  List.mem_filter

theorem reported_mem_reportsOf {checker : String} (hChecker : checker ∈ checkerNames)
    {d : Diagnostic} (hd : d ∈ config.reportsOf unit checker) :
    d.Reported checker (reportKind checker) unit.path := by
  rw [checkerNames_eq, List.mem_cons] at hChecker
  rcases hChecker with rfl | hName
  · exact reported_mem_run hd
  · obtain ⟨rule, hRule, rfl⟩ := List.mem_map.mp hName
    rw [reportsOf_rule config unit hRule] at hd
    exact reported_mem_rule hRule hd

end AnalyzerConfig

end DelegateSafety
