import DelegateSafety.Proofs.Filing

/-! # Where reports come from

No report is without a cause in the source. What a path reports, and what is reported of a class as a
whole, is a property into which a method of the class stores `self`. Of a class without a teardown
method that is all: it has one report for each such property, in the order of names.
-/
namespace DelegateSafety

/-- The same finding on whichever path. -/
def Diagnostic.withoutPath (d : Diagnostic) : Diagnostic :=
  { d with context := d.context.withoutPath }

/-! ## What the facts record -/

namespace ClassFacts

/-- All fields with the properties of their objects that may hold `self`. -/
def recorded (facts : ClassFacts) : List (String × String) :=
  facts.fields.entries.flatMap fun entry => entry.2.properties.toList.map (Prod.mk entry.1)

variable {facts : ClassFacts} {field property : String}

theorem mem_recorded : (field, property) ∈ facts.recorded ↔ facts.Records field property := by
  rw [recorded, List.mem_flatMap]
  constructor
  · rintro ⟨⟨name, fieldFacts⟩, hEntry, hHere⟩
    obtain ⟨p, hProperty, hEq⟩ := List.mem_map.mp hHere
    cases hEq
    exact ⟨fieldFacts, NameMap.mem_entries_iff.mp hEntry, NameSet.mem_toList.mp hProperty⟩
  · rintro ⟨fieldFacts, hField, hProperty⟩
    have hEntry : (field, fieldFacts) ∈ facts.fields.entries := NameMap.mem_entries_iff.mpr hField
    exact ⟨_, hEntry, List.mem_map_of_mem (NameSet.mem_toList.mpr hProperty)⟩

theorem pairwise_recorded : facts.recorded.Pairwise (Prod.Lex (· < ·) (· < ·)) := by
  rw [recorded, List.pairwise_flatMap]
  constructor
  · intro entry _
    rw [List.pairwise_map]
    have hSorted : entry.2.properties.toList.Pairwise (· < ·) :=
      List.pairwise_map.mpr entry.2.properties.sorted
    exact hSorted.imp fun h => Prod.Lex.right _ h
  · apply facts.fields.sorted.imp
    intro a b hLt x hx y hy
    obtain ⟨p, -, rfl⟩ := List.mem_map.mp hx
    obtain ⟨q, -, rfl⟩ := List.mem_map.mp hy
    exact Prod.Lex.left _ _ hLt

end ClassFacts

section

variable {scope : ClassScope} {config : DelegateConfig}

theorem teardown_mem_observeMethod_iff (method : MethodDecl) :
    .teardown ∈ observeMethod scope config method ↔ method.selector = config.teardownMethod := by
  rw [mem_observeMethod_iff]
  constructor
  · rintro (⟨hTeardown, -⟩ | ⟨-, hEq⟩ | ⟨-, m, r, -, hSend⟩)
    · exact hTeardown
    · cases hEq
    · exact absurd rfl (not_method_of_observeSend hSend).1
  · exact fun hTeardown => .inl ⟨hTeardown, rfl⟩

theorem hasTeardown_classFacts_iff {decl : ImplementationDecl} :
    (classFacts scope config decl).hasTeardown = true ↔
      ∃ method ∈ decl.methods, method.selector = config.teardownMethod := by
  rw [classFacts, (ClassFacts.tells_ofObservations _).teardown, List.mem_flatMap]
  exact exists_congr fun method => and_congr_right fun _ => teardown_mem_observeMethod_iff method

end

/-! ## The reports of a scan -/

section

variable {config : DelegateConfig} {subject : Subject} {known : FactsByClass}

theorem snd_scanOne (d : ImplementationDecl) :
    ((danglingDelegateCheck config).scanOne subject known d).2 =
      if d.name ≠ "" ∧ known.find? d.name = none then
        checkImplicitTeardown config subject d (classFacts ⟨subject.unit, d.name⟩ config d)
      else [] := by
  simp only [UnitCheck.scanOne, danglingDelegateCheck, scanClass]
  by_cases hName : d.name = ""
  · simp [hName]
  · cases hKnown : known.find? d.name <;> simp [NameMap.contains, hName, hKnown]

theorem exists_first_of_mem_scanAll {decls : List ImplementationDecl} {d : Diagnostic}
    (hd : d ∈ ((danglingDelegateCheck config).scanAll subject known decls).2) :
    ∃ decl, decls.find? (·.name == decl.name) = some decl ∧ decl.name ≠ "" ∧
      known.find? decl.name = none ∧ d ∈ checkImplicitTeardown config subject decl
        (classFacts ⟨subject.unit, decl.name⟩ config decl) := by
  induction decls generalizing known with
  | nil => cases hd
  | cons first rest ih =>
    simp only [UnitCheck.scanAll] at hd
    rcases List.mem_append.mp hd with hFirst | hOthers
    · rw [snd_scanOne] at hFirst
      split at hFirst
      · rename_i hNew
        exact ⟨first, List.find?_cons_of_pos (beq_self_eq_true _), hNew.1, hNew.2, hFirst⟩
      · cases hFirst
    · obtain ⟨decl, hFind, hName, hUnknown, hReport⟩ := ih hOthers
      rw [find?_scanOne] at hUnknown
      split at hUnknown
      · cases hUnknown
      · rename_i hOther
        have hApart : first.name ≠ decl.name := fun hSame => hOther ⟨hSame, hName, hUnknown⟩
        refine ⟨decl, ?_, hName, hUnknown, hReport⟩
        rwa [List.find?_cons_of_neg (by simpa using hApart)]

/-- Where all names differ no implementation is passed over but for one without a name. -/
theorem snd_scanAll_distinct {decls : List ImplementationDecl} (hDistinct : (decls.map (·.name)).Nodup)
    (hUnknown : ∀ d ∈ decls, known.find? d.name = none) :
    ((danglingDelegateCheck config).scanAll subject known decls).2 =
      decls.flatMap fun d => if d.name ≠ "" then
        checkImplicitTeardown config subject d (classFacts ⟨subject.unit, d.name⟩ config d) else [] := by
  induction decls generalizing known with
  | nil => rfl
  | cons first rest ih =>
    obtain ⟨hFirst, hRest⟩ := List.forall_mem_cons.mp hUnknown
    obtain ⟨hApart, hTail⟩ := List.nodup_cons.mp hDistinct
    have hStill : ∀ d ∈ rest,
        ((danglingDelegateCheck config).scanOne subject known first).1.find? d.name = none := by
      intro d hd
      rw [find?_scanOne, if_neg, hRest d hd]
      rintro ⟨hSame, -, -⟩
      exact hApart (List.mem_map.mpr ⟨d, hd, hSame.symm⟩)
    simp only [UnitCheck.scanAll]
    rw [snd_scanOne, ih hTail hStill, List.flatMap_cons]
    simp only [hFirst, and_true]

theorem snd_scanAll {decls : List ImplementationDecl} (hNames : ∀ d ∈ decls, d.name ≠ "")
    (hDistinct : (decls.map (·.name)).Nodup) (hUnknown : ∀ d ∈ decls, known.find? d.name = none) :
    ((danglingDelegateCheck config).scanAll subject known decls).2 =
      decls.flatMap fun d =>
        checkImplicitTeardown config subject d (classFacts ⟨subject.unit, d.name⟩ config d) := by
  rw [snd_scanAll_distinct hDistinct hUnknown]
  exact List.flatMap_congr fun d hd => if_pos (hNames d hd)

/-- The report that a property may hold `self` when an object without a teardown method goes away. -/
def implicitReport (config : DelegateConfig) (unit : SourceUnit) (decl : ImplementationDecl)
    (field property : String) : Diagnostic :=
  .atDeclaration danglingDelegateName leakingSelf unit.path decl.name decl.range
    (leftoverMessage field property ((unit.findField? decl.name field).map (·.type))
      (some ("implicit " ++ config.teardownMethod)))

theorem leftovers_empty (dangerous : NameSet) : leftovers dangerous ∅ = dangerous.toList := by
  rw [leftovers, List.filter_eq_self]
  simp

theorem checkImplicitTeardown_eq (decl : ImplementationDecl) (facts : ClassFacts) :
    checkImplicitTeardown config subject decl facts =
      if !facts.hasTeardown && subject.lang.autoReleaseFields then
        facts.recorded.map fun x => implicitReport config subject.unit decl x.1 x.2
      else [] := by
  unfold checkImplicitTeardown
  split
  · rw [ClassFacts.recorded, List.map_flatMap]
    refine List.flatMap_congr fun entry _ => ?_
    simp only [leftoverMessages, leftovers_empty, List.map_map]
    rfl
  · rfl

theorem exists_of_mem_checkImplicitTeardown {decl : ImplementationDecl} {facts : ClassFacts}
    {d : Diagnostic} (hd : d ∈ checkImplicitTeardown config subject decl facts) :
    ∃ field property, facts.Records field property ∧
      d = implicitReport config subject.unit decl field property := by
  rw [checkImplicitTeardown_eq] at hd
  split at hd
  · obtain ⟨⟨field, property⟩, hRecorded, rfl⟩ := List.mem_map.mp hd
    exact ⟨field, property, ClassFacts.mem_recorded.mp hRecorded, rfl⟩
  · cases hd

end

/-! ## The reports of paths -/

section

variable {config : DelegateConfig} {subject : Subject} {limits : Limits} {frame : Frame}

theorem exists_records_of_mem_filed {known : FactsByClass} {made : List Callback}
    (hMade : made ∈ shownCalls frame limits) {d : Diagnostic}
    (hd : d ∈ (delegatePaths config known).filed made) :
    ∃ facts, known.find? frame.className = some facts ∧
      ∃ (r : Release) (site : Site) (property : String), site.frame = frame ∧
        facts.Records r.field property ∧ d = r.report site property := by
  obtain ⟨hHistory, before, call, rfl⟩ := exists_concat_of_mem_shownCalls hMade
  rw [PathCheck.filed_concat, mem_filed_iff] at hd
  obtain ⟨site, hSite, facts, hKnown, r, -, property, hRecords, -, rfl⟩ := hd
  have hFits := hHistory.fits call (List.mem_append_right _ List.mem_cons_self)
  obtain rfl := hFits.frame_eq hSite
  exact ⟨facts, hKnown, r, site, property, rfl, hRecords, rfl⟩

theorem mem_reports_run_iff {d : Diagnostic} :
    d ∈ ((danglingDelegateCheck config).run subject limits).reports ↔
      d ∈ ((danglingDelegateCheck config).scanAll subject ∅ subject.unit.implementations).2 ∨
      ∃ frame ∈ UnitCheck.frames subject, ∃ made ∈ shownCalls frame limits,
        d ∈ (delegatePaths config (scannedFacts config subject)).filed made := by
  rw [reports_run, List.mem_append]
  simp only [List.mem_flatMap]

end

/-- Every report of a path names a field and a property into which the first implementation of the
path's class stores `self`. A class that nowhere does so gets no report at all. -/
theorem reports_have_sources (config : DelegateConfig) (subject : Subject) (limits : Limits) :
    let reports := ((danglingDelegateCheck config).run subject limits).reports
    let first? (className : String) := subject.unit.implementations.find? (·.name == className)
    (∀ d ∈ reports, ∀ className selector n, d.context = .path className selector n →
      ∃ decl, first? className = some decl ∧
        ∃ (r : Release) (site : Site) (property : String), site.frame ∈ UnitCheck.frames subject ∧
          d = r.report site property ∧
          decl.Stores ⟨subject.unit, className⟩ config r.field property) ∧
    ∀ className,
      (∀ decl, first? className = some decl → ∀ field property,
        ¬ decl.Stores ⟨subject.unit, className⟩ config field property) →
      ∀ d ∈ reports, d.context ≠ .declaration className ∧
        ∀ selector n, d.context ≠ .path className selector n := by
  intro reports first?
  have hPaths : ∀ d ∈ reports, ∀ className selector n, d.context = .path className selector n →
      ∃ decl, first? className = some decl ∧
        ∃ (r : Release) (site : Site) (property : String), site.frame ∈ UnitCheck.frames subject ∧
          d = r.report site property ∧
          decl.Stores ⟨subject.unit, className⟩ config r.field property := by
    intro d hd className selector n hContext
    rcases mem_reports_run_iff.mp hd with hScan | ⟨frame, hFrame, made, hMade, hFiled⟩
    · obtain ⟨decl, -, -, -, hReport⟩ := exists_first_of_mem_scanAll hScan
      obtain ⟨field, property, -, rfl⟩ := exists_of_mem_checkImplicitTeardown hReport
      cases hContext
    · obtain ⟨facts, hKnown, r, site, property, rfl, hRecords, rfl⟩ :=
        exists_records_of_mem_filed hMade hFiled
      cases hContext
      obtain ⟨-, decl, hFirst, rfl⟩ := find?_scannedFacts_eq_some_iff.mp hKnown
      exact ⟨decl, hFirst, r, site, property, hFrame, rfl, records_classFacts_iff.mp hRecords⟩
  refine ⟨hPaths, fun className hNowhere d hd => ⟨fun hContext => ?_, fun selector n hContext => ?_⟩⟩
  · rcases mem_reports_run_iff.mp hd with hScan | ⟨frame, -, made, hMade, hFiled⟩
    · obtain ⟨decl, hFirst, -, -, hReport⟩ := exists_first_of_mem_scanAll hScan
      obtain ⟨field, property, hRecords, rfl⟩ := exists_of_mem_checkImplicitTeardown hReport
      cases hContext
      exact hNowhere decl hFirst field property (records_classFacts_iff.mp hRecords)
    · obtain ⟨-, -, r, site, property, -, -, rfl⟩ := exists_records_of_mem_filed hMade hFiled
      cases hContext
  · obtain ⟨decl, hFirst, r, -, property, -, -, hStores⟩ :=
      hPaths d hd className selector n hContext
    exact hNowhere decl hFirst r.field property hStores

/-! ## Classes without a teardown method -/

def ReportContext.isDeclaration : ReportContext → Bool
  | declaration _ => true
  | path _ _ _ => false

theorem filter_isDeclaration_run (config : DelegateConfig) (subject : Subject) (limits : Limits) :
    ((danglingDelegateCheck config).run subject limits).reports.filter (·.context.isDeclaration) =
      ((danglingDelegateCheck config).scanAll subject ∅ subject.unit.implementations).2 := by
  have hScan : ∀ d ∈ ((danglingDelegateCheck config).scanAll subject ∅
      subject.unit.implementations).2, d.context.isDeclaration = true := by
    intro d hd
    obtain ⟨decl, -, -, -, hReport⟩ := exists_first_of_mem_scanAll hd
    obtain ⟨field, property, -, rfl⟩ := exists_of_mem_checkImplicitTeardown hReport
    rfl
  have hPaths : ∀ d ∈ (UnitCheck.frames subject).flatMap fun frame =>
      (shownCalls frame limits).flatMap (delegatePaths config (scannedFacts config subject)).filed,
      ¬ d.context.isDeclaration = true := by
    intro d hd
    obtain ⟨frame, -, hHere⟩ := List.mem_flatMap.mp hd
    obtain ⟨made, hMade, hFiled⟩ := List.mem_flatMap.mp hHere
    obtain ⟨-, -, r, site, property, -, -, rfl⟩ := exists_records_of_mem_filed hMade hFiled
    exact Bool.false_ne_true
  rw [reports_run, List.filter_append, List.filter_eq_self.mpr hScan, List.filter_eq_nil_iff.mpr hPaths,
    List.append_nil]

/-- The reports of classes as a whole, where all classes have names and no two the same one. -/
theorem declaration_reports_exact (config : DelegateConfig) (settings : AnalysisSettings)
    (unit : SourceUnit) (hNames : ∀ decl ∈ unit.implementations, decl.name ≠ "")
    (hDistinct : (unit.implementations.map (·.name)).Nodup) :
    ∃ stores : ImplementationDecl → List (String × String),
      (∀ decl ∈ unit.implementations, (stores decl).Pairwise (Prod.Lex (· < ·) (· < ·)) ∧
        ∀ field property, (field, property) ∈ stores decl ↔
          decl.Stores ⟨unit, decl.name⟩ config field property) ∧
      ((danglingDelegateCheck config).run (.ofUnit unit settings.autoReleaseFields)
          settings.limits).reports.filter (·.context.isDeclaration) =
        unit.implementations.flatMap fun decl =>
          if settings.autoReleaseFields.getD unit.lang.autoReleaseFields = true ∧
              ∀ method ∈ decl.methods, method.selector ≠ config.teardownMethod then
            (stores decl).map fun x => implicitReport config unit decl x.1 x.2
          else [] := by
  refine ⟨fun decl => (classFacts ⟨unit, decl.name⟩ config decl).recorded, fun decl _ => ?_, ?_⟩
  · refine ⟨ClassFacts.pairwise_recorded, fun field property => ?_⟩
    rw [ClassFacts.mem_recorded, records_classFacts_iff]
  · rw [filter_isDeclaration_run]
    refine (snd_scanAll hNames hDistinct fun _ _ => rfl).trans (List.flatMap_congr fun decl _ => ?_)
    rw [checkImplicitTeardown_eq]
    refine if_congr ?_ rfl rfl
    rw [Bool.and_eq_true_iff, Bool.not_eq_true', Bool.eq_false_iff, Ne, hasTeardown_classFacts_iff,
      and_comm]
    simp only [not_exists, not_and]
    rfl

namespace Sample

/-- `self` is stored into two properties, and nothing is ever torn down by hand. -/
def fooStoring : ImplementationDecl where
  name := "Foo"
  fields := []
  methods := [method "init" [
    .expr (setProperty (.field "_bar" .unknown) "delegate" (.self .unknown)),
    .expr (setProperty (.field "_bar" .unknown) "dataSource" (.self .unknown))]]
  range := .ofLine 10

end Sample

open Sample in
theorem two_stores_without_teardown_are_reported :
    ∃ stores : List (String × String), stores.Pairwise (Prod.Lex (· < ·) (· < ·)) ∧
      (∀ field property, (field, property) ∈ stores ↔
        fooStoring.Stores ⟨delegatePair fooStoring.methods, "Foo"⟩ .default field property) ∧
      ((danglingDelegateCheck .default).run (.ofUnit (delegatePair fooStoring.methods) none)
          ⟨512, 2⟩).reports.filter (·.context.isDeclaration) =
        stores.map (fun x =>
          implicitReport .default (delegatePair fooStoring.methods) fooStoring x.1 x.2) ∧
      stores.length = 2 := by
  obtain ⟨stores, hStores, hReports⟩ := declaration_reports_exact .default .default
    (delegatePair fooStoring.methods) (by decide) (by decide)
  obtain ⟨hSorted, hMem⟩ := hStores fooStoring List.mem_cons_self
  have hNoTeardown : ∀ method ∈ fooStoring.methods,
      method.selector ≠ DelegateConfig.default.teardownMethod := by decide
  have hAll := hReports.trans (List.flatMap_singleton _ fooStoring)
  rw [if_pos ⟨rfl, hNoTeardown⟩] at hAll
  refine ⟨stores fooStoring, hSorted, hMem, hAll, ?_⟩
  have hTwo : (((danglingDelegateCheck .default).run (.ofUnit (delegatePair fooStoring.methods) none)
      ⟨512, 2⟩).reports.filter (·.context.isDeclaration)).length = 2 := by decide +kernel
  have hLength := congrArg List.length hAll
  rw [List.length_map] at hLength
  exact hLength.symm.trans hTwo

end DelegateSafety
