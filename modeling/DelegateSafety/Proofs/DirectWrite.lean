import Mathlib.Data.List.Flatten
import DelegateSafety.Proofs.Filing
import DelegateSafety.Sample.Units

/-! # Writing to a field

A field that is written to lets its old object go. What is filed then is exactly what the path has not
cleared (`pending`), as it was before the field is bound to the new value, provided that the field is
declared with a class. A field of type `id` is not looked at.
-/
namespace DelegateSafety

open PathM

section

variable (config : DelegateConfig) (frame : Frame) (facts : ClassFacts) (field : String)

/-- The recorded properties that a path has not cleared when it is called again. -/
def pending (before : List Callback) : List String :=
  ((facts.field? field).elim [] (·.properties.toList)).filter fun property =>
    (pastChanges config frame facts field property before).getLast? ≠ some .cleared

end

variable {config : DelegateConfig} {known : FactsByClass} {facts : ClassFacts} {frame : Frame}
  {inside : Expr → Prop} {before : List Callback} {field : String}

theorem mem_pending_iff {property : String} :
    property ∈ pending config frame facts field before ↔ facts.Records field property ∧
      (pastChanges config frame facts field property before).getLast? ≠ some .cleared := by
  cases hField : facts.field? field <;> simp [pending, ClassFacts.Records, hField]

theorem nodup_pending : (pending config frame facts field before).Nodup := by
  refine List.Pairwise.filter _ ?_
  cases facts.field? field with
  | none => exact List.nodup_nil
  | some fieldFacts => exact fieldFacts.properties.nodup_toList

/-- What is filed about an object that is let go is what is still pending. -/
theorem verify_openPath {site : Site} (hKnown : known.find? site.frame.className = some facts)
    (hHistory : History site.frame inside before) (r : Release) :
    r.verify facts site (openPath (some facts) site ((delegatePaths config known).replay before)) =
      (pending config site.frame facts r.field before).map (r.report site) := by
  cases hField : facts.field? r.field with
  | none => simp [Release.verify_eq_nil hField, pending, hField]
  | some fieldFacts =>
    rw [Release.verify_eq hField, pending, hField, leftovers]
    refine congrArg _ (List.filter_congr fun property hProperty => ?_)
    have hRecords : facts.Records r.field property :=
      ⟨fieldFacts, hField, NameSet.mem_toList.mp hProperty⟩
    exact decide_eq_decide.mpr (not_congr (mem_openPath_iff hKnown hRecords hHistory))

section

variable {decl : FieldDecl} {target value : Expr} {range fieldRange : SourceRange}

theorem assignedField?_assign {scope : ClassScope} (hDecl : scope.field? field = some decl)
    (hPointer : decl.type.isObjectPointer = true) (hTarget : target.strip = .field field fieldRange) :
    assignedField? scope (.assign target value range) =
      if decl.type = .id then none else some field := by
  simp only [assignedField?, hTarget, hDecl, Option.any_some]
  cases hType : decl.type with
  | object className => simp [TypeRef.className?]
  | id => simp [TypeRef.className?]
  | scalar spelling => simp [hType, TypeRef.isObjectPointer] at hPointer

theorem filed_assign (config : DelegateConfig) {site : Site}
    (hHistory : History frame inside (before ++ [.beforeEffect site (.assign target value range)]))
    (hKnown : known.find? frame.className = some facts)
    (hRelease : frame.subject.lang.autoReleaseFields = true)
    (hDecl : frame.scope.field? field = some decl) (hPointer : decl.type.isObjectPointer = true)
    (hTarget : target.strip = .field field fieldRange) :
    (delegatePaths config known).filed (before ++ [.beforeEffect site (.assign target value range)]) =
      if decl.type = .id ∨ isKnownNull config (site.store.lookup (.field field)) = true then []
      else (pending config frame facts field before).map (Release.report site ⟨field, none, range⟩) := by
  obtain ⟨rfl, -⟩ := hHistory.fits _ (List.mem_append_right _ List.mem_cons_self)
  have hBefore := hHistory.of_isPrefix (List.prefix_append before _)
  rw [PathCheck.filed_concat, filed_answer]
  simp only [Callback.site?, Option.elim_some, hKnown, Callback.releases, assignmentReleases,
    hRelease, if_true, assignedField?_assign hDecl hPointer hTarget]
  by_cases hId : decl.type = .id
  · simp [hId]
  · cases hNull : isKnownNull config (site.store.lookup (.field field)) with
    | true => simp [hId, hNull]
    | false =>
      simp only [hId, hNull, if_false, Option.filter_some, Bool.not_false, if_true,
        Option.toList_some, List.map_singleton, List.flatMap_singleton, Bool.false_eq_true, or_self]
      exact verify_openPath hKnown hBefore _

/-- The check is called with the store that the operands leave, and only then is the field bound. -/
theorem evaluate_assign {σ ρ : Type} (check : PathCheck σ ρ)
    (hTarget : target.strip = .field field fieldRange) (p : Path σ) :
    let operands := inOrder ([target, value].map (evaluate frame check)) p
    let after := evaluate frame check (.assign target value range) p
    after.reports = operands.reports ++
      (check.beforeEffect ⟨frame, operands.path.id, operands.path.store⟩ operands.path.state
        (.assign target value range)).2 ∧
    after.path.store = operands.path.store.bind (.field field) after.value := by
  intro operands after
  have hSlot : target.slot? = some (.field field) := by simp only [Expr.slot?, hTarget]
  have hAfter : after = (do
      let values ← inOrder ([target, value].map (evaluate frame check))
      consult frame fun site state => check.beforeEffect site state (.assign target value range)
      effect frame check (.assign target value range) values) p :=
    congrFun (evaluate_eq frame check (.assign target value range)) p
  rw [hAfter]
  simp only [effect, hSlot]
  exact ⟨by rw [← List.append_nil (check.beforeEffect _ _ _).2]; rfl, rfl⟩

end

section

variable {subject : Subject} (limits : Limits)

theorem filed_sublist_reports (config : DelegateConfig)
    (hFrame : frame ∈ UnitCheck.frames subject) {made : List Callback}
    (hMade : made ∈ shownCalls frame limits) :
    ((delegatePaths config (scannedFacts config subject)).filed made).Sublist
      ((danglingDelegateCheck config).run subject limits).reports := by
  rw [reports_run]
  refine List.Sublist.trans ?_ (List.sublist_append_right _ _)
  have hHere := (List.singleton_sublist.mpr hMade).flatMap
    (delegatePaths config (scannedFacts config subject)).filed
  have hAll := (List.singleton_sublist.mpr hFrame).flatMap fun frame =>
    (shownCalls frame limits).flatMap (delegatePaths config (scannedFacts config subject)).filed
  rw [List.flatMap_singleton] at hHere hAll
  exact hHere.trans hAll

/-- Every direct write to a field declared with a class verifies the object that it discards, before
the field is bound. A field of type `id` is never verified. -/
theorem direct_writes_verify_class_pointers (hFrame : frame ∈ UnitCheck.frames subject)
    (hRelease : subject.lang.autoReleaseFields = true)
    (hKnown : (scannedFacts config subject).find? frame.className = some facts) {decl : FieldDecl}
    (hDecl : frame.scope.field? field = some decl) (hPointer : decl.type.isObjectPointer = true)
    {target : Expr} {fieldRange : SourceRange} (hTarget : target.strip = .field field fieldRange)
    (value : Expr) (range : SourceRange) :
    let check := delegatePaths config (scannedFacts config subject)
    let write := Expr.assign target value range
    let report (site : Site) := Release.report site ⟨field, none, range⟩
    let skipped (site : Site) := isKnownNull config (site.store.lookup (.field field)) = true
    let reports := ((danglingDelegateCheck config).run subject limits).reports
    (∀ made ∈ shownCalls frame limits, ∀ before site, before ++ [.beforeEffect site write] <+: made →
      check.filed (before ++ [.beforeEffect site write]) =
        (if decl.type = .id ∨ skipped site then []
        else (pending config frame facts field before).map (report site)) ∧
      (pending config frame facts field before).Nodup ∧
      (check.filed (before ++ [.beforeEffect site write])).Sublist reports ∧
      (decl.type ≠ .id → ¬ skipped site → ∀ property, facts.Records field property →
        (pastChanges config frame facts field property before).getLast? ≠ some .cleared →
        report site property ∈ reports)) ∧
    ∀ p : Path DelegateState,
      let operands := inOrder ([target, value].map (evaluate frame check)) p
      let after := evaluate frame check write p
      after.reports = operands.reports ++
        (check.beforeEffect ⟨frame, operands.path.id, operands.path.store⟩ operands.path.state write).2 ∧
      after.path.store = operands.path.store.bind (.field field) after.value := by
  intro check write report skipped reports
  refine ⟨fun made hMade before site hWrite => ?_, evaluate_assign check hTarget⟩
  have hShown : before ++ [.beforeEffect site write] ∈ shownCalls frame limits :=
    mem_shownCalls_of_isPrefix hMade nofun hWrite
  obtain ⟨hHistory, -⟩ := exists_concat_of_mem_shownCalls hShown
  have hFiled := filed_assign config hHistory hKnown
    ((subject_of_mem_frames hFrame).symm ▸ hRelease) hDecl hPointer hTarget
  have hReported := filed_sublist_reports limits config hFrame hShown
  refine ⟨hFiled, nodup_pending, hReported, fun hClass hNotNull property hRecords hLast => ?_⟩
  refine hReported.subset ?_
  rw [hFiled, if_neg (not_or.mpr ⟨hClass, hNotNull⟩)]
  exact List.mem_map_of_mem (mem_pending_iff.mpr ⟨hRecords, hLast⟩)

end

namespace Sample

def nilBar : Expr := .assign (.field "_bar" .unknown) (.nil .unknown) (.ofLine 21)

def storeInInit : MethodDecl :=
  method "init" [.expr (setProperty (.cast (.object "Bar") (.field "_bar" .unknown) .unknown)
    "delegate" (.self .unknown))]

def nilledInDealloc : SourceUnit := delegatePair [storeInInit, method "dealloc" [.expr nilBar]]

def nilledIdInDealloc : SourceUnit :=
  { nilledInDealloc with
    interfaces := [barInterface, { fooInterface with fields := [⟨"_bar", .id, .ofLine 4⟩] }] }

/-- The calls up to the write, on the only path of the teardown method. -/
def untilNilled (unit : SourceUnit) : List Callback :=
  let site : Site := ⟨fooFrame unit 1, 0, ∅⟩
  [.beforeEffect site (.field "_bar" .unknown), .beforeEffect site (.nil .unknown)]

end Sample

open Sample in
theorem nilled_field_is_reported :
    let subject := Subject.ofUnit nilledInDealloc none
    let site : Site := ⟨fooFrame nilledInDealloc 1, 0, ∅⟩
    let report := Release.report site ⟨"_bar", none, .ofLine 21⟩ "delegate"
    (delegatePaths .default (scannedFacts .default subject)).filed
        (untilNilled nilledInDealloc ++ [.beforeEffect site nilBar]) = [report] ∧
      report ∈ ((danglingDelegateCheck .default).run subject ⟨512, 2⟩).reports := by
  intro subject site report
  have hKnown : (scannedFacts .default subject).find? "Foo" = some (fooFacts nilledInDealloc) := by
    decide +kernel
  have hPending : pending .default (fooFrame nilledInDealloc 1) (fooFacts nilledInDealloc) "_bar"
      (untilNilled nilledInDealloc) = ["delegate"] := by
    decide +kernel
  have hFrame : fooFrame nilledInDealloc 1 ∈ UnitCheck.frames subject :=
    List.mem_cons_of_mem _ List.mem_cons_self
  have hShown : untilNilled nilledInDealloc ++ [.beforeEffect site nilBar] ∈
      shownCalls (fooFrame nilledInDealloc 1) ⟨512, 2⟩ :=
    List.mem_of_getElem? (i := 2) rfl
  have hDecl : (fooFrame nilledInDealloc 1).scope.field? "_bar" =
      some ⟨"_bar", .object "Bar", .ofLine 4⟩ := by
    decide +kernel
  have hTarget : (Expr.field "_bar" .unknown).strip = .field "_bar" .unknown := rfl
  obtain ⟨hWrites, -⟩ := direct_writes_verify_class_pointers ⟨512, 2⟩ hFrame rfl hKnown hDecl rfl hTarget
    (.nil .unknown) (.ofLine 21)
  obtain ⟨hFiled, -, -, hReported⟩ := hWrites _ hShown _ site (List.prefix_refl _)
  have hNotNull : ¬ isKnownNull .default (site.store.lookup (.field "_bar")) = true := by
    decide +kernel
  obtain ⟨hRecords, hLast⟩ := mem_pending_iff.mp (hPending ▸ List.mem_singleton_self "delegate")
  refine ⟨?_, hReported nofun hNotNull "delegate" hRecords hLast⟩
  rw [hPending, if_neg (not_or.mpr ⟨nofun, hNotNull⟩)] at hFiled
  exact hFiled

open Sample in
/-- Nothing is filed about the field of type `id`, although it is recorded, written to and not cleared
before. -/
theorem nilled_id_field_is_not_reported :
    let subject := Subject.ofUnit nilledIdInDealloc none
    let frame := fooFrame nilledIdInDealloc 1
    let site : Site := ⟨frame, 0, ∅⟩
    (scannedFacts .default subject).find? "Foo" = some (fooFacts nilledIdInDealloc) ∧
    "delegate" ∈ pending .default frame (fooFacts nilledIdInDealloc) "_bar"
      (untilNilled nilledIdInDealloc) ∧
    frame.scope.field? "_bar" = some ⟨"_bar", .id, .ofLine 4⟩ ∧
    TypeRef.id.isObjectPointer = true ∧
    site.store.lookup (.field "_bar") ≠ .null ∧
    untilNilled nilledIdInDealloc ++ [.beforeEffect site nilBar] ∈ shownCalls frame ⟨512, 2⟩ ∧
    ((danglingDelegateCheck .default).run subject ⟨512, 2⟩).reports = [] := by
  refine ⟨by decide +kernel, by decide +kernel, by decide +kernel, rfl, by decide +kernel, ?_,
    by decide +kernel⟩
  exact List.mem_of_getElem? (i := 2) rfl

end DelegateSafety
