import DelegateSafety.Proofs.Heuristics
import DelegateSafety.Proofs.Origin

/-! # Names of set-up code

The more names count as those of set-up code, the fewer methods tell of fields, and the more paths open
with everything cleared. What facts still say is said with fewer names as well (`ClassFacts.Narrows`), what
is cleared with fewer names is cleared still as far as these facts go, and so every report is one of those
with fewer names.
-/
namespace DelegateSafety

/-! ## Facts that say less -/

namespace ClassFacts

variable {facts : ClassFacts} {field selector : String}

theorem isInteresting_ofObservations {observations : List Observation} :
    (ofObservations observations).isInteresting field = true ↔
      ∃ o ∈ observations, o.field? = some field := by
  have hTells := tells_ofObservations observations
  simp only [hTells.entry, hTells.property, hTells.target, hTells.observer]
  constructor
  · rintro (⟨p, ho⟩ | ho | ho) <;> exact ⟨_, ho, rfl⟩
  · rintro ⟨o, ho, hField⟩
    cases o <;> cases hField
    · exact .inl ⟨_, ho⟩
    · exact .inr (.inl ho)
    · exact .inr (.inr ho)

theorem isPseudoInit_ofObservations {observations : List Observation} :
    (ofObservations observations).isPseudoInit selector = true ↔
      .pseudoInit selector ∈ observations :=
  decide_eq_true_iff.trans ((tells_ofObservations observations).pseudoInit selector)

/-- The narrow facts say no more of fields than the wide ones, and know at least as much set-up code. -/
structure Narrows (narrow wide : ClassFacts) : Prop where
  isInteresting : ∀ field, narrow.isInteresting field = true → wide.isInteresting field = true
  records : ∀ field property, narrow.Records field property → wide.Records field property
  hasTeardown : narrow.hasTeardown = wide.hasTeardown
  isPseudoInit : ∀ selector, wide.isPseudoInit selector = true → narrow.isPseudoInit selector = true

end ClassFacts

/-! ## What guards show -/

def SafeOutcome.field : SafeOutcome → String
  | propertyCleared field _ | fieldCleared field => field

/-- What an expression being nil would show, if only all fields were interesting. -/
def anyDelegate? (scope : ClassScope) (e : Expr) : Option SafeOutcome :=
  match e.strip with
  | .send m _ => (m.target?.bind scope.fieldOf?).bind fun field =>
    ((scope.getter? m).filter (·.ownership.isUnsafe)).map fun property =>
      .propertyCleared field property.name
  | _ => none

section

variable {scope : ClassScope} {facts narrow wide : ClassFacts}

theorem interestingDelegate?_eq (e : Expr) :
    interestingDelegate? scope facts e =
      (anyDelegate? scope e).filter (facts.isInteresting ·.field) := by
  simp only [interestingDelegate?, anyDelegate?]
  cases e.strip with
  | send m r =>
    dsimp only
    cases m.target?.bind scope.fieldOf? with
    | none => rfl
    | some field =>
      cases (scope.getter? m).filter (·.ownership.isUnsafe) <;>
        by_cases hField : facts.isInteresting field = true <;>
          simp [hField, Option.filter_some, SafeOutcome.field]
  | _ => rfl

theorem nullOutcome?_eq (e : Expr) :
    nullOutcome? scope facts e =
      ((anyDelegate? scope e).filter (facts.isInteresting ·.field)).or
        (((scope.fieldOf? e).map .fieldCleared).filter (facts.isInteresting ·.field)) := by
  rw [nullOutcome?, interestingDelegate?_eq]
  congr 1
  cases scope.fieldOf? e with
  | none => rfl
  | some field =>
    by_cases hField : facts.isInteresting field = true <;>
      simp [hField, Option.filter_some, SafeOutcome.field]

theorem or_filter_of_imp {α : Type} {p q : α → Bool} (hImp : ∀ x, p x = true → q x = true)
    {first second : Option α} {x : α} (hx : p x = true)
    (h : (first.filter q).or (second.filter q) = some x) :
    (first.filter p).or (second.filter p) = some x := by
  rcases Option.or_eq_some_iff.mp h with hFirst | ⟨hNone, hSecond⟩
  · obtain ⟨rfl, -⟩ := Option.filter_eq_some_iff.mp hFirst
    simp [Option.filter_some, hx]
  · obtain ⟨rfl, -⟩ := Option.filter_eq_some_iff.mp hSecond
    have hFirst : first.filter p = none :=
      Option.filter_eq_none_iff.mpr fun y hy hp => Option.filter_eq_none_iff.mp hNone y hy (hImp y hp)
    simp [Option.filter_some, hx, hFirst]

theorem safeOutcomes_of_narrows (h : narrow.Narrows wide) {truth : Bool} {cond : Expr}
    {o : SafeOutcome} (hField : narrow.isInteresting o.field = true)
    (ho : o ∈ safeOutcomes scope wide truth cond) : o ∈ safeOutcomes scope narrow truth cond := by
  have hNull : ∀ e, nullOutcome? scope wide e = some o → nullOutcome? scope narrow e = some o := by
    intro e hSome
    rw [nullOutcome?_eq] at hSome ⊢
    exact or_filter_of_imp (fun o : SafeOutcome => h.isInteresting o.field) hField hSome
  have hDelegate : ∀ e, interestingDelegate? scope wide e = some o →
      interestingDelegate? scope narrow e = some o := by
    intro e hSome
    rw [interestingDelegate?_eq, Option.filter_eq_some_iff] at hSome ⊢
    exact ⟨hSome.1, hField⟩
  induction truth, cond using safeOutcomes.induct with
  | case1 truth inner r ih =>
    rw [safeOutcomes] at ho ⊢
    exact ih ho
  | case2 truth type inner r ih =>
    rw [safeOutcomes] at ho ⊢
    exact ih ho
  | case3 truth operand r ih =>
    rw [safeOutcomes] at ho ⊢
    exact ih ho
  | case4 truth op lhs rhs r hBoth ihLhs ihRhs =>
    rw [safeOutcomes, if_pos hBoth] at ho ⊢
    exact List.mem_append.mpr ((List.mem_append.mp ho).imp ihLhs ihRhs)
  | case5 truth op lhs rhs r hBoth hEquality hHolds =>
    rw [safeOutcomes, if_neg hBoth, if_pos hEquality, if_pos hHolds, Option.mem_toList,
      Option.bind_eq_some_iff] at ho ⊢
    exact ho.imp fun e he => he.imp_right (hNull e)
  | case6 truth op lhs rhs r hBoth hEquality hHolds =>
    rw [safeOutcomes, if_neg hBoth, if_pos hEquality, if_neg hHolds, Option.mem_toList,
      Option.bind_eq_some_iff] at ho ⊢
    exact ho.imp fun e he => he.imp_right (hDelegate e)
  | case7 truth op lhs rhs r hBoth hEquality =>
    rw [safeOutcomes, if_neg hBoth, if_neg hEquality] at ho
    cases ho
  | case8 e hParen hCast hNot hBinary =>
    simp [safeOutcomes] at ho
  | case9 truth e hParen hCast hNot hBinary hTruth =>
    simp only [safeOutcomes, if_neg hTruth, Option.mem_toList] at ho ⊢
    exact hNull e ho

end

/-! ## Calls -/

/-- The same configuration with other names for set-up code. -/
def DelegateConfig.naming (config : DelegateConfig) (names : List String) : DelegateConfig :=
  { config with pseudoInitNames := names }

section

variable {config : DelegateConfig} {names : List String} {frame : Frame} {narrow wide : ClassFacts}
  {field property : String}

theorem callChange?_naming (h : narrow.Narrows wide) (hField : narrow.isInteresting field = true)
    (call : Callback) :
    callChange? (config.naming names) frame narrow field property call =
        callChange? config frame wide field property call ∨
      callChange? (config.naming names) frame narrow field property call = some .cleared := by
  cases call with
  | beforeEffect _ _ | atEnd _ => exact .inl rfl
  | afterSend site event => exact .inl rfl
  | assume subject cond truth =>
    simp only [callChange?, branchChange?]
    by_cases hNarrow : (config.naming names).assumeSafeBranch = true ∧
        (.propertyCleared field property ∈ safeOutcomes frame.scope narrow truth cond ∨
          .fieldCleared field ∈ safeOutcomes frame.scope narrow truth cond)
    · exact .inr (if_pos hNarrow)
    · refine .inl ?_
      rw [if_neg hNarrow, if_neg]
      rintro ⟨hTrust, hWide⟩
      exact hNarrow ⟨hTrust, hWide.imp (safeOutcomes_of_narrows h hField)
        (safeOutcomes_of_narrows h hField)⟩

theorem getLast?_openingChanges_of_narrows (h : narrow.Narrows wide)
    (hOpening : (openingChanges frame wide).getLast? = some .cleared) :
    (openingChanges frame narrow).getLast? = some .cleared := by
  unfold openingChanges at hOpening ⊢
  split at hOpening
  · rename_i hWide
    rw [if_pos (h.isPseudoInit _ hWide)]
    rfl
  · cases hOpening

theorem getLast?_pastChanges_naming (h : narrow.Narrows wide) (hField : narrow.isInteresting field = true)
    {before : List Callback} (hCleared : (pastChanges config frame wide field property
      before).getLast? = some .cleared) :
    (pastChanges (config.naming names) frame narrow field property before).getLast? = some .cleared :=
  getLast?_eq_cleared_of_clearing (getLast?_openingChanges_of_narrows h)
    (fun call _ => callChange?_naming h hField call) hCleared

theorem keys_sublist_of_narrows (h : narrow.Narrows wide) :
    narrow.fields.keys.Sublist wide.fields.keys := by
  have hSorted : ∀ facts : ClassFacts, facts.fields.keys.Pairwise (· < ·) := fun facts =>
    List.pairwise_map.mpr facts.fields.sorted
  have hMem : ∀ (facts : ClassFacts) (field : String),
      field ∈ facts.fields.keys ↔ facts.isInteresting field = true := by
    intro facts field
    rw [NameMap.keys, List.mem_map, ClassFacts.isInteresting, NameMap.contains,
      Option.isSome_iff_exists]
    constructor
    · rintro ⟨entry, hEntry, rfl⟩
      exact ⟨entry.2, NameMap.mem_entries_iff.mp hEntry⟩
    · rintro ⟨fieldFacts, hFind⟩
      exact ⟨(field, fieldFacts), NameMap.mem_entries_iff.mpr hFind, rfl⟩
  refine sublist_of_subset (hSorted narrow) (hSorted wide) fun field hField => ?_
  exact (hMem wide field).mpr (h.isInteresting field ((hMem narrow field).mp hField))

theorem sendReleases_of_narrows (h : narrow.Narrows wide) (site : Site) (event : SendEvent) :
    (sendReleases config narrow site event).Sublist (sendReleases config wide site event) := by
  refine List.Sublist.map _ ?_
  cases event.message.target? with
  | none => exact List.Sublist.refl _
  | some receiver =>
    simp only [Option.bind_some]
    split
    · exact List.Sublist.refl _
    · split
      · exact List.Sublist.refl _
      · split
        · cases hSome : (site.frame.scope.fieldOf? receiver).filter narrow.isInteresting with
          | none => exact List.nil_sublist _
          | some field =>
            obtain ⟨hField, hNarrow⟩ := Option.filter_eq_some_iff.mp hSome
            rw [hField, Option.filter_some, if_pos (h.isInteresting field hNarrow)]
        · exact List.Sublist.refl _

theorem teardownReleases_of_narrows (h : narrow.Narrows wide) (site : Site) :
    (teardownReleases config narrow site).Sublist (teardownReleases config wide site) := by
  unfold teardownReleases
  split
  · exact ((keys_sublist_of_narrows h).filter _).map _
  · exact List.Sublist.refl _

theorem releases_naming (h : narrow.Narrows wide) (call : Callback) :
    (call.releases (config.naming names) narrow).Sublist (call.releases config wide) := by
  cases call with
  | beforeEffect site e => exact List.Sublist.refl _
  | assume subject cond truth => exact List.Sublist.refl _
  | afterSend site event => exact sendReleases_of_narrows h site event
  | atEnd site => exact teardownReleases_of_narrows h site

theorem filed_naming {knownNarrow knownWide : FactsByClass}
    (hKnown : ∀ name narrow, knownNarrow.find? name = some narrow →
      ∃ wide, knownWide.find? name = some wide ∧ narrow.Narrows wide)
    {inside : Expr → Prop} {before : List Callback} {call : Callback}
    (hHistory : History frame inside (before ++ [call])) :
    ((delegatePaths (config.naming names) knownNarrow).filed (before ++ [call])).Sublist
      ((delegatePaths config knownWide).filed (before ++ [call])) := by
  rw [PathCheck.filed_concat, PathCheck.filed_concat, filed_answer, filed_answer]
  cases hSite : call.site? with
  | none => exact List.nil_sublist _
  | some site =>
    obtain rfl := (hHistory.fits call (List.mem_append_right _ List.mem_cons_self)).frame_eq hSite
    simp only [Option.elim_some]
    cases hNarrow : knownNarrow.find? site.frame.className with
    | none => exact List.nil_sublist _
    | some narrow =>
      obtain ⟨wide, hWide, h⟩ := hKnown _ _ hNarrow
      have hBefore := hHistory.of_isPrefix (List.prefix_append before [call])
      rw [hWide, Option.elim_some, Option.elim_some]
      refine ((releases_naming h call).flatMap _).trans
        (List.Sublist.flatMap_right _ fun r _ => Release.verify_sublist fun p hRecords => ?_)
      have hRecordsWide := h.records r.field p hRecords
      refine ⟨hRecordsWide, fun hCleared => (mem_openPath_iff hNarrow hRecords hBefore).mpr ?_⟩
      obtain ⟨fieldFacts, hField, -⟩ := hRecords
      exact getLast?_pastChanges_naming h (isInteresting_of_field? hField)
        ((mem_openPath_iff hWide hRecordsWide hBefore).mp hCleared)

end

/-! ## The scan -/

section

variable {config : DelegateConfig} {names : List String} {scope : ClassScope}

theorem roleOf_naming (hNames : config.pseudoInitNames ⊆ names) (selector : String) :
    (config.naming names).roleOf selector = config.roleOf selector ∨
      config.roleOf selector = .regular ∧ (config.naming names).roleOf selector = .pseudoInit := by
  unfold DelegateConfig.roleOf
  split
  · exact .inl rfl
  · by_cases hBefore : config.isPseudoInitName selector = true
    · have hAfter : (config.naming names).isPseudoInitName selector = true := by
        obtain ⟨name, hName, hBegins⟩ := List.any_eq_true.mp hBefore
        exact List.any_eq_true.mpr ⟨name, hNames hName, hBegins⟩
      rw [if_pos hBefore, if_pos hAfter]
      exact .inl rfl
    · rw [if_neg hBefore]
      split
      · exact .inr ⟨rfl, rfl⟩
      · exact .inl rfl

theorem observes_of_naming (hNames : config.pseudoInitNames ⊆ names) {method : MethodDecl}
    {o : Observation} {field : String} (hField : o.field? = some field)
    (ho : o ∈ observeMethod scope (config.naming names) method) : o ∈ observeMethod scope config method := by
  rcases mem_observeMethod_iff.mp ho with ⟨-, rfl⟩ | ⟨-, rfl⟩ | ⟨hRole, hSends⟩
  · cases hField
  · cases hField
  · refine mem_observeMethod_iff.mpr (.inr (.inr ⟨?_, hSends⟩))
    rcases roleOf_naming hNames method.selector with hSame | ⟨-, hPseudoInit⟩
    · rwa [← hSame]
    · exact absurd hPseudoInit hRole

theorem observes_pseudoInit_naming (hNames : config.pseudoInitNames ⊆ names) {method : MethodDecl}
    {selector : String} (ho : .pseudoInit selector ∈ observeMethod scope config method) :
    .pseudoInit selector ∈ observeMethod scope (config.naming names) method := by
  rcases mem_observeMethod_iff.mp ho with ⟨-, hEq⟩ | ⟨hRole, hEq⟩ | ⟨-, hSends⟩
  · cases hEq
  · refine mem_observeMethod_iff.mpr (.inr (.inl ⟨?_, hEq⟩))
    rcases roleOf_naming hNames method.selector with hSame | ⟨hRegular, -⟩
    · rwa [hSame]
    · exact absurd hRegular hRole
  · obtain ⟨m, r, -, hSend⟩ := hSends
    exact absurd rfl ((not_method_of_observeSend hSend).2 selector)

theorem narrows_classFacts (hNames : config.pseudoInitNames ⊆ names) (decl : ImplementationDecl) :
    (classFacts scope (config.naming names) decl).Narrows (classFacts scope config decl) where
  isInteresting field h := by
    obtain ⟨o, ho, hField⟩ := ClassFacts.isInteresting_ofObservations.mp h
    obtain ⟨method, hMethod, ho⟩ := List.mem_flatMap.mp ho
    exact ClassFacts.isInteresting_ofObservations.mpr
      ⟨o, List.mem_flatMap.mpr ⟨method, hMethod, observes_of_naming hNames hField ho⟩, hField⟩
  records field property h := by
    obtain ⟨method, hMethod, ho⟩ := List.mem_flatMap.mp (ClassFacts.records_ofObservations.mp h)
    exact ClassFacts.records_ofObservations.mpr
      (List.mem_flatMap.mpr ⟨method, hMethod, observes_of_naming hNames rfl ho⟩)
  hasTeardown := by
    rw [Bool.eq_iff_iff, hasTeardown_classFacts_iff, hasTeardown_classFacts_iff]
    rfl
  isPseudoInit selector h := by
    obtain ⟨method, hMethod, ho⟩ := List.mem_flatMap.mp (ClassFacts.isPseudoInit_ofObservations.mp h)
    exact ClassFacts.isPseudoInit_ofObservations.mpr
      (List.mem_flatMap.mpr ⟨method, hMethod, observes_pseudoInit_naming hNames ho⟩)

theorem checkImplicitTeardown_of_narrows {subject : Subject} {decl : ImplementationDecl}
    {narrow wide : ClassFacts} (h : narrow.Narrows wide) :
    (checkImplicitTeardown (config.naming names) subject decl narrow).Sublist
      (checkImplicitTeardown config subject decl wide) := by
  have hRecorded : narrow.recorded.Sublist wide.recorded := by
    refine sublist_of_subset ClassFacts.pairwise_recorded ClassFacts.pairwise_recorded ?_
    rintro ⟨field, property⟩ hx
    exact ClassFacts.mem_recorded.mpr (h.records field property (ClassFacts.mem_recorded.mp hx))
  rw [checkImplicitTeardown_eq, checkImplicitTeardown_eq, h.hasTeardown]
  split
  · exact hRecorded.map _
  · exact List.Sublist.refl _

theorem scanAll_naming (hNames : config.pseudoInitNames ⊆ names) {subject : Subject}
    {knownNarrow knownWide : FactsByClass}
    (hKnown : ∀ name, knownNarrow.find? name = none ↔ knownWide.find? name = none)
    (decls : List ImplementationDecl) :
    ((danglingDelegateCheck (config.naming names)).scanAll subject knownNarrow decls).2.Sublist
      ((danglingDelegateCheck config).scanAll subject knownWide decls).2 := by
  induction decls generalizing knownNarrow knownWide with
  | nil => exact List.Sublist.refl []
  | cons decl rest ih =>
    simp only [UnitCheck.scanAll]
    refine List.Sublist.append ?_ (ih fun name => ?_)
    · rw [snd_scanOne, snd_scanOne]
      simp only [hKnown]
      split
      · exact checkImplicitTeardown_of_narrows (narrows_classFacts hNames decl)
      · exact List.Sublist.refl _
    · rw [find?_scanOne, find?_scanOne]
      simp only [hKnown]
      split
      · simp
      · exact hKnown name

theorem narrows_scannedFacts (hNames : config.pseudoInitNames ⊆ names) {subject : Subject}
    (name : String) (narrow : ClassFacts)
    (h : (scannedFacts (config.naming names) subject).find? name = some narrow) :
    ∃ wide, (scannedFacts config subject).find? name = some wide ∧ narrow.Narrows wide := by
  obtain ⟨hName, decl, hFirst, rfl⟩ := find?_scannedFacts_eq_some_iff.mp h
  exact ⟨_, find?_scannedFacts_eq_some_iff.mpr ⟨hName, decl, hFirst, rfl⟩,
    narrows_classFacts hNames decl⟩

end

/-- With more names for set-up code the reports are some of those with fewer, in the same order. -/
theorem more_set_up_names_only_suppress (config : DelegateConfig) {names : List String}
    (hNames : config.pseudoInitNames ⊆ names) (subject : Subject) (limits : Limits) :
    ((danglingDelegateCheck { config with pseudoInitNames := names }).run subject limits).reports.Sublist
      ((danglingDelegateCheck config).run subject limits).reports := by
  change ((danglingDelegateCheck (config.naming names)).run subject limits).reports.Sublist _
  rw [reports_run, reports_run]
  refine (scanAll_naming hNames (fun _ => Iff.rfl) _).append
    (List.Sublist.flatMap_right _ fun frame _ => List.Sublist.flatMap_right _ fun made hMade => ?_)
  obtain ⟨hHistory, before, call, rfl⟩ := exists_concat_of_mem_shownCalls hMade
  exact filed_naming (narrows_scannedFacts hNames) hHistory

namespace Sample

/-- `self` is stored into one property in `init` and into another in `configure`. -/
def configuredApart : SourceUnit :=
  let bar : Expr := .field "_bar" .unknown
  delegatePair [
    method "init" [.expr (setProperty bar "delegate" (.self .unknown))],
    method "configure" [.expr (setProperty bar "dataSource" (.self .unknown))],
    method "dealloc" []]

end Sample

open Sample in
/-- Of two reports one is left once `configure` counts as set-up code. -/
theorem configure_as_set_up_code :
    let names := DelegateConfig.default.pseudoInitNames ++ ["conf"]
    let run (config : DelegateConfig) :=
      (danglingDelegateCheck config).run (.ofUnit configuredApart none) ⟨512, 2⟩
    DelegateConfig.default.pseudoInitNames ⊆ names ∧
    (run { DelegateConfig.default with pseudoInitNames := names }).reports.Sublist
      (run .default).reports ∧
    (run { DelegateConfig.default with pseudoInitNames := names }).reports.length = 1 ∧
    (run .default).reports.length = 2 := by
  intro names run
  have hNames : DelegateConfig.default.pseudoInitNames ⊆ names := List.subset_append_left _ _
  exact ⟨hNames, more_set_up_names_only_suppress .default hNames _ _, by decide +kernel,
    by decide +kernel⟩

end DelegateSafety
