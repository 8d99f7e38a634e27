import Mathlib.Algebra.Order.Group.Multiset
import Mathlib.Data.List.Flatten
import Mathlib.Data.List.Sort
import DelegateSafety.Proofs.Filing

/-! # The two heuristics

Neither heuristic has a part in the scan or in the choice of paths, so that with one turned on or off the
same calls are made and only the answers differ. Trusting guards adds clearings to what a path has done,
and all that is reported with it is reported without. Nil receivers are another matter: their sends are
ignored as a whole, clearings included, and what these would have hidden is reported (`HiddenAt`).
-/
namespace DelegateSafety

/-! ## Two configurations with the same scan -/

section

variable {on off : DelegateConfig} {subject : Subject}

theorem scanAll_congr (hScan : scanClass on = scanClass off) (known : FactsByClass)
    (decls : List ImplementationDecl) :
    (danglingDelegateCheck on).scanAll subject known decls =
      (danglingDelegateCheck off).scanAll subject known decls := by
  induction decls generalizing known with
  | nil => simp only [UnitCheck.scanAll]
  | cons d rest ih =>
    have hOne : (danglingDelegateCheck on).scanOne subject known d =
        (danglingDelegateCheck off).scanOne subject known d := by
      simp only [UnitCheck.scanOne, danglingDelegateCheck, hScan]
    simp only [UnitCheck.scanAll, hOne, ih]

theorem scannedFacts_congr (hScan : scanClass on = scanClass off) :
    scannedFacts on subject = scannedFacts off subject :=
  congrArg Prod.fst (scanAll_congr hScan ∅ subject.unit.implementations)

theorem getLast?_filterMap_concat {α β : Type} (f : α → Option β) (opening : List β) (xs : List α)
    (x : α) : (opening ++ (xs ++ [x]).filterMap f).getLast? =
      (f x).or (opening ++ xs.filterMap f).getLast? := by
  rw [List.filterMap_append, ← List.append_assoc, List.getLast?_append]
  cases h : f x <;> simp [h]

/-- A property that was last cleared is so still where calls do the same to it or clear it. -/
theorem getLast?_eq_cleared_of_clearing {f g : Callback → Option Change} {opening opening' : List Change}
    (hOpening : opening.getLast? = some .cleared → opening'.getLast? = some .cleared)
    {before : List Callback} (hCalls : ∀ call ∈ before, g call = f call ∨ g call = some .cleared)
    (h : (opening ++ before.filterMap f).getLast? = some .cleared) :
    (opening' ++ before.filterMap g).getLast? = some .cleared := by
  induction before using List.reverseRecOn with
  | nil => simpa using hOpening (by simpa using h)
  | append_singleton before call ih =>
    obtain ⟨hBefore, hCall⟩ := List.forall_mem_append.mp hCalls
    rw [getLast?_filterMap_concat] at h ⊢
    rcases hCall call List.mem_cons_self with hSame | hCleared
    · rw [hSame]
      cases hChange : f call with
      | none =>
        rw [hChange, Option.none_or] at h
        exact ih hBefore h
      | some change =>
        rw [hChange, Option.some_or] at h
        exact h
    · rw [hCleared, Option.some_or]

theorem sublist_of_subset {α : Type} {r : α → α → Prop} [Std.Irrefl r] [Std.Antisymm r]
    {these those : List α} (hThese : these.Pairwise r) (hThose : those.Pairwise r)
    (h : these ⊆ those) : these.Sublist those :=
  List.sublist_of_subperm_of_pairwise (List.subperm_of_subset hThese.nodup h) hThese hThose

theorem pairwise_leftovers (dangerous cleared : NameSet) :
    (leftovers dangerous cleared).Pairwise (· < ·) :=
  (List.pairwise_map.mpr dangerous.sorted).filter _

theorem leftovers_sublist {dangerous dangerous' cleared cleared' : NameSet}
    (h : ∀ p ∈ dangerous', p ∈ dangerous ∧ (p ∈ cleared → p ∈ cleared')) :
    (leftovers dangerous' cleared').Sublist (leftovers dangerous cleared) := by
  refine sublist_of_subset (pairwise_leftovers _ _) (pairwise_leftovers _ _) fun p hp => ?_
  obtain ⟨hDangerous, hLeft⟩ := mem_leftovers.mp hp
  obtain ⟨hMem, hCleared⟩ := h p (NameSet.mem_toList.mp hDangerous)
  exact mem_leftovers.mpr ⟨NameSet.mem_toList.mpr hMem, mt hCleared hLeft⟩

/-- Facts that record less of a field, and a state that has more of it cleared. -/
theorem Release.verify_sublist {facts facts' : ClassFacts} {r : Release} {site : Site}
    {s s' : DelegateState}
    (h : ∀ p, facts'.Records r.field p → facts.Records r.field p ∧
      (p ∈ (s.field r.field).properties → p ∈ (s'.field r.field).properties)) :
    (r.verify facts' site s').Sublist (r.verify facts site s) := by
  cases hField' : facts'.field? r.field with
  | none =>
    rw [verify_eq_nil hField']
    exact List.nil_sublist _
  | some fieldFacts' =>
    rw [verify_eq hField']
    cases hField : facts.field? r.field with
    | none =>
      rw [verify_eq_nil hField, leftovers, List.filter_eq_nil_iff.mpr, List.map_nil]
      intro p hp
      obtain ⟨⟨fieldFacts, hSome, -⟩, -⟩ := h p ⟨fieldFacts', hField', NameSet.mem_toList.mp hp⟩
      cases hField.symm.trans hSome
    | some fieldFacts =>
      rw [verify_eq hField]
      refine (leftovers_sublist fun p hp => ?_).map _
      obtain ⟨⟨known, hSome, hMem⟩, hCleared⟩ := h p ⟨fieldFacts', hField', hp⟩
      obtain rfl : known = fieldFacts := Option.some.inj (hSome.symm.trans hField)
      exact ⟨hMem, hCleared⟩

end

/-! ## Trusting guards -/

section

variable {config : DelegateConfig} {frame : Frame} {facts : ClassFacts} {known : FactsByClass}
  {field property : String}

theorem callChange?_trusting (call : Callback) :
    callChange? { config with assumeSafeBranch := true } frame facts field property call =
        callChange? { config with assumeSafeBranch := false } frame facts field property call ∨
      callChange? { config with assumeSafeBranch := true } frame facts field property call =
        some .cleared := by
  cases call with
  | beforeEffect _ _ | atEnd _ => exact .inl rfl
  | afterSend site event =>
    refine .inl ?_
    simp only [callChange?, sendChange?, isKnownNull, DelegateConfig.isReleaseSelector]
    rfl
  | assume subject cond truth =>
    simp only [callChange?, branchChange?, true_and]
    split
    · exact .inr rfl
    · exact .inl (by simp)

theorem releases_trusting (call : Callback) :
    call.releases { config with assumeSafeBranch := true } facts =
      call.releases { config with assumeSafeBranch := false } facts := by
  cases call with
  | assume subject cond truth => rfl
  | beforeEffect site e => simp only [Callback.releases, assignmentReleases, isKnownNull]
  | afterSend site event =>
    simp only [Callback.releases, sendReleases, isKnownNull, DelegateConfig.isReleaseSelector]
    rfl
  | atEnd site => simp only [Callback.releases, teardownReleases, isKnownNull]

theorem filed_trusting {inside : Expr → Prop} {before : List Callback} {call : Callback}
    (hHistory : History frame inside (before ++ [call])) :
    ((delegatePaths { config with assumeSafeBranch := true } known).filed (before ++ [call])).Sublist
      ((delegatePaths { config with assumeSafeBranch := false } known).filed (before ++ [call])) := by
  rcases filed_cases known hHistory with hNone | ⟨site, facts, -, rfl, hKnown, hFiled⟩
  · rw [hNone, hNone]
  · have hBefore := hHistory.of_isPrefix (List.prefix_append before [call])
    rw [hFiled, hFiled, releases_trusting]
    refine List.Sublist.flatMap_right _ fun r _ => Release.verify_sublist fun p hRecords => ?_
    refine ⟨hRecords, fun hCleared => ?_⟩
    rw [mem_openPath_iff hKnown hRecords hBefore] at hCleared ⊢
    -- A guard that is trusted only clears.
    exact getLast?_eq_cleared_of_clearing id (fun call _ => callChange?_trusting call) hCleared

end

/-- With guards trusted the reports are some of those without, in the same order, and the same paths
are explored. -/
theorem trusting_guards_only_suppresses (config : DelegateConfig) (subject : Subject)
    (limits : Limits) :
    let run (trust : Bool) :=
      (danglingDelegateCheck { config with assumeSafeBranch := trust }).run subject limits
    (run true).reports.Sublist (run false).reports ∧ (run true).stats = (run false).stats := by
  intro run
  have hScan : scanClass { config with assumeSafeBranch := true } =
      scanClass { config with assumeSafeBranch := false } := rfl
  refine ⟨?_, ?_⟩
  · simp only [run, reports_run, scanAll_congr hScan, scannedFacts_congr hScan]
    refine (List.Sublist.refl _).append (List.Sublist.flatMap_right _ fun frame _ =>
      List.Sublist.flatMap_right _ fun made hMade => ?_)
    obtain ⟨hHistory, before, call, rfl⟩ := exists_concat_of_mem_shownCalls hMade
    exact filed_trusting hHistory
  · simp only [run, stats_run]

/-! ## Ignoring sends to nil -/

/-- What one list has reported more often than another has a property. -/
def NoMoreBut (P : Diagnostic → Prop) (these those : List Diagnostic) : Prop :=
  ∀ d ∈ (these : Multiset Diagnostic) - those, P d

namespace NoMoreBut

variable {P Q : Diagnostic → Prop} {these these' those those' : List Diagnostic}

theorem of_le (extra : Multiset Diagnostic)
    (hLe : (these : Multiset Diagnostic) ≤ those + extra)
    (hExtra : ∀ d ∈ extra, P d) : NoMoreBut P these those :=
  fun d hd => hExtra d (Multiset.mem_of_le (tsub_le_iff_left.mpr hLe) hd)

theorem refl (these : List Diagnostic) : NoMoreBut P these these :=
  of_le 0 (Multiset.le_add_right _ 0) fun d hd => absurd hd (Multiset.notMem_zero d)

theorem mono (h : NoMoreBut P these those) (hImp : ∀ d, P d → Q d) : NoMoreBut Q these those :=
  fun d hd => hImp d (h d hd)

theorem trans_sublist (h : NoMoreBut P these those) (hThose : those.Sublist those') :
    NoMoreBut P these those' :=
  fun d hd => h d (Multiset.mem_of_le (tsub_le_tsub_left (Multiset.coe_le.mpr hThose.subperm) _) hd)

theorem append (h : NoMoreBut P these those) (h' : NoMoreBut P these' those') :
    NoMoreBut P (these ++ these') (those ++ those') := by
  intro d hd
  rw [← Multiset.coe_add, ← Multiset.coe_add] at hd
  have hEither := Multiset.mem_of_le add_tsub_add_le_tsub_add_tsub hd
  exact (Multiset.mem_add.mp hEither).elim (h d) (h' d)

theorem flatMap {α : Type} {f g : α → List Diagnostic} {xs : List α}
    (h : ∀ x ∈ xs, NoMoreBut P (f x) (g x)) : NoMoreBut P (xs.flatMap f) (xs.flatMap g) := by
  induction xs with
  | nil => exact refl []
  | cons x rest ih =>
    obtain ⟨hFirst, hRest⟩ := List.forall_mem_cons.mp h
    exact hFirst.append (ih hRest)

end NoMoreBut

/-- The last that was done to a property, sends to nil included, was that a send to nil cleared it. -/
def ClearedAtNil (config : DelegateConfig) (frame : Frame) (facts : ClassFacts)
    (field property : String) (before : List Callback) : Prop :=
  ∃ earlier site event later, before = earlier ++ .afterSend site event :: later ∧
    event.receiver = .null ∧ sendChange? config frame field property event = some .cleared ∧
    ∀ call ∈ later, callChange? config frame facts field property call = none

section

variable {config : DelegateConfig} {frame : Frame} {facts : ClassFacts} {known : FactsByClass}
  {field property : String}

theorem callChange?_ignoring (call : Callback) :
    callChange? { config with suppressIfNull := true } frame facts field property call =
        callChange? { config with suppressIfNull := false } frame facts field property call ∨
      callChange? { config with suppressIfNull := true } frame facts field property call = none ∧
        ∃ site event, call = .afterSend site event ∧ event.receiver = .null := by
  cases call with
  | beforeEffect _ _ | atEnd _ => exact .inl rfl
  | assume subject cond truth => exact .inl (by simp only [callChange?, branchChange?])
  | afterSend site event =>
    cases hReceiver : event.receiver with
    | null =>
      refine .inr ⟨?_, site, event, rfl, hReceiver⟩
      cases hTarget : event.message.target? <;>
        simp [callChange?, sendChange?, hTarget, isKnownNull, hReceiver, Nullness.isNull]
    | nonNull | unknown =>
      refine .inl ?_
      simp only [callChange?, sendChange?, isKnownNull, hReceiver, DelegateConfig.isReleaseSelector]
      rfl

/-- A clearing can get lost only by being ignored. -/
theorem clearedAtNil_of_pastChanges (before : List Callback)
    (hOff : (pastChanges { config with suppressIfNull := false } frame facts field property
      before).getLast? = some .cleared)
    (hOn : (pastChanges { config with suppressIfNull := true } frame facts field property
      before).getLast? ≠ some .cleared) :
    ClearedAtNil { config with suppressIfNull := false } frame facts field property before := by
  induction before using List.reverseRecOn with
  | nil => exact absurd hOff hOn
  | append_singleton before call ih =>
    rw [pastChanges, getLast?_filterMap_concat] at hOff hOn
    cases hChange : callChange? { config with suppressIfNull := false } frame facts field property
        call with
    | none =>
      have hIgnored : callChange? { config with suppressIfNull := true } frame facts field property
          call = none := by
        rcases @callChange?_ignoring config frame facts field property call with hSame | ⟨hNone, -⟩
        · rw [hSame, hChange]
        · exact hNone
      rw [hChange, Option.none_or] at hOff
      rw [hIgnored, Option.none_or] at hOn
      obtain ⟨earlier, site, event, later, rfl, hNull, hCleared, hLater⟩ := ih hOff hOn
      refine ⟨earlier, site, event, later ++ [call], by simp, hNull, hCleared, ?_⟩
      exact List.forall_mem_append.mpr ⟨hLater, List.forall_mem_singleton.mpr hChange⟩
    | some change =>
      rw [hChange, Option.some_or] at hOff
      rcases @callChange?_ignoring config frame facts field property call with
        hSame | ⟨-, site, event, rfl, hNull⟩
      · rw [hSame, hChange, Option.some_or] at hOn
        exact absurd hOff hOn
      · exact ⟨before, site, event, [], rfl, hNull, hChange.trans hOff, List.forall_mem_nil _⟩

theorem releases_ignoring (call : Callback) :
    (call.releases { config with suppressIfNull := true } facts).Sublist
      (call.releases { config with suppressIfNull := false } facts) := by
  cases call with
  | assume subject cond truth => exact List.Sublist.refl _
  | beforeEffect site e =>
    simp only [Callback.releases, assignmentReleases]
    split
    · cases assignedField? site.frame.scope e with
      | none => exact List.Sublist.refl _
      | some field =>
        cases hNull : (site.store.lookup (.field field)).isNull <;>
          simp [Option.filter_some, isKnownNull, hNull]
    · exact List.Sublist.refl _
  | afterSend site event =>
    simp only [Callback.releases, sendReleases]
    cases event.message.target? with
    | none => exact List.Sublist.refl _
    | some receiver =>
      cases hNull : event.receiver.isNull with
      | true => simp [isKnownNull, hNull]
      | false =>
        simp only [isKnownNull, hNull, Bool.and_false]
        exact List.Sublist.refl _
  | atEnd site =>
    simp only [Callback.releases, teardownReleases]
    split
    · exact (List.monotone_filter_right _ fun field _ => by simp [isKnownNull]).map _
    · exact List.Sublist.refl _

theorem Release.verify_noMoreBut {r : Release} {site : Site} {s s' : DelegateState} :
    NoMoreBut (fun d => ∃ p, facts.Records r.field p ∧ p ∈ (s.field r.field).properties ∧
        p ∉ (s'.field r.field).properties ∧ d = r.report site p)
      (r.verify facts site s') (r.verify facts site s) := by
  cases hField : facts.field? r.field with
  | none =>
    rw [verify_eq_nil hField, verify_eq_nil hField]
    exact .refl _
  | some fieldFacts =>
    rw [verify_eq hField, verify_eq hField]
    -- What is left over only after the second state had been cleared in the first.
    let hidden := (leftovers fieldFacts.properties (s'.field r.field).properties).filter
      (· ∈ (s.field r.field).properties)
    have hSplit : ((leftovers fieldFacts.properties (s'.field r.field).properties : List String) :
        Multiset String) ≤ leftovers fieldFacts.properties (s.field r.field).properties + hidden := by
      rw [← Multiset.filter_add_not (· ∈ (s.field r.field).properties)
        (leftovers fieldFacts.properties (s'.field r.field).properties : Multiset String), add_comm]
      refine add_le_add ?_ le_rfl
      rw [Multiset.filter_coe, Multiset.coe_le]
      rw [leftovers, List.filter_filter]
      exact (List.monotone_filter_right _ (by simp +contextual)).subperm
    refine .of_le ((hidden : Multiset String).map (r.report site)) ?_ ?_
    · rw [← Multiset.map_coe, ← Multiset.map_coe, ← Multiset.map_add]
      exact Multiset.map_le_map hSplit
    · intro d hd
      obtain ⟨p, hp, rfl⟩ := Multiset.mem_map.mp hd
      obtain ⟨hLeft, hCleared⟩ := List.mem_filter.mp (Multiset.mem_coe.mp hp)
      obtain ⟨hMem, hNotCleared⟩ := mem_leftovers.mp hLeft
      exact ⟨p, ⟨fieldFacts, hField, NameSet.mem_toList.mp hMem⟩, of_decide_eq_true hCleared,
        hNotCleared, rfl⟩

/-- A report, at the last of some calls, of a property that is not cleared only because a send to nil is
ignored. -/
def HiddenAt (config : DelegateConfig) (frame : Frame) (facts : ClassFacts) (made : List Callback)
    (d : Diagnostic) : Prop :=
  ∃ before call site r property, made = before ++ [call] ∧ call.site? = some site ∧
    r ∈ call.releases { config with suppressIfNull := true } facts ∧
    facts.Records r.field property ∧ d = r.report site property ∧
    (pastChanges { config with suppressIfNull := true } frame facts r.field property
      before).getLast? ≠ some .cleared ∧
    ClearedAtNil { config with suppressIfNull := false } frame facts r.field property before

theorem filed_ignoring {inside : Expr → Prop} {before : List Callback} {call : Callback}
    (hHistory : History frame inside (before ++ [call])) :
    NoMoreBut (fun d => ∃ facts, known.find? frame.className = some facts ∧
        HiddenAt config frame facts (before ++ [call]) d)
      ((delegatePaths { config with suppressIfNull := true } known).filed (before ++ [call]))
      ((delegatePaths { config with suppressIfNull := false } known).filed (before ++ [call])) := by
  rcases filed_cases known hHistory with hNone | ⟨site, facts, hSite, rfl, hKnown, hFiled⟩
  · rw [hNone, hNone]
    exact .refl []
  · have hBefore := hHistory.of_isPrefix (List.prefix_append before [call])
    rw [hFiled, hFiled]
    refine NoMoreBut.trans_sublist (NoMoreBut.flatMap fun r hr => ?_)
      ((releases_ignoring call).flatMap _)
    refine Release.verify_noMoreBut.mono ?_
    rintro d ⟨p, hRecords, hOff, hOn, rfl⟩
    rw [mem_openPath_iff hKnown hRecords hBefore] at hOff hOn
    exact ⟨facts, hKnown, before, call, site, r, p, rfl, hSite, hr, hRecords, rfl, hOn,
      clearedAtNil_of_pastChanges before hOff hOn⟩

end

/-- Where sends to nil are ignored nothing is reported more often than elsewhere but properties whose
clearing was ignored. -/
theorem ignoring_nil_adds_only_hidden (config : DelegateConfig) (subject : Subject)
    (limits : Limits) :
    let run (ignore : Bool) :=
      (danglingDelegateCheck { config with suppressIfNull := ignore }).run subject limits
    ∀ d ∈ ((run true).reports : Multiset Diagnostic) - (run false).reports,
      ∃ frame ∈ UnitCheck.frames subject, ∃ facts,
        (scannedFacts config subject).find? frame.className = some facts ∧
        ∃ made ∈ shownCalls frame limits, HiddenAt config frame facts made d := by
  intro run
  have hScan : scanClass { config with suppressIfNull := true } =
      scanClass { config with suppressIfNull := false } := rfl
  have hFacts : scannedFacts { config with suppressIfNull := false } subject =
      scannedFacts config subject := scannedFacts_congr rfl
  simp only [run, reports_run, scanAll_congr hScan, scannedFacts_congr hScan, hFacts]
  refine (NoMoreBut.refl _).append (NoMoreBut.flatMap fun frame hFrame =>
    NoMoreBut.flatMap fun made hMade => ?_)
  obtain ⟨hHistory, before, call, rfl⟩ := exists_concat_of_mem_shownCalls hMade
  refine (filed_ignoring hHistory).mono ?_
  rintro d ⟨facts, hKnown, hHidden⟩
  exact ⟨frame, hFrame, facts, hKnown, _, hMade, hHidden⟩

namespace Sample

/-- `self` is stored in `init`. In `dealloc` the property is set to nil while the field holds nil. -/
def clearedWhileNil : SourceUnit :=
  let bar : Expr := .field "_bar" .unknown
  let nothing : Expr := .nil .unknown
  manualReleasePair [
    method "init" [.expr (setProperty bar "delegate" (.self .unknown))],
    method "dealloc" [
      .expr (.assign bar nothing .unknown),
      .expr (setProperty bar "delegate" nothing),
      .expr (.assign bar (.var "other" none .unknown) .unknown),
      .expr (send (.object bar) "release" [])]]

end Sample

open Sample in
/-- The setter that is sent to nil would clear the property for the release. -/
theorem ignored_clearing_is_missed :
    let run (ignore : Bool) :=
      (danglingDelegateCheck { DelegateConfig.default with suppressIfNull := ignore }).run
        (.ofUnit clearedWhileNil none) ⟨512, 2⟩
    (run false).reports = [] ∧
    ¬ ((run true).reports : Multiset Diagnostic) ≤ (run false).reports := by
  intro run
  have hOff : (run false).reports = [] := by decide +kernel
  have hOn : (run true).reports.length = 1 := by decide +kernel
  refine ⟨hOff, fun hLe => ?_⟩
  have hCard := Multiset.card_le_card hLe
  rw [hOff, Multiset.coe_card, hOn] at hCard
  exact absurd hCard (by decide)

end DelegateSafety
