import Mathlib.Data.List.Nodup
import Mathlib.Data.Prod.Basic
import DelegateSafety.Proofs.LastChange
import DelegateSafety.Proofs.Recording

/-! # What is left behind at teardown

The scan and the paths see the same stores of `self`. A store that a path makes is a fact of the class,
and one that is still in place where the teardown method is left is reported there, once.
-/
namespace DelegateSafety

section

variable (config : DelegateConfig) (facts : ClassFacts)

/-- The report that a property may hold `self` where the teardown method is left. -/
def teardownReport (site : Site) (field property : String) : Diagnostic :=
  site.report site.frame.method.range
    (leftoverMessage field property ((site.frame.scope.field? field).map (·.type))
      (some ("automatic release at end of " ++ config.teardownMethod)))

/-- All fields and properties that a path has not cleared, but for fields it knows to be nil. -/
def uncleared (store : Store) (s : DelegateState) : List (String × String) :=
  facts.fields.entries.flatMap fun entry =>
    if isKnownNull config (store.lookup (.field entry.1)) then []
    else (leftovers entry.2.properties (s.field entry.1).properties).map (Prod.mk entry.1)

variable {config facts} {store : Store} {s : DelegateState} {field property : String}

theorem mem_uncleared : (field, property) ∈ uncleared config facts store s ↔
    facts.Records field property ∧ property ∉ (s.field field).properties ∧
      isKnownNull config (store.lookup (.field field)) = false := by
  simp only [uncleared, List.mem_flatMap, ClassFacts.Records]
  constructor
  · rintro ⟨⟨name, fieldFacts⟩, hEntry, hHere⟩
    split at hHere
    · cases hHere
    · rename_i hKnown
      obtain ⟨p, hLeft, hEq⟩ := List.mem_map.mp hHere
      cases hEq
      obtain ⟨hMem, hNotCleared⟩ := mem_leftovers.mp hLeft
      exact ⟨⟨fieldFacts, NameMap.mem_entries_iff.mp hEntry, NameSet.mem_toList.mp hMem⟩,
        hNotCleared, Bool.eq_false_iff.mpr hKnown⟩
  · rintro ⟨⟨fieldFacts, hField, hMem⟩, hNotCleared, hKnown⟩
    refine ⟨(field, fieldFacts), NameMap.mem_entries_iff.mpr hField, ?_⟩
    rw [if_neg (Bool.eq_false_iff.mp hKnown)]
    exact List.mem_map_of_mem (mem_leftovers.mpr ⟨NameSet.mem_toList.mpr hMem, hNotCleared⟩)

theorem nodup_uncleared : (uncleared config facts store s).Nodup := by
  refine List.nodup_flatMap.mpr ⟨fun entry _ => ?_, ?_⟩
  · split
    · exact List.nodup_nil
    · exact ((NameSet.nodup_toList _).filter _).map (Prod.mk_right_injective _)
  · refine facts.fields.sorted.imp fun {a b} hLt => ?_
    have hFirst {entry : String × FieldFacts} {x : String × String}
        (hx : x ∈ if isKnownNull config (store.lookup (.field entry.1)) then []
          else (leftovers entry.2.properties (s.field entry.1).properties).map (Prod.mk entry.1)) :
        x.1 = entry.1 := by
      split at hx
      · cases hx
      · obtain ⟨p, -, rfl⟩ := List.mem_map.mp hx
        rfl
    intro x hA hB
    rw [← hFirst hA, hFirst hB] at hLt
    exact String.lt_irrefl _ hLt

theorem checkTeardown_eq {site : Site} (hRelease : site.frame.subject.lang.autoReleaseFields = true)
    (hSelector : site.frame.method.selector = config.teardownMethod) :
    checkTeardown config facts site s =
      (uncleared config facts site.store s).map fun x => teardownReport config site x.1 x.2 := by
  rw [checkTeardown, if_pos (by simp [hRelease, hSelector]), uncleared, List.map_flatMap, NameMap.keys,
    List.flatMap_map]
  refine List.flatMap_congr fun entry hEntry => ?_
  have hField : facts.field? entry.1 = some entry.2 := NameMap.mem_entries_iff.mp hEntry
  split
  · rfl
  · simp only [verifyField, hField, Option.elim_some, leftoverMessages, List.map_map]
    rfl

end

/-! ## Every path -/

section

variable {config : DelegateConfig} {frame : Frame} {facts : ClassFacts} {field property : String}
  {made : List Callback}

theorem storesSelf_of_sendChange? {event : SendEvent}
    (h : sendChange? config frame field property event = some .stored) :
    StoresSelf frame.scope event.message field property := by
  obtain ⟨receiver, hReceiver, h⟩ := Option.bind_eq_some_iff.mp h
  split at h
  · cases h
  · split at h
    · split at h <;> cases h
    · split at h
      · rename_i hBears
        obtain ⟨hField, -, hSetter⟩ := hBears
        split at h
        · rename_i hSelf
          exact ⟨by rw [hReceiver]; exact hField, hSelf, hSetter⟩
        · cases h
      · cases h

/-- What a path has stored last it has stored by a send. -/
theorem exists_store_of_changes
    (h : (changes config frame facts field property made).getLast? = some .stored) :
    ∃ site event, .afterSend site event ∈ made ∧
      StoresSelf frame.scope event.message field property := by
  have hStored := List.mem_of_getLast? h
  unfold changes at hStored
  split at hStored
  · cases hStored
  · rcases List.mem_append.mp hStored with hOpening | hMade
    · unfold openingChanges at hOpening
      split at hOpening
      · simp at hOpening
      · cases hOpening
    · obtain ⟨call, hCall, hChange⟩ := List.mem_filterMap.mp hMade
      cases call with
      | afterSend site event => exact ⟨site, event, hCall, storesSelf_of_sendChange? hChange⟩
      | assume subject cond truth =>
        simp only [callChange?, branchChange?] at hChange
        split at hChange <;> cases hChange
      | beforeEffect _ _ | atEnd _ => cases hChange

theorem records_of_made {decl : ImplementationDecl} {subject : Subject} {method : MethodDecl}
    (hMethod : method ∈ decl.methods) (hRole : config.roleOf method.selector ≠ .pseudoInit)
    (hHistory : History ⟨subject, decl.name, method⟩
      (· ∈ Frame.exprs ⟨subject, decl.name, method⟩) made)
    {site : Site} {event : SendEvent} (hSend : .afterSend site event ∈ made)
    (hStore : StoresSelf ⟨subject.unit, decl.name⟩ event.message field property) :
    (classFacts ⟨subject.unit, decl.name⟩ config decl).Records field property := by
  obtain ⟨-, hInside, ⟨r, hExpr⟩, -⟩ := hHistory.fits _ hSend
  rw [hExpr] at hInside
  exact records_classFacts_iff.mpr ⟨method, hMethod, hRole, _, r, hInside, hStore⟩

theorem filed_at_teardown {known : FactsByClass} {limits : Limits}
    (hKnown : known.find? frame.className = some facts)
    (hRelease : frame.subject.lang.autoReleaseFields = true)
    (hSelector : frame.method.selector = config.teardownMethod)
    {p : Path (Traced DelegateState Diagnostic)}
    (hp : p ∈ (explore frame limits (delegatePaths config known).traced).reports)
    (hEnded : p.isEnded = true) :
    p.state.filed = (uncleared config facts p.store p.state.state).map fun x =>
      teardownReport config ⟨frame, p.id, p.store⟩ x.1 x.2 := by
  have hExplained := explained_of_mem_traced _ _ _ hp
  obtain ⟨before, hMade, hFiled⟩ := ended_of_mem_traced _ _ _ hp hEnded
  have hState : p.state.state = openPath (some facts) ⟨frame, p.id, p.store⟩
      ((delegatePaths config known).replay before) := by
    rw [hExplained.state, hMade, PathCheck.replay_concat]
    simp only [PathCheck.answer, delegatePaths, hKnown]
  rw [hFiled]
  simp only [delegatePaths, hKnown, Option.elim_some] at hState ⊢
  rw [← hState]
  exact checkTeardown_eq hRelease hSelector

theorem count_uncleared {known : FactsByClass} (hKnown : known.find? frame.className = some facts)
    (hRecords : facts.Records field property) {inside : Expr → Prop}
    (hHistory : History frame inside made)
    (hStored : (changes config frame facts field property made).getLast? = some .stored)
    (store : Store) :
    (uncleared config facts store ((delegatePaths config known).replay made)).count
      (field, property) = if isKnownNull config (store.lookup (.field field)) then 0 else 1 := by
  obtain ⟨fieldFacts, hField, hProperty⟩ := hRecords
  have hNotCleared : property ∉ (((delegatePaths config known).replay made).field field).properties := by
    rw [mem_replay_iff hKnown hField hProperty hHistory, hStored]
    exact nofun
  split
  · rename_i hNull
    refine List.count_eq_zero_of_not_mem fun hMem => ?_
    obtain ⟨-, -, hNotNull⟩ := mem_uncleared.mp hMem
    rw [hNull] at hNotNull
    cases hNotNull
  · rename_i hNull
    refine List.count_eq_one_of_mem nodup_uncleared (mem_uncleared.mpr ⟨?_, hNotCleared, ?_⟩)
    · exact ⟨fieldFacts, hField, hProperty⟩
    · exact Bool.eq_false_iff.mpr hNull

/-- Whatever a path stores is recorded, and what it leaves in place in the teardown method is reported
once, unless the field is known to hold nil by then. -/
theorem stores_recorded_and_reported {subject : Subject} {limits : Limits}
    {decl : ImplementationDecl} (hName : decl.name ≠ "")
    (hDecl : decl ∈ subject.unit.implementations)
    (hOnly : ∀ other ∈ subject.unit.implementations, other.name = decl.name → other = decl)
    {method : MethodDecl} (hMethod : method ∈ decl.methods)
    (hRole : config.roleOf method.selector ≠ .pseudoInit)
    {p : Path (Traced DelegateState Diagnostic)}
    (hp : p ∈ (explore ⟨subject, decl.name, method⟩ limits
      (delegatePaths config (scannedFacts config subject)).traced).reports)
    (field property : String) :
    ∃ facts, (scannedFacts config subject).find? decl.name = some facts ∧
      (∀ site event, .afterSend site event ∈ p.state.made →
        StoresSelf ⟨subject.unit, decl.name⟩ event.message field property →
        facts.Records field property) ∧
      (subject.lang.autoReleaseFields = true → method.selector = config.teardownMethod →
        p.isEnded = true →
        (changes config ⟨subject, decl.name, method⟩ facts field property
          p.state.made).getLast? = some .stored →
        p.state.filed = (uncleared config facts p.store p.state.state).map (fun x =>
          teardownReport config ⟨⟨subject, decl.name, method⟩, p.id, p.store⟩ x.1 x.2) ∧
        (uncleared config facts p.store p.state.state).count (field, property) =
          if isKnownNull config (p.store.lookup (.field field)) then 0 else 1) := by
  have hKnown := @find?_scannedFacts config subject decl hName hDecl hOnly
  have hExplained := explained_of_mem_traced _ _ _ hp
  refine ⟨_, hKnown, fun site event => records_of_made hMethod hRole hExplained.history, ?_⟩
  intro hRelease hSelector hEnded hStored
  obtain ⟨site, event, hSend, hStore⟩ := exists_store_of_changes hStored
  have hRecords := records_of_made hMethod hRole hExplained.history hSend hStore
  refine ⟨filed_at_teardown hKnown hRelease hSelector hp hEnded, ?_⟩
  rw [hExplained.state]
  exact count_uncleared hKnown hRecords hExplained.history hStored p.store

end

namespace Sample

/-- `self` is stored by the very method that lets the field go. -/
def storeInDealloc : MethodDecl :=
  method "dealloc" [.expr (setProperty (.field "_bar" .unknown) "delegate" (.self .unknown))]

def storedAtTeardown : SourceUnit := delegatePair [storeInDealloc]

end Sample

open Sample in
theorem stored_at_teardown_is_reported :
    ∃ p ∈ (explore ⟨.ofUnit storedAtTeardown none, "Foo", storeInDealloc⟩ ⟨512, 2⟩
        (delegatePaths .default (scannedFacts .default (.ofUnit storedAtTeardown none))).traced).reports,
      ∃ facts, (scannedFacts .default (.ofUnit storedAtTeardown none)).find? "Foo" = some facts ∧
        p.state.filed = (uncleared .default facts p.store p.state.state).map (fun x =>
          teardownReport .default
            ⟨⟨.ofUnit storedAtTeardown none, "Foo", storeInDealloc⟩, p.id, p.store⟩ x.1 x.2) ∧
        (uncleared .default facts p.store p.state.state).count ("_bar", "delegate") =
          if isKnownNull .default (p.store.lookup (.field "_bar")) then 0 else 1 := by
  have hFacts : (scannedFacts .default (.ofUnit storedAtTeardown none)).find? "Foo" =
      some (classFacts ⟨storedAtTeardown, "Foo"⟩ .default ⟨"Foo", [], [storeInDealloc], .ofLine 10⟩) := by
    decide +kernel
  have hSome : ((explore ⟨.ofUnit storedAtTeardown none, "Foo", storeInDealloc⟩ ⟨512, 2⟩
      (delegatePaths .default
        (scannedFacts .default (.ofUnit storedAtTeardown none))).traced).reports.any fun p =>
      p.isEnded && ((changes .default ⟨.ofUnit storedAtTeardown none, "Foo", storeInDealloc⟩
        (classFacts ⟨storedAtTeardown, "Foo"⟩ .default ⟨"Foo", [], [storeInDealloc], .ofLine 10⟩)
        "_bar" "delegate" p.state.made).getLast? == some .stored)) = true := by
    decide +kernel
  obtain ⟨p, hp, hBoth⟩ := List.any_eq_true.mp hSome
  obtain ⟨hEnded, hStored⟩ := Bool.and_eq_true_iff.mp hBoth
  obtain ⟨facts, hKnown, -, hReported⟩ := @stores_recorded_and_reported .default
    (.ofUnit storedAtTeardown none) ⟨512, 2⟩ ⟨"Foo", [], [storeInDealloc], .ofLine 10⟩ (by decide)
    List.mem_cons_self
    (fun other hOther _ => List.mem_singleton.mp hOther) storeInDealloc List.mem_cons_self
    (by decide +kernel) p hp "_bar" "delegate"
  obtain rfl := Option.some.inj (hKnown.symm.trans hFacts)
  exact ⟨p, hp, _, hKnown, hReported rfl rfl hEnded (beq_iff_eq.mp hStored)⟩

end DelegateSafety
