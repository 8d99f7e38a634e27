import Mathlib.Data.List.Induction
import DelegateSafety.Dangling.Check
import DelegateSafety.Proofs.Trace

/-! # What a call does to the state of a path

Everything that the check of dangling delegates does to its state is a list of transitions of single
fields, and the list depends on the call alone. The state of a path is therefore that of its
transitions, applied in order to the state it opened with (`replay_delegatePaths`).
-/
namespace DelegateSafety

inductive Transition where
  | clear (field property : String)
  | unclear (field property : String)
  | clearTarget (field : String)
  | clearObserver (field : String)
  | clearAll (field : String) (facts : FieldFacts)

namespace Transition

def field : Transition → String
  | clear f _ | unclear f _ | clearTarget f | clearObserver f | clearAll f _ => f

def effect : Transition → Cleared → Cleared
  | clear _ property, c => c.clear property
  | unclear _ property, c => c.unclear property
  | clearTarget _, c => c.clearTarget
  | clearObserver _, c => c.clearObserver
  | clearAll _ facts, _ => .all facts

def apply (s : DelegateState) (t : Transition) : DelegateState := s.update t.field t.effect

end Transition

section

variable (config : DelegateConfig) (scope : ClassScope) (facts : ClassFacts)

def fieldSendTransition? (field : String) (m : Message Expr) : Option Transition :=
  match scope.setter? m with
  | some property =>
    if property.ownership.isUnsafe then
      some (if m.passesSelf then .unclear field property.name else .clear field property.name)
    else none
  | none =>
    if m.passesSelf && beginsWith m.selector config.removeTarget then some (.clearTarget field)
    else if m.passesSelf && beginsWith m.selector config.removeObserver then
      some (.clearObserver field)
    else none

def selfSendTransition? (event : SendEvent) : Option Transition :=
  ((scope.setter? event.message).bind (·.backingField)).bind fun field =>
    (facts.field? field).bind fun fieldFacts =>
      if (event.arg 0).isNull then some (.clearAll field fieldFacts) else none

def sendTransition? (event : SendEvent) : Option Transition :=
  event.message.target?.bind fun receiver =>
    if isKnownNull config event.receiver then none
    else if receiver.isSelf then selfSendTransition? scope facts event
    else ((scope.fieldOf? receiver).filter facts.isInteresting).bind fun field =>
      if config.isReleaseSelector event.message.selector then none
      else fieldSendTransition? config scope field event.message

def outcomeTransition? : SafeOutcome → Option Transition
  | .propertyCleared field property => some (.clear field property)
  | .fieldCleared field => (facts.field? field).map (.clearAll field)

def branchTransitions (cond : Expr) (truth : Bool) : List Transition :=
  if config.assumeSafeBranch then
    (safeOutcomes scope facts truth cond).filterMap (outcomeTransition? facts)
  else []

def callTransitions : Callback → List Transition
  | .afterSend _ event => (sendTransition? config scope facts event).toList
  | .assume _ cond truth => branchTransitions config scope facts cond truth
  | .beforeEffect _ _ | .atEnd _ => []

def openingTransitions (selector : String) : List Transition :=
  if facts.isPseudoInit selector then
    facts.fields.entries.map fun entry => .clearAll entry.1 entry.2
  else []

end

section

variable {config : DelegateConfig} {scope : ClassScope} {facts : ClassFacts} {t : Transition}

theorem exists_of_mem_openingTransitions {selector : String} (h : t ∈ openingTransitions facts selector) :
    ∃ field fieldFacts, facts.field? field = some fieldFacts ∧ t = .clearAll field fieldFacts := by
  unfold openingTransitions at h
  split at h
  · obtain ⟨entry, hEntry, rfl⟩ := List.mem_map.mp h
    exact ⟨entry.1, entry.2, NameMap.mem_entries_iff.mp hEntry, rfl⟩
  · cases h

theorem fieldSendTransition?_cases {field : String} {m : Message Expr}
    (h : fieldSendTransition? config scope field m = some t) :
    (∃ property, scope.unsafeSetter? m = some property ∧
      t = if m.passesSelf then .unclear field property.name else .clear field property.name) ∨
    t = .clearTarget field ∨ t = .clearObserver field := by
  unfold fieldSendTransition? at h
  split at h
  · rename_i property hSetter
    obtain ⟨hUnsafe, h⟩ := Option.ite_none_right_eq_some.mp h
    exact .inl ⟨property, Option.filter_eq_some_iff.mpr ⟨hSetter, hUnsafe⟩, (Option.some.inj h).symm⟩
  · split at h
    · exact .inr (.inl (Option.some.inj h).symm)
    · obtain ⟨-, h⟩ := Option.ite_none_right_eq_some.mp h
      exact .inr (.inr (Option.some.inj h).symm)

/-- A send clears a field as a whole, or else it goes to the object in an interesting field. -/
theorem sendTransition?_cases {event : SendEvent} (h : sendTransition? config scope facts event = some t) :
    (∃ field fieldFacts, facts.field? field = some fieldFacts ∧ t = .clearAll field fieldFacts) ∨
    ∃ field, event.message.target?.bind scope.fieldOf? = some field ∧ facts.isInteresting field = true ∧
      isKnownNull config event.receiver = false ∧
      fieldSendTransition? config scope field event.message = some t := by
  obtain ⟨receiver, hReceiver, h⟩ := Option.bind_eq_some_iff.mp h
  obtain ⟨hNotNull, h⟩ := Option.ite_none_left_eq_some.mp h
  split at h
  · obtain ⟨field, -, h⟩ := Option.bind_eq_some_iff.mp h
    obtain ⟨fieldFacts, hField, h⟩ := Option.bind_eq_some_iff.mp h
    obtain ⟨-, h⟩ := Option.ite_none_right_eq_some.mp h
    exact .inl ⟨field, fieldFacts, hField, (Option.some.inj h).symm⟩
  · obtain ⟨field, hKept, h⟩ := Option.bind_eq_some_iff.mp h
    obtain ⟨hField, hInteresting⟩ := Option.filter_eq_some_iff.mp hKept
    obtain ⟨-, h⟩ := Option.ite_none_left_eq_some.mp h
    exact .inr ⟨field, Option.bind_eq_some_iff.mpr ⟨receiver, hReceiver, hField⟩, hInteresting,
      Bool.eq_false_iff.mpr hNotNull, h⟩

theorem branchTransitions_cases {cond : Expr} {truth : Bool}
    (h : t ∈ branchTransitions config scope facts cond truth) :
    (∃ field fieldFacts, facts.field? field = some fieldFacts ∧ t = .clearAll field fieldFacts) ∨
    ∃ field property, config.assumeSafeBranch = true ∧
      .propertyCleared field property ∈ safeOutcomes scope facts truth cond ∧ t = .clear field property := by
  unfold branchTransitions at h
  split at h
  · rename_i hTrusts
    obtain ⟨outcome, hOutcome, h⟩ := List.mem_filterMap.mp h
    cases outcome with
    | propertyCleared field property =>
      exact .inr ⟨field, property, hTrusts, hOutcome, (Option.some.inj h).symm⟩
    | fieldCleared field =>
      obtain ⟨fieldFacts, hField, rfl⟩ := Option.map_eq_some_iff.mp h
      exact .inl ⟨field, fieldFacts, hField, rfl⟩
  · cases h

end

section

variable {config : DelegateConfig} {known : FactsByClass} {facts : ClassFacts}

theorem checkFieldSend_fst (site : Site) (s : DelegateState) (field : String) (event : SendEvent) :
    (checkFieldSend config facts site s field event).1 =
      (if config.isReleaseSelector event.message.selector then none
        else fieldSendTransition? config site.frame.scope field event.message).elim s
          (Transition.apply s) := by
  unfold checkFieldSend
  split
  · rfl
  · unfold fieldSendEffect? fieldSendTransition?
    cases site.frame.scope.setter? event.message with
    | some property =>
      dsimp only
      split
      · cases event.message.passesSelf <;> rfl
      · rfl
    | none =>
      dsimp only
      split
      · rfl
      · split <;> rfl

theorem checkSelfSetter_fst (site : Site) (s : DelegateState) {property : PropertyDecl}
    (event : SendEvent) (h : site.frame.scope.setter? event.message = some property) :
    (checkSelfSetter facts site s property event).1 =
      (selfSendTransition? site.frame.scope facts event).elim s (Transition.apply s) := by
  unfold checkSelfSetter selfSendTransition?
  rw [h, Option.bind_some]
  cases property.backingField with
  | none => rfl
  | some field =>
    cases hField : facts.field? field with
    | none => simp [hField]
    | some fieldFacts =>
      by_cases hNull : (event.arg 0).isNull = true
      · simp only [hField, hNull, Option.bind_some, if_true]
        rfl
      · simp [hField, hNull]

theorem checkSend_fst (site : Site) (s : DelegateState) (event : SendEvent) :
    (checkSend config facts site s event).1 =
      (sendTransition? config site.frame.scope facts event).elim s (Transition.apply s) := by
  unfold checkSend sendTransition?
  cases event.message.target? with
  | none => rfl
  | some receiver =>
    simp only [Option.bind_some]
    split
    · rfl
    · split
      · cases hSetter : site.frame.scope.setter? event.message with
        | none => simp [selfSendTransition?, hSetter]
        | some property => exact checkSelfSetter_fst site s event hSetter
      · cases (site.frame.scope.fieldOf? receiver).filter facts.isInteresting with
        | none => rfl
        | some field => exact checkFieldSend_fst site s field event

theorem applyOutcome_eq (s : DelegateState) (outcome : SafeOutcome) :
    applyOutcome facts s outcome =
      (outcomeTransition? facts outcome).elim s (Transition.apply s) := by
  cases outcome with
  | propertyCleared field property => rfl
  | fieldCleared field =>
    cases h : facts.field? field <;> simp only [applyOutcome, outcomeTransition?, h] <;> rfl

theorem foldl_applyOutcome (s : DelegateState) (outcomes : List SafeOutcome) :
    outcomes.foldl (applyOutcome facts) s =
      (outcomes.filterMap (outcomeTransition? facts)).foldl Transition.apply s := by
  induction outcomes generalizing s with
  | nil => rfl
  | cons outcome rest ih =>
    rw [List.foldl_cons, ih, applyOutcome_eq]
    cases h : outcomeTransition? facts outcome <;> simp [h]

end

structure DelegateState.IsOpen (className : String) (s : DelegateState) : Prop where
  isInitialized : s.isInitialized = true
  currentClass : s.currentClass = some className

/-- Transitions change nothing but what is cleared. -/
theorem exists_foldl_apply (transitions : List Transition) (s : DelegateState) :
    ∃ fields, transitions.foldl Transition.apply s = { s with fields := fields } := by
  induction transitions generalizing s with
  | nil => exact ⟨s.fields, rfl⟩
  | cons t rest ih => exact ih (Transition.apply s t)

theorem isInitialized_foldl_apply (transitions : List Transition) (s : DelegateState) :
    (transitions.foldl Transition.apply s).isInitialized = s.isInitialized := by
  obtain ⟨fields, hFields⟩ := exists_foldl_apply transitions s
  rw [hFields]

theorem DelegateState.IsOpen.foldl_apply {className : String} {s : DelegateState}
    (h : s.IsOpen className) (transitions : List Transition) :
    (transitions.foldl Transition.apply s).IsOpen className := by
  obtain ⟨fields, hFields⟩ := exists_foldl_apply transitions s
  rw [hFields]
  exact ⟨h.isInitialized, h.currentClass⟩

theorem DelegateState.isOpen_begin (s : DelegateState) (className : String) :
    (s.begin className).IsOpen className :=
  ⟨rfl, rfl⟩

section

variable {config : DelegateConfig} {known : FactsByClass} {facts : ClassFacts} {s : DelegateState}
  {frame : Frame} {inside : Expr → Prop}

theorem DelegateState.clearFields_eq (s : DelegateState) (entries : List (String × FieldFacts)) :
    s.clearFields entries =
      (entries.map fun entry => .clearAll entry.1 entry.2).foldl Transition.apply s := by
  rw [clearFields, List.foldl_map]
  rfl

theorem openPath_of_isInitialized {known? : Option ClassFacts} {site : Site}
    (h : s.isInitialized = true) : openPath known? site s = s :=
  if_pos h

theorem openPath_of_isOpen {known? : Option ClassFacts} {site : Site} {className : String}
    (h : s.IsOpen className) : openPath known? site s = s :=
  openPath_of_isInitialized h.isInitialized

/-- The first callback opens a path, whatever it knows of the class. -/
theorem isOpen_openPath (known? : Option ClassFacts) (site : Site) (h : s.isInitialized = false) :
    (openPath known? site s).IsOpen site.frame.className := by
  rw [openPath, if_neg (by rw [h]; decide)]
  cases known?.filter (·.isPseudoInit site.frame.method.selector) with
  | none => exact s.isOpen_begin _
  | some facts =>
    dsimp only
    rw [DelegateState.clearFields_eq]
    exact (s.isOpen_begin _).foldl_apply _

theorem isInitialized_openPath (known? : Option ClassFacts) (site : Site) (s : DelegateState) :
    (openPath known? site s).isInitialized = true := by
  cases h : s.isInitialized with
  | true => rw [openPath_of_isInitialized h, h]
  | false => exact (isOpen_openPath known? site h).isInitialized

theorem openPath_start (site : Site) :
    openPath (some facts) site .start =
      (openingTransitions facts site.frame.method.selector).foldl Transition.apply
        (DelegateState.start.begin site.frame.className) := by
  rw [openPath, if_neg (by decide), Option.filter_some, openingTransitions]
  by_cases h : facts.isPseudoInit site.frame.method.selector = true
  · simp only [h, if_true]
    exact DelegateState.clearFields_eq _ _
  · simp [h]

theorem exists_afterSend_fst (site : Site) (s : DelegateState) (event : SendEvent) :
    ∃ transitions : List Transition, ((delegatePaths config known).afterSend site s event).1 =
      transitions.foldl Transition.apply (openPath (known.find? site.frame.className) site s) := by
  simp only [delegatePaths]
  cases known.find? site.frame.className with
  | none => exact ⟨[], rfl⟩
  | some facts =>
    refine ⟨(sendTransition? config site.frame.scope facts event).toList, ?_⟩
    rw [Option.elim_some, checkSend_fst]
    cases sendTransition? config site.frame.scope facts event <;> rfl

theorem exists_acceptBranch (subject : Subject) (s : DelegateState) (cond : Expr) (truth : Bool) :
    ∃ transitions : List Transition,
      acceptBranch config known subject s cond truth = transitions.foldl Transition.apply s := by
  unfold acceptBranch
  split
  · split
    · exact ⟨[], rfl⟩
    · split
      · exact ⟨[], rfl⟩
      · exact ⟨_, foldl_applyOutcome s _⟩
  · exact ⟨[], rfl⟩

theorem answer_of_isOpen (hKnown : known.find? frame.className = some facts) {call : Callback}
    (hFits : call.Fits frame inside) (h : s.IsOpen frame.className) :
    ((delegatePaths config known).answer call s).1 =
      (callTransitions config frame.scope facts call).foldl Transition.apply s := by
  cases call with
  | beforeEffect site e => exact openPath_of_isOpen h
  | atEnd site => exact openPath_of_isOpen h
  | afterSend site event =>
    obtain ⟨rfl, -⟩ := hFits
    have hAnswer := @checkSend_fst config facts site s event
    simp only [PathCheck.answer, delegatePaths, hKnown, Option.elim_some, openPath_of_isOpen h,
      callTransitions]
    rw [hAnswer]
    cases sendTransition? config site.frame.scope facts event <;> rfl
  | assume subject cond truth =>
    obtain ⟨rfl, -⟩ := hFits
    simp only [PathCheck.answer, delegatePaths, acceptBranch, h.currentClass, hKnown,
      callTransitions, branchTransitions]
    split
    · exact foldl_applyOutcome s _
    · rfl

theorem answer_start (hKnown : known.find? frame.className = some facts) {call : Callback}
    (hFits : call.Fits frame inside) (hOpened : call.isAssume = false) :
    ((delegatePaths config known).answer call .start).1 =
      (openingTransitions facts frame.method.selector ++
        callTransitions config frame.scope facts call).foldl Transition.apply
          (DelegateState.start.begin frame.className) := by
  have hOpen := (DelegateState.start.isOpen_begin frame.className).foldl_apply
    (openingTransitions facts frame.method.selector)
  rw [List.foldl_append, ← answer_of_isOpen hKnown hFits hOpen]
  cases call with
  | beforeEffect site e =>
    obtain ⟨rfl, -⟩ := hFits
    simp only [PathCheck.answer, delegatePaths, hKnown, openPath_of_isOpen hOpen, openPath_start]
  | atEnd site =>
    obtain rfl := hFits
    simp only [PathCheck.answer, delegatePaths, hKnown, openPath_of_isOpen hOpen, openPath_start]
  | afterSend site event =>
    obtain ⟨rfl, -⟩ := hFits
    simp only [PathCheck.answer, delegatePaths, hKnown, openPath_of_isOpen hOpen, openPath_start]
  | assume subject cond truth => cases hOpened

def pathTransitions (config : DelegateConfig) (frame : Frame) (facts : ClassFacts)
    (made : List Callback) : List Transition :=
  openingTransitions facts frame.method.selector ++
    made.flatMap (callTransitions config frame.scope facts)

/-- The state of a path that has been called is that of its transitions. -/
theorem replay_delegatePaths (hKnown : known.find? frame.className = some facts)
    {made : List Callback} (hHistory : History frame inside made) (hMade : made ≠ []) :
    (delegatePaths config known).replay made =
      (pathTransitions config frame facts made).foldl Transition.apply
        (DelegateState.start.begin frame.className) := by
  induction made using List.reverseRecOn with
  | nil => exact absurd rfl hMade
  | append_singleton made call ih =>
    have hFits := hHistory.fits call (List.mem_append_right _ List.mem_cons_self)
    rw [PathCheck.replay_concat]
    cases made with
    | nil =>
      have hOpened := hHistory.opened call rfl
      simp only [PathCheck.replay_nil, pathTransitions, List.nil_append, List.flatMap_singleton]
      exact answer_start hKnown hFits hOpened
    | cons first rest =>
      have hBefore := ih (hHistory.of_isPrefix (List.prefix_append _ _)) (List.cons_ne_nil _ _)
      have hOpen : ((delegatePaths config known).replay (first :: rest)).IsOpen frame.className := by
        rw [hBefore]
        exact (DelegateState.start.isOpen_begin frame.className).foldl_apply _
      rw [answer_of_isOpen hKnown hFits hOpen, hBefore, ← List.foldl_append]
      simp [pathTransitions, List.flatMap_append]

end

end DelegateSafety
