import DelegateSafety.Proofs.Transition
import DelegateSafety.Sample.Units

/-! # What a path has cleared, read off its calls

A property that may hold `self` is taken as cleared on a path exactly if the last thing that the path
has done to it was to clear it. What counts as doing something to it is read off the calls alone
(`changes`), without any state.
-/
namespace DelegateSafety

/-- What can be done to a property that may hold `self`. -/
inductive Change where
  | cleared
  | stored
  deriving DecidableEq

section

variable (config : DelegateConfig) (frame : Frame) (facts : ClassFacts) (field property : String)

/-- Nil through the setter of a property that the field backs clears all. A setter of the property
itself, sent to the field's object, stores `self` or else clears. A receiver that is let go as nil
has nothing done to it. -/
def sendChange? (event : SendEvent) : Option Change :=
  event.message.target?.bind fun receiver =>
    if isKnownNull config event.receiver then none
    else if receiver.isSelf then
      if (frame.scope.setter? event.message).bind (·.backingField) = some field ∧
          (event.arg 0).isNull then some .cleared
      else none
    else if frame.scope.fieldOf? receiver = some field ∧
        ¬ config.isReleaseSelector event.message.selector ∧
        (frame.scope.unsafeSetter? event.message).map (·.name) = some property then
      some (if event.message.passesSelf then .stored else .cleared)
    else none

/-- A guard clears what it shows to be safe. -/
def branchChange? (cond : Expr) (truth : Bool) : Option Change :=
  let outcomes := safeOutcomes frame.scope facts truth cond
  if config.assumeSafeBranch ∧
      (.propertyCleared field property ∈ outcomes ∨ .fieldCleared field ∈ outcomes) then
    some .cleared
  else none

def callChange? : Callback → Option Change
  | .afterSend _ event => sendChange? config frame field property event
  | .assume _ cond truth => branchChange? config frame facts field property cond truth
  | .beforeEffect _ _ | .atEnd _ => none

/-- In set-up code the first call of a path clears everything. -/
def openingChanges : List Change :=
  if facts.isPseudoInit frame.method.selector then [.cleared] else []

/-- All that a path has done to a property, in order. -/
def changes (made : List Callback) : List Change :=
  if made.isEmpty then []
  else openingChanges frame facts ++ made.filterMap (callChange? config frame facts field property)

end

namespace Transition

def change? (name property : String) : Transition → Option Change
  | clear f p => if name = f ∧ property = p then some .cleared else none
  | unclear f p => if name = f ∧ property = p then some .stored else none
  | clearAll f _ => if name = f then some .cleared else none
  | clearTarget _ | clearObserver _ => none

/-- Whatever is cleared as a whole is cleared as the facts have it. -/
def AgreesWith (facts : ClassFacts) : Transition → Prop
  | clearAll f fieldFacts => facts.field? f = some fieldFacts
  | clear _ _ | unclear _ _ | clearTarget _ | clearObserver _ => True

end Transition

section

variable {config : DelegateConfig} {known : FactsByClass} {facts : ClassFacts} {frame : Frame}
  {field property : String} {fieldFacts : FieldFacts}

/-! ## One transition -/

theorem mem_apply (hField : facts.field? field = some fieldFacts)
    (hProperty : property ∈ fieldFacts.properties) (s : DelegateState) {t : Transition}
    (ht : t.AgreesWith facts) :
    property ∈ ((t.apply s).field field).properties ↔
      (t.change? field property).elim (property ∈ (s.field field).properties) (· = .cleared) := by
  rw [Transition.apply, DelegateState.field_update]
  cases t with
  | clear f p =>
    by_cases hf : field = f <;> by_cases hp : property = p <;>
      simp [Transition.field, Transition.effect, Transition.change?, Cleared.clear, hf, hp]
  | unclear f p =>
    by_cases hf : field = f <;> by_cases hp : property = p <;>
      simp [Transition.field, Transition.effect, Transition.change?, Cleared.unclear, hf, hp]
  | clearTarget f =>
    by_cases hf : field = f <;>
      simp [Transition.field, Transition.effect, Transition.change?, Cleared.clearTarget, hf]
  | clearObserver f =>
    by_cases hf : field = f <;>
      simp [Transition.field, Transition.effect, Transition.change?, Cleared.clearObserver, hf]
  | clearAll f whole =>
    by_cases hf : field = f
    · subst hf
      obtain rfl : fieldFacts = whole := Option.some.inj (hField.symm.trans ht)
      simp [Transition.field, Transition.effect, Transition.change?, Cleared.all, hProperty]
    · simp [Transition.field, Transition.change?, hf]

theorem mem_foldl_apply (hField : facts.field? field = some fieldFacts)
    (hProperty : property ∈ fieldFacts.properties) {s : DelegateState}
    (hStart : property ∉ (s.field field).properties) {transitions : List Transition}
    (hTransitions : ∀ t ∈ transitions, t.AgreesWith facts) :
    property ∈ ((transitions.foldl Transition.apply s).field field).properties ↔
      (transitions.filterMap (·.change? field property)).getLast? = some .cleared := by
  -- From the end, since the last transition that bears on the property decides.
  induction transitions using List.reverseRecOn with
  | nil => simpa using hStart
  | append_singleton rest t ih =>
    have ht := hTransitions t (List.mem_append_right _ List.mem_cons_self)
    have hRest := ih fun u hu => hTransitions u (List.mem_append_left _ hu)
    rw [List.foldl_concat, mem_apply hField hProperty _ ht, List.filterMap_append]
    cases hChange : t.change? field property with
    | none => simpa [hChange] using hRest
    | some change => simp [hChange]

/-! ## Transitions of a call -/

theorem agreesWith_openingTransitions (selector : String) :
    ∀ t ∈ openingTransitions facts selector, t.AgreesWith facts := by
  intro t ht
  obtain ⟨name, whole, hWhole, rfl⟩ := exists_of_mem_openingTransitions ht
  exact hWhole

theorem agreesWith_sendTransition {scope : ClassScope} {event : SendEvent} {t : Transition}
    (h : sendTransition? config scope facts event = some t) : t.AgreesWith facts := by
  rcases sendTransition?_cases h with ⟨name, whole, hWhole, rfl⟩ | ⟨name, -, -, -, hSend⟩
  · exact hWhole
  · rcases fieldSendTransition?_cases hSend with ⟨property, -, rfl⟩ | rfl | rfl
    · split <;> trivial
    · trivial
    · trivial

theorem agreesWith_branchTransitions {scope : ClassScope} {cond : Expr} {truth : Bool} :
    ∀ t ∈ branchTransitions config scope facts cond truth, t.AgreesWith facts := by
  intro t ht
  rcases branchTransitions_cases ht with ⟨name, whole, hWhole, rfl⟩ | ⟨name, p, -, -, rfl⟩
  · exact hWhole
  · trivial

theorem agreesWith_pathTransitions (made : List Callback) :
    ∀ t ∈ pathTransitions config frame facts made, t.AgreesWith facts := by
  intro t ht
  rcases List.mem_append.mp ht with ht | ht
  · exact agreesWith_openingTransitions _ t ht
  · obtain ⟨call, -, ht⟩ := List.mem_flatMap.mp ht
    cases call with
    | beforeEffect site e => cases ht
    | atEnd site => cases ht
    | afterSend site event => exact agreesWith_sendTransition (Option.mem_toList.mp ht)
    | assume subject cond truth => exact agreesWith_branchTransitions t ht

/-! ## The changes of a call are those of its transitions -/

theorem change?_fieldSendTransition (scope : ClassScope) (name : String) (m : Message Expr) :
    (fieldSendTransition? config scope name m).bind (·.change? field property) =
      if name = field ∧ (scope.unsafeSetter? m).map (·.name) = some property then
        some (if m.passesSelf then .stored else .cleared)
      else none := by
  unfold fieldSendTransition? ClassScope.unsafeSetter?
  cases scope.setter? m with
  | none =>
    dsimp only
    split
    · simp [Transition.change?]
    · split <;> simp [Transition.change?]
  | some setter =>
    by_cases hUnsafe : setter.ownership.isUnsafe = true
    · cases hSelf : m.passesSelf <;> simp [Option.filter_some, hUnsafe, Transition.change?, eq_comm]
    · simp [Option.filter_some, hUnsafe]

theorem change?_selfSendTransition (hField : facts.field? field = some fieldFacts)
    (scope : ClassScope) (event : SendEvent) :
    (selfSendTransition? scope facts event).bind (·.change? field property) =
      if (scope.setter? event.message).bind (·.backingField) = some field ∧ (event.arg 0).isNull then
        some .cleared
      else none := by
  unfold selfSendTransition?
  cases (scope.setter? event.message).bind (·.backingField) with
  | none => simp
  | some name =>
    by_cases hName : name = field
    · subst hName
      by_cases hNull : (event.arg 0).isNull = true <;> simp [hField, hNull, Transition.change?]
    · cases hWhole : facts.field? name with
      | none => simp [hWhole, hName]
      | some whole =>
        by_cases hNull : (event.arg 0).isNull = true <;>
          simp [hWhole, hNull, hName, Transition.change?, Ne.symm hName]

theorem isInteresting_of_field? (hField : facts.field? field = some fieldFacts) :
    facts.isInteresting field = true := by
  rw [ClassFacts.isInteresting, NameMap.contains, show facts.fields.find? field = _ from hField]
  rfl

theorem change?_sendTransition (hField : facts.field? field = some fieldFacts) (event : SendEvent) :
    (sendTransition? config frame.scope facts event).bind (·.change? field property) =
      sendChange? config frame field property event := by
  unfold sendTransition? sendChange?
  cases event.message.target? with
  | none => rfl
  | some receiver =>
    simp only [Option.bind_some]
    split
    · rfl
    · split
      · exact change?_selfSendTransition hField frame.scope event
      · cases frame.scope.fieldOf? receiver with
        | none => simp
        | some name =>
          by_cases hRelease : config.isReleaseSelector event.message.selector = true
          · cases (some name).filter facts.isInteresting <;> simp [hRelease]
          · have hSend := @change?_fieldSendTransition config field property frame.scope name
              event.message
            rw [Option.filter_some]
            by_cases hName : name = field
            · subst hName
              simpa [hRelease, isInteresting_of_field? hField] using hSend
            · rw [if_neg (mt And.left hName)] at hSend
              by_cases hInteresting : facts.isInteresting name = true
              · simpa [hRelease, hInteresting, hName] using hSend
              · simp [hInteresting, hName]

theorem change?_outcomeTransition (hField : facts.field? field = some fieldFacts)
    (outcome : SafeOutcome) :
    (outcomeTransition? facts outcome).bind (·.change? field property) =
      if outcome = .propertyCleared field property ∨ outcome = .fieldCleared field then
        some .cleared
      else none := by
  cases outcome with
  | propertyCleared name p => simp [outcomeTransition?, Transition.change?, eq_comm]
  | fieldCleared name =>
    by_cases hName : name = field
    · subst hName
      simp [outcomeTransition?, Transition.change?, hField]
    · cases h : facts.field? name <;>
        simp [outcomeTransition?, Transition.change?, h, hName, Ne.symm hName]

theorem change?_branchTransitions (hField : facts.field? field = some fieldFacts) (cond : Expr)
    (truth : Bool) :
    ((branchTransitions config frame.scope facts cond truth).filterMap
      (·.change? field property)).getLast? =
      branchChange? config frame facts field property cond truth := by
  unfold branchTransitions branchChange?
  by_cases hGuards : config.assumeSafeBranch = true
  · simp only [hGuards, if_true, true_and, List.filterMap_filterMap]
    rw [List.filterMap_congr fun outcome _ => change?_outcomeTransition hField outcome]
    induction safeOutcomes frame.scope facts truth cond using List.reverseRecOn with
    | nil => rfl
    | append_singleton rest outcome ih =>
      rw [List.filterMap_append, List.getLast?_append, ih]
      by_cases hHere : outcome = .propertyCleared field property ∨ outcome = .fieldCleared field
      · rcases hHere with rfl | rfl <;> simp
      · obtain ⟨hProperty, hWhole⟩ := not_or.mp hHere
        simp [hProperty, hWhole, Ne.symm hProperty, Ne.symm hWhole]
  · simp [hGuards]

theorem change?_callTransitions (hField : facts.field? field = some fieldFacts) (call : Callback) :
    ((callTransitions config frame.scope facts call).filterMap
      (·.change? field property)).getLast? = callChange? config frame facts field property call := by
  cases call with
  | beforeEffect site e => rfl
  | atEnd site => rfl
  | assume subject cond truth => exact change?_branchTransitions hField cond truth
  | afterSend site event =>
    rw [callChange?, ← change?_sendTransition hField, callTransitions]
    cases sendTransition? config frame.scope facts event with
    | none => rfl
    | some t => cases h : t.change? field property <;> simp [h]

theorem change?_openingTransitions (hField : facts.field? field = some fieldFacts) :
    ((openingTransitions facts frame.method.selector).filterMap
      (·.change? field property)).getLast? = (openingChanges frame facts).getLast? := by
  unfold openingTransitions openingChanges
  split
  -- The property may be cleared more than once, but there is no other change.
  · have hEntry : (field, fieldFacts) ∈ facts.fields.entries := NameMap.mem_entries_iff.mpr hField
    have hMem : Change.cleared ∈ (facts.fields.entries.map fun entry =>
        Transition.clearAll entry.1 entry.2).filterMap (·.change? field property) :=
      List.mem_filterMap.mpr ⟨_, List.mem_map_of_mem hEntry, by simp [Transition.change?]⟩
    have hOnly : ∀ change ∈ (facts.fields.entries.map fun entry =>
        Transition.clearAll entry.1 entry.2).filterMap (·.change? field property),
        change = .cleared := by
      intro change hChange
      obtain ⟨t, ht, hChange⟩ := List.mem_filterMap.mp hChange
      obtain ⟨entry, -, rfl⟩ := List.mem_map.mp ht
      rw [Transition.change?, Option.ite_none_right_eq_some] at hChange
      exact (Option.some.inj hChange.2).symm
    rw [List.getLast?_eq_some_getLast (List.ne_nil_of_mem hMem), hOnly _ (List.getLast_mem _)]
    rfl
  · rfl

theorem change?_pathTransitions (hField : facts.field? field = some fieldFacts)
    {made : List Callback} (hMade : made ≠ []) :
    ((pathTransitions config frame facts made).filterMap (·.change? field property)).getLast? =
      (changes config frame facts field property made).getLast? := by
  rw [changes, if_neg (by simpa using hMade), pathTransitions, List.filterMap_append,
    List.getLast?_append, List.getLast?_append, change?_openingTransitions hField]
  congr 1
  clear hMade
  induction made using List.reverseRecOn with
  | nil => rfl
  | append_singleton made call ih =>
    rw [List.flatMap_append, List.filterMap_append, List.filterMap_append, List.getLast?_append,
      List.getLast?_append, ih, List.flatMap_singleton, change?_callTransitions hField]
    cases h : callChange? config frame facts field property call <;> simp [h]

/-! ## Every run -/

theorem mem_replay_iff (hKnown : known.find? frame.className = some facts)
    (hField : facts.field? field = some fieldFacts) (hProperty : property ∈ fieldFacts.properties)
    {inside : Expr → Prop} {made : List Callback} (hHistory : History frame inside made) :
    property ∈ (((delegatePaths config known).replay made).field field).properties ↔
      (changes config frame facts field property made).getLast? = some .cleared := by
  by_cases hMade : made = []
  · subst hMade
    simp [delegatePaths, changes, Cleared.nothing]
  · rw [replay_delegatePaths hKnown hHistory hMade, ← change?_pathTransitions hField hMade]
    exact mem_foldl_apply hField hProperty (by simp [Cleared.nothing])
      (agreesWith_pathTransitions made)

/-- After every call of every explored path. -/
theorem cleared_iff_last_change {limits : Limits} (hKnown : known.find? frame.className = some facts)
    (hField : facts.field? field = some fieldFacts) (hProperty : property ∈ fieldFacts.properties)
    {p : Path (Traced DelegateState Diagnostic)}
    (hp : p ∈ (explore frame limits (delegatePaths config known).traced).reports) :
    p.state.state = (delegatePaths config known).replay p.state.made ∧
    ∀ before, before <+: p.state.made →
      (property ∈ (((delegatePaths config known).replay before).field field).properties ↔
        (changes config frame facts field property before).getLast? = some .cleared) := by
  have hExplained := explained_of_mem_traced frame limits (delegatePaths config known) hp
  exact ⟨hExplained.state, fun before hBefore =>
    mem_replay_iff hKnown hField hProperty (hExplained.history.of_isPrefix hBefore)⟩

end

namespace Sample

/-- `self` is stored in `init`. In `dealloc` the field is set to nil first and the property after. -/
def clearedTooLate : SourceUnit :=
  let bar : Expr := .field "_bar" .unknown
  let nothing : Expr := .nil .unknown
  delegatePair [
    method "init" [.expr (setProperty bar "delegate" (.self .unknown))],
    method "dealloc" [
      .expr (.assign bar nothing .unknown),
      .expr (setProperty bar "delegate" nothing),
      .expr (.assign bar (.var "other" none .unknown) .unknown)]]

def barFacts : ClassFacts :=
  ⟨.ofList [("_bar", ⟨.ofList ["delegate"], false, false⟩)], .ofList ["init"], true, ∅⟩

end Sample

open Sample in
/-- In `init` everything is cleared at first and `self` stored after. -/
theorem last_change_in_init :
    (knownFacts clearedTooLate).find? "Foo" = some barFacts ∧
    barFacts.field? "_bar" = some ⟨.ofList ["delegate"], false, false⟩ ∧
    "delegate" ∈ NameSet.ofList ["delegate"] ∧
    ∃ p ∈ (explore (fooFrame clearedTooLate 0) ⟨512, 2⟩
        (delegatePaths .default (knownFacts clearedTooLate)).traced).reports,
      ∀ before, before <+: p.state.made →
        ("delegate" ∈ (((delegatePaths .default (knownFacts clearedTooLate)).replay before).field
          "_bar").properties ↔
        (changes .default (fooFrame clearedTooLate 0) barFacts "_bar" "delegate" before).getLast? =
          some .cleared) := by
  have hKnown : (knownFacts clearedTooLate).find? "Foo" = some barFacts := by decide +kernel
  have hField : barFacts.field? "_bar" = some ⟨.ofList ["delegate"], false, false⟩ := by
    decide +kernel
  have hProperty : "delegate" ∈ NameSet.ofList ["delegate"] := by decide +kernel
  have hLast : 4 < (explore (fooFrame clearedTooLate 0) ⟨512, 2⟩
      (delegatePaths .default (knownFacts clearedTooLate)).traced).reports.length := by
    decide +kernel
  have hShown := List.get_mem _ ⟨4, hLast⟩
  exact ⟨hKnown, hField, hProperty, _, hShown,
    (cleared_iff_last_change hKnown hField hProperty hShown).2⟩

open Sample in
/-- A setter sent to a field that the path knows to be nil is no change: were it one, the property
would be cleared at the end of `dealloc`. -/
theorem setter_of_known_null_clears_nothing :
    ∃ p ∈ (explore (fooFrame clearedTooLate 1) ⟨512, 2⟩
        (delegatePaths .default (knownFacts clearedTooLate)).traced).reports,
      (changes { DelegateConfig.default with suppressIfNull := false } (fooFrame clearedTooLate 1)
        barFacts "_bar" "delegate" p.state.made).getLast? = some .cleared ∧
      "delegate" ∉ (p.state.state.field "_bar").properties := by
  decide +kernel

end DelegateSafety
