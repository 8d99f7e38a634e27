import DelegateSafety.Proofs.Filing
import DelegateSafety.Proofs.GuardMeaning
import DelegateSafety.Proofs.Merging

/-! # What the state of a path holds

A path has entries only for fields that are of interest to its class. Clearings are taken down without asking
what the facts know of the property, so an entry may also name a property that `self` is never stored into;
the path has cleared it on its own then (`ClearedAlone`). That makes no difference: a check that forgets after
each call what the facts do not know makes the same exploration (`explore_forgetting`).
-/
namespace DelegateSafety

variable {σ ρ : Type}

/-! ## Forgetting -/

/-- The check that goes on from what is left of its state after each call. -/
def PathCheck.forgetting (check : PathCheck σ ρ) (forget : σ → σ) : PathCheck σ ρ where
  start := forget check.start
  beforeEffect site s e := (check.beforeEffect site s e).map forget id
  afterSend site s event := (check.afterSend site s event).map forget id
  assume subject s cond truth := forget (check.assume subject s cond truth)
  atEnd site s := (check.atEnd site s).map forget id

/-- What is forgotten has no part in what a check does later on. -/
structure PathCheck.Ignores (check : PathCheck σ ρ) (frame : Frame) (forget : σ → σ) : Prop where
  forget_forget : ∀ s, forget (forget s) = forget s
  state : ∀ {inside : Expr → Prop} {call : Callback} {s t}, call.Fits frame inside → forget s = forget t →
    forget (check.answer call s).1 = forget (check.answer call t).1
  filed : ∀ {inside : Expr → Prop} {call : Callback} {s t}, call.Fits frame inside → forget s = forget t →
    (check.answer call s).2 = (check.answer call t).2

namespace PathCheck.Ignores

variable {check : PathCheck σ ρ} {frame : Frame} {forget : σ → σ}

theorem replay_forgetting (h : check.Ignores frame forget) {inside : Expr → Prop} {made : List Callback}
    (hHistory : History frame inside made) :
    (check.forgetting forget).replay made = forget (check.replay made) := by
  induction made using List.reverseRecOn with
  | nil => rfl
  | append_singleton before call ih =>
    have hFits := hHistory.fits call (List.mem_append_right _ List.mem_cons_self)
    have hAnswer : ((check.forgetting forget).answer call (forget (check.replay before))).1 =
        forget (check.answer call (forget (check.replay before))).1 := by
      cases call <;> rfl
    rw [PathCheck.replay_concat, PathCheck.replay_concat,
      ih (hHistory.of_isPrefix (List.prefix_append _ _)), hAnswer]
    exact h.state hFits (h.forget_forget _)

theorem explore_forgetting (h : check.Ignores frame forget) (limits : Limits) :
    explore frame limits (check.forgetting forget) = explore frame limits check := by
  have hAnswer : ∀ {s t : σ} (call : Callback), call.Fits frame (fun _ => True) → forget s = forget t →
      forget (forget (check.answer call s).1) = forget (check.answer call t).1 ∧
        (check.answer call s).2 = (check.answer call t).2 := by
    intro s t call hFits hSame
    rw [h.forget_forget]
    exact ⟨h.state hFits hSame, h.filed hFits hSame⟩
  -- States correspond if they are the same but for what is forgotten.
  have hLockstep : Lockstep frame (fun _ => True) (check.forgetting forget) check
      (fun s t => forget s = forget t) (fun s t => forget s = forget t) Eq := {
    nil := rfl
    append := by
      rintro _ _ _ _ rfl rfl
      rfl
    fresh := id
    start := h.forget_forget _
    beforeEffect := fun n store e _ => hAnswer (.beforeEffect ⟨frame, n, store⟩ e) ⟨rfl, trivial⟩
    afterSend := fun n store m r receiver args _ =>
      hAnswer (.afterSend ⟨frame, n, store⟩ ⟨.send m r, m, receiver, args, frame.scope.definition? m⟩)
        ⟨rfl, trivial, ⟨r, rfl⟩, rfl⟩
    assumed := fun cond truth _ hSame => (hAnswer (.assume frame.subject cond truth) ⟨rfl, trivial⟩ hSame).1
    atEnd := fun n store hSame => (hAnswer (.atEnd ⟨frame, n, store⟩) rfl hSame).2 }
  exact hLockstep.explore_eq limits fun _ _ _ _ => trivial

end PathCheck.Ignores

/-! ## What the facts know of a state -/

def Cleared.within (c : Cleared) (fieldFacts : FieldFacts) : Cleared :=
  { c with properties := c.properties.inter fieldFacts.properties }

/-- What is left of a state when all that the facts do not know is forgotten. -/
def DelegateState.within (s : DelegateState) (facts : ClassFacts) : DelegateState :=
  { s with fields := s.fields.intersectWith Cleared.within facts.fields }

/-- All entries are for fields of interest, and what they have cleared is recorded of these fields, but for
what is stated. -/
structure DelegateState.HoldsOnly (facts : ClassFacts) (others : String → String → Prop)
    (s : DelegateState) : Prop where
  entries : ∀ field, s.fields.contains field = true → facts.isInteresting field = true
  cleared : ∀ field property, property ∈ (s.field field).properties →
    facts.Records field property ∨ others field property

section

variable {facts : ClassFacts} {s t : DelegateState} {field property : String} {fieldFacts : FieldFacts}

theorem Cleared.within_within (c : Cleared) : (c.within fieldFacts).within fieldFacts = c.within fieldFacts := by
  simp only [within, NameSet.inter_assoc, NameSet.inter_self]

theorem Cleared.within_nothing : nothing.within fieldFacts = nothing := by
  simp only [within, nothing, NameSet.empty_inter]

theorem Transition.effect_within (t : Transition) (c : Cleared) :
    (t.effect (c.within fieldFacts)).within fieldFacts = (t.effect c).within fieldFacts := by
  cases t with
  | clear field property =>
    have hProperties : ((c.properties.inter fieldFacts.properties).insert property).inter
        fieldFacts.properties = (c.properties.insert property).inter fieldFacts.properties :=
      NameSet.ext_mem fun name => by simp [or_and_right]
    simp only [effect, Cleared.clear, Cleared.within, hProperties]
  | unclear field property =>
    have hProperties : ((c.properties.inter fieldFacts.properties).erase property).inter
        fieldFacts.properties = (c.properties.erase property).inter fieldFacts.properties :=
      NameSet.ext_mem fun name => by simp [and_assoc]
    simp only [effect, Cleared.unclear, Cleared.within, hProperties]
  | clearTarget field => exact congrArg Cleared.clearTarget c.within_within
  | clearObserver field => exact congrArg Cleared.clearObserver c.within_within
  | clearAll field whole => rfl

namespace DelegateState

theorem find?_within (s : DelegateState) (facts : ClassFacts) (field : String) :
    (s.within facts).fields.find? field =
      (s.fields.find? field).bind fun c => (facts.field? field).map c.within :=
  NameMap.find?_intersectWith _ _ _ field

theorem field_within (hField : facts.field? field = some fieldFacts) (s : DelegateState) :
    (s.within facts).field field = (s.field field).within fieldFacts := by
  simp only [DelegateState.field, find?_within, hField, Option.map_some]
  cases s.fields.find? field with
  | none => exact Cleared.within_nothing.symm
  | some c => rfl

theorem within_within : (s.within facts).within facts = s.within facts := by
  refine ext_find? (fun field => ?_) rfl rfl
  rw [find?_within, find?_within]
  cases s.fields.find? field with
  | none => rfl
  | some c =>
    cases hField : facts.field? field with
    | none => rfl
    | some fieldFacts => exact congrArg some c.within_within

theorem mem_within : property ∈ ((s.within facts).field field).properties ↔
    facts.Records field property ∧ property ∈ (s.field field).properties := by
  cases hField : facts.field? field with
  | none =>
    have hAbsent : (s.within facts).fields.find? field = none := by simp [find?_within, hField]
    simp [DelegateState.field, hAbsent, Cleared.nothing, ClassFacts.Records, hField]
  | some fieldFacts =>
    rw [field_within hField]
    simp [Cleared.within, ClassFacts.Records, hField, and_comm]

theorem holdsOnly_within (s : DelegateState) (facts : ClassFacts) :
    (s.within facts).HoldsOnly facts fun _ _ => False where
  entries field hEntry := by
    rw [NameMap.contains, find?_within, Option.isSome_iff_exists] at hEntry
    obtain ⟨_, hEntry⟩ := hEntry
    obtain ⟨c, -, hField⟩ := Option.bind_eq_some_iff.mp hEntry
    obtain ⟨fieldFacts, hField, -⟩ := Option.map_eq_some_iff.mp hField
    exact isInteresting_of_field? hField
  cleared field property hProperty := .inl (mem_within.mp hProperty).1

/-! ## What is forgotten has no effect -/

theorem within_apply_within (s : DelegateState) (t : Transition) :
    (Transition.apply (s.within facts) t).within facts = (Transition.apply s t).within facts := by
  refine ext_find? (fun field => ?_) rfl rfl
  rw [find?_within, find?_within]
  simp only [Transition.apply, update, set, NameMap.find?_insert]
  cases hField : facts.field? field with
  | none => simp
  | some fieldFacts =>
    by_cases hHere : field = t.field
    · subst hHere
      simp only [if_true, Option.bind_some, Option.map_some, field_within hField, t.effect_within]
    · simp only [hHere, if_false, find?_within, hField]
      cases s.fields.find? field with
      | none => rfl
      | some c => exact congrArg some c.within_within

theorem within_apply (hSame : s.within facts = t.within facts) (transition : Transition) :
    (Transition.apply s transition).within facts = (Transition.apply t transition).within facts := by
  rw [← within_apply_within, hSame, within_apply_within]

theorem within_foldl_apply (hSame : s.within facts = t.within facts) (transitions : List Transition) :
    (transitions.foldl Transition.apply s).within facts =
      (transitions.foldl Transition.apply t).within facts := by
  induction transitions generalizing s t with
  | nil => exact hSame
  | cons transition rest ih => exact ih (within_apply hSame transition)

theorem isInitialized_eq_of_within (hSame : s.within facts = t.within facts) :
    s.isInitialized = t.isInitialized := by
  change (s.within facts).isInitialized = (t.within facts).isInitialized
  rw [hSame]

theorem currentClass_eq_of_within (hSame : s.within facts = t.within facts) :
    s.currentClass = t.currentClass := by
  change (s.within facts).currentClass = (t.within facts).currentClass
  rw [hSame]

theorem within_openPath (known? : Option ClassFacts) (site : Site)
    (hSame : s.within facts = t.within facts) :
    (openPath known? site s).within facts = (openPath known? site t).within facts := by
  have hBegin : (s.begin site.frame.className).within facts = (t.begin site.frame.className).within facts :=
    congrArg (DelegateState.begin · site.frame.className) hSame
  unfold openPath
  rw [isInitialized_eq_of_within hSame]
  split
  · exact hSame
  · split
    · rw [clearFields_eq, clearFields_eq]
      exact within_foldl_apply hBegin _
    · exact hBegin

end DelegateState

theorem Release.verify_eq_of_within (r : Release) (site : Site) (hSame : s.within facts = t.within facts) :
    r.verify facts site s = r.verify facts site t := by
  cases hField : facts.field? r.field with
  | none => rw [verify_eq_nil hField, verify_eq_nil hField]
  | some fieldFacts =>
    rw [verify_eq hField, verify_eq hField]
    refine congrArg (List.map _) (List.filter_congr fun property hProperty => ?_)
    have hRecords : facts.Records r.field property := ⟨fieldFacts, hField, NameSet.mem_toList.mp hProperty⟩
    have hAlike : property ∈ (s.field r.field).properties ↔ property ∈ (t.field r.field).properties := by
      have hLeft := @DelegateState.mem_within facts s r.field property
      rw [hSame, DelegateState.mem_within] at hLeft
      simpa [hRecords] using hLeft.symm
    exact decide_eq_decide.mpr (not_congr hAlike)

end

section

variable {config : DelegateConfig} {known : FactsByClass} {facts : ClassFacts} {frame : Frame}

/-- Nothing that the facts of the class do not know is ever read. -/
theorem ignores_unknown (config : DelegateConfig) (hKnown : known.find? frame.className = some facts) :
    (delegatePaths config known).Ignores frame (·.within facts) where
  forget_forget _ := DelegateState.within_within
  state {inside call s t} hFits hSame := by
    cases call with
    | beforeEffect site e => exact DelegateState.within_openPath _ site hSame
    | atEnd site => exact DelegateState.within_openPath _ site hSame
    | afterSend site event =>
      obtain ⟨rfl, -⟩ := hFits
      have hOpened := DelegateState.within_openPath (some facts) site hSame
      simp only [PathCheck.answer, delegatePaths, hKnown, Option.elim_some, checkSend_fst]
      cases sendTransition? config site.frame.scope facts event with
      | none => exact hOpened
      | some transition => exact DelegateState.within_apply hOpened transition
    | assume subject cond truth =>
      simp only [PathCheck.answer, delegatePaths, acceptBranch,
        DelegateState.currentClass_eq_of_within hSame]
      split
      · cases t.currentClass with
        | none => exact hSame
        | some className =>
          dsimp only
          cases known.find? className with
          | none => exact hSame
          | some others =>
            simp only [foldl_applyOutcome]
            exact DelegateState.within_foldl_apply hSame _
      · exact hSame
  filed {inside call s t} hFits hSame := by
    rw [filed_answer, filed_answer]
    cases hSite : call.site? with
    | none => rfl
    | some site =>
      obtain rfl := hFits.frame_eq hSite
      simp only [Option.elim_some, hKnown]
      exact List.flatMap_congr fun r _ =>
        r.verify_eq_of_within site (DelegateState.within_openPath _ site hSame)

end

/-! ## Where entries come from -/

/-- A call that clears one property of the object in a field and no other: the object is sent the setter of
the property with something else than `self`, or a guard that is trusted says that the property is not `self`. -/
def Callback.ClearsAlone (config : DelegateConfig) (scope : ClassScope) (facts : ClassFacts)
    (field property : String) : Callback → Prop
  | afterSend _ event => event.message.target?.bind scope.fieldOf? = some field ∧
      (scope.unsafeSetter? event.message).map (·.name) = some property ∧
      event.message.passesSelf = false ∧ isKnownNull config event.receiver = false
  | assume _ cond truth => config.assumeSafeBranch = true ∧
      .propertyCleared field property ∈ safeOutcomes scope facts truth cond
  | beforeEffect _ _ | atEnd _ => False

/-- A property without ownership, of the object in an interesting field, that one of some calls has cleared on
its own. -/
def ClearedAlone (config : DelegateConfig) (scope : ClassScope) (facts : ClassFacts) (made : List Callback)
    (field property : String) : Prop :=
  (SafeOutcome.propertyCleared field property).Concerns scope facts ∧
    ∃ call ∈ made, call.ClearsAlone config scope facts field property

/-- A transition is of an interesting field, and what it clears is all that is recorded of the field or else a
property as stated. -/
def Transition.Justified (facts : ClassFacts) (others : String → String → Prop) : Transition → Prop
  | clear field property => facts.isInteresting field = true ∧ others field property
  | unclear field _ | clearTarget field | clearObserver field => facts.isInteresting field = true
  | clearAll field fieldFacts => facts.field? field = some fieldFacts

section

variable {facts : ClassFacts} {others : String → String → Prop} {s : DelegateState}

theorem Transition.Justified.isInteresting {t : Transition} (h : t.Justified facts others) :
    facts.isInteresting t.field = true := by
  cases t with
  | clear field property => exact h.1
  | unclear field property | clearTarget field | clearObserver field => exact h
  | clearAll field fieldFacts => exact isInteresting_of_field? h

theorem DelegateState.HoldsOnly.apply (h : s.HoldsOnly facts others) {t : Transition}
    (ht : t.Justified facts others) : (Transition.apply s t).HoldsOnly facts others where
  entries field hEntry := by
    rw [NameMap.contains, Transition.apply, update, set, NameMap.find?_insert] at hEntry
    split at hEntry
    · rename_i hHere
      exact hHere ▸ ht.isInteresting
    · exact h.entries field hEntry
  cleared field property hProperty := by
    rw [Transition.apply, field_update] at hProperty
    split at hProperty
    · rename_i hHere
      subst hHere
      cases t with
      | clear field p =>
        rcases NameSet.mem_insert.mp hProperty with rfl | hBefore
        · exact .inr ht.2
        · exact h.cleared field property hBefore
      | unclear field p => exact h.cleared field property (NameSet.mem_erase.mp hProperty).2
      | clearTarget field | clearObserver field => exact h.cleared field property hProperty
      | clearAll field fieldFacts => exact .inl ⟨fieldFacts, ht, hProperty⟩
    · exact h.cleared field property hProperty

theorem DelegateState.HoldsOnly.foldl_apply {transitions : List Transition} (h : s.HoldsOnly facts others)
    (hAll : ∀ t ∈ transitions, t.Justified facts others) :
    (transitions.foldl Transition.apply s).HoldsOnly facts others := by
  induction transitions generalizing s with
  | nil => exact h
  | cons t rest ih =>
    obtain ⟨ht, hRest⟩ := List.forall_mem_cons.mp hAll
    exact ih (h.apply ht) hRest

theorem DelegateState.holdsOnly_begin (className : String) :
    (DelegateState.start.begin className).HoldsOnly facts others where
  entries field hEntry := by cases hEntry
  cleared field property hProperty := absurd hProperty (NameSet.not_mem_empty property)

end

/-- The property that a setter goes to is the one that its name goes to. -/
theorem SourceUnit.findProperty?_of_findPropertyBySetter? {unit : SourceUnit} {className selector : String}
    {property : PropertyDecl} (h : unit.findPropertyBySetter? className selector = some property) :
    unit.findProperty? className property.name = some property := by
  simp only [findPropertyBySetter?, findProperty?, InterfaceDecl.propertyBySetter?, InterfaceDecl.property?,
    ← List.find?_flatMap] at h ⊢
  obtain ⟨hSetter, before, after, hAll, hBefore⟩ := List.find?_eq_some_iff_append.mp h
  refine List.find?_eq_some_iff_append.mpr ⟨beq_self_eq_true _, before, after, hAll, fun other hOther => ?_⟩
  have hApart := hBefore other hOther
  -- Another property of that name would have the same setter.
  simp only [beq_iff_eq, Bool.not_eq_true', beq_eq_false_iff_ne] at hSetter hApart ⊢
  intro hName
  refine hApart ?_
  rw [← hSetter, PropertyDecl.setter, PropertyDecl.setter, hName]

section

variable {config : DelegateConfig} {scope : ClassScope} {facts : ClassFacts} {field : String}

theorem concerns_of_unsafeSetter? {m : Message Expr} {property : PropertyDecl}
    (hInteresting : facts.isInteresting field = true) (h : scope.unsafeSetter? m = some property) :
    (SafeOutcome.propertyCleared field property.name).Concerns scope facts := by
  obtain ⟨hSetter, hUnsafe⟩ := Option.filter_eq_some_iff.mp h
  obtain ⟨-, hSetter⟩ := Option.ite_none_right_eq_some.mp hSetter
  obtain ⟨className, -, hFound⟩ := Option.bind_eq_some_iff.mp hSetter
  exact ⟨hInteresting, className, property, SourceUnit.findProperty?_of_findPropertyBySetter? hFound, rfl,
    Ownership.isUnsafe_iff.mp hUnsafe⟩

/-- Every outcome of a condition is one that some expression has by being nil. -/
theorem exists_nullOutcome?_of_mem {truth : Bool} {cond : Expr} {o : SafeOutcome}
    (ho : o ∈ safeOutcomes scope facts truth cond) : ∃ e, nullOutcome? scope facts e = some o := by
  have hDelegate : ∀ {e}, interestingDelegate? scope facts e = some o → nullOutcome? scope facts e = some o :=
    fun h => Option.or_eq_some_iff.mpr (.inl h)
  fun_induction safeOutcomes scope facts truth cond with
  | case1 truth inner _ ih | case2 truth _ inner _ ih | case3 truth operand _ ih => exact ih ho
  | case4 truth op lhs rhs _ _ ihLhs ihRhs => exact (List.mem_append.mp ho).elim ihLhs ihRhs
  | case5 truth op lhs rhs _ _ _ _ =>
    obtain ⟨e, -, h⟩ := Option.bind_eq_some_iff.mp (Option.mem_toList.mp ho)
    exact ⟨e, h⟩
  | case6 truth op lhs rhs _ _ _ _ =>
    obtain ⟨e, -, h⟩ := Option.bind_eq_some_iff.mp (Option.mem_toList.mp ho)
    exact ⟨e, hDelegate h⟩
  | case7 | case8 => cases ho
  | case9 truth e _ _ _ _ _ => exact ⟨e, Option.mem_toList.mp ho⟩

/-! ## Transitions of a call -/

variable {made : List Callback}

theorem justified_openingTransitions {others : String → String → Prop} (selector : String) :
    ∀ t ∈ openingTransitions facts selector, t.Justified facts others := by
  intro t ht
  obtain ⟨name, whole, hWhole, rfl⟩ := exists_of_mem_openingTransitions ht
  exact hWhole

theorem justified_sendTransition {site : Site} {event : SendEvent} {t : Transition}
    (hMade : .afterSend site event ∈ made) (h : sendTransition? config scope facts event = some t) :
    t.Justified facts (ClearedAlone config scope facts made) := by
  rcases sendTransition?_cases h with ⟨name, whole, hWhole, rfl⟩ | ⟨name, hField, hInteresting, hNotNull, hSend⟩
  · exact hWhole
  · rcases fieldSendTransition?_cases hSend with ⟨property, hSetter, rfl⟩ | rfl | rfl
    · split
      · exact hInteresting
      · rename_i hOther
        exact ⟨hInteresting, concerns_of_unsafeSetter? hInteresting hSetter, _, hMade, hField,
          congrArg (Option.map (·.name)) hSetter, Bool.eq_false_iff.mpr hOther, hNotNull⟩
    · exact hInteresting
    · exact hInteresting

theorem justified_branchTransitions {subject : Subject} {cond : Expr} {truth : Bool}
    (hMade : .assume subject cond truth ∈ made) :
    ∀ t ∈ branchTransitions config scope facts cond truth,
      t.Justified facts (ClearedAlone config scope facts made) := by
  intro t ht
  rcases branchTransitions_cases ht with
    ⟨name, whole, hWhole, rfl⟩ | ⟨name, property, hTrusts, hOutcome, rfl⟩
  · exact hWhole
  · obtain ⟨e, hPart⟩ := exists_nullOutcome?_of_mem hOutcome
    have hConcerns := concerns_of_nullOutcome? hPart
    exact ⟨hConcerns.1, hConcerns, _, hMade, hTrusts, hOutcome⟩

theorem justified_pathTransitions {frame : Frame} (made : List Callback) :
    ∀ t ∈ pathTransitions config frame facts made,
      t.Justified facts (ClearedAlone config frame.scope facts made) := by
  intro t ht
  rcases List.mem_append.mp ht with ht | ht
  · exact justified_openingTransitions _ t ht
  · obtain ⟨call, hCall, ht⟩ := List.mem_flatMap.mp ht
    cases call with
    | beforeEffect site e => cases ht
    | atEnd site => cases ht
    | afterSend site event => exact justified_sendTransition hCall (Option.mem_toList.mp ht)
    | assume subject cond truth => exact justified_branchTransitions hCall t ht

end

/-! ## Every run -/

section

variable {config : DelegateConfig} {known : FactsByClass} {facts : ClassFacts} {frame : Frame}

theorem holdsOnly_replay (hKnown : known.find? frame.className = some facts) {inside : Expr → Prop}
    {made : List Callback} (hHistory : History frame inside made) :
    ((delegatePaths config known).replay made).HoldsOnly facts
      (ClearedAlone config frame.scope facts made) := by
  by_cases hMade : made = []
  · subst hMade
    exact ⟨nofun, fun field property hProperty => absurd hProperty (NameSet.not_mem_empty property)⟩
  · rw [replay_delegatePaths hKnown hHistory hMade]
    exact (DelegateState.holdsOnly_begin frame.className).foldl_apply (justified_pathTransitions made)

/-- After every call of every explored path, its state has entries for interesting fields only, and what they
have cleared is recorded of these fields or is a property without ownership that the path has cleared on its
own. The latter might as well be forgotten after each call: the exploration is the same, and nothing but what is
recorded is held then. -/
theorem states_hold_what_is_known (hKnown : known.find? frame.className = some facts) (limits : Limits) :
    let check := delegatePaths config known
    let forgetful := check.forgetting (·.within facts)
    explore frame limits forgetful = explore frame limits check ∧
    ∀ p ∈ (explore frame limits check.traced).reports,
      p.state.state = check.replay p.state.made ∧
      ∀ before, before <+: p.state.made →
        (check.replay before).HoldsOnly facts (ClearedAlone config frame.scope facts before) ∧
        forgetful.replay before = (check.replay before).within facts ∧
        (forgetful.replay before).HoldsOnly facts fun _ _ => False := by
  intro check forgetful
  have hIgnores : check.Ignores frame (·.within facts) := ignores_unknown config hKnown
  refine ⟨hIgnores.explore_forgetting limits, fun p hp => ?_⟩
  have hExplained := explained_of_mem_traced frame limits check hp
  refine ⟨hExplained.state, fun before hBefore => ?_⟩
  have hHistory := hExplained.history.of_isPrefix hBefore
  have hForgetful : forgetful.replay before = (check.replay before).within facts :=
    hIgnores.replay_forgetting hHistory
  refine ⟨holdsOnly_replay hKnown hHistory, hForgetful, ?_⟩
  rw [hForgetful]
  exact (check.replay before).holdsOnly_within facts

end

namespace Sample

/-- `self` is stored as the delegate in `init`. In `dealloc` another property is cleared. -/
def otherPropertyCleared : SourceUnit :=
  let bar : Expr := .field "_bar" .unknown
  delegatePair [
    method "init" [.expr (setProperty bar "delegate" (.self .unknown))],
    method "dealloc" [.expr (setProperty bar "dataSource" (.nil .unknown))]]

end Sample

open Sample in
/-- The path of `dealloc` has cleared the other property on its own. -/
theorem other_property_is_held :
    let unit := otherPropertyCleared
    let check := delegatePaths .default (knownFacts unit)
    let forgetful := check.forgetting (·.within (fooFacts unit))
    (knownFacts unit).find? "Foo" = some (fooFacts unit) ∧
    ∃ p ∈ (explore (fooFrame unit 1) ⟨512, 2⟩ check.traced).reports,
      "dataSource" ∈ (p.state.state.field "_bar").properties ∧
      p.state.state.HoldsOnly (fooFacts unit)
        (ClearedAlone .default (fooFrame unit 1).scope (fooFacts unit) p.state.made) ∧
      (forgetful.replay p.state.made).HoldsOnly (fooFacts unit) fun _ _ => False := by
  intro unit check forgetful
  have hKnown : (knownFacts unit).find? "Foo" = some (fooFacts unit) := by decide +kernel
  have hShown : ∃ p ∈ (explore (fooFrame unit 1) ⟨512, 2⟩ check.traced).reports,
      "dataSource" ∈ (p.state.state.field "_bar").properties := by decide +kernel
  obtain ⟨p, hp, hHeld⟩ := hShown
  obtain ⟨-, hStates⟩ := @states_hold_what_is_known .default _ _ (fooFrame unit 1) hKnown ⟨512, 2⟩
  obtain ⟨hState, hBefore⟩ := hStates p hp
  obtain ⟨hHolds, -, hForgetful⟩ := hBefore p.state.made (List.prefix_refl _)
  refine ⟨hKnown, p, hp, hHeld, ?_, hForgetful⟩
  rw [hState]
  exact hHolds

open Sample in
/-- Nothing is recorded of the other property. -/
theorem unrecorded_property_is_held :
    let unit := otherPropertyCleared
    ∃ p ∈ (explore (fooFrame unit 1) ⟨512, 2⟩ (delegatePaths .default (knownFacts unit)).traced).reports,
      ¬ p.state.state.HoldsOnly (fooFacts unit) fun _ _ => False := by
  intro unit
  have hShown : ∃ p ∈ (explore (fooFrame unit 1) ⟨512, 2⟩
      (delegatePaths .default (knownFacts unit)).traced).reports,
      "dataSource" ∈ (p.state.state.field "_bar").properties := by decide +kernel
  obtain ⟨p, hp, hHeld⟩ := hShown
  refine ⟨p, hp, fun hOnly => ?_⟩
  rcases hOnly.cleared "_bar" "dataSource" hHeld with hRecords | hNone
  · have hRecorded : "dataSource" ∉ ((fooFacts unit).signals "_bar").properties := by decide +kernel
    exact hRecorded (ClassFacts.records_iff.mp hRecords)
  · exact hNone

end DelegateSafety
