import Mathlib.Data.List.Induction
import DelegateSafety.Dangling.Check

/-! # What a scan records

The facts of a class say no more and no less than was observed (`tells_ofObservations`), and no two facts
say the same. A scan of all implementations keeps the facts of each under its name (`find?_scanAll`).
-/
namespace DelegateSafety

/-- Maps with the same keys, and the same values where a missing one is filled in, are the same. -/
theorem NameMap.ext_getD {α : Type} {m n : NameMap α} {start : α}
    (hContains : ∀ key, m.contains key = n.contains key)
    (hGetD : ∀ key, (m.find? key).getD start = (n.find? key).getD start) : m = n := by
  refine ext_find? fun key => ?_
  have hHere := hContains key
  have hValue := hGetD key
  unfold contains at hHere
  generalize m.find? key = value, n.find? key = value' at hHere hValue
  cases value <;> cases value' <;> simp_all

/-! ## What facts tell -/

/-- The field whose object an observation is about. -/
def Observation.field? : Observation → Option String
  | property field _ | target field | observer field => some field
  | shared _ _ | pseudoInit _ | teardown => none

namespace ClassFacts

/-- What the facts say of the object in a field: nothing, unless there is an entry for it. -/
def signals (facts : ClassFacts) (field : String) : FieldFacts := (facts.field? field).getD .none

/-- The methods that are known to register `self` with a shared object. -/
def registering (facts : ClassFacts) (singleton : String) : NameSet :=
  (facts.sharedObservers.find? singleton).getD ∅

/-- The facts say what was observed and nothing else, and no entry is there for nothing. -/
structure Tells (facts : ClassFacts) (observed : Observation → Prop) : Prop where
  property : ∀ field property,
    property ∈ (facts.signals field).properties ↔ observed (.property field property)
  target : ∀ field, (facts.signals field).mayTargetSelf = true ↔ observed (.target field)
  observer : ∀ field, (facts.signals field).mayObserveSelf = true ↔ observed (.observer field)
  entry : ∀ field, facts.isInteresting field = true ↔
    (∃ property, property ∈ (facts.signals field).properties) ∨
      (facts.signals field).mayTargetSelf = true ∨ (facts.signals field).mayObserveSelf = true
  shared : ∀ singleton method,
    method ∈ facts.registering singleton ↔ observed (.shared singleton method)
  sharedEntry : ∀ singleton, facts.sharedObservers.contains singleton = true ↔
    ∃ method, method ∈ facts.registering singleton
  pseudoInit : ∀ selector, selector ∈ facts.pseudoInits ↔ observed (.pseudoInit selector)
  teardown : facts.hasTeardown = true ↔ observed .teardown

/-- The facts say that a property of a field's object may hold `self`. -/
def Records (facts : ClassFacts) (field property : String) : Prop :=
  ∃ fieldFacts, facts.field? field = some fieldFacts ∧ property ∈ fieldFacts.properties

variable {facts facts' : ClassFacts} {observed : Observation → Prop} {field property : String}

theorem records_iff : facts.Records field property ↔ property ∈ (facts.signals field).properties := by
  unfold Records signals
  cases facts.field? field <;> simp [FieldFacts.none]

@[simp] theorem signals_updateField (name : String) (f : FieldFacts → FieldFacts) :
    (facts.updateField name f).signals field =
      if field = name then f (facts.signals name) else facts.signals field := by
  unfold signals
  rw [field?, updateField, NameMap.find?_insert]
  split <;> rfl

@[simp] theorem isInteresting_updateField (name : String) (f : FieldFacts → FieldFacts) :
    (facts.updateField name f).isInteresting field = true ↔
      field = name ∨ facts.isInteresting field = true := by
  unfold isInteresting updateField
  by_cases hName : field = name <;> simp [NameMap.contains, hName]

theorem tells_empty : empty.Tells fun _ => False := by
  constructor <;>
    simp [empty, signals, registering, field?, isInteresting, FieldFacts.none, NameMap.contains]

/-- An observation about the object in a field changes what is said of that object only. -/
theorem Tells.updateField (h : facts.Tells observed) {o : Observation} {name : String}
    (hField : o.field? = some name) {f : FieldFacts → FieldFacts}
    (hProperty : ∀ x p, p ∈ (f x).properties ↔ p ∈ x.properties ∨ .property name p = o)
    (hTarget : ∀ x, (f x).mayTargetSelf = true ↔ x.mayTargetSelf = true ∨ .target name = o)
    (hObserver : ∀ x, (f x).mayObserveSelf = true ↔ x.mayObserveSelf = true ∨ .observer name = o) :
    (facts.updateField name f).Tells fun other => observed other ∨ other = o := by
  have hApart : ∀ other : Observation, other.field? ≠ some name → other ≠ o :=
    fun other hOther hSame => hOther (hSame ▸ hField)
  have hOther : ∀ {field}, field ≠ name → ¬ some field = some name := fun hName hSame =>
    hName (Option.some.inj hSame)
  constructor
  case property =>
    intro field p
    by_cases hName : field = name
    · simp [hName, hProperty, h.property]
    · simp [hName, h.property, hApart (.property field p) (hOther hName)]
  case target =>
    intro field
    by_cases hName : field = name
    · simp [hName, hTarget, h.target]
    · simp [hName, h.target, hApart (.target field) (hOther hName)]
  case observer =>
    intro field
    by_cases hName : field = name
    · simp [hName, hObserver, h.observer]
    · simp [hName, h.observer, hApart (.observer field) (hOther hName)]
  case entry =>
    intro field
    by_cases hName : field = name
    · have hSignal : (∃ p, .property name p = o) ∨ .target name = o ∨ .observer name = o := by
        cases o <;> simp_all [Observation.field?]
      simp only [isInteresting_updateField, signals_updateField, hName, if_true, true_or, true_iff,
        hProperty, hTarget, hObserver, exists_or]
      tauto
    · simp [hName, h.entry]
  case shared =>
    intro singleton method
    rw [or_iff_left (hApart (.shared singleton method) nofun)]
    exact h.shared singleton method
  case sharedEntry => exact h.sharedEntry
  case pseudoInit =>
    intro selector
    rw [or_iff_left (hApart (.pseudoInit selector) nofun)]
    exact h.pseudoInit selector
  case teardown =>
    rw [or_iff_left (hApart .teardown nofun)]
    exact h.teardown

theorem Tells.record (h : facts.Tells observed) (o : Observation) :
    (facts.record o).Tells fun other => observed other ∨ other = o := by
  cases o with
  | property name p =>
    rw [ClassFacts.record]
    exact h.updateField rfl (fun x q => by simp [or_comm]) (fun x => by simp) fun x => by simp
  | target name =>
    rw [ClassFacts.record]
    exact h.updateField rfl (fun x q => by simp) (fun x => by simp) fun x => by simp
  | observer name =>
    rw [ClassFacts.record]
    exact h.updateField rfl (fun x q => by simp) (fun x => by simp) fun x => by simp
  | shared singleton method =>
    have hRegistering : ∀ other, (facts.record (.shared singleton method)).registering other =
        if other = singleton then (facts.registering singleton).insert method
        else facts.registering other := by
      intro other
      rw [ClassFacts.record, registering, NameMap.find?_insert]
      split <;> rfl
    constructor
    case shared =>
      intro other m
      rw [hRegistering]
      by_cases hSame : other = singleton
      · simp [hSame, h.shared, or_comm]
      · simp [hSame, h.shared]
    case sharedEntry =>
      intro other
      rw [hRegistering, ClassFacts.record, NameMap.contains, NameMap.find?_insert]
      by_cases hSame : other = singleton
      · simp [hSame]
      · simpa [hSame, NameMap.contains] using h.sharedEntry other
    case property => exact fun field p => (h.property field p).trans (by simp)
    case target => exact fun field => (h.target field).trans (by simp)
    case observer => exact fun field => (h.observer field).trans (by simp)
    case entry => exact h.entry
    case pseudoInit => exact fun selector => (h.pseudoInit selector).trans (by simp)
    case teardown => exact h.teardown.trans (by simp)
  | pseudoInit name =>
    constructor
    case pseudoInit =>
      intro selector
      rw [ClassFacts.record, NameSet.mem_insert, h.pseudoInit]
      simp [or_comm]
    case property => exact fun field p => (h.property field p).trans (by simp)
    case target => exact fun field => (h.target field).trans (by simp)
    case observer => exact fun field => (h.observer field).trans (by simp)
    case entry => exact h.entry
    case shared => exact fun singleton method => (h.shared singleton method).trans (by simp)
    case sharedEntry => exact h.sharedEntry
    case teardown => exact h.teardown.trans (by simp)
  | teardown =>
    constructor
    case teardown => simp [ClassFacts.record]
    case property => exact fun field p => (h.property field p).trans (by simp)
    case target => exact fun field => (h.target field).trans (by simp)
    case observer => exact fun field => (h.observer field).trans (by simp)
    case entry => exact h.entry
    case shared => exact fun singleton method => (h.shared singleton method).trans (by simp)
    case sharedEntry => exact h.sharedEntry
    case pseudoInit => exact fun selector => (h.pseudoInit selector).trans (by simp)

/-- Facts are what has been observed. -/
theorem tells_ofObservations (observations : List Observation) :
    (ofObservations observations).Tells (· ∈ observations) := by
  induction observations using List.reverseRecOn with
  | nil => simpa [ofObservations] using tells_empty
  | append_singleton rest o ih => simpa [ofObservations, List.foldl_append] using ih.record o

/-- No two different facts tell the same. -/
theorem Tells.unique (h : facts.Tells observed) (h' : facts'.Tells observed) : facts = facts' := by
  have hSignals : ∀ field, facts.signals field = facts'.signals field := by
    intro field
    have hProperties : (facts.signals field).properties = (facts'.signals field).properties :=
      NameSet.ext_mem fun p => (h.property field p).trans (h'.property field p).symm
    have hTarget := Bool.eq_iff_iff.mpr ((h.target field).trans (h'.target field).symm)
    have hObserver := Bool.eq_iff_iff.mpr ((h.observer field).trans (h'.observer field).symm)
    exact (FieldFacts.mk.injEq ..).mpr ⟨hProperties, hTarget, hObserver⟩
  have hRegistering : ∀ singleton, facts.registering singleton = facts'.registering singleton :=
    fun singleton => NameSet.ext_mem fun method =>
      (h.shared singleton method).trans (h'.shared singleton method).symm
  have hFields : facts.fields = facts'.fields := by
    refine NameMap.ext_getD (fun field => Bool.eq_iff_iff.mpr ?_) hSignals
    rw [← isInteresting, ← isInteresting, h.entry, h'.entry, hSignals]
  have hShared : facts.sharedObservers = facts'.sharedObservers := by
    refine NameMap.ext_getD (fun singleton => Bool.eq_iff_iff.mpr ?_) hRegistering
    rw [h.sharedEntry, h'.sharedEntry, hRegistering]
  have hPseudoInits : facts.pseudoInits = facts'.pseudoInits :=
    NameSet.ext_mem fun selector => (h.pseudoInit selector).trans (h'.pseudoInit selector).symm
  have hTeardown := Bool.eq_iff_iff.mpr (h.teardown.trans h'.teardown.symm)
  exact (ClassFacts.mk.injEq ..).mpr ⟨hFields, hPseudoInits, hTeardown, hShared⟩

/-- It does not matter in which order things are observed nor how often. -/
theorem ofObservations_eq_of_mem_iff {os os' : List Observation} (h : ∀ o, o ∈ os ↔ o ∈ os') :
    ofObservations os = ofObservations os' := by
  have hTells := tells_ofObservations os'
  simp only [← h] at hTells
  exact (tells_ofObservations os).unique hTells

theorem records_ofObservations {observations : List Observation} :
    (ofObservations observations).Records field property ↔
      .property field property ∈ observations :=
  records_iff.trans ((tells_ofObservations observations).property field property)

end ClassFacts

/-! ## One method -/

section

variable {scope : ClassScope} {config : DelegateConfig} {field property : String}

/-- A send that stores `self` into a property without ownership of the object in a field. -/
structure StoresSelf (scope : ClassScope) (m : Message Expr) (field property : String) : Prop where
  receiver : m.target?.bind scope.fieldOf? = some field
  passesSelf : m.passesSelf = true
  setter : (scope.unsafeSetter? m).map (·.name) = some property

theorem observeSend_cases {method : String} {m : Message Expr} {o : Observation}
    (h : observeSend scope config method m = some o) :
    ∃ receiver, m.target? = some receiver ∧ m.passesSelf = true ∧
      ((∃ field, scope.fieldOf? receiver = some field ∧
          ((∃ property, scope.unsafeSetter? m = some property ∧ o = .property field property.name) ∨
            scope.unsafeSetter? m = none ∧
              (beginsWith m.selector config.addTarget = true ∧ o = .target field ∨
                beginsWith m.selector config.addTarget = false ∧
                  beginsWith m.selector config.addObserver = true ∧ o = .observer field))) ∨
        scope.fieldOf? receiver = none ∧ beginsWith m.selector config.addObserver = true ∧
          ∃ singleton, singletonOf? config.singletonAccessors receiver = some singleton ∧
            o = .shared singleton method) := by
  obtain ⟨receiver, hReceiver, h⟩ := Option.bind_eq_some_iff.mp h
  obtain ⟨hSelf, h⟩ := Option.ite_none_right_eq_some.mp h
  refine ⟨receiver, hReceiver, hSelf, ?_⟩
  cases hField : scope.fieldOf? receiver with
  | none =>
    simp only [hField] at h
    obtain ⟨hObserver, h⟩ := Option.ite_none_right_eq_some.mp h
    obtain ⟨singleton, hSingleton, rfl⟩ := Option.map_eq_some_iff.mp h
    exact .inr ⟨rfl, hObserver, singleton, hSingleton, rfl⟩
  | some field =>
    refine .inl ⟨field, rfl, ?_⟩
    cases hSetter : scope.unsafeSetter? m with
    | some property =>
      simp only [hField, hSetter, Option.some.injEq] at h
      exact .inl ⟨property, rfl, h.symm⟩
    | none =>
      simp only [hField, hSetter] at h
      refine .inr ⟨rfl, ?_⟩
      cases hTarget : beginsWith m.selector config.addTarget with
      | true =>
        rw [if_pos hTarget] at h
        exact .inl ⟨rfl, (Option.some.inj h).symm⟩
      | false =>
        rw [if_neg (Bool.eq_false_iff.mp hTarget)] at h
        obtain ⟨hObserver, h⟩ := Option.ite_none_right_eq_some.mp h
        exact .inr ⟨rfl, hObserver, (Option.some.inj h).symm⟩

theorem observeSend_eq_property_iff {m : Message Expr} (method : String) :
    observeSend scope config method m = some (.property field property) ↔
      StoresSelf scope m field property := by
  constructor
  · intro h
    obtain ⟨receiver, hReceiver, hSelf, hKind⟩ := observeSend_cases h
    rcases hKind with ⟨name, hField, ⟨setter, hSetter, hEq⟩ | ⟨-, hRegister⟩⟩ | ⟨-, -, _, -, hEq⟩
    · cases hEq
      exact ⟨by rw [hReceiver]; exact hField, hSelf, by rw [hSetter]; rfl⟩
    · rcases hRegister with ⟨-, hEq⟩ | ⟨-, -, hEq⟩ <;> cases hEq
    · cases hEq
  · intro h
    obtain ⟨receiver, hReceiver, hField⟩ := Option.bind_eq_some_iff.mp h.receiver
    obtain ⟨setter, hSetter, rfl⟩ := Option.map_eq_some_iff.mp h.setter
    simp [observeSend, hReceiver, hField, h.passesSelf, hSetter]

theorem not_method_of_observeSend {method : String} {m : Message Expr} {o : Observation}
    (h : observeSend scope config method m = some o) :
    o ≠ .teardown ∧ ∀ selector, o ≠ .pseudoInit selector := by
  obtain ⟨receiver, -, -, hKind⟩ := observeSend_cases h
  rcases hKind with ⟨name, -, ⟨setter, -, rfl⟩ | ⟨-, ⟨-, rfl⟩ | ⟨-, -, rfl⟩⟩⟩ | ⟨-, -, _, -, rfl⟩ <;>
    exact ⟨nofun, nofun⟩

theorem mem_observeMethod_iff {method : MethodDecl} {o : Observation} :
    o ∈ observeMethod scope config method ↔
      method.selector = config.teardownMethod ∧ o = .teardown ∨
      config.roleOf method.selector ≠ .regular ∧ o = .pseudoInit method.selector ∨
      config.roleOf method.selector ≠ .pseudoInit ∧
        ∃ m r, .send m r ∈ method.body.elim [] Stmt.allExprs ∧
          observeSend scope config method.selector m = some o := by
  have hSends : o ∈ (method.body.elim [] Stmt.allExprs).filterMap
      (observeExpr scope config method.selector) ↔
      ∃ m r, .send m r ∈ method.body.elim [] Stmt.allExprs ∧
        observeSend scope config method.selector m = some o := by
    rw [List.mem_filterMap]
    constructor
    · rintro ⟨e, he, hSend⟩
      cases e with
      | send m r => exact ⟨m, r, he, hSend⟩
      | _ => cases hSend
    · rintro ⟨m, r, hMem, hSend⟩
      exact ⟨_, hMem, hSend⟩
  rw [observeMethod, List.mem_append, List.mem_append, or_assoc, ← hSends]
  refine or_congr ?_ (or_congr ?_ ?_) <;> split <;> simp_all

/-- A method that is not set-up code stores `self`, anywhere in its body, into a property without
ownership of the object in a field. -/
def ImplementationDecl.Stores (scope : ClassScope) (config : DelegateConfig)
    (decl : ImplementationDecl) (field property : String) : Prop :=
  ∃ method ∈ decl.methods, config.roleOf method.selector ≠ .pseudoInit ∧
    ∃ m r, .send m r ∈ method.body.elim [] Stmt.allExprs ∧ StoresSelf scope m field property

theorem property_mem_observeMethod_iff (method : MethodDecl) :
    .property field property ∈ observeMethod scope config method ↔
      config.roleOf method.selector ≠ .pseudoInit ∧
        ∃ m r, .send m r ∈ method.body.elim [] Stmt.allExprs ∧ StoresSelf scope m field property := by
  rw [mem_observeMethod_iff]
  simp only [observeSend_eq_property_iff, reduceCtorEq, and_false, false_or]

/-- The facts of a class are about the stores in its methods and about nothing else. -/
theorem records_classFacts_iff {decl : ImplementationDecl} :
    (classFacts scope config decl).Records field property ↔
      decl.Stores scope config field property := by
  rw [classFacts, ClassFacts.records_ofObservations, List.mem_flatMap]
  exact exists_congr fun method => and_congr_right fun _ => property_mem_observeMethod_iff method

end

/-! ## All implementations -/

section

variable {config : DelegateConfig} {subject : Subject} {known : FactsByClass}

/-- The first implementation of a name is taken note of, unless the name is empty. -/
theorem find?_scanOne (d : ImplementationDecl) (name : String) :
    ((danglingDelegateCheck config).scanOne subject known d).1.find? name =
      if d.name = name ∧ name ≠ "" ∧ known.find? name = none then
        some (classFacts ⟨subject.unit, name⟩ config d)
      else known.find? name := by
  simp only [UnitCheck.scanOne, danglingDelegateCheck, scanClass]
  by_cases hEmpty : d.name = ""
  · rw [if_pos hEmpty, if_neg]
    rintro ⟨rfl, hName, -⟩
    exact hName hEmpty
  · rw [if_neg hEmpty]
    cases hKnown : known.contains d.name with
    | true =>
      rw [if_pos rfl, if_neg]
      rintro ⟨rfl, -, hNone⟩
      simp [NameMap.contains, hNone] at hKnown
    | false =>
      rw [if_neg Bool.false_ne_true]
      simp only [FactsByClass.insertIfAbsent, hKnown, Bool.false_eq_true, if_false]
      rw [NameMap.find?_insert]
      by_cases hName : name = d.name
      · subst hName
        have hNone : known.find? d.name = none := by
          rwa [NameMap.contains, Option.isSome_eq_false_iff, Option.isNone_iff_eq_none] at hKnown
        simp [hEmpty, hNone]
      · rw [if_neg hName, if_neg]
        exact fun h => hName h.1.symm

/-- What is known already stays, and of several implementations of a name the first one counts. -/
theorem find?_scanAll {name : String} (hName : name ≠ "") (decls : List ImplementationDecl) :
    ((danglingDelegateCheck config).scanAll subject known decls).1.find? name =
      (known.find? name).or ((decls.find? (·.name == name)).map
        (classFacts ⟨subject.unit, name⟩ config)) := by
  induction decls generalizing known with
  | nil => exact Option.or_none.symm
  | cons d rest ih =>
    simp only [UnitCheck.scanAll]
    rw [ih, find?_scanOne]
    by_cases hSame : d.name = name
    · rw [List.find?_cons_of_pos (by simpa using hSame)]
      cases hKnown : known.find? name <;> simp [hSame, hName]
    · rw [List.find?_cons_of_neg (by simpa using hSame), if_neg fun h => hSame h.1]

theorem find?_scanAll_empty (decls : List ImplementationDecl) :
    ((danglingDelegateCheck config).scanAll subject known decls).1.find? "" = known.find? "" := by
  induction decls generalizing known with
  | nil => rfl
  | cons d rest ih =>
    simp only [UnitCheck.scanAll]
    rw [ih, find?_scanOne, if_neg fun h => h.2.1 rfl]

/-- What is known of all classes once every implementation has been scanned. -/
def scannedFacts (config : DelegateConfig) (subject : Subject) : FactsByClass :=
  ((danglingDelegateCheck config).scanAll subject (danglingDelegateCheck config).session
    subject.unit.implementations).1

theorem find?_scannedFacts_eq_some_iff {name : String} {facts : ClassFacts} :
    (scannedFacts config subject).find? name = some facts ↔
      name ≠ "" ∧ ∃ decl, subject.unit.implementations.find? (·.name == name) = some decl ∧
        classFacts ⟨subject.unit, name⟩ config decl = facts := by
  by_cases hName : name = ""
  · subst hName
    rw [scannedFacts, find?_scanAll_empty]
    simp [danglingDelegateCheck]
  · rw [scannedFacts, find?_scanAll hName, and_iff_right hName, ← Option.map_eq_some_iff]
    rfl

theorem find?_scannedFacts {decl : ImplementationDecl} (hName : decl.name ≠ "")
    (hDecl : decl ∈ subject.unit.implementations)
    (hOnly : ∀ other ∈ subject.unit.implementations, other.name = decl.name → other = decl) :
    (scannedFacts config subject).find? decl.name =
      some (classFacts ⟨subject.unit, decl.name⟩ config decl) := by
  have hSome : (subject.unit.implementations.find? (·.name == decl.name)).isSome = true :=
    List.find?_isSome.mpr ⟨decl, hDecl, beq_self_eq_true _⟩
  obtain ⟨first, hFirst⟩ := Option.isSome_iff_exists.mp hSome
  have hSame : first = decl :=
    hOnly first (List.mem_of_find?_eq_some hFirst) (by simpa using List.find?_some hFirst)
  exact find?_scannedFacts_eq_some_iff.mpr ⟨hName, decl, hSame ▸ hFirst, rfl⟩

end

end DelegateSafety
