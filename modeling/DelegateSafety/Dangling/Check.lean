import DelegateSafety.Dangling.Guard
import DelegateSafety.Dangling.Report
import DelegateSafety.Dangling.Scan
import DelegateSafety.Exploration.Unit

/-! # Dangling delegates

An object stores `self` into a property without ownership of an object that it holds in a field, and
goes away without clearing it: the other object is left pointing at freed memory. A scan finds out
which fields are concerned. Then each path is followed, and whenever the object in such a field is
let go, what the path has not cleared is reported.
-/
namespace DelegateSafety

def danglingDelegateName : String := "memory.DanglingDelegate"

variable (config : DelegateConfig)

/-- The first callback of a path takes note of the class and, in set-up code, takes everything as
cleared. -/
def openPath (facts : Option ClassFacts) (site : Site) (s : DelegateState) : DelegateState :=
  if s.isInitialized then s
  else
    let s := s.begin site.frame.className
    match facts.filter (·.isPseudoInit site.frame.method.selector) with
    | some facts => s.clearFields facts.fields.entries
    | none => s

def Site.report (site : Site) (range : SourceRange) (message : String) : Diagnostic where
  checker := danglingDelegateName
  title := leakingSelf.title
  category := leakingSelf.category
  message := message
  file := site.frame.subject.unit.path
  range := range
  context := .path site.frame.className site.frame.method.selector site.path

/-- Reports every property of a field's object that may hold `self` and is not cleared. -/
def verifyField (facts : ClassFacts) (site : Site) (s : DelegateState) (field : String)
    (decl : Option String) (range : SourceRange) : List Diagnostic :=
  (facts.field? field).elim [] fun fieldFacts =>
    (leftoverMessages fieldFacts.properties (s.field field).properties field
      ((site.frame.scope.field? field).map (·.type)) decl).map (site.report range)

/-- Whether a value needs no verification when it is let go. -/
def isKnownNull (value : Nullness) : Bool := config.suppressIfNull && value.isNull

def assignedField? (scope : ClassScope) : Expr → Option String
  | .assign target _ _ =>
    match target.strip with
    | .field name _ =>
      if (scope.field? name).any fun decl => decl.type.className?.isSome then some name else none
    | _ => none
  | _ => none

/-- A direct write lets the old object go. -/
def checkAssignment (facts : ClassFacts) (site : Site) (s : DelegateState) (e : Expr) :
    List Diagnostic :=
  if site.frame.subject.lang.autoReleaseFields then
    (assignedField? site.frame.scope e).elim [] fun field =>
      if isKnownNull config (site.store.lookup (.field field)) then []
      else verifyField facts site s field none e.range
  else []

/-- A write through an accessor of `self`. A setter whose body is not known lets the old object go,
and nil leaves nothing in the field that could dangle. -/
def checkSelfSetter (facts : ClassFacts) (site : Site) (s : DelegateState) (property : PropertyDecl)
    (event : SendEvent) : DelegateState × List Diagnostic :=
  match property.backingField with
  | none => (s, [])
  | some field =>
    let reports :=
      if event.hasKnownBody then [] else verifyField facts site s field none event.expr.range
    match facts.field? field with
    | some fieldFacts =>
      (if (event.arg 0).isNull then s.set field (.all fieldFacts) else s, reports)
    | none => (s, reports)

/-- What a send to the object in a field does to the ways back to `self`, if it bears on them. -/
def fieldSendEffect? (scope : ClassScope) (m : Message Expr) : Option (Cleared → Cleared) :=
  match scope.setter? m with
  | some property =>
    if property.ownership.isUnsafe then
      some fun c => if m.passesSelf then c.unclear property.name else c.clear property.name
    else none
  | none =>
    if m.passesSelf && beginsWith m.selector config.removeTarget then some (·.clearTarget)
    else if m.passesSelf && beginsWith m.selector config.removeObserver then some (·.clearObserver)
    else none

def checkFieldSend (facts : ClassFacts) (site : Site) (s : DelegateState) (field : String)
    (event : SendEvent) : DelegateState × List Diagnostic :=
  if config.isReleaseSelector event.message.selector then
    (s, verifyField facts site s field none event.expr.range)
  else ((fieldSendEffect? config site.frame.scope event.message).elim s (s.update field), [])

def checkSend (facts : ClassFacts) (site : Site) (s : DelegateState) (event : SendEvent) :
    DelegateState × List Diagnostic :=
  match event.message.target? with
  | none => (s, [])
  | some receiver =>
    if isKnownNull config event.receiver then (s, [])
    else if receiver.isSelf then
      match site.frame.scope.setter? event.message with
      | some property => checkSelfSetter facts site s property event
      | none => (s, [])
    else
      match (site.frame.scope.fieldOf? receiver).filter facts.isInteresting with
      | some field => checkFieldSend config facts site s field event
      | none => (s, [])

def applyOutcome (facts : ClassFacts) (s : DelegateState) : SafeOutcome → DelegateState
  | .propertyCleared field property => s.update field (·.clear property)
  | .fieldCleared field =>
    match facts.field? field with
    | some fieldFacts => s.set field (.all fieldFacts)
    | none => s

/-- A branch whose condition rules a danger out is free of it from there on. -/
def acceptBranch (known : FactsByClass) (subject : Subject) (s : DelegateState) (cond : Expr)
    (assumption : Bool) : DelegateState :=
  if config.assumeSafeBranch then
    match s.currentClass with
    | none => s
    | some className =>
      match known.find? className with
      | none => s
      | some facts =>
        (safeOutcomes ⟨subject.unit, className⟩ facts assumption cond).foldl (applyOutcome facts) s
  else s

/-- The end of the teardown method lets every field go. -/
def checkTeardown (facts : ClassFacts) (site : Site) (s : DelegateState) : List Diagnostic :=
  if site.frame.subject.lang.autoReleaseFields &&
      site.frame.method.selector == config.teardownMethod then
    facts.fields.keys.flatMap fun field =>
      if isKnownNull config (site.store.lookup (.field field)) then []
      else verifyField facts site s field
        (some ("automatic release at end of " ++ config.teardownMethod)) site.frame.method.range
  else []

def delegatePaths (known : FactsByClass) : PathCheck DelegateState Diagnostic where
  start := .start
  beforeEffect site s e :=
    let facts := known.find? site.frame.className
    let s := openPath facts site s
    (s, facts.elim [] fun facts => checkAssignment config facts site s e)
  afterSend site s event :=
    let facts := known.find? site.frame.className
    let s := openPath facts site s
    facts.elim (s, []) fun facts => checkSend config facts site s event
  assume subject s cond assumption := acceptBranch config known subject s cond assumption
  atEnd site s :=
    let facts := known.find? site.frame.className
    let s := openPath facts site s
    (s, facts.elim [] fun facts => checkTeardown config facts site s)

/-- Without a teardown method of its own a class lets every field go and clears nothing. -/
def checkImplicitTeardown (subject : Subject) (decl : ImplementationDecl) (facts : ClassFacts) :
    List Diagnostic :=
  if !facts.hasTeardown && subject.lang.autoReleaseFields then
    facts.fields.entries.flatMap fun (field, fieldFacts) =>
      let type := (subject.unit.findField? decl.name field).map (·.type)
      (leftoverMessages fieldFacts.properties ∅ field type
        (some ("implicit " ++ config.teardownMethod))).map
        (.atDeclaration danglingDelegateName leakingSelf subject.unit.path decl.name decl.range)
  else []

def scanClass (subject : Subject) (known : FactsByClass) (decl : ImplementationDecl) :
    Except Error (FactsByClass × List Diagnostic) :=
  if decl.name = "" then .error (.hostContract "implementation declaration without a name")
  else if known.contains decl.name then .ok (known, [])
  else
    let facts := classFacts ⟨subject.unit, decl.name⟩ config decl
    .ok (known.insertIfAbsent decl.name facts, checkImplicitTeardown config subject decl facts)

def danglingDelegateCheck : UnitCheck FactsByClass DelegateState Diagnostic where
  session := ∅
  scan := scanClass config
  paths := delegatePaths config
  finish _ _ := (∅, [])

end DelegateSafety
