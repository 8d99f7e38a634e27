import DelegateSafety.Proofs.OneMethod
import DelegateSafety.Proofs.Teardown

/-! # The remedy that a report suggests

What the teardown method leaves behind is reported with the advice to clear it there. With the suggested
line at the end of the method, no path that gets to it is reported for that property any more, and
nothing else changes (`suggested_line_silences_its_report`).
-/
namespace DelegateSafety

open PathM Explore

/-! ## The end of a body -/

section

variable {σ ρ : Type} (frame : Frame) (limits : Limits) (check : PathCheck σ ρ)

theorem executeAll_append (first second : List Stmt) (ps : List (Path σ)) :
    executeAll frame limits check (first ++ second) ps =
      executeAll frame limits check first ps >>= executeAll frame limits check second := by
  induction first generalizing ps with
  | nil => simp only [List.nil_append, executeAll, pure_bind]
  | cons s rest ih => simp only [List.cons_append, executeAll, bind_assoc, ih]

/-- A body by itself: the paths that fall off its end, and what happens before they do. -/
def exploreBody (body : List Stmt) : Explored ρ (List (Path σ)) :=
  (do
    count .method
    executeAll frame limits check body [⟨0, ∅, check.start⟩] : Explore ρ (List (Path σ))) 1

def endReports (p : Path σ) : List ρ := (check.atEnd ⟨frame, p.id, p.store⟩ p.state).2

theorem endPath_apply (p : Path σ) (next : Nat) :
    endPath frame check p next = ⟨[], next, [], .completed, endReports frame check p⟩ := by
  simp only [endPath, Explore.bind_apply, Explore.pure_apply, along, count, List.append_nil]
  rfl

theorem forEach_endPath (ps : List (Path σ)) (next : Nat) :
    forEach (endPath frame check) ps next =
      ⟨[], next, [], ⟨0, ps.length, 0, 0⟩, ps.flatMap (endReports frame check)⟩ := by
  induction ps generalizing next with
  | nil => rfl
  | cons p rest ih =>
    simp only [forEach, Explore.bind_apply, endPath_apply, ih, Explore.pure_apply]
    simp [Stats.add_def, Stats.completed, Stats.zero, Stats.zero_def, Nat.add_comm]

variable {frame} in
/-- Paths that fall off the end of a body end there. -/
theorem explore_eq_exploreBody {body : List Stmt} (hBody : frame.method.body = some (.block body)) :
    explore frame limits check =
      ⟨(), (exploreBody frame limits check body).nextPath, (exploreBody frame limits check body).forks,
        (exploreBody frame limits check body).stats +
          ⟨0, (exploreBody frame limits check body).value.length, 0, 0⟩,
        (exploreBody frame limits check body).reports ++
          (exploreBody frame limits check body).value.flatMap (endReports frame check)⟩ := by
  simp only [explore, hBody, exploreBody, execute, Explore.bind_apply, Explore.pure_apply,
    forEach_endPath, List.append_nil, Stats.add_zero, Stats.add_assoc, List.append_assoc]

theorem forEach_of_pure {f : Path σ → Explore ρ (List (Path σ))} {move : Path σ → Path σ}
    (h : ∀ p, f p = pure [move p]) (ps : List (Path σ)) : forEach f ps = pure (ps.map move) := by
  induction ps with
  | nil => rfl
  | cons p rest ih => simp only [forEach, h, ih, pure_bind, List.singleton_append, List.map_cons]

/-- A statement at the end that only moves paths on moves those that fall off the end. -/
theorem exploreBody_concat {s : Stmt} {move : Path σ → Path σ}
    (h : ∀ ps, execute frame limits check s ps = pure (ps.map move)) (body : List Stmt) :
    exploreBody frame limits check (body ++ [s]) =
      { exploreBody frame limits check body with
        value := (exploreBody frame limits check body).value.map move } := by
  have hLast : executeAll frame limits check [s] = fun ps => pure (ps.map move) := by
    funext ps
    simp only [executeAll, h, pure_bind]
  simp only [exploreBody, executeAll_append, hLast, Explore.bind_apply, Explore.pure_apply,
    List.append_nil, Stats.add_zero]

end

/-! ## The suggested line -/

/-- The message that `f.p = nil` stands for. -/
def clearMessage (field property : String) (r r' : SourceRange) : Message Expr :=
  ⟨.object (.field field r), setterSelector property, [.nil r']⟩

def clearing (field property : String) (r r' r'' : SourceRange) : Expr :=
  .send (clearMessage field property r r') r''

def suggestedLine (field property : String) (r r' r'' : SourceRange) : Stmt :=
  .expr (clearing field property r r' r'')

/-- The declared class of a field resolves the setter of a property to that property, which is not
owned, and the setter does not let the object go. -/
structure Clearable (config : DelegateConfig) (scope : ClassScope) (field property : String) :
    Prop where
  resolves : ∃ decl holder found, scope.field? field = some decl ∧ decl.type = .object holder ∧
    scope.unit.findPropertyBySetter? holder (setterSelector property) = some found ∧
    found.name = property ∧ found.ownership = .assign
  notRelease : config.isReleaseSelector (setterSelector property) = false

/-- What the suggested line leaves a path with. A field that is known to be nil has nothing cleared. -/
def clearUnlessNull (config : DelegateConfig) (field property : String) (store : Store)
    (s : DelegateState) : DelegateState :=
  if isKnownNull config (store.lookup (.field field)) then s
  else s.update field (·.clear property)

/-- The path once the check of its class has seen it. -/
def Path.opened (facts : ClassFacts) (frame : Frame) (p : Path DelegateState) : Path DelegateState :=
  { p with state := openPath (some facts) ⟨frame, p.id, p.store⟩ p.state }

def Path.cleared (config : DelegateConfig) (facts : ClassFacts) (frame : Frame)
    (field property : String) (p : Path DelegateState) : Path DelegateState :=
  { p with state := clearUnlessNull config field property p.store (p.opened facts frame).state }

section

variable {config : DelegateConfig} {known : FactsByClass} {facts : ClassFacts} {frame : Frame}
  {field property : String}

theorem Clearable.fieldSendEffect? {scope : ClassScope} (h : Clearable config scope field property)
    (r r' : SourceRange) :
    fieldSendEffect? config scope (clearMessage field property r r') =
      some (·.clear property) := by
  obtain ⟨decl, holder, found, hField, hType, hFound, rfl, hOwnership⟩ := h.resolves
  have hSetter : scope.setter? (clearMessage field found.name r r') = some found := by
    simp only [ClassScope.setter?, clearMessage, ClassScope.receiverClass?, ClassScope.staticType?,
      hField, Option.map_some, hType, Option.bind_some, TypeRef.className?, hFound]
    rfl
  simp only [DelegateSafety.fieldSendEffect?, hSetter, hOwnership]
  rfl

theorem Clearable.checkSend {site : Site} (h : Clearable config site.frame.scope field property)
    (hInteresting : facts.isInteresting field = true) (s : DelegateState) (r r' r'' : SourceRange)
    (args : List Nullness) (definition : Option MethodDecl) :
    checkSend config facts site s ⟨clearing field property r r' r'', clearMessage field property r r',
        site.store.lookup (.field field), args, definition⟩ =
      (clearUnlessNull config field property site.store s, []) := by
  have hField : (site.frame.scope.fieldOf? (.field field r)).filter facts.isInteresting = some field :=
    Option.filter_eq_some_iff.mpr ⟨rfl, hInteresting⟩
  have hTarget : (clearMessage field property r r').target? = some (.field field r) := rfl
  have hSelf : (Expr.field field r).isSelf = false := rfl
  simp only [DelegateSafety.checkSend, hTarget, hSelf, hField, checkFieldSend, clearUnlessNull]
  rw [show (clearMessage field property r r').selector = setterSelector property from rfl, h.notRelease,
    h.fieldSendEffect?]
  split <;> rfl

theorem Path.opened_opened (p : Path DelegateState) :
    (p.opened facts frame).opened facts frame = p.opened facts frame := by
  simp only [opened, openPath_of_isInitialized (isInitialized_openPath _ _ _)]

theorem consult_beforeEffect_eq_opened (hKnown : known.find? frame.className = some facts) {e : Expr}
    (hAssigned : assignedField? frame.scope e = none) (p : Path DelegateState) :
    consult frame (fun site s => (delegatePaths config known).beforeEffect site s e) p =
      ⟨(), p.opened facts frame, []⟩ := by
  rw [consult_beforeEffect_eq hAssigned, hKnown]
  rfl

/-- What is not an assignment files nothing before its effect. -/
theorem evaluate_apply (hKnown : known.find? frame.className = some facts) {e : Expr}
    (hAssigned : assignedField? frame.scope e = none) {values : List Nullness}
    {p q : Path DelegateState}
    (hOperands : inOrder (e.operands.map (evaluate frame (delegatePaths config known))) p =
      ⟨values, q, []⟩) :
    evaluate frame (delegatePaths config known) e p =
      effect frame (delegatePaths config known) e values (q.opened facts frame) := by
  rw [evaluate_eq, PathM.bind_apply, hOperands, PathM.bind_apply,
    consult_beforeEffect_eq_opened hKnown hAssigned]
  simp only [List.nil_append]

theorem evaluate_leaf (hKnown : known.find? frame.className = some facts) {e : Expr}
    (hLeaf : e.operands = []) (hAssigned : assignedField? frame.scope e = none)
    (p : Path DelegateState) :
    evaluate frame (delegatePaths config known) e p =
      effect frame (delegatePaths config known) e [] (p.opened facts frame) := by
  refine evaluate_apply hKnown hAssigned ?_
  rw [hLeaf]
  rfl

theorem operands_clearing (hKnown : known.find? frame.className = some facts) (r r' r'' : SourceRange)
    (p : Path DelegateState) :
    inOrder ((clearing field property r r' r'').operands.map
        (evaluate frame (delegatePaths config known))) p =
      ⟨[p.store.lookup (.field field), .null], p.opened facts frame, []⟩ := by
  have hField : evaluate frame (delegatePaths config known) (.field field r) p =
      ⟨p.store.lookup (.field field), p.opened facts frame, []⟩ := evaluate_leaf hKnown rfl rfl p
  have hNil : evaluate frame (delegatePaths config known) (.nil r') (p.opened facts frame) =
      ⟨.null, p.opened facts frame, []⟩ := by
    rw [evaluate_leaf hKnown rfl rfl, Path.opened_opened]
    rfl
  simp only [clearing, clearMessage, Expr.operands, Message.operands, Message.target?,
    Receiver.target?, Option.toList_some, List.singleton_append, List.map_cons, List.map_nil, inOrder,
    PathM.bind_apply, PathM.pure_apply, hField, hNil, List.append_nil]

/-- A setter that is sent to a field neither reads nor writes what the path knows. -/
theorem sendEffect_clearMessage (r r' : SourceRange) (receiver : Nullness) (args : List Nullness)
    (p : Path DelegateState) :
    ∃ value, (sendEffect frame (clearMessage field property r r') receiver args :
      PathM DelegateState Diagnostic Nullness) p = ⟨value, p, []⟩ := by
  unfold sendEffect
  split
  · exact ⟨.null, rfl⟩
  · exact ⟨.unknown, rfl⟩

theorem Clearable.afterSend (h : Clearable config frame.scope field property)
    (hKnown : known.find? frame.className = some facts) (hInteresting : facts.isInteresting field = true)
    (r r' r'' : SourceRange) (p : Path DelegateState) :
    consult frame (fun site s => (delegatePaths config known).afterSend site s
        ⟨clearing field property r r' r'', clearMessage field property r r',
          p.store.lookup (.field field), [.null],
          frame.scope.definition? (clearMessage field property r r')⟩) (p.opened facts frame) =
      ⟨(), p.cleared config facts frame field property, []⟩ := by
  simp only [consult, delegatePaths, hKnown, Option.elim_some, Path.opened, Path.cleared,
    openPath_of_isInitialized (isInitialized_openPath _ _ _)]
  rw [h.checkSend hInteresting]

/-- Whatever state a path is in, the line clears the property and files nothing. -/
theorem Clearable.evaluate (h : Clearable config frame.scope field property)
    (hKnown : known.find? frame.className = some facts) (hInteresting : facts.isInteresting field = true)
    (r r' r'' : SourceRange) (p : Path DelegateState) :
    ∃ value, evaluate frame (delegatePaths config known) (clearing field property r r' r'') p =
      ⟨value, p.cleared config facts frame field property, []⟩ := by
  obtain ⟨value, hValue⟩ := @sendEffect_clearMessage frame field property r r'
    (p.store.lookup (.field field)) [.null] (p.opened facts frame)
  have hEffect : effect frame (delegatePaths config known) (clearing field property r r' r'') =
      evaluateSend frame (delegatePaths config known) (clearing field property r r' r'')
        (clearMessage field property r r') := rfl
  have hSplit : splitOperands (clearMessage field property r r')
    [p.store.lookup (.field field), .null] = (p.store.lookup (.field field), [.null]) := rfl
  refine ⟨value, ?_⟩
  rw [evaluate_apply hKnown rfl (operands_clearing hKnown r r' r'' p), Path.opened_opened, hEffect]
  simp only [evaluateSend, hSplit, PathM.bind_apply, hValue, h.afterSend hKnown hInteresting,
    PathM.pure_apply, List.append_nil]

theorem Clearable.execute (h : Clearable config frame.scope field property)
    (hKnown : known.find? frame.className = some facts) (hInteresting : facts.isInteresting field = true)
    (limits : Limits) (r r' r'' : SourceRange) (ps : List (Path DelegateState)) :
    execute frame limits (delegatePaths config known) (suggestedLine field property r r' r'') ps =
      pure (ps.map (Path.cleared config facts frame field property)) := by
  rw [suggestedLine, DelegateSafety.execute]
  refine forEach_of_pure (fun p => ?_) ps
  obtain ⟨value, hValue⟩ := h.evaluate hKnown hInteresting r r' r'' p
  funext next
  simp only [Explore.bind_apply, along, hValue, Explore.pure_apply, List.append_nil, Stats.add_zero]

/-! ## What is left at the end -/

/-- On a path that knows the field to be nil the property is not left behind in the first place. -/
theorem uncleared_clearUnlessNull (store : Store) (s : DelegateState) :
    uncleared config facts store (clearUnlessNull config field property store s) =
      (uncleared config facts store s).filter (· ≠ (field, property)) := by
  unfold clearUnlessNull
  split
  · rename_i hNull
    refine (List.filter_eq_self.mpr fun x hx => decide_eq_true ?_).symm
    rintro rfl
    obtain ⟨-, -, hNotNull⟩ := mem_uncleared.mp hx
    rw [hNull] at hNotNull
    cases hNotNull
  · simp only [uncleared, List.filter_flatMap]
    refine List.flatMap_congr fun entry _ => ?_
    split
    · rfl
    · simp only [leftovers, List.filter_map, List.filter_filter, DelegateState.field_update]
      congr 1
      refine List.filter_congr fun p _ => ?_
      by_cases hField : entry.1 = field <;> simp [hField, Cleared.clear]

/-- The stores that a path leaves in place where it ends. -/
def leftAtEnd (config : DelegateConfig) (facts : ClassFacts) (frame : Frame) (p : Path DelegateState) :
    List (String × String) :=
  if frame.subject.lang.autoReleaseFields then
    uncleared config facts p.store (p.opened facts frame).state
  else []

def teardownReports (config : DelegateConfig) (frame : Frame) (p : Path DelegateState)
    (left : List (String × String)) : List Diagnostic :=
  left.map fun x => teardownReport config ⟨frame, p.id, p.store⟩ x.1 x.2

theorem leftAtEnd_cleared (p : Path DelegateState) :
    leftAtEnd config facts frame (p.cleared config facts frame field property) =
      (leftAtEnd config facts frame p).filter (· ≠ (field, property)) := by
  have hOpen : openPath (some facts) ⟨frame, p.id, p.store⟩
      (p.cleared config facts frame field property).state =
        (p.cleared config facts frame field property).state := by
    refine openPath_of_isInitialized ?_
    simp only [Path.cleared, clearUnlessNull]
    split <;> exact isInitialized_openPath _ _ _
  unfold leftAtEnd
  split
  · rw [← uncleared_clearUnlessNull]
    exact congrArg _ hOpen
  · rfl

theorem endReports_eq (hKnown : known.find? frame.className = some facts)
    (hSelector : frame.method.selector = config.teardownMethod) (p : Path DelegateState) :
    endReports frame (delegatePaths config known) p =
      teardownReports config frame p (leftAtEnd config facts frame p) := by
  simp only [endReports, delegatePaths, hKnown, Option.elim_some, leftAtEnd]
  split
  · rename_i hRelease
    exact checkTeardown_eq hRelease hSelector
  · rename_i hRelease
    simp only [checkTeardown, hRelease, Bool.false_and]
    rfl

end

/-! ## Two runs -/

section

variable {config : DelegateConfig} {known : FactsByClass} {frame frame' : Frame}
  (hFrame : frame.Matches frame')

include hFrame

theorem exploreBody_matches (limits : Limits) (body : List Stmt) :
    exploreBody frame limits (delegatePaths config known) body =
      exploreBody frame' limits (delegatePaths config known) body := by
  have hExecute := @execute_matches config known frame frame' hFrame limits (.block body)
  simp only [DelegateSafety.execute] at hExecute
  simp only [exploreBody, hExecute]

theorem endReports_matches :
    endReports frame (delegatePaths config known) = endReports frame' (delegatePaths config known) := by
  funext p
  exact congrArg (fun answer => (answer p).reports) (atEnd_congr hFrame.resembles)

/-- How the suggested line at the end of the teardown method changes what is reported of it. -/
theorem explore_clearing {facts : ClassFacts} {field property : String} {body : List Stmt}
    {r r' r'' : SourceRange} (hKnown : known.find? frame.className = some facts)
    (hSelector : frame.method.selector = config.teardownMethod)
    (hInteresting : facts.isInteresting field = true)
    (hClearable : Clearable config frame.scope field property)
    (hBody : frame.method.body = some (.block body))
    (hBody' : frame'.method.body =
      some (.block (body ++ [suggestedLine field property r r' r'']))) (limits : Limits) :
    let check := delegatePaths config known
    let inside := exploreBody frame limits check body
    let reports (left : Path DelegateState → List (String × String)) :=
      inside.reports ++ inside.value.flatMap fun p => teardownReports config frame p (left p)
    (explore frame limits check).reports = reports (leftAtEnd config facts frame) ∧
    explore frame' limits check =
      { explore frame limits check with
        reports := reports fun p => (leftAtEnd config facts frame p).filter (· ≠ (field, property)) } := by
  intro check inside reports
  have hEnds (ps : List (Path DelegateState)) : ps.flatMap (endReports frame check) =
      ps.flatMap fun p => teardownReports config frame p (leftAtEnd config facts frame p) :=
    List.flatMap_congr fun p _ => endReports_eq hKnown hSelector p
  have hLonger := exploreBody_concat frame limits check
    (hClearable.execute hKnown hInteresting limits r r' r'') body
  have hReports : (explore frame limits check).reports = reports (leftAtEnd config facts frame) := by
    rw [explore_eq_exploreBody limits check hBody, hEnds]
  refine ⟨hReports, ?_⟩
  rw [explore_eq_exploreBody limits check hBody', ← exploreBody_matches hFrame, ← endReports_matches hFrame, hLonger,
    explore_eq_exploreBody limits check hBody, hEnds, List.length_map, List.flatMap_map]
  simp only [leftAtEnd_cleared]
  rfl

end

theorem allExprs_block_concat (body : List Stmt) (s : Stmt) :
    (Stmt.block (body ++ [s])).allExprs = (Stmt.block body).allExprs ++ s.allExprs := by
  simp only [Stmt.allExprs, Stmt.walk, Stmt.walkAll_eq_flatMap, List.flatMap_cons, List.flatMap_append,
    List.flatMap_nil, List.append_nil, Stmt.exprs, List.nil_append]

/-- A scan learns nothing from a line that hands nobody `self`. -/
theorem tellsSame_suggestedLine (config : DelegateConfig) (body : List Stmt) (field property : String)
    (r r' r'' : SourceRange) (scope : ClassScope) :
    Stmt.TellsSame scope scope config (.block body)
      (.block (body ++ [suggestedLine field property r r' r''])) := by
  intro method
  have hLine : (suggestedLine field property r r' r'').allExprs.filterMap
    (observeExpr scope config method) = [] := rfl
  rw [allExprs_block_concat, List.filterMap_append, hLine, List.append_nil]

/-- A store that the teardown method leaves behind may be cleared at its end, as the report suggests. The
reports of the paths that fall off its end are then gone for that store, and all else is as before: the
facts, the reports of paths that return earlier and of other methods, the numbers of paths and the
statistics. -/
theorem suggested_line_silences_its_report (config : DelegateConfig) (settings : AnalysisSettings)
    (c : MethodContext) (m : MethodDecl) (body : List Stmt) {field property : String}
    (r r' r'' : SourceRange) {facts : ClassFacts} (hSelector : m.selector = config.teardownMethod)
    (hKnown : (scannedFacts config (c.analyzed settings m body)).find? c.className = some facts)
    (hRecords : facts.Records field property)
    (hClearable : Clearable config ⟨(c.analyzed settings m body).unit, c.className⟩ field property) :
    let subject := c.analyzed settings m body
    let subject' := c.analyzed settings m (body ++ [suggestedLine field property r r' r''])
    let frame : Frame := ⟨subject, c.className, m.withBody body⟩
    let inside := exploreBody frame settings.limits
      (delegatePaths config (scannedFacts config subject)) body
    let reports (left : Path DelegateState → List (String × String)) : List Diagnostic :=
      c.reportsAround config subject settings.limits
        (inside.reports ++ inside.value.flatMap fun p => teardownReports config frame p (left p))
    let run (subject : Subject) := (danglingDelegateCheck config).run subject settings.limits
    (run subject).reports = reports (leftAtEnd config facts frame) ∧
    (run subject').reports =
      reports (fun p => (leftAtEnd config facts frame p).filter (· ≠ (field, property))) ∧
    (run subject').stats = (run subject).stats ∧
    (explorations config subject' settings.limits).map (fun x => (x.nextPath, x.forks, x.stats)) =
      (explorations config subject settings.limits).map (fun x => (x.nextPath, x.forks, x.stats)) ∧
    scannedFacts config subject' = scannedFacts config subject := by
  intro subject subject' frame inside reports run
  obtain ⟨fieldFacts, hField, -⟩ := hRecords
  have hFrame : frame.Matches
      ⟨subject, c.className, m.withBody (body ++ [suggestedLine field property r r' r''])⟩ :=
    ⟨.refl _, rfl, rfl, rfl⟩
  obtain ⟨hHere, hThere⟩ := explore_clearing hFrame hKnown hSelector (isInteresting_of_field? hField)
    hClearable rfl rfl settings.limits
  obtain ⟨hReports, hReports', hSame⟩ := MethodContext.run_of_explored
    (tellsSame_suggestedLine config body field property r r' r'') hThere
  exact ⟨hReports.trans (congrArg (c.reportsAround config subject settings.limits) hHere), hReports',
    hSame⟩

namespace Sample

/-- `Foo` makes itself the delegate in `init`, and its `dealloc` is left out. -/
def attachedFoo : MethodContext where
  path := "Foo.m"
  lang := ⟨true⟩
  interfaces := [barInterface, fooInterface]
  globals := []
  implementationsBefore := []
  implementationsAfter := []
  className := "Foo"
  fields := []
  range := .ofLine 10
  methodsBefore := [method "init" [.expr (setProperty (.field "_bar" .unknown) "delegate" (.self .unknown))]]
  methodsAfter := []

def dealloc : MethodDecl := method "dealloc" []

/-- One of two paths returns before it gets to the end. -/
def returnsEarly : List Stmt := [.branch (.var "shared" none .unknown) (.ret none) none]

end Sample

open Sample in
theorem early_return_is_still_reported :
    let run (body : List Stmt) := (danglingDelegateCheck .default).run
      (attachedFoo.analyzed .default dealloc body) AnalysisSettings.default.limits
    let line := suggestedLine "_bar" "delegate" .unknown .unknown .unknown
    (run returnsEarly).reports.length = 2 ∧
      (run (returnsEarly ++ [line])).reports = (run returnsEarly).reports.take 1 ∧
      (run (returnsEarly ++ [line])).stats = (run returnsEarly).stats := by
  intro run line
  let subject := attachedFoo.analyzed .default dealloc returnsEarly
  let facts := ((scannedFacts .default subject).find? "Foo").getD .empty
  have hKnown : (scannedFacts .default subject).find? "Foo" = some facts := by decide +kernel
  have hRecords : facts.Records "_bar" "delegate" := ClassFacts.records_iff.mpr (by decide +kernel)
  have hClearable : Clearable .default ⟨subject.unit, "Foo"⟩ "_bar" "delegate" :=
    ⟨⟨⟨"_bar", .object "Bar", .ofLine 4⟩, "Bar", property "delegate" .id .assign, by decide +kernel, rfl,
      by decide +kernel, rfl, rfl⟩, by decide +kernel⟩
  obtain ⟨hReports, hReports', hStats, -⟩ := suggested_line_silences_its_report .default .default
    attachedFoo dealloc returnsEarly .unknown .unknown .unknown rfl hKnown hRecords hClearable
  refine ⟨by decide +kernel, ?_, hStats⟩
  rw [hReports, hReports']
  decide +kernel

end DelegateSafety
