import DelegateSafety.Proofs.Resemblance
import DelegateSafety.Proofs.Lockstep
import DelegateSafety.Proofs.Transition

/-! # Exchanging what looks the same

Expressions that are alike are evaluated alike once their operands are, and so are statements, methods
and whole units made of them: what is evaluated is the same function of the path, whatever check of
dangling delegates is at work.
-/
namespace DelegateSafety

open PathM Explore

/-! ## Exploring related methods -/

section

variable {σ ρ : Type} {frame frame' : Frame} {check : PathCheck σ ρ} (limits : Limits)

/-- Expressions that a method of one frame and one of another may have in each other's places. -/
structure Replaces (frame frame' : Frame) (check : PathCheck σ ρ) (e e' : Expr) : Prop where
  evaluate : evaluate frame check e = evaluate frame' check e'
  assume : assume frame check e = assume frame' check e'

section

variable {cond cond' : Expr} (h : Replaces frame frame' check cond cond')

include h

theorem split_congr : split frame limits check cond = split frame' limits check cond' := by
  funext p
  simp only [split, h.evaluate, h.assume]

theorem splitAll_congr : splitAll frame limits check cond = splitAll frame' limits check cond' := by
  funext ps
  induction ps with
  | nil => rfl
  | cons p rest ih => simp only [splitAll, split_congr limits h, ih]

theorem leaveLoop_congr : leaveLoop frame check cond = leaveLoop frame' check cond' := by
  funext p
  simp only [leaveLoop, h.evaluate, h.assume]

theorem iterate_congr (body : List (Path σ) → Explore ρ (List (Path σ))) (bound : Nat) :
    iterate frame limits check cond body bound = iterate frame' limits check cond' body bound := by
  induction bound with
  | zero =>
    funext ps
    cases ps with
    | nil => simp only [iterate]
    | cons p rest => simp only [iterate, leaveLoop_congr h]
  | succ bound ih =>
    funext ps
    cases ps with
    | nil => simp only [iterate]
    | cons p rest => simp only [iterate, splitAll_congr limits h, ih]

end

theorem declare_congr {v : VarDecl} {init : Option Expr}
    (h : Option.Rel (Replaces frame frame' check) v.init init) :
    declare frame check v = declare frame' check { v with init := init } := by
  obtain ⟨name, type, storage, start, range⟩ := v
  cases h with
  | none => rfl
  | some hInit => simp only [declare, hInit.evaluate]

theorem endPath_congr (hEnd : consult frame check.atEnd = consult frame' check.atEnd) :
    endPath frame check = endPath frame' check := by
  funext p
  simp only [endPath, hEnd]

mutual

theorem execute_congr (hEnd : consult frame check.atEnd = consult frame' check.atEnd) :
    ∀ (s : Stmt) {s' : Stmt}, s.Related (Replaces frame frame' check) s' →
      execute frame limits check s = execute frame' limits check s'
  | .expr _, _, .expr h => by simp only [execute, h.evaluate]
  | .block body, _, .block h => by simp only [execute, executeAll_congr hEnd body h]
  | .decl _, _, .decl h => by simp only [execute, declare_congr h]
  | .ret _, _, .ret .none => by simp only [execute, endPath_congr hEnd]
  | .ret _, _, .ret (.some h) => by simp only [execute, h.evaluate, endPath_congr hEnd]
  | .branch _ yes none, _, .branch h hYes => by
    simp only [execute, split_congr limits h, execute_congr hEnd yes hYes]
  | .branch _ yes (some no), _, .branchElse h hYes hNo => by
    simp only [execute, split_congr limits h, execute_congr hEnd yes hYes, execute_congr hEnd no hNo]
  | .loop _ body, _, .loop h hBody => by
    simp only [execute, iterate_congr limits h, execute_congr hEnd body hBody]

theorem executeAll_congr (hEnd : consult frame check.atEnd = consult frame' check.atEnd) :
    ∀ (ss : List Stmt) {ss' : List Stmt}, Stmt.RelatedAll (Replaces frame frame' check) ss ss' →
      executeAll frame limits check ss = executeAll frame' limits check ss'
  | [], _, .nil => rfl
  | s :: rest, _, .cons h hRest => by
    funext ps
    simp only [executeAll, execute_congr hEnd s h, executeAll_congr hEnd rest hRest]

end

theorem explore_congr (hEnd : consult frame check.atEnd = consult frame' check.atEnd)
    (h : Option.Rel (Stmt.Related (Replaces frame frame' check)) frame.method.body frame'.method.body) :
    explore frame limits check = explore frame' limits check := by
  unfold explore
  generalize frame.method.body = body, frame'.method.body = body' at h
  cases h with
  | none => rfl
  | some hBody => simp only [execute_congr limits hEnd _ hBody, endPath_congr hEnd]

end

/-- Methods of one name in one class, in units that declare the same. -/
structure Frame.Matches (frame frame' : Frame) : Prop where
  scope : frame.scope.Matches frame'.scope
  lang : frame.subject.lang = frame'.subject.lang
  selector : frame.method.selector = frame'.method.selector
  range : frame.method.range = frame'.method.range

/-- Methods of one name in classes that resemble each other. -/
structure Frame.Resembles (frame frame' : Frame) : Prop where
  scope : frame.scope.Resembles frame'.scope
  path : frame.subject.unit.path = frame'.subject.unit.path
  lang : frame.subject.lang = frame'.subject.lang
  selector : frame.method.selector = frame'.method.selector
  range : frame.method.range = frame'.method.range

theorem Frame.Resembles.refl (frame : Frame) : frame.Resembles frame := ⟨.refl _, rfl, rfl, rfl, rfl⟩

theorem Frame.Matches.resembles {frame frame' : Frame} (h : frame.Matches frame') : frame.Resembles frame' :=
  ⟨h.scope.resembles, h.scope.unit.path, h.lang, h.selector, h.range⟩

variable {config : DelegateConfig} {known : FactsByClass} {frame frame' : Frame}
  (hFrame : frame.Resembles frame')

/-! ## Answers of the check -/

section

variable {facts : ClassFacts} {known? : Option ClassFacts}

include hFrame

theorem openPath_congr (n : Nat) (store : Store) (s : DelegateState) :
    openPath known? ⟨frame, n, store⟩ s = openPath known? ⟨frame', n, store⟩ s := by
  have hClass : frame.className = frame'.className := hFrame.scope.className
  simp only [openPath, hClass, hFrame.selector]

theorem verifyField_congr (n : Nat) (store : Store) (s : DelegateState) (field : String)
    (decl : Option String) (range : SourceRange) :
    verifyField facts ⟨frame, n, store⟩ s field decl range =
      verifyField facts ⟨frame', n, store⟩ s field decl range := by
  have hReport : Site.report ⟨frame, n, store⟩ range = Site.report ⟨frame', n, store⟩ range := by
    funext message
    have hClass : frame.className = frame'.className := hFrame.scope.className
    simp only [Site.report, hFrame.path, hClass, hFrame.selector]
  simp only [verifyField, hReport, hFrame.scope.field?]

omit hFrame in
theorem hasKnownBody_congr {m m' : Message Expr} (h : m.AlikeSent frame.scope frame'.scope m')
    (r : SourceRange) (receiver : Nullness) (args : List Nullness) :
    SendEvent.hasKnownBody ⟨.send m r, m, receiver, args, frame.scope.definition? m⟩ =
      SendEvent.hasKnownBody ⟨.send m' r, m', receiver, args, frame'.scope.definition? m'⟩ := by
  have hAny := congrArg (Option.any Prod.snd) (h.definition?)
  rwa [Option.any_map, Option.any_map] at hAny

theorem checkSelfSetter_congr {m m' : Message Expr} (h : m.AlikeSent frame.scope frame'.scope m')
    (n : Nat) (store : Store) (s : DelegateState) (property : PropertyDecl) (r : SourceRange)
    (receiver : Nullness) (args : List Nullness) :
    checkSelfSetter facts ⟨frame, n, store⟩ s property
        ⟨.send m r, m, receiver, args, frame.scope.definition? m⟩ =
      checkSelfSetter facts ⟨frame', n, store⟩ s property
        ⟨.send m' r, m', receiver, args, frame'.scope.definition? m'⟩ := by
  unfold checkSelfSetter
  simp only [hasKnownBody_congr h, verifyField_congr hFrame]
  rfl

theorem checkFieldSend_congr {m m' : Message Expr} (h : m.Alike frame.scope frame'.scope m')
    (n : Nat) (store : Store) (s : DelegateState) (field : String) (r : SourceRange)
    (receiver : Nullness) (args : List Nullness) :
    checkFieldSend config facts ⟨frame, n, store⟩ s field
        ⟨.send m r, m, receiver, args, frame.scope.definition? m⟩ =
      checkFieldSend config facts ⟨frame', n, store⟩ s field
        ⟨.send m' r, m', receiver, args, frame'.scope.definition? m'⟩ := by
  simp only [checkFieldSend, h.selector, verifyField_congr hFrame, fieldSendEffect?,
    h.setter? hFrame.scope, h.passesSelf, Expr.range]

theorem checkSend_congr {m m' : Message Expr} (h : m.AlikeSent frame.scope frame'.scope m')
    (n : Nat) (store : Store) (s : DelegateState) (r : SourceRange) (receiver : Nullness)
    (args : List Nullness) :
    checkSend config facts ⟨frame, n, store⟩ s
        ⟨.send m r, m, receiver, args, frame.scope.definition? m⟩ =
      checkSend config facts ⟨frame', n, store⟩ s
        ⟨.send m' r, m', receiver, args, frame'.scope.definition? m'⟩ := by
  have hTarget := h.target?
  unfold checkSend
  simp only [h.setter? hFrame.scope, checkSelfSetter_congr hFrame h, checkFieldSend_congr hFrame h.toAlike]
  generalize m.target? = target, m'.target? = target' at hTarget
  cases hTarget with
  | none => rfl
  | some hTarget => simp only [hTarget.isSelf, hTarget.fieldOf?]

theorem checkTeardown_congr (n : Nat) (store : Store) (s : DelegateState) :
    checkTeardown config facts ⟨frame, n, store⟩ s =
      checkTeardown config facts ⟨frame', n, store⟩ s := by
  simp only [checkTeardown, hFrame.lang, hFrame.selector, hFrame.range, verifyField_congr hFrame]

end

theorem assignedField?_eq_slot (scope : ClassScope) (target value : Expr) (r : SourceRange) :
    assignedField? scope (.assign target value r) = match target.slot? with
      | some (.field name) =>
        if (scope.field? name).any fun decl => decl.type.className?.isSome then some name else none
      | _ => none := by
  rw [assignedField?, Expr.slot?]
  cases target.strip <;> rfl

/-! ## Evaluation -/

theorem consult_congr {f g : Site → DelegateState → DelegateState × List Diagnostic}
    (h : ∀ n store s, f ⟨frame, n, store⟩ s = g ⟨frame', n, store⟩ s) :
    consult frame f = consult frame' g := by
  funext p
  simp only [consult, h]

/-- An expression that assigns to no field opens the path and is passed over. -/
theorem consult_beforeEffect_eq {e : Expr} (hAssigned : assignedField? frame.scope e = none)
    (p : Path DelegateState) :
    consult frame (fun site s => (delegatePaths config known).beforeEffect site s e) p =
      ⟨(), { p with
        state := openPath (known.find? frame.className) ⟨frame, p.id, p.store⟩ p.state }, []⟩ := by
  simp only [consult, delegatePaths, checkAssignment, hAssigned, Option.elim_none, ite_self]
  cases known.find? frame.className <;> rfl

theorem splitOperands_congr {R : Expr → Expr → Prop} {m m' : Message Expr}
    (h : Option.Rel R m.target? m'.target?) (values : List Nullness) :
    splitOperands m values = splitOperands m' values := by
  unfold splitOperands
  generalize m.target? = target, m'.target? = target' at h
  cases h <;> rfl

section

include hFrame

theorem beforeEffect_congr (e e' : Expr)
    (hAssigned : assignedField? frame.scope e = assignedField? frame'.scope e')
    (hRange : e.range = e'.range) :
    consult frame (fun site s => (delegatePaths config known).beforeEffect site s e) =
      consult frame' fun site s => (delegatePaths config known).beforeEffect site s e' := by
  have hClass : frame.className = frame'.className := hFrame.scope.className
  refine consult_congr fun n store s => ?_
  simp only [delegatePaths, checkAssignment, hClass, openPath_congr hFrame, hFrame.lang, hAssigned,
    hRange, verifyField_congr hFrame]

theorem afterSend_congr {m m' : Message Expr} (h : m.AlikeSent frame.scope frame'.scope m')
    (r : SourceRange) (receiver : Nullness) (args : List Nullness) :
    consult frame (fun site s => (delegatePaths config known).afterSend site s
        ⟨.send m r, m, receiver, args, frame.scope.definition? m⟩) =
      consult frame' fun site s => (delegatePaths config known).afterSend site s
        ⟨.send m' r, m', receiver, args, frame'.scope.definition? m'⟩ := by
  have hClass : frame.className = frame'.className := hFrame.scope.className
  refine consult_congr fun n store s => ?_
  simp only [delegatePaths, hClass, openPath_congr hFrame, checkSend_congr hFrame h]

theorem atEnd_congr : consult frame (delegatePaths config known).atEnd =
    consult frame' (delegatePaths config known).atEnd := by
  have hClass : frame.className = frame'.className := hFrame.scope.className
  refine consult_congr fun n store s => ?_
  simp only [delegatePaths, hClass, openPath_congr hFrame, checkTeardown_congr hFrame]

omit hFrame in
theorem isSynthesizedOnSelf_congr {m m' : Message Expr} (h : m.AlikeSent frame.scope frame'.scope m') :
    frame.isSynthesizedOnSelf m = frame'.isSynthesizedOnSelf m' := by
  have hImplicit := congrArg (Option.all Prod.fst) (h.definition?)
  rw [Option.all_map, Option.all_map] at hImplicit
  rw [Frame.isSynthesizedOnSelf, Frame.isSynthesizedOnSelf, h.isSelf_target?]
  exact congrArg _ hImplicit

theorem sendEffect_congr {m m' : Message Expr} (h : m.AlikeSent frame.scope frame'.scope m')
    (receiver : Nullness) (args : List Nullness) :
    (sendEffect frame m receiver args : PathM DelegateState Diagnostic Nullness) =
      sendEffect frame' m' receiver args := by
  simp only [sendEffect, Frame.readField?, Frame.writtenField?, isSynthesizedOnSelf_congr h,
    h.getter? hFrame.scope, h.setter? hFrame.scope]

theorem evaluateSend_congr {m m' : Message Expr} (h : m.AlikeSent frame.scope frame'.scope m')
    (r : SourceRange) (values : List Nullness) :
    evaluateSend frame (delegatePaths config known) (.send m r) m values =
      evaluateSend frame' (delegatePaths config known) (.send m' r) m' values := by
  simp only [evaluateSend, splitOperands_congr h.target?, sendEffect_congr hFrame h,
    afterSend_congr hFrame h]

/-- Expressions of the same effect are evaluated alike once their operands are. -/
theorem evaluate_congr {e e' : Expr}
    (hOperands : e.operands.map (evaluate frame (delegatePaths config known)) =
      e'.operands.map (evaluate frame' (delegatePaths config known)))
    (hAssigned : assignedField? frame.scope e = assignedField? frame'.scope e')
    (hRange : e.range = e'.range)
    (hEffect : effect frame (delegatePaths config known) e =
      effect frame' (delegatePaths config known) e') :
    evaluate frame (delegatePaths config known) e =
      evaluate frame' (delegatePaths config known) e' := by
  rw [evaluate_eq, evaluate_eq, hOperands, hEffect, beforeEffect_congr hFrame e e' hAssigned hRange]

theorem evaluate_send_congr {m m' : Message Expr} (h : m.AlikeSent frame.scope frame'.scope m')
    (hOperands : m.operands.map (evaluate frame (delegatePaths config known)) =
      m'.operands.map (evaluate frame' (delegatePaths config known))) (r : SourceRange) :
    evaluate frame (delegatePaths config known) (.send m r) =
      evaluate frame' (delegatePaths config known) (.send m' r) :=
  evaluate_congr hFrame hOperands rfl rfl (funext fun values => evaluateSend_congr hFrame h r values)

/-- The same node over parts that are alike and evaluated alike is evaluated alike. -/
theorem evaluate_of_operands {e : Expr} {parts : List Expr}
    (hAlike : List.Forall₂ (Expr.Alike frame.scope frame'.scope) e.operands parts)
    (hSent : ∀ m r m', e = .send m r → m.Alike frame.scope frame'.scope m' →
      m.AlikeSent frame.scope frame'.scope m')
    (hOperands : e.operands.map (evaluate frame (delegatePaths config known)) =
      parts.map (evaluate frame' (delegatePaths config known))) :
    evaluate frame (delegatePaths config known) e =
      evaluate frame' (delegatePaths config known) (e.withOperands parts) := by
  cases e with
  | self _ | nil _ | int _ _ | selector _ _ | var _ _ _ | field _ _ =>
    cases hAlike
    exact evaluate_congr hFrame hOperands rfl rfl rfl
  | send m r =>
    obtain ⟨m', hSend, hParts, hMessage⟩ := Message.Alike.of_operands hAlike r
    rw [hSend]
    exact evaluate_send_congr hFrame (hSent m r m' rfl hMessage) (hParts ▸ hOperands) r
  | assign target value r =>
    obtain _ | ⟨hTarget, _ | ⟨-, ⟨⟩⟩⟩ := hAlike
    refine evaluate_congr hFrame hOperands ?_ rfl ?_
    · rw [Expr.withOperands, assignedField?_eq_slot, assignedField?_eq_slot, hTarget.slot?,
        hFrame.scope.field?]
    · funext values
      simp only [Expr.withOperands, effect, hTarget.slot?]
  | binary _ _ _ _ =>
    obtain _ | ⟨-, _ | ⟨-, ⟨⟩⟩⟩ := hAlike
    exact evaluate_congr hFrame hOperands rfl rfl rfl
  | unary _ _ _ | paren _ _ | cast _ _ _ =>
    obtain _ | ⟨-, ⟨⟩⟩ := hAlike
    exact evaluate_congr hFrame hOperands rfl rfl rfl
  | call _ _ _ | other _ _ =>
    exact evaluate_congr hFrame hOperands rfl rfl rfl

end

/-! ## Conditions -/

/-- The check that takes conditions as guards only for the class that the path belongs to. There are no
other paths. -/
def confinedPaths (config : DelegateConfig) (known : FactsByClass) (className : String) :
    PathCheck DelegateState Diagnostic :=
  { delegatePaths config known with
    assume := fun subject s cond truth =>
      if s.currentClass = some className then acceptBranch config known subject s cond truth else s }

theorem evaluate_confined (className : String) (e : Expr) :
    evaluate frame (confinedPaths config known className) e =
      evaluate frame (delegatePaths config known) e := rfl

/-- A path of the class before the first callback, or after it. -/
def DelegateState.Belongs (className : String) (s : DelegateState) : Prop :=
  s = .start ∨ s.IsOpen className

theorem DelegateState.Belongs.isOpen_openPath (known? : Option ClassFacts) (site : Site)
    {s : DelegateState} (h : s.Belongs site.frame.className) :
    (openPath known? site s).IsOpen site.frame.className := by
  obtain rfl | hOpen := h
  · exact DelegateSafety.isOpen_openPath known? site rfl
  · rwa [openPath_of_isOpen hOpen]

theorem acceptBranch_start (subject : Subject) (cond : Expr) (truth : Bool) :
    acceptBranch config known subject .start cond truth = .start :=
  ite_self _

theorem explore_confined (frame : Frame) (limits : Limits) :
    (explore frame limits (confinedPaths config known frame.className)).forks =
        (explore frame limits (delegatePaths config known)).forks ∧
      (explore frame limits (confinedPaths config known frame.className)).stats =
        (explore frame limits (delegatePaths config known)).stats ∧
      (explore frame limits (confinedPaths config known frame.className)).reports =
        (explore frame limits (delegatePaths config known)).reports := by
  have hLockstep : Lockstep frame (fun _ => True) (confinedPaths config known frame.className)
      (delegatePaths config known) (fun s t => s = t ∧ s.Belongs frame.className)
      (fun s t => s = t ∧ s.Belongs frame.className) Eq := {
    nil := rfl
    append := by
      rintro _ _ _ _ rfl rfl
      rfl
    start := ⟨rfl, .inl rfl⟩
    fresh := id
    beforeEffect := by
      rintro s _ n store e - ⟨rfl, h⟩
      exact ⟨⟨rfl, .inr (h.isOpen_openPath _ ⟨frame, n, store⟩)⟩, rfl⟩
    afterSend := by
      rintro s _ n store m r receiver args - ⟨rfl, h⟩
      refine ⟨⟨rfl, ?_⟩, rfl⟩
      obtain ⟨transitions, hState⟩ := @exists_afterSend_fst config known ⟨frame, n, store⟩ s
        ⟨.send m r, m, receiver, args, frame.scope.definition? m⟩
      exact .inr (hState ▸ (h.isOpen_openPath _ ⟨frame, n, store⟩).foldl_apply transitions)
    assumed := by
      rintro s _ cond truth - ⟨rfl, rfl | hOpen⟩
      · have hStart := @acceptBranch_start config known frame.subject cond truth
        exact ⟨hStart.symm, .inl rfl⟩
      · have hAssume : (confinedPaths config known frame.className).assume frame.subject s cond truth =
            acceptBranch config known frame.subject s cond truth := if_pos hOpen.currentClass
        obtain ⟨transitions, hState⟩ := @exists_acceptBranch config known frame.subject s cond truth
        refine ⟨hAssume, .inr ?_⟩
        rw [hAssume, hState]
        exact hOpen.foldl_apply transitions
    atEnd := by
      rintro s _ n store ⟨rfl, -⟩
      rfl }
  exact (hLockstep.explore_alike limits fun _ _ _ _ => trivial).2

/-! ## Methods made of what may be exchanged -/

/-- Expressions that are alike and evaluated alike. -/
structure Expr.Exchangeable (config : DelegateConfig) (known : FactsByClass) (frame frame' : Frame)
    (e e' : Expr) : Prop extends e.Alike frame.scope frame'.scope e' where
  evaluate : evaluate frame (delegatePaths config known) e =
    evaluate frame' (delegatePaths config known) e'

theorem Expr.Exchangeable.trans {frame'' : Frame} {e d e' : Expr}
    (h : e.Exchangeable config known frame frame' d) (h' : d.Exchangeable config known frame' frame'' e') :
    e.Exchangeable config known frame frame'' e' :=
  ⟨h.toAlike.trans h'.toAlike, h.evaluate.trans h'.evaluate⟩

section

include hFrame

theorem Expr.Exchangeable.of_operands {e : Expr} {parts : List Expr}
    (h : List.Forall₂ (Exchangeable config known frame frame') e.operands parts)
    (hSent : ∀ m r m', e = .send m r → m.Alike frame.scope frame'.scope m' →
      m.AlikeSent frame.scope frame'.scope m') :
    e.Exchangeable config known frame frame' (e.withOperands parts) := by
  have hAlike := h.imp fun _ _ hPart => hPart.toAlike
  exact ⟨.of_operands hFrame.scope hAlike,
    evaluate_of_operands hFrame hAlike hSent (map_eq_of_rel h fun _ _ hPart => hPart.evaluate)⟩

theorem acceptBranch_congr {e e' : Expr} (h : e.Alike frame.scope frame'.scope e') {s : DelegateState}
    (hClass : s.currentClass = some frame.className) (truth : Bool) :
    acceptBranch config known frame.subject s e truth =
      acceptBranch config known frame'.subject s e' truth := by
  have hSame : frame.className = frame'.className := hFrame.scope.className
  have hScope : (⟨frame'.subject.unit, frame.className⟩ : ClassScope) = frame'.scope := by
    rw [hSame]
    rfl
  simp only [acceptBranch, hClass, hScope, ← h.safeOutcomes]
  rfl

theorem Expr.Exchangeable.replaces {e e' : Expr} (h : e.Exchangeable config known frame frame' e') :
    Replaces frame frame' (confinedPaths config known frame.className) e e' where
  evaluate := by rw [evaluate_confined, evaluate_confined, h.evaluate]
  assume := by
    funext truth p
    have hAccept := fun hClass =>
      @acceptBranch_congr config known frame frame' hFrame e e' h.toAlike p.state hClass truth
    simp only [assume, h.refine, confinedPaths]
    split
    · rename_i hClass
      rw [hAccept hClass]
    · rfl

/-- Exploring two methods comes to the same if their bodies are related in such a way. -/
theorem explore_exchangeable (hBody : Option.Rel
      (Stmt.Related (Expr.Exchangeable config known frame frame')) frame.method.body
      frame'.method.body) (limits : Limits) :
    (explore frame limits (delegatePaths config known)).stats =
        (explore frame' limits (delegatePaths config known)).stats ∧
      (explore frame limits (delegatePaths config known)).reports =
        (explore frame' limits (delegatePaths config known)).reports := by
  obtain ⟨-, hStats, hReports⟩ := @explore_confined config known frame limits
  obtain ⟨-, hStats', hReports'⟩ := @explore_confined config known frame' limits
  have hSame : frame.className = frame'.className := hFrame.scope.className
  have hEnd : consult frame (confinedPaths config known frame.className).atEnd =
    consult frame' (confinedPaths config known frame.className).atEnd := atEnd_congr hFrame
  have hExplore := explore_congr limits hEnd
    (rel_mono (fun s _ => s.related_mono fun _ _ h => h.replaces hFrame) hBody)
  rw [← hStats, ← hReports, ← hStats', ← hReports', ← hSame, hExplore]
  exact ⟨rfl, rfl⟩

end

/-! ## Units that declare the same -/

section

variable (hMatches : frame.Matches frame')

include hMatches

/-- Steps to what may be exchanged lead to what may be exchanged. -/
theorem Expr.Rewrites.exchangeable {step : Expr → Expr → Prop}
    (hStep : ∀ e d, step e d → e.Exchangeable config known frame frame d) {e e' : Expr}
    (h : Rewrites step e e') : e.Exchangeable config known frame frame' e' :=
  inductionOn (P := Exchangeable config known frame frame')
    (fun _ _ _ hParts => .of_operands hMatches.resembles hParts
      fun _ _ _ _ hAlike => hAlike.sent hMatches.scope)
    (fun e d _ hHere hRest => (hStep e d hHere).trans hRest) h

theorem Expr.exchangeable_of_matches (e : Expr) : e.Exchangeable config known frame frame' e :=
  (@Rewrites.refl (fun _ _ => False) e).exchangeable hMatches nofun

/-- No expression makes a difference in units that declare the same, on whatever paths. -/
theorem replaces_of_matches (e : Expr) :
    Replaces frame frame' (delegatePaths config known) e e where
  evaluate := (Expr.exchangeable_of_matches hMatches e).evaluate
  assume := by
    funext truth p
    have hScope (className : String) : ClassScope.Matches ⟨frame.subject.unit, className⟩
        ⟨frame'.subject.unit, className⟩ := ⟨rfl, hMatches.scope.unit⟩
    have hOutcomes := fun className facts =>
      (Expr.Alike.of_resembles (hScope className).resembles e).safeOutcomes facts truth
    simp only [assume, delegatePaths, acceptBranch, hOutcomes]

theorem execute_matches (limits : Limits) (s : Stmt) :
    execute frame limits (delegatePaths config known) s =
      execute frame' limits (delegatePaths config known) s :=
  execute_congr limits (atEnd_congr hMatches.resembles) s (Stmt.related_refl (replaces_of_matches hMatches) s)

/-- The same method is explored alike in units that declare the same. -/
theorem explore_eq_of_matches (hBody : frame.method.body = frame'.method.body) (limits : Limits) :
    explore frame limits (delegatePaths config known) =
      explore frame' limits (delegatePaths config known) :=
  explore_congr limits (atEnd_congr hMatches.resembles)
    (hBody ▸ rel_refl (Stmt.related_refl (replaces_of_matches hMatches)) frame.method.body)

theorem explore_matches (hMethod : frame.method = frame'.method) (limits : Limits) :
    (explore frame limits (delegatePaths config known)).stats =
        (explore frame' limits (delegatePaths config known)).stats ∧
      (explore frame limits (delegatePaths config known)).reports =
        (explore frame' limits (delegatePaths config known)).reports := by
  rw [explore_eq_of_matches hMatches (congrArg _ hMethod)]
  exact ⟨rfl, rfl⟩

end

end DelegateSafety
