import DelegateSafety.Proofs.Exchange
import DelegateSafety.Sample.Units

/-! # How paths open

No call says that a path begins, so each call has to see to it that the path is open, and the taking up of
a condition relies on an earlier one. A check that finds its paths open from the start and never opens one
makes the same exploration (`openedPaths`): a path opens once, before anything else is done about it, and
no condition is met by a path that does not know its class yet.
-/
namespace DelegateSafety

/-- How the paths of a method begin. Set-up code begins with everything cleared that its class may have to
clear. -/
def Frame.opening (frame : Frame) (facts : Option ClassFacts) : DelegateState where
  fields := match facts.filter (·.isPseudoInit frame.method.selector) with
    | some facts => facts.fields.filterMap fun _ fieldFacts => some (.all fieldFacts)
    | none => ∅
  isInitialized := true
  currentClass := some frame.className

/-- The check of one method on paths that are open from the start. It opens none, and it takes every
condition for one that its class meets. -/
def openedPaths (config : DelegateConfig) (known : FactsByClass) (frame : Frame) :
    PathCheck DelegateState Diagnostic :=
  let facts? := known.find? frame.className
  { start := frame.opening facts?
    beforeEffect := fun site s e => (s, facts?.elim [] fun facts => checkAssignment config facts site s e)
    afterSend := fun site s event =>
      facts?.elim (s, []) fun facts => checkSend config facts site s event
    assume := fun subject s cond truth => facts?.elim s fun facts =>
      if config.assumeSafeBranch then
        (safeOutcomes ⟨subject.unit, frame.className⟩ facts truth cond).foldl (applyOutcome facts) s
      else s
    atEnd := fun site s => (s, facts?.elim [] fun facts => checkTeardown config facts site s) }

/-! ## The opening -/

theorem find?_fields_clearFields {entries : List (String × FieldFacts)}
    (hSorted : entries.Pairwise (·.1 < ·.1)) (s : DelegateState) (name : String) :
    (s.clearFields entries).fields.find? name =
      ((entries.lookup name).map .all).or (s.fields.find? name) := by
  induction entries generalizing s with
  | nil => rfl
  | cons entry rest ih =>
    obtain ⟨key, fieldFacts⟩ := entry
    obtain ⟨hBelow, hRest⟩ := List.pairwise_cons.mp hSorted
    rw [DelegateState.clearFields, List.foldl_cons, ← DelegateState.clearFields, ih hRest,
      NameMap.lookup_cons]
    by_cases hName : name = key
    · subst hName
      simp [NameMap.lookup_eq_none_of_lt hBelow, DelegateState.set]
    · simp [hName, DelegateState.set]

theorem clearFields_begin (facts : ClassFacts) (className : String) :
    (DelegateState.start.begin className).clearFields facts.fields.entries =
      ⟨facts.fields.filterMap fun _ fieldFacts => some (.all fieldFacts), true, some className⟩ := by
  have hOpen := (DelegateState.start.isOpen_begin className).foldl_apply
    (facts.fields.entries.map fun entry => .clearAll entry.1 entry.2)
  rw [← DelegateState.clearFields_eq] at hOpen
  have hFields : ((DelegateState.start.begin className).clearFields facts.fields.entries).fields =
      facts.fields.filterMap fun _ fieldFacts => some (.all fieldFacts) := by
    refine NameMap.ext_find? fun name => ?_
    rw [find?_fields_clearFields facts.fields.sorted, NameMap.find?_filterMap]
    change ((facts.fields.find? name).map Cleared.all).or none = _
    cases facts.fields.find? name <;> rfl
  generalize (DelegateState.start.begin className).clearFields facts.fields.entries = s at hOpen hFields
  obtain ⟨fields, isInitialized, currentClass⟩ := s
  obtain ⟨rfl, rfl⟩ := hOpen
  rw [← hFields]

/-- The first call finds the path open as its method has it. -/
theorem openPath_start_eq_opening (known? : Option ClassFacts) (site : Site) :
    openPath known? site .start = site.frame.opening known? := by
  rw [openPath, if_neg (by decide), Frame.opening]
  cases known?.filter (·.isPseudoInit site.frame.method.selector) with
  | none => rfl
  | some facts => exact clearFields_begin facts _

theorem isOpen_opening (frame : Frame) (facts : Option ClassFacts) :
    (frame.opening facts).IsOpen frame.className :=
  ⟨rfl, rfl⟩

/-! ## Answers -/

section

variable {config : DelegateConfig} {known : FactsByClass} {frame : Frame} {inside : Expr → Prop}
  {call : Callback} {s : DelegateState}

/-- On an open path no call opens anything, and every condition is met by the class of the method. -/
theorem answer_opened (hFits : call.Fits frame inside) (h : s.IsOpen frame.className) :
    (delegatePaths config known).answer call s = (openedPaths config known frame).answer call s := by
  cases call with
  | beforeEffect site e =>
    obtain ⟨rfl, -⟩ := hFits
    simp only [PathCheck.answer, delegatePaths, openedPaths, openPath_of_isOpen h]
  | afterSend site event =>
    obtain ⟨rfl, -⟩ := hFits
    simp only [PathCheck.answer, delegatePaths, openedPaths, openPath_of_isOpen h]
  | atEnd site =>
    obtain rfl := hFits
    simp only [PathCheck.answer, delegatePaths, openedPaths, openPath_of_isOpen h]
  | assume subject cond truth =>
    obtain ⟨rfl, -⟩ := hFits
    simp only [PathCheck.answer, delegatePaths, openedPaths, acceptBranch, h.currentClass]
    cases known.find? frame.className <;> simp

/-- What the first call does is done on a path that has been opened by then. -/
theorem answer_first (hFits : call.Fits frame inside) (hOpened : call.isAssume = false) :
    (delegatePaths config known).answer call .start =
      (openedPaths config known frame).answer call (frame.opening (known.find? frame.className)) := by
  rw [← answer_opened hFits (isOpen_opening frame _)]
  have hAgain (site : Site) (h : site.frame = frame) :
      openPath (known.find? site.frame.className) site (frame.opening (known.find? frame.className)) =
        openPath (known.find? site.frame.className) site .start := by
    subst h
    rw [openPath_of_isOpen (isOpen_opening site.frame _), openPath_start_eq_opening]
  cases call with
  | beforeEffect site e => simp only [PathCheck.answer, delegatePaths, hAgain site hFits.1]
  | afterSend site event => simp only [PathCheck.answer, delegatePaths, hAgain site hFits.1]
  | atEnd site => simp only [PathCheck.answer, delegatePaths, hAgain site hFits]
  | assume subject cond truth => cases hOpened

theorem isOpen_answer (hFits : call.Fits frame inside) (h : s.Belongs frame.className)
    (hOpened : s = .start → call.isAssume = false) :
    ((delegatePaths config known).answer call s).1.IsOpen frame.className := by
  cases call with
  | beforeEffect site e =>
    obtain ⟨rfl, -⟩ := hFits
    exact h.isOpen_openPath _ site
  | atEnd site =>
    obtain rfl := hFits
    exact h.isOpen_openPath _ site
  | afterSend site event =>
    obtain ⟨rfl, -⟩ := hFits
    obtain ⟨transitions, hState⟩ := @exists_afterSend_fst config known site s event
    rw [PathCheck.answer, hState]
    exact (h.isOpen_openPath _ site).foldl_apply transitions
  | assume subject cond truth =>
    obtain rfl | hOpen := h
    · cases hOpened rfl
    · obtain ⟨transitions, hState⟩ := @exists_acceptBranch config known subject s cond truth
      change (acceptBranch config known subject s cond truth).IsOpen frame.className
      rw [hState]
      exact hOpen.foldl_apply transitions

/-! ## Paths -/

/-- Before the first call a path is as it starts, and after that it is open. -/
theorem belongs_replay {made : List Callback} (hHistory : History frame inside made) :
    made = [] ∧ (delegatePaths config known).replay made = .start ∨
      made ≠ [] ∧ ((delegatePaths config known).replay made).IsOpen frame.className := by
  induction made using List.reverseRecOn with
  | nil => exact .inl ⟨rfl, rfl⟩
  | append_singleton before call ih =>
    refine .inr ⟨by simp, ?_⟩
    have hFits := hHistory.fits call (List.mem_append_right _ List.mem_cons_self)
    rw [PathCheck.replay_concat]
    rcases ih (hHistory.of_isPrefix (List.prefix_append _ _)) with ⟨rfl, hStart⟩ | ⟨-, hOpen⟩
    · exact isOpen_answer hFits (.inl hStart) fun _ => hHistory.opened call rfl
    · refine isOpen_answer hFits (.inr hOpen) fun hStart => ?_
      cases (hStart ▸ hOpen.isInitialized : DelegateState.start.isInitialized = true)

end

/-- Nothing is changed by opening paths at the start instead of at their first calls. -/
theorem explore_opened (config : DelegateConfig) (known : FactsByClass) (frame : Frame) (limits : Limits) :
    explore frame limits (delegatePaths config known) =
      explore frame limits (openedPaths config known frame) := by
  have hLockstep : Lockstep frame (fun _ => True) (delegatePaths config known)
      (openedPaths config known frame)
      (fun s t => s = .start ∧ t = frame.opening (known.find? frame.className) ∨
        s = t ∧ s.IsOpen frame.className)
      (fun s t => s = t ∧ s.IsOpen frame.className) Eq := by
    -- A call that is no condition is answered alike on paths that have been called and on others.
    have hAnswer : ∀ {s t : DelegateState} (call : Callback),
        (s = .start ∧ t = frame.opening (known.find? frame.className) ∨ s = t ∧ s.IsOpen frame.className) →
        call.Fits frame (fun _ => True) → call.isAssume = false →
        (delegatePaths config known).answer call s = (openedPaths config known frame).answer call t ∧
          ((delegatePaths config known).answer call s).1.IsOpen frame.className := by
      rintro s t call (⟨rfl, rfl⟩ | ⟨rfl, hOpen⟩) hFits hCall
      · exact ⟨answer_first hFits hCall, isOpen_answer hFits (.inl rfl) fun _ => hCall⟩
      · exact ⟨answer_opened hFits hOpen, isOpen_answer hFits (.inr hOpen) fun _ => hCall⟩
    exact {
      nil := rfl
      append := by
        rintro _ _ _ _ rfl rfl
        rfl
      start := .inl ⟨rfl, rfl⟩
      fresh := .inr
      beforeEffect := by
        intro s t n store e _ h
        obtain ⟨hEq, hOpen⟩ := hAnswer (.beforeEffect ⟨frame, n, store⟩ e) h ⟨rfl, trivial⟩ rfl
        exact ⟨⟨congrArg Prod.fst hEq, hOpen⟩, congrArg Prod.snd hEq⟩
      afterSend := by
        intro s t n store m r receiver args _ h
        obtain ⟨hEq, hOpen⟩ := hAnswer (.afterSend ⟨frame, n, store⟩
          ⟨.send m r, m, receiver, args, frame.scope.definition? m⟩) (.inr h)
          ⟨rfl, trivial, ⟨r, rfl⟩, rfl⟩ rfl
        exact ⟨⟨congrArg Prod.fst hEq, hOpen⟩, congrArg Prod.snd hEq⟩
      assumed := by
        rintro s _ cond truth - ⟨rfl, hOpen⟩
        have hFits : Callback.Fits frame (fun _ => True) (.assume frame.subject cond truth) := ⟨rfl, trivial⟩
        have hEq := congrArg Prod.fst (@answer_opened config known frame _ _ s hFits hOpen)
        exact ⟨hEq, @isOpen_answer config known frame _ _ s hFits (.inr hOpen) fun hStart => by
          cases (hStart ▸ hOpen.isInitialized : DelegateState.start.isInitialized = true)⟩
      atEnd := by
        intro s t n store h
        exact congrArg Prod.snd (hAnswer (.atEnd ⟨frame, n, store⟩) h rfl rfl).1 }
  exact hLockstep.explore_eq limits fun _ _ _ _ => trivial

/-- The first call of a path opens it, before it does anything else; from then on the path stays open and
no call opens it again; and every condition is taken up on an open path. Opening is all that a path does
about beginning: the exploration is that of paths which are open from the start. -/
theorem paths_open_once (config : DelegateConfig) (known : FactsByClass) (frame : Frame) (limits : Limits) :
    let check := delegatePaths config known
    let opened := openedPaths config known frame
    explore frame limits check = explore frame limits opened ∧
    ∀ p ∈ (explore frame limits check.traced).reports,
      ∀ before call, before ++ [call] <+: p.state.made →
        (check.replay (before ++ [call])).IsOpen frame.className ∧
        (call.isAssume = true → (check.replay before).IsOpen frame.className) ∧
        check.answer call (check.replay before) =
          opened.answer call (if before.isEmpty then opened.start else check.replay before) := by
  intro check opened
  refine ⟨explore_opened config known frame limits, fun p hp before call hMade => ?_⟩
  have hHistory := (explained_of_mem_traced frame limits check hp).history.of_isPrefix hMade
  have hFits := hHistory.fits call (List.mem_append_right _ List.mem_cons_self)
  have hAfter : (check.replay (before ++ [call])).IsOpen frame.className := by
    rcases belongs_replay hHistory with ⟨hNil, -⟩ | ⟨-, hOpen⟩
    · simp at hNil
    · exact hOpen
  rcases belongs_replay (hHistory.of_isPrefix (List.prefix_append _ _)) with ⟨rfl, hStart⟩ | ⟨hBefore, hOpen⟩
  · have hFirst : call.isAssume = false := hHistory.opened call rfl
    refine ⟨hAfter, fun hAssume => ?_, ?_⟩
    · rw [hFirst] at hAssume
      cases hAssume
    · exact answer_first hFits hFirst
  · refine ⟨hAfter, fun _ => hOpen, ?_⟩
    rw [if_neg (by simpa using hBefore)]
    exact answer_opened hFits hOpen

open Sample in
/-- In `init` all is cleared before the first call, and `self` stored after. -/
theorem opened_init :
    let unit := delegatePair [
      method "init" [.expr (setProperty (.field "_bar" .unknown) "delegate" (.self .unknown))]]
    let check := delegatePaths .default (knownFacts unit)
    let opened := openedPaths .default (knownFacts unit) (fooFrame unit 0)
    opened.start.fields.find? "_bar" = some ⟨.ofList ["delegate"], false, false⟩ ∧
    ∃ p ∈ (explore (fooFrame unit 0) ⟨512, 2⟩ check.traced).reports, p.state.made.length = 4 ∧
      ∀ before call, before ++ [call] <+: p.state.made →
        check.answer call (check.replay before) =
          opened.answer call (if before.isEmpty then opened.start else check.replay before) := by
  intro unit check opened
  have hShown : ∃ p ∈ (explore (fooFrame unit 0) ⟨512, 2⟩ check.traced).reports,
      p.state.made.length = 4 := by decide +kernel
  obtain ⟨p, hp, hLength⟩ := hShown
  refine ⟨by decide +kernel, p, hp, hLength, fun before call hMade => ?_⟩
  exact ((paths_open_once .default (knownFacts unit) (fooFrame unit 0) ⟨512, 2⟩).2 p hp before call hMade).2.2

end DelegateSafety
