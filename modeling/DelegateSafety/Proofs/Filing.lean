import DelegateSafety.Proofs.LastChange
import DelegateSafety.Proofs.Recording

/-! # What is filed at a call

Which calls are made along which paths does not depend on the check (`map_made_traced`), and what the
check reports is what it answers to them (`reports_explore`). For dangling delegates an answer says
which fields the call lets go (`Callback.releases`), and of these what the path has not cleared before
(`filed_answer`, `mem_openPath_iff`).
-/
namespace DelegateSafety

variable {σ ρ : Type}

/-! ## The calls of a method -/

def Callback.site? : Callback → Option Site
  | beforeEffect site _ | afterSend site _ | atEnd site => some site
  | assume _ _ _ => none

theorem Callback.Fits.frame_eq {frame : Frame} {inside : Expr → Prop} {call : Callback} {site : Site}
    (h : call.Fits frame inside) (hSite : call.site? = some site) : site.frame = frame := by
  cases call with
  | assume subject cond truth => cases hSite
  | beforeEffect s e =>
    cases hSite
    exact h.1
  | afterSend s event =>
    cases hSite
    exact h.1
  | atEnd s =>
    cases hSite
    exact h

/-- A check that neither remembers nor reports. -/
def PathCheck.silent : PathCheck Unit Empty where
  start := ()
  beforeEffect _ _ _ := ((), [])
  afterSend _ _ _ := ((), [])
  assume _ _ _ _ := ()
  atEnd _ _ := ((), [])

/-- The calls made along a path so far, for each time that one is shown. -/
def shownCalls (frame : Frame) (limits : Limits) : List (List Callback) :=
  (explore frame limits PathCheck.silent.traced).reports.map (·.state.made)

/-- What the last of some calls has the check file. -/
def PathCheck.filed (check : PathCheck σ ρ) (made : List Callback) : List ρ :=
  made.getLast?.elim [] fun call => (check.answer call (check.replay made.dropLast)).2

@[simp] theorem PathCheck.filed_concat (check : PathCheck σ ρ) (before : List Callback)
    (call : Callback) :
    check.filed (before ++ [call]) = (check.answer call (check.replay before)).2 := by
  simp [PathCheck.filed]

section

variable (frame : Frame) (limits : Limits) (check : PathCheck σ ρ)

theorem explore_traced_silent :
    (explore frame limits check.traced).stats =
      (explore frame limits PathCheck.silent.traced).stats ∧
    (explore frame limits check.traced).reports.map (·.state.made) = shownCalls frame limits := by
  have hLockstep : Lockstep frame (fun _ => True) check.traced PathCheck.silent.traced
      (fun t u => t.made = u.made) (fun t u => t.made = u.made)
      (fun ps qs => ps.map (·.state.made) = qs.map (·.state.made)) := {
    nil := rfl
    append := fun h h' => by rw [List.map_append, List.map_append, h, h']
    start := rfl
    fresh := id
    beforeEffect := fun n store e _ h => by simp [PathCheck.traced, Traced.extend, h]
    afterSend := fun n store m r receiver args _ h => by simp [PathCheck.traced, Traced.extend, h]
    assumed := fun cond truth _ h => by simp [PathCheck.traced, Traced.extend, h]
    atEnd := fun n store h => by simp [PathCheck.traced, Traced.extend, h] }
  obtain ⟨-, -, hStats, hReports⟩ := hLockstep.explore_alike limits fun _ _ _ _ => trivial
  exact ⟨hStats, hReports⟩

theorem map_made_traced :
    (explore frame limits check.traced).reports.map (·.state.made) = shownCalls frame limits :=
  (explore_traced_silent frame limits check).2

theorem stats_explore :
    (explore frame limits check).stats = (explore frame limits PathCheck.silent.traced).stats := by
  rw [← (explore_traced frame limits check).2.2.1]
  exact (explore_traced_silent frame limits check).1

variable {frame limits check}

theorem filed_of_mem_traced {p : Path (Traced σ ρ)}
    (hp : p ∈ (explore frame limits check.traced).reports) :
    p.state.filed = check.filed p.state.made := by
  obtain ⟨-, before, call, hMade, -, -, hFiled⟩ := isShown_of_mem_traced frame limits check hp
  rw [hFiled, hMade, PathCheck.filed_concat]

/-- A check reports what it answers to the calls that any check gets. -/
theorem reports_explore :
    (explore frame limits check).reports = (shownCalls frame limits).flatMap check.filed := by
  obtain ⟨-, -, -, hReports⟩ := explore_traced frame limits check
  rw [← hReports, ← map_made_traced frame limits check, List.flatMap_map]
  exact List.flatMap_congr fun p hp => filed_of_mem_traced hp

theorem exists_concat_of_mem_shownCalls {made : List Callback}
    (h : made ∈ shownCalls frame limits) :
    History frame (· ∈ frame.exprs) made ∧ ∃ before call, made = before ++ [call] := by
  obtain ⟨p, hp, rfl⟩ := List.mem_map.mp h
  obtain ⟨hHistory, before, call, hMade, -⟩ := isShown_of_mem_traced _ _ _ hp
  exact ⟨hHistory, before, call, hMade⟩

theorem site_of_mem_traced {p : Path (Traced σ ρ)}
    (hp : p ∈ (explore frame limits check.traced).reports) :
    ∀ call ∈ p.state.made.getLast?, ∀ site ∈ call.site?, site = ⟨frame, p.id, p.store⟩ := by
  have hShow : ∀ (t : Traced σ ρ) (call : Callback) (n store),
      (∀ site ∈ call.site?, site = ⟨frame, n, store⟩) →
      ∀ q ∈ [(⟨n, store, t.extend check call⟩ : Path (Traced σ ρ))],
        ∀ call ∈ q.state.made.getLast?, ∀ site ∈ call.site?, site = ⟨frame, q.id, q.store⟩ := by
    intro t call n store hSite
    simpa [Traced.extend] using hSite
  have hLockstep : Lockstep frame (fun _ => True) check.traced check.traced Eq Eq
      (fun ps _ => ∀ p ∈ ps, ∀ call ∈ p.state.made.getLast?, ∀ site ∈ call.site?,
        site = ⟨frame, p.id, p.store⟩) := {
    nil := by simp
    append := fun h h' => List.forall_mem_append.mpr ⟨h, h'⟩
    start := rfl
    fresh := id
    beforeEffect := by
      rintro t _ n store e - rfl
      exact ⟨rfl, hShow t _ n store fun site hSite => (Option.some.inj hSite).symm⟩
    afterSend := by
      rintro t _ n store m r receiver args - rfl
      exact ⟨rfl, hShow t _ n store fun site hSite => (Option.some.inj hSite).symm⟩
    assumed := by
      rintro t _ cond truth - rfl
      rfl
    atEnd := by
      rintro t _ n store rfl
      exact hShow t _ n store fun site hSite => (Option.some.inj hSite).symm }
  exact (hLockstep.explore_alike limits fun _ _ _ _ => trivial).2.2.2 p hp

theorem mem_shownCalls_of_isPrefix {made : List Callback} (hMade : made ∈ shownCalls frame limits)
    {before : List Callback} {call : Callback} (hSite : call.site? ≠ none)
    (hPrefix : before ++ [call] <+: made) : before ++ [call] ∈ shownCalls frame limits := by
  let Told (made : List Callback) : Prop := ∀ before call, call.site? ≠ none →
    before ++ [call] <+: made → before ++ [call] ∈ shownCalls frame limits
  have hExtend : ∀ {made call}, Told made →
      (call.site? ≠ none → made ++ [call] ∈ shownCalls frame limits) → Told (made ++ [call]) := by
    intro made call hTold hShown before last hLast hPrefix
    rcases List.prefix_concat_iff.mp hPrefix with hAll | hEarlier
    · obtain ⟨rfl, hCall⟩ := List.append_inj' hAll rfl
      obtain rfl := List.singleton_inj.mp hCall
      exact hShown hLast
    · exact hTold before last hLast hEarlier
  have hInvariant : Invariant frame PathCheck.silent.traced (fun t => Told t.made)
      (fun p => p.state.made ∈ shownCalls frame limits) (fun p => Told p.state.made) := by
    refine invariant_traced ?_ ?_ ?_
    · intro before call _ hPrefix
      simp [Traced.start] at hPrefix
    · intro n store t call hTold hShown
      have hHere : Told (t.made ++ [call]) := hExtend hTold fun _ => hShown
      exact ⟨hHere, hHere⟩
    · intro t cond truth hTold
      exact hExtend hTold fun hSite => absurd rfl hSite
  obtain ⟨p, hp, rfl⟩ := List.mem_map.mp hMade
  exact hInvariant.forall_reports limits (fun _ hd => List.mem_map_of_mem hd) p hp before call hSite
    hPrefix

end

/-! ## What a call lets go -/

/-- A field whose object is let go, and how a report refers to the occasion. -/
structure Release where
  field : String
  decl : Option String
  range : SourceRange

namespace Release

variable (facts : ClassFacts) (site : Site) (s : DelegateState)

def report (r : Release) (property : String) : Diagnostic :=
  site.report r.range
    (leftoverMessage r.field property ((site.frame.scope.field? r.field).map (·.type)) r.decl)

def verify (r : Release) : List Diagnostic := verifyField facts site s r.field r.decl r.range

variable {facts site s} {r : Release} {d : Diagnostic}

theorem verify_eq {fieldFacts : FieldFacts} (hField : facts.field? r.field = some fieldFacts) :
    r.verify facts site s =
      (leftovers fieldFacts.properties (s.field r.field).properties).map (r.report site) := by
  simp only [verify, verifyField, hField, Option.elim_some, leftoverMessages, List.map_map]
  rfl

theorem verify_eq_nil (hField : facts.field? r.field = none) : r.verify facts site s = [] := by
  simp only [verify, verifyField, hField, Option.elim_none]

theorem mem_verify_iff : d ∈ r.verify facts site s ↔
    ∃ property, facts.Records r.field property ∧ property ∉ (s.field r.field).properties ∧
      d = r.report site property := by
  cases hField : facts.field? r.field with
  | none => simp [verify_eq_nil hField, ClassFacts.Records, hField]
  | some fieldFacts =>
    simp [verify_eq hField, mem_leftovers, ClassFacts.Records, hField, and_assoc, eq_comm]

end Release

section

variable (config : DelegateConfig) (facts : ClassFacts)

def assignmentReleases (site : Site) (e : Expr) : List Release :=
  if site.frame.subject.lang.autoReleaseFields then
    ((assignedField? site.frame.scope e).filter fun field =>
      !isKnownNull config (site.store.lookup (.field field))).toList.map (⟨·, none, e.range⟩)
  else []

def sendReleases (site : Site) (event : SendEvent) : List Release :=
  (event.message.target?.bind fun receiver =>
    if isKnownNull config event.receiver then none
    else if receiver.isSelf then
      if event.hasKnownBody then none
      else (site.frame.scope.setter? event.message).bind (·.backingField)
    else if config.isReleaseSelector event.message.selector then
      (site.frame.scope.fieldOf? receiver).filter facts.isInteresting
    else none).toList.map (⟨·, none, event.expr.range⟩)

def teardownReleases (site : Site) : List Release :=
  if site.frame.subject.lang.autoReleaseFields &&
      site.frame.method.selector == config.teardownMethod then
    (facts.fields.keys.filter fun field =>
      !isKnownNull config (site.store.lookup (.field field))).map
        (⟨·, some ("automatic release at end of " ++ config.teardownMethod),
          site.frame.method.range⟩)
  else []

def Callback.releases : Callback → List Release
  | beforeEffect site e => assignmentReleases config site e
  | afterSend site event => sendReleases config facts site event
  | assume _ _ _ => []
  | atEnd site => teardownReleases config facts site

end

section

variable {config : DelegateConfig} {known : FactsByClass} {facts : ClassFacts} {site : Site}
  {s : DelegateState}

theorem checkAssignment_eq (e : Expr) :
    checkAssignment config facts site s e =
      (assignmentReleases config site e).flatMap (·.verify facts site s) := by
  unfold checkAssignment assignmentReleases
  split
  · cases assignedField? site.frame.scope e with
    | none => rfl
    | some field =>
      cases hNull : isKnownNull config (site.store.lookup (.field field)) <;>
        simp [hNull, Option.filter_some, Release.verify]
  · rfl

theorem checkSelfSetter_snd (property : PropertyDecl) (event : SendEvent) :
    (checkSelfSetter facts site s property event).2 =
      (if event.hasKnownBody then none else property.backingField).elim [] fun field =>
        verifyField facts site s field none event.expr.range := by
  unfold checkSelfSetter
  cases property.backingField with
  | none => cases event.hasKnownBody <;> rfl
  | some field =>
    cases event.hasKnownBody <;> cases hField : facts.field? field <;> simp [hField]

theorem checkSend_snd (event : SendEvent) :
    (checkSend config facts site s event).2 =
      (sendReleases config facts site event).flatMap (·.verify facts site s) := by
  unfold checkSend sendReleases
  cases event.message.target? with
  | none => rfl
  | some receiver =>
    simp only [Option.bind_some]
    split
    · rfl
    · split
      · cases site.frame.scope.setter? event.message with
        | none => cases event.hasKnownBody <;> rfl
        | some property =>
          simp only [checkSelfSetter_snd, Option.bind_some]
          cases event.hasKnownBody <;> cases property.backingField <;>
            simp [Release.verify]
      · cases (site.frame.scope.fieldOf? receiver).filter facts.isInteresting with
        | none => cases config.isReleaseSelector event.message.selector <;> rfl
        | some field =>
          cases hRelease : config.isReleaseSelector event.message.selector <;>
            simp [checkFieldSend, hRelease, Release.verify]

theorem checkTeardown_eq_flatMap :
    checkTeardown config facts site s =
      (teardownReleases config facts site).flatMap (·.verify facts site s) := by
  unfold checkTeardown teardownReleases
  split
  · rw [List.flatMap_map]
    induction facts.fields.keys with
    | nil => rfl
    | cons field rest ih =>
      cases hNull : isKnownNull config (site.store.lookup (.field field)) <;>
        simp [hNull, ih, Release.verify]
  · rfl

/-- A call files what it finds on verifying the fields that it lets go. -/
theorem filed_answer (call : Callback) (s : DelegateState) :
    ((delegatePaths config known).answer call s).2 =
      call.site?.elim [] fun site => (known.find? site.frame.className).elim [] fun facts =>
        (call.releases config facts).flatMap
          (·.verify facts site (openPath (some facts) site s)) := by
  cases call with
  | assume subject cond truth => rfl
  | beforeEffect site e =>
    simp only [PathCheck.answer, delegatePaths, Callback.site?, Option.elim_some, Callback.releases]
    cases known.find? site.frame.className with
    | none => rfl
    | some facts => exact checkAssignment_eq e
  | afterSend site event =>
    simp only [PathCheck.answer, delegatePaths, Callback.site?, Option.elim_some, Callback.releases]
    cases known.find? site.frame.className with
    | none => rfl
    | some facts => exact checkSend_snd event
  | atEnd site =>
    simp only [PathCheck.answer, delegatePaths, Callback.site?, Option.elim_some, Callback.releases]
    cases known.find? site.frame.className with
    | none => rfl
    | some facts => exact checkTeardown_eq_flatMap

/-- Either a call files nothing, whatever the configuration, or it verifies what it lets go. -/
theorem filed_cases (known : FactsByClass) {frame : Frame} {inside : Expr → Prop}
    {before : List Callback} {call : Callback} (hHistory : History frame inside (before ++ [call])) :
    (∀ config, (delegatePaths config known).filed (before ++ [call]) = []) ∨
    ∃ site facts, call.site? = some site ∧ site.frame = frame ∧
      known.find? frame.className = some facts ∧
      ∀ config, (delegatePaths config known).filed (before ++ [call]) =
        (call.releases config facts).flatMap
          (·.verify facts site (openPath (some facts) site
            ((delegatePaths config known).replay before))) := by
  simp only [PathCheck.filed_concat, filed_answer]
  cases hSite : call.site? with
  | none => exact .inl fun _ => rfl
  | some site =>
    obtain rfl := (hHistory.fits call (List.mem_append_right _ List.mem_cons_self)).frame_eq hSite
    simp only [Option.elim_some]
    cases known.find? site.frame.className with
    | none => exact .inl fun _ => rfl
    | some facts => exact .inr ⟨site, facts, rfl, rfl, rfl, fun _ => rfl⟩

theorem mem_filed_iff {call : Callback} {d : Diagnostic} :
    d ∈ ((delegatePaths config known).answer call s).2 ↔
      ∃ site ∈ call.site?, ∃ facts ∈ known.find? site.frame.className,
        ∃ r ∈ call.releases config facts, ∃ property, facts.Records r.field property ∧
          property ∉ ((openPath (some facts) site s).field r.field).properties ∧
          d = r.report site property := by
  rw [filed_answer]
  cases call.site? with
  | none => simp
  | some site =>
    cases hKnown : known.find? site.frame.className with
    | none => simp [hKnown]
    | some facts => simp [hKnown, Release.mem_verify_iff]

end

/-! ## What was cleared before -/

/-- All that a path has done to a property when it is called again. -/
def pastChanges (config : DelegateConfig) (frame : Frame) (facts : ClassFacts)
    (field property : String) (before : List Callback) : List Change :=
  openingChanges frame facts ++ before.filterMap (callChange? config frame facts field property)

theorem mem_openPath_iff {config : DelegateConfig} {known : FactsByClass} {facts : ClassFacts}
    {site : Site} {field property : String} {inside : Expr → Prop} {before : List Callback}
    (hKnown : known.find? site.frame.className = some facts) (hRecords : facts.Records field property)
    (hHistory : History site.frame inside before) :
    property ∈ ((openPath (some facts) site
        ((delegatePaths config known).replay before)).field field).properties ↔
      (pastChanges config site.frame facts field property before).getLast? = some .cleared := by
  obtain ⟨fieldFacts, hField, hProperty⟩ := hRecords
  by_cases hBefore : before = []
  · subst hBefore
    rw [pastChanges, List.filterMap_nil, List.append_nil, ← change?_openingTransitions hField]
    exact (openPath_start site) ▸ mem_foldl_apply hField hProperty (by simp [Cleared.nothing])
      (agreesWith_openingTransitions _)
  · have hOpen : ((delegatePaths config known).replay before).IsOpen site.frame.className := by
      rw [replay_delegatePaths hKnown hHistory hBefore]
      exact (DelegateState.start.isOpen_begin _).foldl_apply _
    rw [openPath_of_isOpen hOpen, mem_replay_iff hKnown hField hProperty hHistory, changes,
      if_neg (by simpa using hBefore), pastChanges]

/-! ## All methods of a unit -/

section

variable {config : DelegateConfig} {subject : Subject} {limits : Limits}

theorem exists_of_mem_frames {frame : Frame} (hFrame : frame ∈ UnitCheck.frames subject) :
    ∃ d ∈ subject.unit.implementations, ∃ method ∈ d.methods, frame = ⟨subject, d.name, method⟩ := by
  obtain ⟨d, hd, hHere⟩ := List.mem_flatMap.mp hFrame
  obtain ⟨method, hMethod, rfl⟩ := List.mem_map.mp hHere
  exact ⟨d, hd, method, List.mem_of_mem_filter hMethod, rfl⟩

theorem subject_of_mem_frames {frame : Frame} (hFrame : frame ∈ UnitCheck.frames subject) :
    frame.subject = subject := by
  obtain ⟨_, -, _, -, rfl⟩ := exists_of_mem_frames hFrame
  rfl

/-- A run is its scan, followed by one exploration after another. -/
theorem run_eq : (danglingDelegateCheck config).run subject limits =
    ⟨((UnitCheck.frames subject).map fun frame =>
        (explore frame limits (delegatePaths config (scannedFacts config subject))).stats).foldl (· + ·) 0,
      ((danglingDelegateCheck config).scanAll subject ∅ subject.unit.implementations).2 ++
        (UnitCheck.frames subject).flatMap fun frame =>
          (explore frame limits (delegatePaths config (scannedFacts config subject))).reports⟩ := by
  simp only [UnitCheck.run, danglingDelegateCheck, List.append_nil, List.map_map, List.flatMap_map]
  rfl

theorem reports_run : ((danglingDelegateCheck config).run subject limits).reports =
    ((danglingDelegateCheck config).scanAll subject ∅ subject.unit.implementations).2 ++
      (UnitCheck.frames subject).flatMap fun frame =>
        (shownCalls frame limits).flatMap (delegatePaths config (scannedFacts config subject)).filed := by
  simp only [run_eq, reports_explore]

theorem stats_run : ((danglingDelegateCheck config).run subject limits).stats =
    ((UnitCheck.frames subject).map fun frame =>
      (explore frame limits PathCheck.silent.traced).stats).foldl (· + ·) 0 := by
  simp only [run_eq, stats_explore]

end

end DelegateSafety
