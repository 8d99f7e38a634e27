import DelegateSafety.Proofs.DeclarationOrder
import DelegateSafety.Proofs.FactContent
import DelegateSafety.Proofs.Harvest
import DelegateSafety.Proofs.Wrappers

/-! # Tests turned round

A test may as well ask for the opposite and have its sides exchanged. Paths then come in another order and
under other numbers, but the same comes of each of them (`harvest_turnedRound`).
-/
namespace DelegateSafety

open PathM

/-! ## Turning tests round -/

mutual

/-- The same statement but for tests that ask for the opposite, with the sides exchanged. Where there is
no other side it becomes an empty block. -/
inductive Stmt.TurnedRound : Stmt → Stmt → Prop
  | expr (e : Expr) : TurnedRound (.expr e) (.expr e)
  | block {body body' : List Stmt} : TurnedRoundAll body body' → TurnedRound (.block body) (.block body')
  | branch (cond : Expr) {yes yes' : Stmt} : TurnedRound yes yes' →
    TurnedRound (.branch cond yes none) (.branch cond yes' none)
  | branchElse (cond : Expr) {yes yes' no no' : Stmt} : TurnedRound yes yes' → TurnedRound no no' →
    TurnedRound (.branch cond yes (some no)) (.branch cond yes' (some no'))
  | turn (cond : Expr) (r : SourceRange) {yes yes' : Stmt} : TurnedRound yes yes' →
    TurnedRound (.branch cond yes none) (.branch (.unary .not cond r) (.block []) (some yes'))
  | turnElse (cond : Expr) (r : SourceRange) {yes yes' no no' : Stmt} : TurnedRound yes yes' →
    TurnedRound no no' →
    TurnedRound (.branch cond yes (some no)) (.branch (.unary .not cond r) no' (some yes'))
  | loop (cond : Expr) {body body' : Stmt} : TurnedRound body body' →
    TurnedRound (.loop cond body) (.loop cond body')
  | ret (value : Option Expr) : TurnedRound (.ret value) (.ret value)
  | decl (v : VarDecl) : TurnedRound (.decl v) (.decl v)

inductive Stmt.TurnedRoundAll : List Stmt → List Stmt → Prop
  | nil : TurnedRoundAll [] []
  | cons {s s' : Stmt} {rest rest' : List Stmt} : TurnedRound s s' → TurnedRoundAll rest rest' →
    TurnedRoundAll (s :: rest) (s' :: rest')

end

/-! ## What comes of a path -/

section

variable {σ ρ π : Type} {frame frame' : Frame} {check : PathCheck σ ρ} {erase : ρ → π}

section

variable {cond cond' : Expr} (h : Replaces frame frame' check cond cond')

include h

theorem testHarvest_congr : (testHarvest frame check erase cond : Spot σ → Harvest π _) =
    testHarvest frame' check erase cond' := by
  funext x
  simp only [testHarvest, assumeAt, h.evaluate, h.assume]

theorem leaveHarvest_congr : (leaveHarvest frame check erase cond : Spot σ → Harvest π _) =
    leaveHarvest frame' check erase cond' := by
  funext x
  simp only [leaveHarvest, assumeAt, h.evaluate, h.assume]

theorem loopHarvest_congr (body : Spot σ → Harvest π (Spot σ)) (bound : Nat) :
    loopHarvest frame check erase cond body bound = loopHarvest frame' check erase cond' body bound := by
  induction bound with
  | zero => exact leaveHarvest_congr h
  | succ bound ih =>
    funext x
    simp only [loopHarvest, testHarvest_congr h, ih]

end

theorem endHarvest_congr (hEnd : consult frame check.atEnd = consult frame' check.atEnd) :
    (endHarvest frame check erase : Spot σ → Harvest π _) = endHarvest frame' check erase := by
  funext x
  simp only [endHarvest, hEnd]

/-- A condition that is true where another one is false. -/
structure Opposes (frame : Frame) (check : PathCheck σ ρ) (e w : Expr) : Prop where
  evaluate : evaluate frame check w = do
    let value ← evaluate frame check e
    pure value.not
  assume : ∀ truth, assume frame check w truth = assume frame check e (!truth)

theorem Opposes.testHarvest_eq {e w : Expr} (h : Opposes frame check e w) (x : Spot σ) :
    testHarvest frame check erase w x =
      (testHarvest frame check erase e x).andThen fun y => .only {(!y.1, y.2)} := by
  have hSides : ∀ truth (y : Spot σ), assumeAt frame check w truth y = assumeAt frame check e (!truth) y :=
    fun truth y => congrArg (fun step => (step y.path).spot) (h.assume truth)
  rw [testHarvest, testHarvest, h.evaluate, PathM.harvest_map, Harvest.andThen_assoc, Harvest.andThen_assoc]
  refine congrArg _ (funext fun ⟨value, y⟩ => ?_)
  rw [Harvest.only_andThen]
  simp only [hSides]
  cases value with
  | nonNull => rfl
  | null => rfl
  | unknown =>
    -- The side that keeps the number of the path is now the other one.
    rw [Harvest.andThen_only]
    exact congrArg Harvest.forked (Multiset.pair_comm _ _)

/-- Expressions come to the same in both frames, and a negation is the opposite of what it negates. -/
structure Turns (frame frame' : Frame) (check : PathCheck σ ρ) : Prop where
  same : ∀ e, Replaces frame frame' check e e
  opposes : ∀ e r, Opposes frame' check e (.unary .not e r)
  atEnd : consult frame check.atEnd = consult frame' check.atEnd

theorem Turns.testHarvest_not (H : Turns frame frame' check) (cond : Expr) (r : SourceRange) {β : Type}
    (f : Bool × Spot σ → Harvest π β) (x : Spot σ) :
    (testHarvest frame' check erase (.unary .not cond r) x).andThen f =
      (testHarvest frame check erase cond x).andThen fun y => f (!y.1, y.2) := by
  rw [(H.opposes cond r).testHarvest_eq, Harvest.andThen_assoc, testHarvest_congr (H.same cond)]
  simp only [Harvest.only_andThen]

mutual

/-- The same comes of a spot however the tests are turned. -/
theorem harvest_turnedRound (H : Turns frame frame' check) (limits : Limits) : ∀ (s : Stmt) {s' : Stmt},
    s.TurnedRound s' → (harvest frame limits check erase s : Spot σ → Harvest π _) =
      harvest frame' limits check erase s'
  | .expr e, _, .expr _ => by
    funext x
    simp only [harvest, (H.same e).evaluate]
  | .block body, _, .block h => by
    funext x
    simp only [harvest, harvestAll_turnedRound H limits body h]
  | .decl v, _, .decl _ => by
    have hDeclare : declare frame check v = declare frame' check v :=
      declare_congr (rel_refl H.same v.init)
    funext x
    simp only [harvest, hDeclare]
  | .ret none, _, .ret _ => by
    funext x
    simp only [harvest, endHarvest_congr H.atEnd]
  | .ret (some value), _, .ret _ => by
    funext x
    simp only [harvest, (H.same value).evaluate, endHarvest_congr H.atEnd]
  | .branch cond yes none, _, .branch _ hYes => by
    funext x
    simp only [harvest, testHarvest_congr (H.same cond), harvest_turnedRound H limits yes hYes]
  | .branch cond yes (some no), _, .branchElse _ hYes hNo => by
    funext x
    simp only [harvest, testHarvest_congr (H.same cond), harvest_turnedRound H limits yes hYes,
      harvest_turnedRound H limits no hNo]
  | .branch cond yes none, _, .turn _ r hYes => by
    funext x
    -- What the missing side lets pass, the empty block lets pass.
    simp only [harvest, harvestAll, H.testHarvest_not, harvest_turnedRound H limits yes hYes]
    refine congrArg _ (funext fun ⟨truth, y⟩ => ?_)
    cases truth <;> rfl
  | .branch cond yes (some no), _, .turnElse _ r hYes hNo => by
    funext x
    simp only [harvest, H.testHarvest_not, harvest_turnedRound H limits yes hYes,
      harvest_turnedRound H limits no hNo]
    refine congrArg _ (funext fun ⟨truth, y⟩ => ?_)
    cases truth <;> rfl
  | .loop cond body, _, .loop _ h => by
    funext x
    simp only [harvest, harvest_turnedRound H limits body h, loopHarvest_congr (H.same cond)]

theorem harvestAll_turnedRound (H : Turns frame frame' check) (limits : Limits) :
    ∀ (ss : List Stmt) {ss' : List Stmt}, Stmt.TurnedRoundAll ss ss' →
    (harvestAll frame limits check erase ss : Spot σ → Harvest π _) =
      harvestAll frame' limits check erase ss'
  | [], _, .nil => rfl
  | s :: rest, _, .cons h hRest => by
    funext x
    simp only [harvestAll, harvest_turnedRound H limits s h, harvestAll_turnedRound H limits rest hRest]

end

/-- If all paths of a method fit in, so do those of the method with turned tests, and the same is gathered
from both. -/
theorem explore_turnedRound (H : Turns frame frame' check) (hUnnumbered : check.Unnumbered erase)
    (limits : Limits) (hBody : Option.Rel Stmt.TurnedRound frame.method.body frame'.method.body)
    (hForks : none ∉ (explore frame limits check).forks) :
    (explore frame limits check).stats = (explore frame' limits check).stats ∧
      ((explore frame limits check).reports.map erase).Perm
        ((explore frame' limits check).reports.map erase) := by
  generalize hFirst : frame.method.body = body, hSecond : frame'.method.body = body' at hBody
  cases hBody with
  | none =>
    unfold explore
    rw [hFirst, hSecond]
    exact ⟨rfl, .refl _⟩
  | @some body body' hTurned =>
    have hSame : methodHarvest frame limits check erase body =
        methodHarvest frame' limits check erase body' := by
      simp only [methodHarvest, harvest_turnedRound H limits body hTurned, endHarvest_congr H.atEnd]
    obtain ⟨hFits, hGathered⟩ := explore_gathers hUnnumbered frame limits hFirst
    obtain ⟨hFits', hGathered'⟩ := explore_gathers hUnnumbered frame' limits hSecond
    rw [hSame] at hFits hGathered
    obtain ⟨hReports, hStats⟩ := hGathered hForks
    obtain ⟨hReports', hStats'⟩ := hGathered' (hFits'.mpr (hFits.mp hForks))
    exact ⟨hStats.trans hStats'.symm, Multiset.coe_eq_coe.mp (hReports.trans hReports'.symm)⟩

end

/-! ## Dangling delegates -/

section

variable {config : DelegateConfig} {known : FactsByClass} {frame frame' : Frame}

theorem opposes_not (e : Expr) (r : SourceRange) :
    Opposes frame (confinedPaths config known frame.className) e (.unary .not e r) where
  evaluate := evaluate_of_operand rfl rfl fun _ => rfl
  assume _ := rfl

theorem turns_confined (hFrame : frame.Matches frame') :
    Turns frame frame' (confinedPaths config known frame.className) where
  same e := (Expr.exchangeable_of_matches hFrame e).replaces hFrame.resembles
  opposes e r := by
    have hSame : frame.className = frame'.className := hFrame.scope.className
    rw [hSame]
    exact opposes_not e r
  atEnd := atEnd_congr hFrame.resembles

theorem explore_turned (hFrame : frame.Matches frame') (limits : Limits)
    (hBody : Option.Rel Stmt.TurnedRound frame.method.body frame'.method.body)
    (hForks : none ∉ (explore frame limits (delegatePaths config known)).forks) :
    (explore frame limits (delegatePaths config known)).stats =
        (explore frame' limits (delegatePaths config known)).stats ∧
      ((explore frame limits (delegatePaths config known)).reports.map Diagnostic.withoutPath).Perm
        ((explore frame' limits (delegatePaths config known)).reports.map Diagnostic.withoutPath) := by
  have hSame : frame.className = frame'.className := hFrame.scope.className
  have hUnnumbered := unnumbered_delegatePaths config known
  have hConfined : (confinedPaths config known frame.className).Unnumbered Diagnostic.withoutPath :=
    ⟨hUnnumbered.beforeEffect, hUnnumbered.afterSend, hUnnumbered.atEnd⟩
  obtain ⟨hRefused, hStats, hReports⟩ := @explore_confined config known frame limits
  obtain ⟨-, hStats', hReports'⟩ := @explore_confined config known frame' limits
  rw [← hSame] at hStats' hReports'
  rw [← hRefused] at hForks
  rw [← hStats, ← hStats', ← hReports, ← hReports']
  exact explore_turnedRound (turns_confined hFrame) hConfined limits hBody hForks

end

/-! ## Facts -/

namespace Stmt

variable {part : Expr}

theorem mem_walk_not_iff (hPart : ∀ e r, part ≠ .unary .not e r) (cond : Expr) (r : SourceRange) :
    part ∈ (Expr.unary .not cond r).walk ↔ part ∈ cond.walk := by
  rw [Expr.walk_eq]
  simp [Expr.operands, hPart cond r]

mutual

/-- Turning tests round adds negations and nothing else. -/
theorem mem_allExprs_turnedRound (hPart : ∀ e r, part ≠ .unary .not e r) : ∀ (s : Stmt) {s' : Stmt},
    s.TurnedRound s' → (part ∈ s.allExprs ↔ part ∈ s'.allExprs)
  | .expr _, _, .expr _ | .ret _, _, .ret _ | .decl _, _, .decl _ => Iff.rfl
  | .block body, _, .block h => by
    rw [mem_allExprs_eq, mem_allExprs_eq]
    exact or_congr Iff.rfl (exists_allExprs_turnedRound hPart body h)
  | .branch cond yes none, _, .branch _ hYes => by
    rw [mem_allExprs_eq, mem_allExprs_eq]
    simp [exprs, children, mem_allExprs_turnedRound hPart yes hYes]
  | .branch cond yes (some no), _, .branchElse _ hYes hNo => by
    rw [mem_allExprs_eq, mem_allExprs_eq]
    simp [exprs, children, mem_allExprs_turnedRound hPart yes hYes, mem_allExprs_turnedRound hPart no hNo]
  | .branch cond yes none, _, .turn _ r hYes => by
    have hBlock : part ∉ (block []).allExprs := nofun
    rw [mem_allExprs_eq, mem_allExprs_eq]
    simp [exprs, children, mem_allExprs_turnedRound hPart yes hYes, mem_walk_not_iff hPart, hBlock]
  | .branch cond yes (some no), _, .turnElse _ r hYes hNo => by
    rw [mem_allExprs_eq, mem_allExprs_eq]
    simp [exprs, children, mem_allExprs_turnedRound hPart yes hYes, mem_allExprs_turnedRound hPart no hNo,
      mem_walk_not_iff hPart, or_comm]
  | .loop cond body, _, .loop _ h => by
    rw [mem_allExprs_eq, mem_allExprs_eq]
    simp [exprs, children, mem_allExprs_turnedRound hPart body h]

theorem exists_allExprs_turnedRound (hPart : ∀ e r, part ≠ .unary .not e r) :
    ∀ (ss : List Stmt) {ss' : List Stmt}, TurnedRoundAll ss ss' →
    ((∃ s ∈ ss, part ∈ s.allExprs) ↔ ∃ s' ∈ ss', part ∈ s'.allExprs)
  | [], _, .nil => Iff.rfl
  | s :: rest, _, .cons h hRest => by
    simp [mem_allExprs_turnedRound hPart s h, exists_allExprs_turnedRound hPart rest hRest]

end

end Stmt

theorem mem_flatMap_iff_of_rel {α β γ : Type} {R : α → β → Prop} {as : List α} {bs : List β}
    {f : α → List γ} {g : β → List γ} (h : List.Forall₂ R as bs) {c : γ}
    (hMem : ∀ a b, R a b → (c ∈ f a ↔ c ∈ g b)) : c ∈ as.flatMap f ↔ c ∈ bs.flatMap g := by
  induction h with
  | nil => rfl
  | cons hHere _ ih =>
    rw [List.flatMap_cons, List.flatMap_cons, List.mem_append, List.mem_append, hMem _ _ hHere, ih]

section

variable {config : DelegateConfig} {scope scope' : ClassScope}

theorem mem_observeMethod_turnedRound {m m' : MethodDecl} (h : m.Revised Stmt.TurnedRound m')
    {o : Observation} : o ∈ observeMethod scope config m ↔ o ∈ observeMethod scope config m' := by
  have hSends : ∀ send r, .send send r ∈ m.body.elim [] Stmt.allExprs ↔
      .send send r ∈ m'.body.elim [] Stmt.allExprs := by
    intro send r
    have hBody := h.body
    generalize m.body = body, m'.body = body' at hBody
    cases hBody with
    | none => rfl
    | some hTurned => exact Stmt.mem_allExprs_turnedRound (by simp) _ hTurned
  simp only [mem_observeMethod_iff, h.selector, hSends]

theorem classFacts_turnedRound (hScope : scope.Matches scope') {d d' : ImplementationDecl}
    (h : d.Revised Stmt.TurnedRound d') : classFacts scope config d = classFacts scope' config d' := by
  rw [classFacts, classFacts, observeMethod_resembles hScope.resembles]
  exact ClassFacts.ofObservations_eq_of_mem_iff fun _ =>
    mem_flatMap_iff_of_rel h.methods fun _ _ hMethod => mem_observeMethod_turnedRound hMethod

end

/-! ## Runs -/

theorem run_turnedRound {config : DelegateConfig} {subject subject' : Subject}
    (h : subject.unit.Revised (fun _ => Stmt.TurnedRound) subject'.unit)
    (hLang : subject.lang = subject'.lang) (limits : Limits)
    (hForks : ∀ frame ∈ UnitCheck.frames subject,
      none ∉ (explore frame limits (delegatePaths config (scannedFacts config subject))).forks) :
    let run := ((danglingDelegateCheck config).run · limits)
    scannedFacts config subject = scannedFacts config subject' ∧
      (run subject).stats = (run subject').stats ∧
      ((run subject).reports.map Diagnostic.withoutPath).Perm
        ((run subject').reports.map Diagnostic.withoutPath) := by
  intro run
  have hClasses : ∀ d d', d.Revised Stmt.TurnedRound d' →
      classFacts ⟨subject.unit, d.name⟩ config d = classFacts ⟨subject'.unit, d.name⟩ config d' := by
    intro d d' hDecl
    have hScope : ClassScope.Matches ⟨subject.unit, d.name⟩ ⟨subject'.unit, d.name⟩ :=
      ⟨rfl, h.sameDeclarations⟩
    exact classFacts_turnedRound hScope hDecl
  have hFacts := scannedFacts_revised h hLang hClasses
  have hScanned := scanAll_revised h hLang hClasses ∅
  have hExplored := ((List.forall₂_and_left _ _).mpr ⟨hForks, frames_rel h hLang⟩).imp
    fun _ _ ⟨hFits, hFrame, _, hBody⟩ => explore_turned hFrame limits hBody hFits
  refine ⟨hFacts, ?_, ?_⟩
  · simp only [run, run_eq, ← hFacts]
    rw [map_eq_of_rel hExplored fun _ _ hSame => hSame.1]
  · simp only [run, run_eq, ← hFacts, hScanned, List.map_append, List.map_flatMap]
    exact (flatMap_perm_of_rel hExplored fun _ _ hSame => hSame.2).append_left _

/-- Asking for the opposite and exchanging the sides, anywhere in the methods of a unit, changes nothing
in its facts, its statistics and, but for their order and the numbers of paths, its reports. -/
theorem turned_tests_find_the_same (config : DelegateConfig) (settings : AnalysisSettings)
    {unit unit' : SourceUnit} (h : unit.Revised (fun _ => Stmt.TurnedRound) unit')
    (hForks : ∀ frame ∈ UnitCheck.frames (.ofUnit unit settings.autoReleaseFields),
      none ∉ (explore frame settings.limits (delegatePaths config
        (scannedFacts config (.ofUnit unit settings.autoReleaseFields)))).forks) :
    let run (unit : SourceUnit) :=
      (danglingDelegateCheck config).run (.ofUnit unit settings.autoReleaseFields) settings.limits
    let found (unit : SourceUnit) :=
      ((run unit).reports.filter (!·.context.isDeclaration)).map Diagnostic.withoutPath
    scannedFacts config (.ofUnit unit settings.autoReleaseFields) =
        scannedFacts config (.ofUnit unit' settings.autoReleaseFields) ∧
      (run unit).stats = (run unit').stats ∧ (found unit).Perm (found unit') := by
  intro run found
  have hLang := Subject.lang_ofUnit_congr h.lang settings.autoReleaseFields
  obtain ⟨hFacts, hStats, hReports⟩ := run_turnedRound h hLang settings.limits hForks
  refine ⟨hFacts, hStats, ?_⟩
  simp only [found, withoutPath_filter]
  exact hReports.filter _

namespace Sample

/-- `self` is stored in `init`, and all that `reset` does is a test. -/
def resetBy (test : Stmt) : SourceUnit :=
  delegatePair [
    method "init" [.expr (.send becomeDelegate .unknown)],
    method "reset" [test]]

theorem revised_resetBy {test test' : Stmt} (h : test.TurnedRound test') :
    (resetBy test).Revised (fun _ => Stmt.TurnedRound) (resetBy test') := by
  have hMethod : ∀ selector {body body'}, Stmt.TurnedRoundAll body body' →
      (method selector body).Revised Stmt.TurnedRound (method selector body') :=
    fun _ _ _ hBody => ⟨rfl, rfl, rfl, rfl, rfl, .some (.block hBody)⟩
  refine ⟨rfl, rfl, rfl, rfl, .cons ⟨rfl, rfl, rfl, ?_⟩ .nil⟩
  exact .cons (hMethod "init" (.cons (.expr _) .nil)) (.cons (hMethod "reset" (.cons h .nil)) .nil)

def isReady : Expr := .var "ready" none .unknown

def replaceBar : Expr := .assign (.field "_bar" .unknown) (.var "other" none .unknown) .unknown

end Sample

open Sample in
/-- The path that replaces the field has another number where the test is turned. -/
theorem replaced_unless_not_ready :
    let unit := resetBy (.branch isReady (.expr replaceBar) none)
    let turned := resetBy (.branch (.unary .not isReady .unknown) (.block []) (some (.expr replaceBar)))
    let run (unit : SourceUnit) :=
      (danglingDelegateCheck .default).run (.ofUnit unit none) AnalysisSettings.default.limits
    let found (unit : SourceUnit) :=
      ((run unit).reports.filter (!·.context.isDeclaration)).map Diagnostic.withoutPath
    (run unit).reports ≠ (run turned).reports ∧ (run unit).stats = (run turned).stats ∧
      (found unit).Perm (found turned) := by
  intro unit turned
  have hTurned := revised_resetBy (.turn isReady .unknown (.expr replaceBar))
  have hForks : ∀ frame ∈ UnitCheck.frames (.ofUnit unit none),
      none ∉ (explore frame AnalysisSettings.default.limits (delegatePaths .default
        (scannedFacts .default (.ofUnit unit none)))).forks := by
    decide +kernel
  exact ⟨by decide +kernel, (turned_tests_find_the_same .default .default hTurned hForks).2⟩

end DelegateSafety
