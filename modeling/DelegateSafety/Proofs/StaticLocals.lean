import DelegateSafety.Proofs.Coverage

/-! # Variables that outlive calls

Exploration declares every variable as if it lived in a single call, whatever its storage
(`run_asLocal`). Nothing is lost as long as a variable that outlives calls holds something that its initializer
could give. An initializer that may give anything, or none, allows for all that an earlier call may have left.
-/
namespace DelegateSafety

/-- The same variable, living in a single call. -/
def VarDecl.asLocal (v : VarDecl) : VarDecl := { v with storage := .local }

/-- If the variable outlives calls, its initializer may give anything and does nothing else. -/
def VarDecl.IsOpen (frame : Frame) (v : VarDecl) : Prop :=
  v.hasStaticStorage = true → ∀ e, v.init = some e → ∀ memory value, Evaluates frame e memory value memory

namespace Stmt

mutual

/-- The same code, its variables living in a single call. -/
def asLocal : Stmt → Stmt
  | expr e => expr e
  | block body => block (asLocalAll body)
  | branch cond yes none => branch cond (asLocal yes) none
  | branch cond yes (some no) => branch cond (asLocal yes) (some (asLocal no))
  | loop cond body => loop cond (asLocal body)
  | ret value => ret value
  | decl v => decl v.asLocal

def asLocalAll : List Stmt → List Stmt
  | [] => []
  | s :: rest => asLocal s :: asLocalAll rest

end

mutual

theorem walk_asLocal : ∀ s : Stmt, s.asLocal.walk = s.walk.map asLocal
  | expr _ | ret _ | decl _ => rfl
  | block body => congrArg _ (walkAll_asLocalAll body)
  | branch _ yes none | loop _ yes => congrArg _ (walk_asLocal yes)
  | branch cond yes (some no) => by
    simp only [asLocal, walk, List.map_cons, List.map_append, walk_asLocal yes, walk_asLocal no]

theorem walkAll_asLocalAll : ∀ ss : List Stmt, walkAll (asLocalAll ss) = (walkAll ss).map asLocal
  | [] => rfl
  | s :: rest => by
    simp only [asLocalAll, walkAll, List.map_append, walk_asLocal s, walkAll_asLocalAll rest]

end

theorem conditions_asLocal (s : Stmt) : s.asLocal.conditions = s.conditions := by
  rw [conditions, conditions, walk_asLocal, List.filterMap_map]
  refine congrArg (List.filterMap · _) (funext fun c => ?_)
  cases c with
  | branch cond yes no => cases no <;> rfl
  | expr _ | block _ | loop _ _ | ret _ | decl _ => rfl

theorem locals_asLocal (s : Stmt) : s.asLocal.locals = s.locals.map VarDecl.asLocal := by
  rw [locals, locals, walk_asLocal, List.filterMap_map, List.map_filterMap]
  refine congrArg (List.filterMap · _) (funext fun c => ?_)
  cases c with
  | branch cond yes no => cases no <;> rfl
  | expr _ | block _ | loop _ _ | ret _ | decl _ => rfl

end Stmt

section

variable {σ ρ : Type} (frame : Frame) (limits : Limits) (check : PathCheck σ ρ)

mutual

/-- How long a variable lives makes no difference to exploration. -/
theorem run_asLocal : ∀ s : Stmt, run frame limits check s.asLocal = run frame limits check s
  | .expr _ | .ret none | .ret (some _) | .decl _ => rfl
  | .block body => runAll_asLocalAll body
  | .branch cond yes none => by
    funext p
    simp only [Stmt.asLocal, run, run_asLocal yes]
  | .branch cond yes (some no) => by
    funext p
    simp only [Stmt.asLocal, run, run_asLocal yes, run_asLocal no]
  | .loop cond body => by
    funext p
    simp only [Stmt.asLocal, run, run_asLocal body]

theorem runAll_asLocalAll : ∀ ss : List Stmt,
    runAll frame limits check (Stmt.asLocalAll ss) = runAll frame limits check ss
  | [] => rfl
  | s :: rest => by
    funext p
    simp only [Stmt.asLocalAll, runAll, run_asLocal s, runAll_asLocalAll rest]

end

theorem runMethod_asLocal (body : Stmt) :
    runMethod frame limits check body.asLocal = runMethod frame limits check body := by
  rw [runMethod, runMethod, run_asLocal]

end

/-! ## Runs -/

section

variable {frame : Frame} {bound : Nat}

/-- All variables that outlive calls may be given anything where they are declared. -/
def Stmt.IsOpen (frame : Frame) (s : Stmt) : Prop := ∀ v ∈ s.locals, v.IsOpen frame

theorem Stmt.IsOpen.child {s c : Stmt} (h : s.IsOpen frame) (hc : c ∈ s.children) : c.IsOpen frame :=
  fun v hv => h v (List.filterMap_subset _ (Stmt.walk_subset hc) hv)

theorem Iterates.imp {cond : Expr} {body body' : Stmt}
    (hBody : ∀ {before directions after flow}, Executes frame bound body before directions after flow →
      Executes frame bound body' before directions after flow)
    {rounds : Nat} {before after : Memory} {directions : Directions} {flow : Flow}
    (h : Iterates frame bound cond body rounds before directions after flow) :
    Iterates frame bound cond body' rounds before directions after flow := by
  induction rounds generalizing before directions with
  | zero =>
    cases h with
    | leave hCond => exact .leave hCond
  | succ rounds ih =>
    cases h with
    | leave hCond => exact .leave hCond
    | round hCond hOnce hRest => exact .round hCond (hBody hOnce) (ih hRest)
    | returned hCond hOnce => exact .returned hCond (hBody hOnce)

mutual

/-- What a variable that outlives calls holds is something that its initializer could have given. -/
theorem executes_asLocal : ∀ {s : Stmt}, s.IsOpen frame → ∀ {before directions after flow},
    Executes frame bound s before directions after flow →
    Executes frame bound s.asLocal before directions after flow
  | .expr _, _, _, _, _, _, .expr h => .expr h
  | .block body, hs, _, _, _, _, .block h => .block (executesAll_asLocalAll (fun _ hc => hs.child hc) h)
  | .decl v, hs, _, _, _, _, h => by
    cases h with
    | init _ hInit hEvaluates => exact .init rfl hInit hEvaluates
    | noInit _ hInit => exact .noInit rfl hInit
    | static hStatic =>
      have hOpen : v.IsOpen frame := hs v (by simp [Stmt.locals, Stmt.walk])
      cases hInit : v.init with
      | none => exact .noInit rfl hInit
      -- What an earlier call left is among what the initializer may give.
      | some e => exact .init rfl hInit (hOpen hStatic e hInit _ _)
  | .ret none, _, _, _, _, _, .ret => .ret
  | .ret (some _), _, _, _, _, _, .retValue h => .retValue h
  | .branch _ yes none, hs, _, _, _, _, h => by
    cases h with
    | yes hCond h => exact .yes hCond (executes_asLocal (hs.child (c := yes) List.mem_cons_self) h)
    | skip hCond => exact .skip hCond
  | .branch _ yes (some no), hs, _, _, _, _, h => by
    cases h with
    | yes hCond h => exact .yes hCond (executes_asLocal (hs.child (c := yes) List.mem_cons_self) h)
    | no hCond h =>
      have hNo : no.IsOpen frame := hs.child (List.mem_cons_of_mem _ List.mem_cons_self)
      exact .no hCond (executes_asLocal hNo h)
  | .loop _ body, hs, _, _, _, _, .loop h =>
    .loop (h.imp fun hOnce => executes_asLocal (hs.child (c := body) List.mem_cons_self) hOnce)

theorem executesAll_asLocalAll : ∀ {ss : List Stmt}, (∀ s ∈ ss, s.IsOpen frame) →
    ∀ {before directions after flow}, ExecutesAll frame bound ss before directions after flow →
    ExecutesAll frame bound (Stmt.asLocalAll ss) before directions after flow
  | [], _, _, _, _, _, .nil => .nil
  | s :: rest, hss, _, _, _, _, h => by
    obtain ⟨hs, hRest⟩ := List.forall_mem_cons.mp hss
    cases h with
    | cons hFirst hOthers =>
      exact .cons (executes_asLocal hs hFirst) (executesAll_asLocalAll hRest hOthers)
    | returned hFirst => exact .returned (executes_asLocal hs hFirst)

end

end

section

variable {σ ρ : Type} {frame : Frame} {limits : Limits} {check : PathCheck σ ρ} {before after : Memory}
  {directions : Directions} {flow : Flow}

/-- No run is pruned in which each variable that outlives calls holds something that its initializer could
give. Where initializers may give anything, or there are none, that is every run. -/
theorem statics_prune_by_initializers_only {body : Stmt} (hBody : frame.method.body = some body)
    (hConditions : ∀ cond ∈ body.conditions, ∀ e ∈ cond.walk, frame.storesNothing e = true)
    (hForks : none ∉ (explore frame limits check).forks)
    (hRun : Executes frame limits.maxLoopUnroll body.asLocal before directions after flow ∨
      body.IsOpen frame ∧ Executes frame limits.maxLoopUnroll body before directions after flow) :
    ∃ p ∈ (explore frame limits check.traced).reports, p.isEnded = true ∧
      assumptions p.state.made = directions ∧ p.store.Agrees after := by
  have hPlain : body.asLocal.IsPlain frame := by
    constructor
    · rwa [Stmt.conditions_asLocal]
    · intro v hv
      rw [Stmt.locals_asLocal] at hv
      obtain ⟨_, -, rfl⟩ := List.mem_map.mp hv
      rfl
  have hLocal : Executes frame limits.maxLoopUnroll body.asLocal before directions after flow :=
    hRun.elim id fun ⟨hOpen, hExecutes⟩ => executes_asLocal hOpen hExecutes
  -- The plain interpreter does not tell the body from the one with local variables only.
  have hCan : (runMethod frame limits check.traced body).Can (Standing.Follows after directions .returned) :=
    runMethod_asLocal frame limits check.traced body ▸ can_runMethod hPlain hLocal
  exact exists_path_of_can hBody hForks hCan

end

namespace Sample

def notShared : Expr := .unary .not (.var "shared" none .unknown) .unknown

/-- One call makes the shared object, later ones find it. -/
def sharedBody (init : Expr) : List Stmt :=
  [.decl ⟨"last", .id, .staticLocal, none, .unknown⟩, .decl ⟨"shared", .id, .staticLocal, some init, .unknown⟩,
    .branch notShared (.expr (.assign (.field "_bar" .unknown) (.nil .unknown) .unknown)) none,
    .branch (.var "last" none .unknown) (.ret none) none]

def sharing (init : Expr) : SourceUnit := delegatePair [method "reset" (sharedBody init)]

/-- An earlier call has left something in both variables. -/
def heldMemory (memory : Memory) : Memory :=
  (memory.store (some (.local "last")) true).store (some (.local "shared")) true

theorem executes_shared (frame : Frame) (bound : Nat) (init : Expr) (memory : Memory) :
    Executes frame bound (.block (sharedBody init)) memory
      [(notShared, false), (.var "last" none .unknown, true)] (heldMemory memory) .returned := by
  have hVar (name : String) : Evaluates frame (.var name none .unknown) (heldMemory memory)
      (heldMemory memory (.local name)) (heldMemory memory) := ⟨.nil, .var⟩
  have hShared : heldMemory memory (.local "shared") = true := by simp [heldMemory, Memory.store]
  have hLast : heldMemory memory (.local "last") = true := by simp [heldMemory, Memory.store]
  have hNot : Evaluates frame notShared (heldMemory memory) (!heldMemory memory (.local "shared"))
      (heldMemory memory) := ⟨.cons (hVar _) .nil, .not⟩
  rw [hShared] at hNot
  exact .block (.cons (.static rfl) (.cons (.static rfl) (.cons (.skip hNot)
    (.returned (.yes (hLast ▸ hVar "last") .ret)))))

theorem isOpen_shared (frame : Frame) (callee : String) :
    (Stmt.block (sharedBody (.call callee [] .unknown))).IsOpen frame := by
  have hLocals : (Stmt.block (sharedBody (.call callee [] .unknown))).locals =
      [⟨"last", .id, .staticLocal, none, .unknown⟩,
        ⟨"shared", .id, .staticLocal, some (.call callee [] .unknown), .unknown⟩] := rfl
  intro v hv _ e hInit memory value
  rw [hLocals, List.mem_cons, List.mem_singleton] at hv
  rcases hv with rfl | rfl
  · cases hInit
  · cases hInit
    exact ⟨.nil, .call⟩

end Sample

open Sample in
theorem later_call_is_explored :
    ∃ p ∈ (explore (fooFrame (sharing (.call "make" [] .unknown)) 0) ⟨512, 2⟩
        (delegatePaths .default (knownFacts (sharing (.call "make" [] .unknown)))).traced).reports,
      p.isEnded = true ∧
      assumptions p.state.made = [(notShared, false), (.var "last" none .unknown, true)] ∧
      p.store.Agrees (heldMemory fun _ => false) := by
  have hForks : none ∉ (explore (fooFrame (sharing (.call "make" [] .unknown)) 0) ⟨512, 2⟩
      (delegatePaths .default (knownFacts (sharing (.call "make" [] .unknown))))).forks := by
    decide +kernel
  have hConditions : ∀ cond ∈ (Stmt.block (sharedBody (.call "make" [] .unknown))).conditions,
      ∀ e ∈ cond.walk,
        (fooFrame (sharing (.call "make" [] .unknown)) 0).storesNothing e = true := by decide +kernel
  exact statics_prune_by_initializers_only rfl hConditions hForks
    (.inr ⟨isOpen_shared _ "make", executes_shared _ _ _ _⟩)

open Sample in
/-- With nil for an initializer the later call is pruned, though it may run and no fork is refused. -/
theorem later_call_is_pruned :
    (fooFrame (sharing (.nil .unknown)) 0).method.body = some (.block (sharedBody (.nil .unknown))) ∧
    (∀ cond ∈ (Stmt.block (sharedBody (.nil .unknown))).conditions, ∀ e ∈ cond.walk,
      (fooFrame (sharing (.nil .unknown)) 0).storesNothing e = true) ∧
    Executes (fooFrame (sharing (.nil .unknown)) 0) 2 (.block (sharedBody (.nil .unknown))) (fun _ => false)
      [(notShared, false), (.var "last" none .unknown, true)] (heldMemory fun _ => false) .returned ∧
    none ∉ (explore (fooFrame (sharing (.nil .unknown)) 0) ⟨512, 2⟩
      (delegatePaths .default (knownFacts (sharing (.nil .unknown))))).forks ∧
    ¬ ∃ p ∈ (explore (fooFrame (sharing (.nil .unknown)) 0) ⟨512, 2⟩
        (delegatePaths .default (knownFacts (sharing (.nil .unknown)))).traced).reports,
      p.isEnded = true ∧
        assumptions p.state.made = [(notShared, false), (.var "last" none .unknown, true)] := by
  have hTaken : ∀ p ∈ (explore (fooFrame (sharing (.nil .unknown)) 0) ⟨512, 2⟩
      (delegatePaths .default (knownFacts (sharing (.nil .unknown)))).traced).reports,
      p.isEnded = true → ((assumptions p.state.made).map Prod.snd).head? = some true := by
    decide +kernel
  refine ⟨rfl, by decide +kernel, executes_shared _ _ _ _, by decide +kernel, ?_⟩
  rintro ⟨p, hReported, hEnded, hMade⟩
  have hFirst := hTaken p hReported hEnded
  rw [hMade] at hFirst
  cases hFirst

end DelegateSafety
