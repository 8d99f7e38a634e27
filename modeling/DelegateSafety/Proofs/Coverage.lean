import DelegateSafety.Proofs.Enumeration
import DelegateSafety.Proofs.Soundness

/-! # Every concrete run is explored

The directions of a concrete run are open to the plain interpreter: a condition never has a definite
value against the run, and narrowing the store by the direction taken keeps it in agreement. With
enumeration some explored path therefore goes where the run goes. What does not loop has such a run from
every memory (`exists_path_of_memory`).
-/
namespace DelegateSafety

open PathM Inquiry

/-- The directions in which conditions were assumed to turn out. -/
def assumptions (made : List Callback) : Directions :=
  made.filterMap fun
    | .assume _ cond truth => some (cond, truth)
    | .beforeEffect _ _ | .afterSend _ _ | .atEnd _ => none

theorem assumptions_extend {σ ρ : Type} (check : PathCheck σ ρ) (t : Traced σ ρ)
    (call : Callback) :
    assumptions (t.extend check call).made = assumptions t.made ++ assumptions [call] :=
  List.filterMap_append

def Stmt.conditions (s : Stmt) : List Expr :=
  s.walk.filterMap fun
    | .branch cond _ _ | .loop cond _ => some cond
    | .expr _ | .block _ | .ret _ | .decl _ => none

section

variable {σ ρ α : Type} {frame : Frame} {limits : Limits} {check : PathCheck σ ρ}

structure Path.Follows (p : Path (Traced σ ρ)) (memory : Memory) (directions : Directions) :
    Prop where
  agrees : p.store.Agrees memory
  assumed : assumptions p.state.made = directions

/-- Evaluation assumes nothing. -/
theorem answerAlike_assumptions (frame : Frame) (check : PathCheck σ ρ) (directions : Directions) :
    AnswerAlike frame (fun _ => True) check.traced check.traced
      (fun s t => s = t ∧ assumptions s.made = directions)
      (fun s t => s = t ∧ assumptions s.made = directions) (fun _ _ => True) where
  nil := trivial
  append _ _ := trivial
  fresh := id
  beforeEffect := by
    rintro t _ n store e - ⟨rfl, hAssumed⟩
    refine ⟨⟨rfl, ?_⟩, trivial⟩
    exact (assumptions_extend check t _).trans ((List.append_nil _).trans hAssumed)
  afterSend := by
    rintro t _ n store m r receiver args - ⟨rfl, hAssumed⟩
    refine ⟨⟨rfl, ?_⟩, trivial⟩
    exact (assumptions_extend check t _).trans ((List.append_nil _).trans hAssumed)

variable {before after : Memory} {directions : Directions} {value : Bool}
  {p : Path (Traced σ ρ)}

variable (check) in
theorem follows_evaluate {e : Expr} (h : Evaluates frame e before value after)
    (hp : p.Follows before directions) :
    (evaluate frame check.traced e p).value.Admits value ∧
      (evaluate frame check.traced e p).path.Follows after directions := by
  obtain ⟨hValue, hAgrees⟩ := simulates_evaluate check.traced e h p hp.agrees
  have hAlong := (answerAlike_assumptions frame check directions).along_evaluate e
    (fun _ _ => trivial) p p ⟨rfl, rfl, rfl, hp.assumed⟩
  exact ⟨hValue, hAgrees, hAlong.2.1.state.2⟩

theorem follows_declare_init {v : VarDecl} {e : Expr} (hInit : v.init = some e)
    (h : Evaluates frame e before value after) (hp : p.Follows before directions) :
    (declare frame check.traced v p).path.Follows (after.store (some (.local v.name)) value)
      directions := by
  obtain ⟨hValue, hPath⟩ := follows_evaluate check h hp
  unfold declare
  rw [hInit]
  exact ⟨hPath.agrees.bind? _ hValue, hPath.assumed⟩

theorem follows_declare_noInit {v : VarDecl} (hInit : v.init = none) (value : Bool)
    (hp : p.Follows before directions) :
    (declare frame check.traced v p).path.Follows (before.store (some (.local v.name)) value)
      directions := by
  unfold declare
  rw [hInit]
  exact ⟨hp.agrees.bind? _ Nullness.admits_unknown, hp.assumed⟩

theorem follows_assume {cond : Expr} (hStores : cond.Within (frame.storesNothing · = true))
    {truth : Bool} (h : Evaluates frame cond before truth after) (hp : p.Follows after directions) :
    (assume frame check.traced cond truth p).Follows after (directions ++ [(cond, truth)]) := by
  obtain rfl := h.memory_eq hStores
  refine ⟨agrees_refine hStores h hp.agrees, ?_⟩
  rw [← hp.assumed]
  exact assumptions_extend check p.state _

inductive Standing.Follows (memory : Memory) (directions : Directions) :
    Flow → Standing (Traced σ ρ) → Prop
  | live {q} (h : q.Follows memory directions) : Follows memory directions .on (.live q)
  | ended {q} (h : q.Follows memory directions) : Follows memory directions .returned (.ended q)

theorem Standing.Follows.exists_ended {standing : Standing (Traced σ ρ)}
    (h : Standing.Follows after directions .returned standing) :
    ∃ p, standing = .ended p ∧ p.Follows after directions := by
  cases h with
  | ended hp => exact ⟨_, rfl, hp⟩

theorem follows_finish (hp : p.Follows after directions) :
    Standing.Follows after directions .returned (finish frame check.traced p) := by
  refine .ended ⟨hp.agrees, ?_⟩
  exact (assumptions_extend check p.state _).trans ((List.append_nil _).trans hp.assumed)

theorem can_test {cond : Expr} (hStores : cond.Within (frame.storesNothing · = true))
    {truth : Bool} (h : Evaluates frame cond before truth after) (hp : p.Follows before directions) :
    (test frame check.traced cond p).Can fun x =>
      x.1 = truth ∧ x.2.Follows after (directions ++ [(cond, truth)]) := by
  obtain ⟨hValue, hPath⟩ := follows_evaluate check h hp
  unfold test
  dsimp only
  -- A definite value is that of the run. An unknown one leaves both directions open.
  cases hKnown : (evaluate frame check.traced cond p).value with
  | nonNull =>
    rw [hKnown] at hValue
    obtain rfl : truth = true := hValue
    exact ⟨rfl, follows_assume hStores h hPath⟩
  | null =>
    rw [hKnown] at hValue
    obtain rfl : truth = false := hValue
    exact ⟨rfl, follows_assume hStores h hPath⟩
  | unknown =>
    cases truth with
    | true => exact .inl ⟨rfl, follows_assume hStores h hPath⟩
    | false => exact .inr fun n => ⟨rfl, follows_assume hStores h ⟨hPath.agrees, hPath.assumed⟩⟩

theorem can_andThen {t : Inquiry (Standing (Traced σ ρ))}
    {f : Path (Traced σ ρ) → Inquiry (Standing (Traced σ ρ))} {Q : Standing (Traced σ ρ) → Prop}
    (h : t.Can (Standing.Follows after directions .on))
    (hf : ∀ q : Path (Traced σ ρ), q.Follows after directions → (f q).Can Q) :
    (t >>= Standing.andThen f).Can Q := by
  refine h.bind ?_
  intro standing hStanding
  cases hStanding with
  | live hq => exact hf _ hq

theorem can_andThen_of_returned {t : Inquiry (Standing (Traced σ ρ))}
    {f : Path (Traced σ ρ) → Inquiry (Standing (Traced σ ρ))}
    (h : t.Can (Standing.Follows after directions .returned)) :
    (t >>= Standing.andThen f).Can (Standing.Follows after directions .returned) := by
  refine h.bind ?_
  intro standing hStanding
  cases hStanding with
  | ended hq => exact .ended hq

/-! ## Statements -/

/-- Conditions leave the store alone and no declared variable outlives the call. -/
structure Stmt.IsPlain (frame : Frame) (s : Stmt) : Prop where
  conditions : ∀ cond ∈ s.conditions, cond.Within (frame.storesNothing · = true)
  locals : ∀ v ∈ s.locals, v.hasStaticStorage = false

theorem Stmt.IsPlain.child {s c : Stmt} (h : s.IsPlain frame) (hc : c ∈ s.children) :
    c.IsPlain frame := by
  constructor
  · intro cond hCond
    exact h.conditions cond (List.filterMap_subset _ (Stmt.walk_subset hc) hCond)
  · intro v hv
    exact h.locals v (List.filterMap_subset _ (Stmt.walk_subset hc) hv)

theorem can_runLoop {cond : Expr} (hStores : cond.Within (frame.storesNothing · = true))
    {body : Stmt} {f : Path (Traced σ ρ) → Inquiry (Standing (Traced σ ρ))} {bound : Nat}
    (hBody : ∀ {before directions after flow}, Executes frame bound body before directions after flow →
      ∀ {p made}, p.Follows before made → (f p).Can (Standing.Follows after (made ++ directions) flow))
    {rounds : Nat} {flow : Flow}
    (h : Iterates frame bound cond body rounds before directions after flow)
    {made : Directions} (hp : p.Follows before made) :
    (runLoop frame check.traced cond f rounds p).Can
      (Standing.Follows after (made ++ directions) flow) := by
  induction rounds generalizing before directions p made with
  | zero =>
    cases h with
    | leave hCond =>
      -- The run leaves here, so the value at the bound is not one that abandons the path.
      obtain ⟨hValue, hPath⟩ := follows_evaluate check hCond hp
      have hNotEntered : (evaluate frame check.traced cond p).value ≠ .nonNull := by
        intro hEntered
        rw [hEntered] at hValue
        cases hValue
      simp only [runLoop, forcedExit, if_neg hNotEntered]
      exact .live (follows_assume hStores hCond hPath)
  | succ rounds ih =>
    cases h with
    | leave hCond =>
      refine (can_test hStores hCond hp).bind ?_
      rintro ⟨_, q⟩ ⟨rfl, hq⟩
      exact .live hq
    | round hCond hOnce hRest =>
      refine (can_test hStores hCond hp).bind ?_
      rintro ⟨_, q⟩ ⟨rfl, hq⟩
      rw [List.append_cons, ← List.append_assoc]
      exact can_andThen (hBody hOnce hq) fun _ hNext => ih hRest hNext
    | returned hCond hOnce =>
      refine (can_test hStores hCond hp).bind ?_
      rintro ⟨_, q⟩ ⟨rfl, hq⟩
      rw [List.append_cons]
      exact can_andThen_of_returned (hBody hOnce hq)

mutual

theorem can_run : ∀ {s : Stmt}, s.IsPlain frame →
    ∀ {before directions after flow},
    Executes frame limits.maxLoopUnroll s before directions after flow →
    ∀ {p : Path (Traced σ ρ)} {made}, p.Follows before made →
    (run frame limits check.traced s p).Can (Standing.Follows after (made ++ directions) flow)
  | .expr e, _, _, _, _, _, h, p, made, hp => by
    cases h with
    | expr hEvaluates =>
      rw [List.append_nil]
      exact .live (follows_evaluate check hEvaluates hp).2
  | .block body, hs, _, _, _, _, h, p, made, hp => by
    cases h with
    | block hAll => exact can_runAll (fun c hc => hs.child hc) hAll hp
  | .decl v, hs, _, _, _, _, h, p, made, hp => by
    have hLocal : v.hasStaticStorage = false := hs.locals v (by simp [Stmt.locals, Stmt.walk])
    cases h with
    | init _ hInit hEvaluates =>
      rw [List.append_nil]
      exact .live (follows_declare_init hInit hEvaluates hp)
    | noInit _ hInit =>
      rw [List.append_nil]
      exact .live (follows_declare_noInit hInit _ hp)
    | static hStatic => simp [hLocal] at hStatic
  | .ret none, _, _, _, _, _, h, p, made, hp => by
    cases h with
    | ret =>
      rw [List.append_nil]
      exact follows_finish hp
  | .ret (some value), _, _, _, _, _, h, p, made, hp => by
    cases h with
    | retValue hEvaluates =>
      rw [List.append_nil]
      exact follows_finish (follows_evaluate check hEvaluates hp).2
  | .branch cond yes none, hs, _, _, _, _, h, p, made, hp => by
    have hStores := hs.conditions cond (List.mem_filterMap.mpr ⟨_, Stmt.self_mem_walk _, rfl⟩)
    have hYes := hs.child (c := yes) List.mem_cons_self
    cases h with
    | yes hCond hExecutes =>
      refine (can_test hStores hCond hp).bind ?_
      rintro ⟨_, q⟩ ⟨rfl, hq⟩
      rw [List.append_cons]
      exact can_run hYes hExecutes hq
    | skip hCond =>
      refine (can_test hStores hCond hp).bind ?_
      rintro ⟨_, q⟩ ⟨rfl, hq⟩
      exact .live hq
  | .branch cond yes (some no), hs, _, _, _, _, h, p, made, hp => by
    have hStores := hs.conditions cond (List.mem_filterMap.mpr ⟨_, Stmt.self_mem_walk _, rfl⟩)
    have hYes := hs.child (c := yes) List.mem_cons_self
    have hNo := hs.child (c := no) (List.mem_cons_of_mem _ List.mem_cons_self)
    cases h with
    | yes hCond hExecutes =>
      refine (can_test hStores hCond hp).bind ?_
      rintro ⟨_, q⟩ ⟨rfl, hq⟩
      rw [List.append_cons]
      exact can_run hYes hExecutes hq
    | no hCond hExecutes =>
      refine (can_test hStores hCond hp).bind ?_
      rintro ⟨_, q⟩ ⟨rfl, hq⟩
      rw [List.append_cons]
      exact can_run hNo hExecutes hq
  | .loop cond body, hs, _, _, _, _, h, p, made, hp => by
    have hStores := hs.conditions cond (List.mem_filterMap.mpr ⟨_, Stmt.self_mem_walk _, rfl⟩)
    have hBody := hs.child (c := body) List.mem_cons_self
    cases h with
    | loop hIterates =>
      exact can_runLoop hStores (fun hOnce _ _ hq => can_run hBody hOnce hq) hIterates hp

theorem can_runAll : ∀ {ss : List Stmt}, (∀ s ∈ ss, s.IsPlain frame) →
    ∀ {before directions after flow},
    ExecutesAll frame limits.maxLoopUnroll ss before directions after flow →
    ∀ {p : Path (Traced σ ρ)} {made}, p.Follows before made →
    (runAll frame limits check.traced ss p).Can (Standing.Follows after (made ++ directions) flow)
  | [], _, _, _, _, _, h, p, made, hp => by
    cases h with
    | nil =>
      rw [List.append_nil]
      exact .live hp
  | s :: rest, hss, _, _, _, _, h, p, made, hp => by
    obtain ⟨hs, hRest⟩ := List.forall_mem_cons.mp hss
    cases h with
    | cons hFirst hOthers =>
      rw [← List.append_assoc]
      exact can_andThen (can_run hs hFirst hp) fun _ hq => can_runAll hRest hOthers hq
    | returned hFirst => exact can_andThen_of_returned (can_run hs hFirst hp)

end

theorem can_runMethod {body : Stmt} (hPlain : body.IsPlain frame) {flow : Flow}
    (h : Executes frame limits.maxLoopUnroll body before directions after flow) :
    (runMethod frame limits check.traced body).Can (Standing.Follows after directions .returned) := by
  have hStart : Path.Follows (⟨0, ∅, Traced.start check⟩ : Path (Traced σ ρ)) before [] :=
    ⟨Store.agrees_empty before, rfl⟩
  have hRun : (run frame limits check.traced body ⟨0, ∅, Traced.start check⟩).Can
      (Standing.Follows after directions flow) := can_run hPlain h hStart
  cases flow with
  | on => exact can_andThen hRun fun _ hq => follows_finish hq
  | returned => exact can_andThen_of_returned hRun

/-- Where no fork is refused, what the plain interpreter can do is done by an explored path. -/
theorem exists_path_of_can {body : Stmt} (hBody : frame.method.body = some body)
    (hForks : none ∉ (explore frame limits check).forks)
    (hCan : (runMethod frame limits check.traced body).Can
      (Standing.Follows after directions .returned)) :
    ∃ p ∈ (explore frame limits check.traced).reports, p.isEnded = true ∧
      assumptions p.state.made = directions ∧ p.store.Agrees after := by
  obtain ⟨t, hLeaves, hEnded⟩ := explore_leaves hBody hForks
  obtain ⟨⟨bs, standing⟩, hLeaf, hFollows⟩ := hLeaves.exists_of_can hCan
  obtain ⟨p, rfl, hp⟩ := hFollows.exists_ended
  have hShown : p ∈ (explore frame limits check.traced).reports.filter (·.isEnded) := by
    rw [hEnded]
    exact List.mem_map_of_mem (Tally.mem_ended_iff.mpr hLeaf)
  obtain ⟨hReported, hIsEnded⟩ := List.mem_filter.mp hShown
  exact ⟨p, hReported, hIsEnded, hp.assumed, hp.agrees⟩

/-- No concrete run is pruned. Some path that leaves the method assumed exactly the directions of the
run, and what it knows in the end is true of the memory in which the run ends. -/
theorem exists_path_of_executes {body : Stmt} (hBody : frame.method.body = some body)
    (hConditions : ∀ cond ∈ body.conditions, ∀ e ∈ cond.walk, frame.storesNothing e = true)
    (hLocals : ∀ v ∈ body.locals, v.hasStaticStorage = false)
    (hForks : none ∉ (explore frame limits check).forks) {flow : Flow}
    (hRun : Executes frame limits.maxLoopUnroll body before directions after flow) :
    ∃ p ∈ (explore frame limits check.traced).reports, p.isEnded = true ∧
      assumptions p.state.made = directions ∧ p.store.Agrees after :=
  exists_path_of_can hBody hForks (can_runMethod ⟨hConditions, hLocals⟩ hRun)

/-- In whatever memory a method without loops is called, it has a run, and an explored path goes the
same way. -/
theorem exists_path_of_memory {body : Stmt} (hBody : frame.method.body = some body)
    (hPlain : body.IsPlain frame) (hLoopless : body.IsLoopless)
    (hForks : none ∉ (explore frame limits check).forks) (before : Memory) :
    ∃ p ∈ (explore frame limits check.traced).reports, p.isEnded = true ∧
      ∃ after flow, Executes frame limits.maxLoopUnroll body before (assumptions p.state.made) after flow ∧
        p.store.Agrees after := by
  obtain ⟨directions, after, flow, hRun⟩ := exists_executes frame limits.maxLoopUnroll hLoopless before
  obtain ⟨p, hReported, hEnded, rfl, hAgrees⟩ :=
    exists_path_of_can hBody hForks (can_runMethod hPlain hRun)
  exact ⟨p, hReported, hEnded, after, flow, hRun, hAgrees⟩

end

namespace Sample

/-- Only `more` holds anything. -/
def drainMemory : Memory := fun slot => slot == .local "more"

/-- The loop is entered once, since there is nothing next. -/
theorem executes_drain (frame : Frame) :
    Executes frame 2 (.block drainBody) drainMemory
      [(.var "stop" none .unknown, false), (.var "more" none .unknown, true),
        (.var "more" none .unknown, false)]
      (drainMemory.store (some (.local "more")) false) .on := by
  have hVar (name : String) (memory : Memory) : Evaluates frame (.var name none .unknown) memory
      (memory (.local name)) memory := ⟨.nil, .var⟩
  have hStop : drainMemory (.local "stop") = false := by decide
  have hMore : drainMemory (.local "more") = true := by decide
  have hNext : Evaluates frame (.call "next" [] .unknown) drainMemory false drainMemory :=
    ⟨.nil, .call⟩
  have hRound : Executes frame 2
      (.expr (.assign (.var "more" none .unknown) (.call "next" [] .unknown) .unknown)) drainMemory []
      (drainMemory.store (some (.local "more")) false) .on :=
    .expr ⟨.cons (hVar _ _) (.cons hNext .nil), .assign⟩
  have hLeave := hVar "more" (drainMemory.store (some (.local "more")) false)
  exact .block (.cons (.skip (hStop ▸ hVar "stop" drainMemory))
    (.cons (.loop (.round (hMore ▸ hVar "more" drainMemory) hRound (.leave hLeave))) .nil))

end Sample

open Sample in
theorem drain_once_is_explored :
    ∃ p ∈ (explore (fooFrame earlyReturn 0) ⟨512, 2⟩
        (delegatePaths .default (knownFacts earlyReturn)).traced).reports,
      p.isEnded = true ∧
      assumptions p.state.made = [(.var "stop" none .unknown, false),
        (.var "more" none .unknown, true), (.var "more" none .unknown, false)] ∧
      p.store.Agrees (drainMemory.store (some (.local "more")) false) := by
  have hForks : none ∉ (explore (fooFrame earlyReturn 0) ⟨512, 2⟩
      (delegatePaths .default (knownFacts earlyReturn))).forks := by decide +kernel
  have hConditions : ∀ cond ∈ (Stmt.block drainBody).conditions, ∀ e ∈ cond.walk,
      (fooFrame earlyReturn 0).storesNothing e = true := by decide +kernel
  have hLocals : ∀ v ∈ (Stmt.block drainBody).locals, v.hasStaticStorage = false := by
    decide +kernel
  exact exists_path_of_executes rfl hConditions hLocals hForks (executes_drain _)

end DelegateSafety
