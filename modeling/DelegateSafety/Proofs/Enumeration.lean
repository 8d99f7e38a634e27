import Mathlib.Tactic.Abel
import DelegateSafety.Proofs.SinglePath
import DelegateSafety.Proofs.Trace
import DelegateSafety.Sample.Units

/-! # Exploration enumerates the runs of a method

Exploration takes whole lists of paths through loops and blocks and follows the branches of a test
path by path. Each of its operations is accounted for by the leaves of the plain interpreter
(`Explore.Yields`, `Tally`), so that the paths it ends are exactly the runs (`explore_leaves`).
-/
namespace DelegateSafety

open PathM Explore Inquiry

variable {σ ρ α β : Type}

/-! ## Results of an exploration without refusals -/

/-- If no fork is refused the result and the paths ended on the way are as stated. -/
def Explore.Yields (m : Explore (Path (Traced σ ρ)) α)
    (Q : α → List (Path (Traced σ ρ)) → Prop) : Prop :=
  ∀ next, none ∉ (m next).forks → Q (m next).value ((m next).reports.filter (·.isEnded))

namespace Explore

variable {m : Explore (Path (Traced σ ρ)) α} {f : α → Explore (Path (Traced σ ρ)) β}
  {P P' : α → List (Path (Traced σ ρ)) → Prop} {Q : β → List (Path (Traced σ ρ)) → Prop}

theorem Yields.imp (h : m.Yields P) (hImp : ∀ a ended, P a ended → P' a ended) : m.Yields P' :=
  fun next hForks => hImp _ _ (h next hForks)

theorem yields_pure {a : α} (h : P a []) : (pure a : Explore _ α).Yields P :=
  fun _ _ => h

theorem Yields.bind (hm : m.Yields P)
    (hf : ∀ a ended, P a ended → (f a).Yields fun b later => Q b (ended ++ later)) :
    (m >>= f).Yields Q := by
  intro next hForks
  simp only [Explore.bind_apply, List.mem_append, not_or] at hForks
  simp only [Explore.bind_apply, List.filter_append]
  exact hf _ _ (hm next hForks.1) _ hForks.2

theorem yields_count (stats : Stats) :
    (count stats : Explore (Path (Traced σ ρ)) Unit).Yields fun _ ended => ended = [] :=
  fun _ _ => rfl

end Explore

/-! ## Standings and directions -/

/-- Runs with the directions that led to them, by how they stand. -/
structure Tally (σ : Type) where
  live : List (List Bool × Path σ)
  ended : List (List Bool × Path σ)
  abandoned : List (List Bool × Unit)

def retag (f : α → β) (runs : List (List Bool × α)) : Multiset (List Bool × β) :=
  (runs : Multiset (List Bool × α)).map fun run => (run.1, f run.2)

theorem retag_append (f : α → β) (runs runs' : List (List Bool × α)) :
    retag f (runs ++ runs') = retag f runs + retag f runs' := by
  simp only [retag, ← Multiset.coe_add, Multiset.map_add]

namespace Tally

def standings (t : Tally σ) : Multiset (List Bool × Standing σ) :=
  retag .live t.live + (retag .ended t.ended + retag (fun _ => .abandoned) t.abandoned)

def ofLive (runs : List (List Bool × Path σ)) : Tally σ := ⟨runs, [], []⟩

def append (t t' : Tally σ) : Tally σ :=
  ⟨t.live ++ t'.live, t.ended ++ t'.ended, t.abandoned ++ t'.abandoned⟩

/-- What comes of the live runs takes their place. -/
def followedBy (t t' : Tally σ) : Tally σ := { t.append t' with live := t'.live }

theorem standings_ofLive (runs : List (List Bool × Path σ)) :
    (ofLive runs).standings = retag .live runs :=
  add_zero _

theorem standings_append (t t' : Tally σ) :
    (t.append t').standings = t.standings + t'.standings := by
  simp only [standings, append, retag_append]
  abel

theorem standings_followedBy (t t' : Tally σ) : (t.followedBy t').standings =
    t'.standings + (retag .ended t.ended + retag (fun _ => .abandoned) t.abandoned) := by
  simp only [standings, followedBy, append, retag_append]
  abel

end Tally

theorem leavesAll_retag_iff {γ : Type} {f : β → Inquiry γ} {g : α → β}
    {runs : List (List Bool × α)} {leaves : Multiset (List Bool × γ)} :
    LeavesAll f (retag g runs) leaves ↔ LeavesAll (fun a => f (g a)) runs leaves :=
  LeavesAll.map_iff

/-- Only live runs go on. -/
theorem leavesAll_andThen {f : Path σ → Inquiry (Standing σ)} {t t' : Tally σ}
    (h : LeavesAll f t.live t'.standings) :
    LeavesAll (Standing.andThen f) t.standings (t.followedBy t').standings := by
  rw [Tally.standings_followedBy]
  exact .add (leavesAll_retag_iff.mpr h) (.add (leavesAll_retag_iff.mpr (.done Standing.ended _))
    (leavesAll_retag_iff.mpr (.done (fun _ => Standing.abandoned) _)))

section

variable (frame : Frame) (limits : Limits) (check : PathCheck σ ρ)

/-- The exploration takes the starts through the interpreter. -/
def Enumerates (f : Path (Traced σ ρ) → Inquiry (Standing (Traced σ ρ)))
    (starts : List (List Bool × Path (Traced σ ρ)))
    (m : Explore (Path (Traced σ ρ)) (List (Path (Traced σ ρ)))) : Prop :=
  m.Yields fun live ended => ∃ t : Tally (Traced σ ρ),
    live = t.live.map Prod.snd ∧ ended = t.ended.map Prod.snd ∧ LeavesAll f starts t.standings

variable {f g : Path (Traced σ ρ) → Inquiry (Standing (Traced σ ρ))}
  {starts : List (List Bool × Path (Traced σ ρ))}

theorem leavesAll_live (starts : List (List Bool × Path (Traced σ ρ))) :
    LeavesAll (fun p => pure (.live p)) starts (Tally.ofLive starts).standings := by
  rw [Tally.standings_ofLive]
  exact .done Standing.live _

theorem enumerates_live (starts : List (List Bool × Path (Traced σ ρ))) :
    Enumerates (fun p => pure (.live p)) starts (pure (starts.map Prod.snd)) :=
  yields_pure ⟨.ofLive starts, rfl, rfl, leavesAll_live starts⟩

theorem enumerates_nil (f : Path (Traced σ ρ) → Inquiry (Standing (Traced σ ρ))) :
    Enumerates f [] (pure []) :=
  yields_pure ⟨⟨[], [], []⟩, rfl, rfl, .zero f⟩

theorem Enumerates.andThen {m : Explore _ (List (Path (Traced σ ρ)))}
    {k : List (Path (Traced σ ρ)) → Explore _ (List (Path (Traced σ ρ)))}
    (hm : Enumerates f starts m) (hk : ∀ live, Enumerates g live (k (live.map Prod.snd))) :
    Enumerates (fun p => f p >>= Standing.andThen g) starts (m >>= k) := by
  refine hm.bind ?_
  rintro _ _ ⟨t, rfl, rfl, hLeaves⟩
  refine (hk t.live).imp ?_
  rintro _ _ ⟨t', rfl, rfl, hLeaves'⟩
  exact ⟨t.followedBy t', rfl, (List.map_append ..).symm, hLeaves.bind (leavesAll_andThen hLeaves')⟩

theorem enumerates_forEach {g : Path (Traced σ ρ) → Explore _ (List (Path (Traced σ ρ)))}
    (h : ∀ bs p, Enumerates f [(bs, p)] (g p)) (starts : List (List Bool × Path (Traced σ ρ))) :
    Enumerates f starts (forEach g (starts.map Prod.snd)) := by
  induction starts with
  | nil => exact enumerates_nil f
  | cons start rest ih =>
    refine (h start.1 start.2).bind ?_
    rintro _ _ ⟨t, rfl, rfl, hLeaves⟩
    refine ih.bind ?_
    rintro _ _ ⟨t', rfl, rfl, hLeaves'⟩
    refine yields_pure ⟨t.append t', (List.map_append ..).symm, ?_, ?_⟩
    · rw [List.append_nil]
      exact (List.map_append ..).symm
    · rw [Tally.standings_append]
      exact .add hLeaves hLeaves'

/-! ## Along a path -/

/-- Nothing that happens during evaluation ends a path. -/
def PathM.EndsNothing (m : PathM (Traced σ ρ) (Path (Traced σ ρ)) α) : Prop :=
  Along (fun reports _ => reports.filter (·.isEnded) = []) Eq Eq m m

theorem answerAlike_traced : AnswerAlike frame (fun _ => True) check.traced check.traced Eq Eq
    (fun reports _ => reports.filter (·.isEnded) = []) where
  nil := rfl
  append h h' := by rw [List.filter_append, h, h', List.append_nil]
  fresh := id
  beforeEffect := by
    rintro t _ n store e - rfl
    exact ⟨rfl, by simp [PathCheck.traced, Path.isEnded, Traced.extend, Callback.isEnd]⟩
  afterSend := by
    rintro t _ n store m r receiver args - rfl
    exact ⟨rfl, by simp [PathCheck.traced, Path.isEnded, Traced.extend, Callback.isEnd]⟩

theorem evaluate_endsNothing (e : Expr) : (evaluate frame check.traced e).EndsNothing :=
  (answerAlike_traced frame check).along_evaluate e fun _ _ => trivial

theorem declare_endsNothing (v : VarDecl) : (declare frame check.traced v).EndsNothing :=
  (answerAlike_traced frame check).along_declare v fun _ _ _ _ => trivial

variable {frame check}

theorem PathM.EndsNothing.yields {m : PathM (Traced σ ρ) (Path (Traced σ ρ)) α}
    (h : m.EndsNothing) (p : Path (Traced σ ρ)) :
    (along m p).Yields fun x ended => x = ((m p).value, (m p).path) ∧ ended = [] :=
  fun _ _ => ⟨rfl, (h p p ⟨rfl, rfl, rfl⟩).2.2⟩

theorem PathM.EndsNothing.enumerates {m : PathM (Traced σ ρ) (Path (Traced σ ρ)) α}
    (h : m.EndsNothing) (bs : List Bool) (p : Path (Traced σ ρ)) :
    Enumerates (fun p => pure (.live (m p).path)) [(bs, p)]
      (do let (_, p) ← along m p; pure [p]) := by
  refine (h.yields p).bind ?_
  rintro _ _ ⟨rfl, rfl⟩
  exact yields_pure ⟨.ofLive [(bs, (m p).path)], rfl, rfl,
    LeavesAll.singleton_iff.mpr (.done _ _)⟩

variable (frame check)

theorem enumerates_endPath (bs : List Bool) (p : Path (Traced σ ρ)) :
    Enumerates (fun p => pure (finish frame check.traced p)) [(bs, p)]
      (endPath frame check.traced p) := by
  have hFiled : (along (consult frame check.traced.atEnd) p).Yields fun _ ended =>
      ended = [(consult frame check.traced.atEnd p).path] := by
    intro next _
    simp [along, consult, PathCheck.traced, Path.isEnded, Traced.extend, Callback.isEnd]
  refine hFiled.bind ?_
  rintro _ _ rfl
  refine (yields_count _).bind ?_
  rintro _ _ rfl
  exact yields_pure ⟨⟨[], [(bs, (consult frame check.traced.atEnd p).path)], []⟩, rfl, rfl,
    LeavesAll.singleton_iff.mpr (.done _ _)⟩

/-! ## Tests -/

/-- Paths that enter and paths that leave, as the starts turn out at a test. -/
def Parts (cond : Expr) (starts : List (List Bool × Path (Traced σ ρ)))
    (entering leaving : List (Path (Traced σ ρ))) : Prop :=
  ∃ enter leave : List (List Bool × Path (Traced σ ρ)),
    entering = enter.map Prod.snd ∧ leaving = leave.map Prod.snd ∧
    LeavesAll (test frame check.traced cond) starts
      (retag (Prod.mk true) enter + retag (Prod.mk false) leave)

theorem yields_fork (p : Path (Traced σ ρ)) :
    (fork limits p : Explore (Path (Traced σ ρ)) _).Yields fun other ended =>
      ended = [] ∧ ∃ n, other = some { p with id := n } := by
  intro next hForks
  unfold fork at hForks ⊢
  split at hForks
  · simp at hForks
  · rename_i hRoom
    rw [if_neg hRoom]
    exact ⟨rfl, next, rfl⟩

theorem yields_split (cond : Expr) (bs : List Bool) (p : Path (Traced σ ρ)) :
    (split frame limits check.traced cond p).Yields fun x ended =>
      ended = [] ∧ Parts frame check cond [(bs, p)] x.1.toList x.2.toList := by
  refine ((evaluate_endsNothing frame check cond).yields p).bind ?_
  rintro _ _ ⟨rfl, rfl⟩
  have hTest : ∀ {leaves}, Leaves (test frame check.traced cond p) bs leaves →
      LeavesAll (test frame check.traced cond) ([(bs, p)] : List _) leaves :=
    LeavesAll.singleton_iff.mpr
  unfold test at hTest
  dsimp only at hTest ⊢
  cases hValue : (evaluate frame check.traced cond p).value with
  -- A definite value takes no direction, so the sequence so far stays as it is.
  | nonNull =>
    simp only [hValue] at hTest
    refine (yields_count _).bind ?_
    rintro _ _ rfl
    exact yields_pure ⟨rfl, [(bs, _)], [], rfl, rfl, hTest (.done _ _)⟩
  | null =>
    simp only [hValue] at hTest
    refine (yields_count _).bind ?_
    rintro _ _ rfl
    exact yields_pure ⟨rfl, [], [(bs, _)], rfl, rfl, hTest (.done _ _)⟩
  | unknown =>
    simp only [hValue] at hTest
    refine (yields_fork limits _).bind ?_
    rintro _ _ ⟨rfl, n, rfl⟩
    exact yields_pure ⟨rfl, [(bs ++ [true], _)], [(bs ++ [false], _)], rfl, rfl,
      hTest (.ask n (.done _ _) (.done _ _))⟩

theorem yields_splitAll (cond : Expr) (starts : List (List Bool × Path (Traced σ ρ))) :
    (splitAll frame limits check.traced cond (starts.map Prod.snd)).Yields fun x ended =>
      ended = [] ∧ Parts frame check cond starts x.1 x.2 := by
  induction starts with
  | nil => exact yields_pure ⟨rfl, [], [], rfl, rfl, .zero _⟩
  | cons start rest ih =>
    refine (yields_split frame limits check cond start.1 start.2).bind ?_
    rintro ⟨enter, leave⟩ _ ⟨rfl, these, those, hThese, hThose, hLeaves⟩
    refine ih.bind ?_
    rintro ⟨_, _⟩ _ ⟨rfl, these', those', rfl, rfl, hLeaves'⟩
    refine yields_pure ⟨rfl, these ++ these', those ++ those', ?_, ?_, ?_⟩
    · rw [List.map_append, ← hThese]
    · rw [List.map_append, ← hThose]
    · rw [retag_append, retag_append, add_add_add_comm]
      exact .add hLeaves hLeaves'

variable {frame check} in
theorem leavesAll_test {cond : Expr} {enter leave : List (List Bool × Path (Traced σ ρ))}
    {t t' : Tally (Traced σ ρ)}
    (hParts : LeavesAll (test frame check.traced cond) starts
      (retag (Prod.mk true) enter + retag (Prod.mk false) leave))
    (hEnter : LeavesAll f enter t.standings) (hLeave : LeavesAll g leave t'.standings) :
    LeavesAll (fun p => test frame check.traced cond p >>= fun x => if x.1 then f x.2 else g x.2)
      starts (t.append t').standings := by
  refine hParts.bind ?_
  rw [Tally.standings_append]
  exact .add (leavesAll_retag_iff.mpr hEnter) (leavesAll_retag_iff.mpr hLeave)

/-! ## Loops -/

theorem enumerates_leaveLoop (cond : Expr) (bs : List Bool) (p : Path (Traced σ ρ)) :
    Enumerates (fun p => pure (forcedExit frame check.traced cond p)) [(bs, p)]
      (leaveLoop frame check.traced cond p) := by
  refine ((evaluate_endsNothing frame check cond).yields p).bind ?_
  rintro _ _ ⟨rfl, rfl⟩
  have hExit : LeavesAll (fun p => pure (forcedExit frame check.traced cond p))
      ([(bs, p)] : List _) {(bs, forcedExit frame check.traced cond p)} :=
    LeavesAll.singleton_iff.mpr (.done _ _)
  unfold forcedExit at hExit ⊢
  dsimp only at hExit ⊢
  split
  · rename_i hValue
    simp only [hValue, if_true] at hExit
    refine (yields_count _).bind ?_
    rintro _ _ rfl
    exact yields_pure ⟨⟨[], [], [(bs, ())]⟩, rfl, rfl, hExit⟩
  · rename_i hValue
    simp only [hValue, if_false] at hExit
    exact yields_pure ⟨.ofLive [(bs, _)], rfl, rfl, hExit⟩

theorem enumerates_iterate (cond : Expr)
    {body : List (Path (Traced σ ρ)) → Explore _ (List (Path (Traced σ ρ)))}
    (hBody : ∀ starts, Enumerates f starts (body (starts.map Prod.snd))) (bound : Nat)
    (starts : List (List Bool × Path (Traced σ ρ))) :
    Enumerates (runLoop frame check.traced cond f bound) starts
      (iterate frame limits check.traced cond body bound (starts.map Prod.snd)) := by
  induction bound generalizing starts with
  | zero =>
    cases starts with
    | nil => exact enumerates_nil _
    | cons start rest =>
      exact enumerates_forEach (enumerates_leaveLoop frame check cond) (start :: rest)
  | succ bound ih =>
    cases starts with
    | nil => exact enumerates_nil _
    | cons start rest =>
      refine (yields_splitAll frame limits check cond (start :: rest)).bind ?_
      rintro ⟨_, _⟩ _ ⟨rfl, enter, leave, rfl, rfl, hParts⟩
      -- Those that enter go through the body and all later rounds, those that leave are set aside.
      have hRound := (hBody enter).andThen ih
      dsimp only
      rw [← bind_assoc]
      refine hRound.bind ?_
      rintro _ _ ⟨t, rfl, rfl, hLeaves⟩
      refine yields_pure ⟨(Tally.ofLive leave).append t, (List.map_append ..).symm,
        List.append_nil _, ?_⟩
      rw [Tally.standings_append, add_comm (Tally.standings _), ← Tally.standings_append]
      exact leavesAll_test hParts hLeaves (leavesAll_live leave)

/-! ## Statements -/

mutual

theorem enumerates_execute : ∀ (s : Stmt) (starts : List (List Bool × Path (Traced σ ρ))),
    Enumerates (run frame limits check.traced s) starts
      (execute frame limits check.traced s (starts.map Prod.snd))
  | .expr e, starts =>
    enumerates_forEach (evaluate_endsNothing frame check e).enumerates starts
  | .block body, starts => enumerates_executeAll body starts
  | .decl v, starts =>
    enumerates_forEach (declare_endsNothing frame check v).enumerates starts
  | .ret none, starts => enumerates_forEach (enumerates_endPath frame check) starts
  | .ret (some value), starts => by
    refine enumerates_forEach (fun bs p => ?_) starts
    refine ((evaluate_endsNothing frame check value).yields p).bind ?_
    rintro _ _ ⟨rfl, rfl⟩
    refine (enumerates_endPath frame check bs _).imp ?_
    rintro _ _ ⟨t, rfl, rfl, hLeaves⟩
    have hEnd := LeavesAll.singleton_iff.mp hLeaves
    exact ⟨t, rfl, rfl, LeavesAll.singleton_iff.mpr hEnd⟩
  | .branch cond yes none, starts => by
    refine enumerates_forEach (fun bs p => ?_) starts
    refine (yields_split frame limits check cond bs p).bind ?_
    rintro ⟨taken, other⟩ _ ⟨rfl, enter, leave, hEnter, hLeave, hParts⟩
    dsimp only at hEnter hLeave ⊢
    rw [hEnter, hLeave]
    refine (enumerates_execute yes enter).bind ?_
    rintro _ _ ⟨t, rfl, rfl, hYes⟩
    refine yields_pure ⟨t.append (.ofLive leave), (List.map_append ..).symm, ?_,
      leavesAll_test hParts hYes (leavesAll_live leave)⟩
    simp [Tally.append, Tally.ofLive]
  | .branch cond yes (some no), starts => by
    refine enumerates_forEach (fun bs p => ?_) starts
    refine (yields_split frame limits check cond bs p).bind ?_
    rintro ⟨taken, other⟩ _ ⟨rfl, enter, leave, hEnter, hLeave, hParts⟩
    dsimp only at hEnter hLeave ⊢
    rw [hEnter, hLeave]
    refine (enumerates_execute yes enter).bind ?_
    rintro _ _ ⟨t, rfl, rfl, hYes⟩
    refine (enumerates_execute no leave).bind ?_
    rintro _ _ ⟨t', rfl, rfl, hNo⟩
    refine yields_pure ⟨t.append t', (List.map_append ..).symm, ?_,
      leavesAll_test hParts hYes hNo⟩
    simp [Tally.append]
  | .loop cond body, starts =>
    enumerates_iterate frame limits check cond (enumerates_execute body) _ starts

theorem enumerates_executeAll : ∀ (ss : List Stmt) (starts : List (List Bool × Path (Traced σ ρ))),
    Enumerates (runAll frame limits check.traced ss) starts
      (executeAll frame limits check.traced ss (starts.map Prod.snd))
  | [], starts => enumerates_live starts
  | s :: rest, starts => (enumerates_execute s starts).andThen (enumerates_executeAll rest)

end

variable {frame limits check}

/-- Without refusals the runs of a method are the leaves of the plain interpreter, and those that
have left the method are what exploration shows at the ends of paths. -/
theorem explore_leaves {body : Stmt} (hBody : frame.method.body = some body)
    (hForks : none ∉ (explore frame limits check).forks) :
    ∃ t : Tally (Traced σ ρ), Leaves (runMethod frame limits check.traced body) [] t.standings ∧
      (explore frame limits check.traced).reports.filter (·.isEnded) = t.ended.map Prod.snd := by
  rw [← (explore_traced frame limits check).2.1] at hForks
  have hEnumerates := (enumerates_execute frame limits check body
    [([], ⟨0, ∅, Traced.start check⟩)]).andThen (enumerates_forEach (enumerates_endPath frame check))
  have hYields : (do
      count .method
      let live ← execute frame limits check.traced body [⟨0, ∅, Traced.start check⟩]
      let _ ← forEach (endPath frame check.traced) live
      pure () : Explore (Path (Traced σ ρ)) Unit).Yields fun _ ended =>
        ∃ t : Tally (Traced σ ρ),
          Leaves (runMethod frame limits check.traced body) [] t.standings ∧
          ended = t.ended.map Prod.snd := by
    refine (yields_count _).bind ?_
    rintro _ _ rfl
    rw [← bind_assoc]
    refine hEnumerates.bind ?_
    rintro _ _ ⟨t, -, rfl, hLeaves⟩
    have hRun := LeavesAll.singleton_iff.mp hLeaves
    exact yields_pure ⟨t, hRun, List.append_nil _⟩
  unfold explore at hForks ⊢
  rw [hBody] at hForks ⊢
  exact hYields 1 hForks

theorem Tally.mem_ended_iff {t : Tally σ} {bs : List Bool} {p : Path σ} :
    (bs, p) ∈ t.ended ↔ (bs, .ended p) ∈ t.standings := by
  simp [standings, retag]

theorem Tally.nodup_ended {t : Tally σ} (h : (t.standings.map Prod.fst).Nodup) :
    (t.ended.map Prod.fst).Nodup := by
  have hEnded : ((t.ended.map Prod.fst : List (List Bool)) : Multiset (List Bool)) ≤
      t.standings.map Prod.fst := by
    simp only [standings, retag, Multiset.map_add, Multiset.map_map, Function.comp_def]
    exact (Multiset.le_add_right _ _).trans (Multiset.le_add_left _ _)
  exact Multiset.nodup_of_le hEnded h

/-- Each sequence of directions is taken exactly once. With the numbers that the paths were given,
the paths shown at their ends are what the plain interpreter comes to on the direction sequences on
which it leaves the method, and no sequence counts twice. -/
theorem endings_eq_runs {body : Stmt} (hBody : frame.method.body = some body)
    (hForks : none ∉ (explore frame limits check).forks) :
    ∃ (number : List Bool → Nat) (runs : List (List Bool × Path (Traced σ ρ))),
      (runs.map Prod.fst).Nodup ∧
      (∀ bs p, (bs, p) ∈ runs ↔
        follow number (runMethod frame limits check.traced body) bs = some (.ended p)) ∧
      (explore frame limits check.traced).reports.filter (·.isEnded) = runs.map Prod.snd := by
  obtain ⟨t, hLeaves, hReports⟩ := explore_leaves hBody hForks
  obtain ⟨number, runs, hNodup, hRuns, hStandings⟩ := hLeaves.exists_number
  simp only [List.nil_append, Prod.mk.eta, List.map_id'] at hStandings
  refine ⟨number, t.ended, ?_, ?_, hReports⟩
  · refine Tally.nodup_ended ?_
    rw [hStandings, Multiset.map_coe]
    exact Multiset.coe_nodup.mpr hNodup
  · intro bs p
    rw [Tally.mem_ended_iff, hStandings, Multiset.mem_coe]
    exact hRuns bs _

end

namespace Sample

/-- A body that may be left before its loop. Each round of the loop decides about the next. -/
def drainBody : List Stmt :=
  let stop : Expr := .var "stop" none .unknown
  let more : Expr := .var "more" none .unknown
  [.branch stop (.ret none) none,
    .loop more (.expr (.assign more (.call "next" [] .unknown) .unknown))]

def earlyReturn : SourceUnit := delegatePair [method "drain" drainBody]

end Sample

open Sample in
/-- The loop of `drain` is entered at most twice. -/
theorem drain_has_four_runs :
    (explore (fooFrame earlyReturn 0) ⟨512, 2⟩
      (delegatePaths .default (knownFacts earlyReturn))).stats.pathsCompleted = 4 ∧
    ∃ (number : List Bool → Nat)
      (runs : List (List Bool × Path (Traced DelegateState Diagnostic))),
      (runs.map Prod.fst).Nodup ∧
      (∀ bs p, (bs, p) ∈ runs ↔
        follow number (runMethod (fooFrame earlyReturn 0) ⟨512, 2⟩
          (delegatePaths .default (knownFacts earlyReturn)).traced (.block drainBody)) bs =
          some (.ended p)) ∧
      (explore (fooFrame earlyReturn 0) ⟨512, 2⟩
        (delegatePaths .default (knownFacts earlyReturn)).traced).reports.filter (·.isEnded) =
        runs.map Prod.snd := by
  have hForks : none ∉ (explore (fooFrame earlyReturn 0) ⟨512, 2⟩
      (delegatePaths .default (knownFacts earlyReturn))).forks := by decide +kernel
  exact ⟨by decide +kernel, endings_eq_runs rfl hForks⟩

end DelegateSafety
