import DelegateSafety.Exploration.Paths

/-! # Tests that are open both ways

The condition of a branch, or of a loop that may still be entered, is tested on each path that comes to it.
`tests` lists what these tests come to. A test that comes to nothing definite is open both ways; there and
nowhere else a path is forked (`forksAt_execute`).
-/
namespace DelegateSafety

open Explore

variable {σ ρ α β : Type}

section

variable (frame : Frame) (limits : Limits) (check : PathCheck σ ρ)

/-! ## What tests come to -/

/-- What a condition comes to on a path. -/
def tested (cond : Expr) (p : Path σ) : Nullness := (evaluate frame check cond p).value

/-- The tests made for one path after the other. Running the statement for a path gives the number with
which the next one begins. -/
def testsOfEach (run : List (Path σ) → Explore ρ (List (Path σ))) (log : Path σ → Nat → List Nullness) :
    List (Path σ) → Nat → List Nullness
  | [], _ => []
  | p :: rest, next => log p next ++ testsOfEach run log rest (run [p] next).nextPath

/-- The tests of a loop that may be entered `bound` times more. Past the bound none is made. -/
def testsOfRounds (cond : Expr) (body : List (Path σ) → Explore ρ (List (Path σ)))
    (log : List (Path σ) → Nat → List Nullness) :
    (bound : Nat) → List (Path σ) → Nat → List Nullness
  | _, [], _ => []
  | 0, _ :: _, _ => []
  | bound + 1, p :: rest, next =>
    -- All paths are tested before any of them goes through the body.
    let parted := splitAll frame limits check cond (p :: rest) next
    let round := body parted.value.1 parted.nextPath
    (p :: rest).map (tested frame check cond) ++ (log parted.value.1 parted.nextPath ++
      testsOfRounds cond body log bound round.value round.nextPath)

mutual

/-- What the tests made for some paths in a statement come to, in the order in which they are made. -/
def tests : Stmt → List (Path σ) → Nat → List Nullness
  | .expr _ => fun _ _ => []
  | .decl _ => fun _ _ => []
  | .ret _ => fun _ _ => []
  | .block body => testsOfAll body
  | .branch cond yes none => testsOfEach (execute frame limits check (.branch cond yes none)) fun p next =>
      let parted := split frame limits check cond p next
      tested frame check cond p :: tests yes parted.value.1.toList parted.nextPath
  | .branch cond yes (some no) =>
    testsOfEach (execute frame limits check (.branch cond yes (some no))) fun p next =>
      let parted := split frame limits check cond p next
      let taken := execute frame limits check yes parted.value.1.toList parted.nextPath
      tested frame check cond p :: (tests yes parted.value.1.toList parted.nextPath ++
        tests no parted.value.2.toList taken.nextPath)
  | .loop cond body =>
    testsOfRounds frame limits check cond (execute frame limits check body) (tests body)
      limits.maxLoopUnroll

def testsOfAll : List Stmt → List (Path σ) → Nat → List Nullness
  | [] => fun _ _ => []
  | s :: rest => fun ps next =>
    let first := execute frame limits check s ps next
    tests s ps next ++ testsOfAll rest first.value first.nextPath

end

/-! ## One fork a test that is open both ways -/

end

/-- Paths are forked at those tests of the log that come to nothing definite. -/
def Explore.ForksAt (m : Explore ρ α) (log : Nat → List Nullness) : Prop :=
  ∀ next, (m next).forks.length = (log next).count .unknown

namespace Explore

variable {m : Explore ρ α} {log first : Nat → List Nullness}

theorem forksAt_pure (a : α) : (pure a : Explore ρ α).ForksAt fun _ => [] := fun _ => rfl

theorem forksAt_along (m : PathM σ ρ α) (p : Path σ) : (along m p).ForksAt fun _ => [] := fun _ => rfl

theorem ForksAt.bind {f : α → Explore ρ β} {later : α → Nat → List Nullness} (hm : m.ForksAt first)
    (hf : ∀ a, (f a).ForksAt (later a)) :
    (m >>= f).ForksAt fun next => first next ++ later (m next).value (m next).nextPath := by
  intro next
  rw [bind_apply, List.length_append, List.count_append, hm next, hf]

theorem ForksAt.bind_pure (hm : m.ForksAt log) (f : α → β) : (m >>= fun a => pure (f a)).ForksAt log := by
  intro next
  rw [bind_apply, ← hm next]
  exact congrArg List.length (List.append_nil _)

variable {f : Path σ → Explore ρ (List (Path σ))}

theorem forksAt_forEach {log : Path σ → Nat → List Nullness} (h : ∀ p, (f p).ForksAt (log p))
    (ps : List (Path σ)) : (forEach f ps).ForksAt (testsOfEach (forEach f) log ps) := by
  induction ps with
  | nil => exact forksAt_pure _
  | cons p rest ih => exact (h p).bind fun _ => ih.bind_pure _

theorem forksAt_forEach_nil (h : ∀ p, (f p).ForksAt fun _ => []) (ps : List (Path σ)) :
    (forEach f ps).ForksAt fun _ => [] := by
  induction ps with
  | nil => exact forksAt_pure _
  | cons p rest ih => exact (h p).bind fun _ => ih.bind_pure _

end Explore

section

variable (frame : Frame) (limits : Limits) (check : PathCheck σ ρ)

/-- What a test comes to, by the value of its condition. -/
theorem split_apply (cond : Expr) (p : Path σ) (next : Nat) :
    split frame limits check cond p next =
      let stretch := evaluate frame check cond p
      let enter := assume frame check cond true stretch.path
      let leave := assume frame check cond false stretch.path
      match stretch.value with
      | .nonNull => ⟨(some enter, none), next, [], .pruned, stretch.reports⟩
      | .null => ⟨(none, some leave), next, [], .pruned, stretch.reports⟩
      | .unknown =>
        if limits.maxPaths ≤ next then
          ⟨(some enter, none), next, [none], .abandoned, stretch.reports⟩
        else
          ⟨(some enter, some { leave with id := next }), next + 1, [some next], 0,
            stretch.reports⟩ := by
  have hAlong : along (evaluate frame check cond) p next =
      ⟨((evaluate frame check cond p).value, (evaluate frame check cond p).path), next, [], 0,
        (evaluate frame check cond p).reports⟩ := rfl
  rw [split, Explore.bind_apply, hAlong]
  dsimp only
  cases (evaluate frame check cond p).value with
  | nonNull => simp [Explore.bind_apply, count, Explore.pure_apply, Stats.zero_add, Stats.add_zero]
  | null => simp [Explore.bind_apply, count, Explore.pure_apply, Stats.zero_add, Stats.add_zero]
  | unknown =>
    simp only [Explore.bind_apply, fork, Explore.pure_apply]
    split
    · simp [Stats.zero_add, Stats.add_zero]
    · simp [Stats.add_zero, assume]

/-- A test is open both ways exactly if its condition comes to nothing definite. -/
theorem length_forks_split (cond : Expr) (p : Path σ) (next : Nat) :
    (split frame limits check cond p next).forks.length =
      if tested frame check cond p = .unknown then 1 else 0 := by
  rw [split_apply, tested]
  dsimp only
  split
  · rename_i h
    simp [h]
  · rename_i h
    simp [h]
  · rename_i h
    rw [if_pos h]
    split <;> rfl

theorem forksAt_split (cond : Expr) (p : Path σ) :
    (split frame limits check cond p).ForksAt fun _ => [tested frame check cond p] := by
  intro next
  rw [length_forks_split, List.count_singleton]
  simp only [beq_iff_eq]

theorem forksAt_splitAll (cond : Expr) (ps : List (Path σ)) :
    (splitAll frame limits check cond ps).ForksAt fun _ => ps.map (tested frame check cond) := by
  induction ps with
  | nil => exact forksAt_pure _
  | cons p rest ih =>
    exact (forksAt_split frame limits check cond p).bind fun _ => ih.bind_pure _

theorem forksAt_endPath (p : Path σ) : (endPath frame check p).ForksAt fun _ => [] :=
  fun _ => rfl

theorem forksAt_leaveLoop (cond : Expr) (p : Path σ) :
    (leaveLoop frame check cond p).ForksAt fun _ => [] := by
  intro next
  rw [leaveLoop, bind_apply]
  dsimp only
  split <;> rfl

theorem forksAt_iterate (cond : Expr) {body : List (Path σ) → Explore ρ (List (Path σ))}
    {log : List (Path σ) → Nat → List Nullness} (hBody : ∀ ps, (body ps).ForksAt (log ps)) (bound : Nat)
    (ps : List (Path σ)) :
    (iterate frame limits check cond body bound ps).ForksAt
      (testsOfRounds frame limits check cond body log bound ps) := by
  induction bound generalizing ps with
  | zero =>
    cases ps with
    | nil => exact forksAt_pure _
    | cons p rest => exact forksAt_forEach_nil (forksAt_leaveLoop frame check cond) (p :: rest)
  | succ bound ih =>
    cases ps with
    | nil => exact forksAt_pure _
    | cons p rest =>
      exact (forksAt_splitAll frame limits check cond (p :: rest)).bind fun parted =>
        (hBody parted.1).bind fun looping => (ih looping).bind_pure _

mutual

/-- Where a statement is executed paths are forked at the tests that come to nothing definite. -/
theorem forksAt_execute : ∀ (s : Stmt) (ps : List (Path σ)),
    (execute frame limits check s ps).ForksAt (tests frame limits check s ps)
  | .expr _, ps => forksAt_forEach_nil (fun p => (forksAt_along _ p).bind_pure _) ps
  | .decl _, ps => forksAt_forEach_nil (fun p => (forksAt_along _ p).bind_pure _) ps
  | .ret none, ps => forksAt_forEach_nil (forksAt_endPath frame check) ps
  | .ret (some _), ps =>
    forksAt_forEach_nil (fun p => (forksAt_along _ p).bind fun x => forksAt_endPath frame check x.2) ps
  | .block body, ps => forksAt_executeAll body ps
  | .branch cond yes none, ps =>
    forksAt_forEach (fun p => (forksAt_split frame limits check cond p).bind fun parted =>
      (forksAt_execute yes parted.1.toList).bind_pure _) ps
  | .branch cond yes (some no), ps =>
    forksAt_forEach (fun p => (forksAt_split frame limits check cond p).bind fun parted =>
      (forksAt_execute yes parted.1.toList).bind fun _ =>
        (forksAt_execute no parted.2.toList).bind_pure _) ps
  | .loop cond body, ps =>
    forksAt_iterate frame limits check cond (forksAt_execute body) limits.maxLoopUnroll ps

theorem forksAt_executeAll : ∀ (ss : List Stmt) (ps : List (Path σ)),
    (executeAll frame limits check ss ps).ForksAt (testsOfAll frame limits check ss ps)
  | [], _ => forksAt_pure _
  | s :: rest, ps => (forksAt_execute s ps).bind fun paths => forksAt_executeAll rest paths

end

variable {frame limits check}

theorem length_forks_explore {body : Stmt} (hBody : frame.method.body = some body) :
    (explore frame limits check).forks.length =
      (tests frame limits check body [⟨0, ∅, check.start⟩] 1).count .unknown := by
  have hEnds (live : List (Path σ)) : (forEach (endPath frame check) live).ForksAt fun _ => [] :=
    forksAt_forEach_nil (forksAt_endPath frame check) live
  have hRun := (forksAt_execute frame limits check body [⟨0, ∅, check.start⟩]).bind fun live =>
    (hEnds live).bind_pure fun _ => ()
  unfold explore
  rw [hBody]
  exact (hRun 1).trans (by simp)

end

end DelegateSafety
