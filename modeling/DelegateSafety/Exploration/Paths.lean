import DelegateSafety.Exploration.Evaluate

/-! # Exploring a method

Every path through a body is followed, loops up to a bound and paths up to a budget. Paths are never
merged. `Explore` threads the next free path number and gathers counts and reports.
-/
namespace DelegateSafety

structure Limits where
  maxPaths : Nat
  maxLoopUnroll : Nat
  deriving DecidableEq

structure Stats where
  methods : Nat
  pathsCompleted : Nat
  pathsAbandoned : Nat
  branchesPruned : Nat
  deriving DecidableEq

namespace Stats

def zero : Stats := ⟨0, 0, 0, 0⟩

def add (a b : Stats) : Stats :=
  ⟨a.methods + b.methods, a.pathsCompleted + b.pathsCompleted,
    a.pathsAbandoned + b.pathsAbandoned, a.branchesPruned + b.branchesPruned⟩

instance : Zero Stats := ⟨zero⟩

instance : Add Stats := ⟨add⟩

def method : Stats := { zero with methods := 1 }

def completed : Stats := { zero with pathsCompleted := 1 }

def abandoned : Stats := { zero with pathsAbandoned := 1 }

def pruned : Stats := { zero with branchesPruned := 1 }

theorem zero_def : (0 : Stats) = ⟨0, 0, 0, 0⟩ := rfl

theorem add_def (a b : Stats) :
    a + b = ⟨a.methods + b.methods, a.pathsCompleted + b.pathsCompleted,
      a.pathsAbandoned + b.pathsAbandoned, a.branchesPruned + b.branchesPruned⟩ := rfl

theorem add_zero (a : Stats) : a + 0 = a := rfl

theorem zero_add (a : Stats) : 0 + a = a := by simp [add_def, zero_def]

theorem add_assoc (a b c : Stats) : a + b + c = a + (b + c) := by
  simp [add_def, Nat.add_assoc]

end Stats

structure Explored (ρ α : Type) where
  value : α
  nextPath : Nat
  /-- For each test that was open both ways the number of the second path, if it got one. -/
  forks : List (Option Nat)
  stats : Stats
  reports : List ρ

def Explore (ρ α : Type) : Type := Nat → Explored ρ α

namespace Explore

variable {σ ρ α β : Type}

instance : Monad (Explore ρ) where
  pure a := fun next => ⟨a, next, [], 0, []⟩
  bind m f := fun next =>
    let first := m next
    let second := f first.value first.nextPath
    ⟨second.value, second.nextPath, first.forks ++ second.forks, first.stats + second.stats,
      first.reports ++ second.reports⟩

theorem pure_apply (a : α) (next : Nat) : (pure a : Explore ρ α) next = ⟨a, next, [], 0, []⟩ := rfl

theorem bind_apply (m : Explore ρ α) (f : α → Explore ρ β) (next : Nat) :
    (m >>= f) next = ⟨(f (m next).value (m next).nextPath).value,
      (f (m next).value (m next).nextPath).nextPath,
      (m next).forks ++ (f (m next).value (m next).nextPath).forks,
      (m next).stats + (f (m next).value (m next).nextPath).stats,
      (m next).reports ++ (f (m next).value (m next).nextPath).reports⟩ := rfl

instance : LawfulMonad (Explore ρ) := LawfulMonad.mk' _
  (fun m => funext fun next => by
    change Explored.mk (m next).value (m next).nextPath ((m next).forks ++ [])
      ((m next).stats + 0) ((m next).reports ++ []) = m next
    rw [List.append_nil, List.append_nil, Stats.add_zero])
  (fun a f => funext fun next => by
    rw [bind_apply, pure_apply, List.nil_append, List.nil_append, Stats.zero_add])
  (fun m f g => funext fun next => by
    simp only [bind_apply, List.append_assoc, Stats.add_assoc])

def count (stats : Stats) : Explore ρ Unit := fun next => ⟨(), next, [], stats, []⟩

def along (m : PathM σ ρ α) (p : Path σ) : Explore ρ (α × Path σ) := fun next =>
  let stretch := m p
  ⟨(stretch.value, stretch.path), next, [], 0, stretch.reports⟩

/-- Takes up each path in turn and gathers what goes on. -/
def forEach (f : Path σ → Explore ρ (List (Path σ))) : List (Path σ) → Explore ρ (List (Path σ))
  | [] => pure []
  | p :: rest => do
    let these ← f p
    let others ← forEach f rest
    pure (these ++ others)

/-- A second path from the same point, if the budget has room for one. -/
def fork (limits : Limits) (p : Path σ) : Explore ρ (Option (Path σ)) := fun next =>
  if limits.maxPaths ≤ next then ⟨none, next, [none], .abandoned, []⟩
  else ⟨some { p with id := next }, next + 1, [some next], 0, []⟩

end Explore

open Explore

section

variable {σ ρ : Type} (frame : Frame) (limits : Limits) (check : PathCheck σ ρ)

def assume (cond : Expr) (truth : Bool) (p : Path σ) : Path σ :=
  ⟨p.id, p.store.refine truth cond, check.assume frame.subject p.state cond truth⟩

/-- Evaluates a condition and follows the directions it leaves open. -/
def split (cond : Expr) (p : Path σ) : Explore ρ (Option (Path σ) × Option (Path σ)) := do
  let (value, p) ← along (evaluate frame check cond) p
  match value with
  | .nonNull =>
    count .pruned
    pure (some (assume frame check cond true p), none)
  | .null =>
    count .pruned
    pure (none, some (assume frame check cond false p))
  | .unknown =>
    let other ← fork limits p
    pure (some (assume frame check cond true p), other.map (assume frame check cond false))

/-- Splits each path at a condition: those that enter, then those that leave. -/
def splitAll (cond : Expr) : List (Path σ) → Explore ρ (List (Path σ) × List (Path σ))
  | [] => pure ([], [])
  | p :: rest => do
    let (enter, leave) ← split frame limits check cond p
    let (entering, leaving) ← splitAll cond rest
    pure (enter.toList ++ entering, leave.toList ++ leaving)

/-- Past the bound of a loop only its exit is followed. -/
def leaveLoop (cond : Expr) (p : Path σ) : Explore ρ (List (Path σ)) := do
  let (value, p) ← along (evaluate frame check cond) p
  if value = .nonNull then
    count .abandoned
    pure []
  else pure [assume frame check cond false p]

/-- Enters a loop at most `bound` times; the paths that leave it come in the order of leaving. -/
def iterate (cond : Expr) (body : List (Path σ) → Explore ρ (List (Path σ))) :
    (bound : Nat) → List (Path σ) → Explore ρ (List (Path σ))
  | _, [] => pure []
  | 0, p :: rest => forEach (leaveLoop frame check cond) (p :: rest)
  | bound + 1, p :: rest => do
    let (entering, leaving) ← splitAll frame limits check cond (p :: rest)
    let looping ← body entering
    let later ← iterate cond body bound looping
    pure (leaving ++ later)

def endPath (p : Path σ) : Explore ρ (List (Path σ)) := do
  let _ ← along (PathM.consult frame check.atEnd) p
  count .completed
  pure []

def declare (v : VarDecl) : PathM σ ρ Unit := do
  let value ← match v.init with
    | some init => evaluate frame check init
    | none => pure .unknown
  PathM.writeSlot (some (.local v.name)) value

mutual

/-- Takes paths through a statement and gives those that come out of it. -/
def execute : Stmt → List (Path σ) → Explore ρ (List (Path σ))
  | .expr e => forEach fun p => do
    let (_, p) ← along (evaluate frame check e) p
    pure [p]
  | .block body => executeAll body
  | .decl v => forEach fun p => do
    let (_, p) ← along (declare frame check v) p
    pure [p]
  | .ret none => forEach (endPath frame check)
  | .ret (some value) => forEach fun p => do
    let (_, p) ← along (evaluate frame check value) p
    endPath frame check p
  | .branch cond yes none => forEach fun p => do
    let (taken, other) ← split frame limits check cond p
    let fromYes ← execute yes taken.toList
    pure (fromYes ++ other.toList)
  | .branch cond yes (some no) => forEach fun p => do
    let (taken, other) ← split frame limits check cond p
    let fromYes ← execute yes taken.toList
    let fromNo ← execute no other.toList
    pure (fromYes ++ fromNo)
  | .loop cond body => iterate frame limits check cond (execute body) limits.maxLoopUnroll

def executeAll : List Stmt → List (Path σ) → Explore ρ (List (Path σ))
  | [], paths => pure paths
  | s :: rest, paths => do
    let paths ← execute s paths
    executeAll rest paths

end

/-- Explores the method from an empty store. A method without a body has nothing to explore. -/
def explore : Explored ρ Unit :=
  match frame.method.body with
  | none => (pure () : Explore ρ Unit) 0
  | some body =>
    (do
      count .method
      let live ← execute frame limits check body [⟨0, ∅, check.start⟩]
      let _ ← forEach (endPath frame check) live
      pure () : Explore ρ Unit) 1

end

end DelegateSafety
