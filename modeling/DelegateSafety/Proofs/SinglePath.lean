import DelegateSafety.Exploration.Paths
import DelegateSafety.Proofs.Inquiry

/-! # One path at a time

The plain interpreter of a method body. It keeps to one path and asks for a direction at each test
whose condition has no definite value. Expressions, declarations and the calls of the check are those
of exploration.
-/
namespace DelegateSafety

inductive Standing (σ : Type) where
  | live (p : Path σ)
  /-- The method has been left. -/
  | ended (p : Path σ)
  /-- Given up past the bound of a loop. -/
  | abandoned

/-- What goes on with a run, unless it is over. -/
def Standing.andThen {σ : Type} (f : Path σ → Inquiry (Standing σ)) :
    Standing σ → Inquiry (Standing σ)
  | live p => f p
  | ended p => pure (ended p)
  | abandoned => pure abandoned

section

variable {σ ρ : Type} (frame : Frame) (limits : Limits) (check : PathCheck σ ρ)

/-- Which way a condition turns out on a path. -/
def test (cond : Expr) (p : Path σ) : Inquiry (Bool × Path σ) :=
  let stretch := evaluate frame check cond p
  match stretch.value with
  | .nonNull => pure (true, assume frame check cond true stretch.path)
  | .null => pure (false, assume frame check cond false stretch.path)
  | .unknown => .ask (pure (true, assume frame check cond true stretch.path))
      fun n => pure (false, assume frame check cond false { stretch.path with id := n })

/-- Past the bound of a loop. -/
def forcedExit (cond : Expr) (p : Path σ) : Standing σ :=
  let stretch := evaluate frame check cond p
  if stretch.value = .nonNull then .abandoned
  else .live (assume frame check cond false stretch.path)

/-- The loop is tested `bound` times and then left. -/
def runLoop (cond : Expr) (body : Path σ → Inquiry (Standing σ)) :
    (bound : Nat) → Path σ → Inquiry (Standing σ)
  | 0, p => pure (forcedExit frame check cond p)
  | bound + 1, p => do
    let (enters, p) ← test frame check cond p
    if enters then
      let standing ← body p
      standing.andThen (runLoop cond body bound)
    else pure (.live p)

/-- Leaves the method. -/
def finish (p : Path σ) : Standing σ := .ended (PathM.consult frame check.atEnd p).path

mutual

def run : Stmt → Path σ → Inquiry (Standing σ)
  | .expr e, p => pure (.live (evaluate frame check e p).path)
  | .block body, p => runAll body p
  | .decl v, p => pure (.live (declare frame check v p).path)
  | .ret none, p => pure (finish frame check p)
  | .ret (some value), p => pure (finish frame check (evaluate frame check value p).path)
  | .branch cond yes none, p => do
    let (taken, p) ← test frame check cond p
    if taken then run yes p else pure (.live p)
  | .branch cond yes (some no), p => do
    let (taken, p) ← test frame check cond p
    if taken then run yes p else run no p
  | .loop cond body, p => runLoop frame check cond (run body) limits.maxLoopUnroll p

def runAll : List Stmt → Path σ → Inquiry (Standing σ)
  | [], p => pure (.live p)
  | s :: rest, p => do
    let standing ← run s p
    standing.andThen (runAll rest)

end

/-- A method from beginning to end, off which one falls at the end of its body. -/
def runMethod (body : Stmt) : Inquiry (Standing σ) := do
  let standing ← run frame limits check body ⟨0, ∅, check.start⟩
  standing.andThen fun p => pure (finish frame check p)

end

end DelegateSafety
