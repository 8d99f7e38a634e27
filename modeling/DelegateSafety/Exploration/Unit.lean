import DelegateSafety.Error
import DelegateSafety.Exploration.Paths

/-! # Exploring a source unit

Every implementation is scanned before any method is explored. A scan that fails leaves the session
as it was.
-/
namespace DelegateSafety

/-- A path-sensitive check together with what it learns from declarations (`ς`). -/
structure UnitCheck (ς σ ρ : Type) where
  session : ς
  scan : Subject → ς → ImplementationDecl → Except Error (ς × List ρ)
  paths : ς → PathCheck σ ρ
  /-- Called when nothing is left to explore. -/
  finish : Subject → ς → ς × List ρ

structure Analysis (ρ : Type) where
  stats : Stats
  reports : List ρ

namespace UnitCheck

variable {ς σ ρ : Type} (check : UnitCheck ς σ ρ) (subject : Subject)

def scanOne (session : ς) (decl : ImplementationDecl) : ς × List ρ :=
  match check.scan subject session decl with
  | .ok result => result
  | .error _ => (session, [])

def scanAll (session : ς) : List ImplementationDecl → ς × List ρ
  | [] => (session, [])
  | decl :: rest =>
    let first := check.scanOne subject session decl
    let others := scanAll first.1 rest
    (others.1, first.2 ++ others.2)

/-- The methods to explore, with the classes they belong to. -/
def frames : List Frame :=
  subject.unit.implementations.flatMap fun decl =>
    (decl.methods.filter (·.body.isSome)).map fun method => ⟨subject, decl.name, method⟩

def run (limits : Limits) : Analysis ρ :=
  let scanned := check.scanAll subject check.session subject.unit.implementations
  let explored := (frames subject).map fun frame => explore frame limits (check.paths scanned.1)
  let finished := check.finish subject scanned.1
  { stats := (explored.map (·.stats)).foldl (· + ·) 0
    reports := scanned.2 ++ explored.flatMap (·.reports) ++ finished.2 }

end UnitCheck

end DelegateSafety
