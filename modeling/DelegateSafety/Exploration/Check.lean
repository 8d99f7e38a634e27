import DelegateSafety.Nullness.Store
import DelegateSafety.Program.Scope

/-! # Checks that follow paths

A path-sensitive check keeps a state per path and is called at fixed points of it. What it reports
(`ρ`) is up to the check.
-/
namespace DelegateSafety

/-- The source unit under analysis and the language options in effect for it. -/
structure Subject where
  unit : SourceUnit
  lang : LangOptions

/-- Options of the unit, unless a setting overrides them. -/
def Subject.ofUnit (unit : SourceUnit) (autoReleaseFields : Option Bool) : Subject :=
  ⟨unit, ⟨autoReleaseFields.getD unit.lang.autoReleaseFields⟩⟩

structure Frame where
  subject : Subject
  className : String
  method : MethodDecl

def Frame.scope (frame : Frame) : ClassScope := ⟨frame.subject.unit, frame.className⟩

/-- Where on a path a check is called. -/
structure Site where
  frame : Frame
  path : Nat
  store : Store

structure SendEvent where
  expr : Expr
  message : Message Expr
  /-- A class and `super` are never nil. -/
  receiver : Nullness
  args : List Nullness
  /-- The implementation that the send resolves to. -/
  definition : Option MethodDecl

namespace SendEvent

def arg (event : SendEvent) (i : Nat) : Nullness := event.args[i]?.getD .unknown

def hasKnownBody (event : SendEvent) : Bool := event.definition.any (·.isExplicit)

end SendEvent

structure PathCheck (σ ρ : Type) where
  start : σ
  /-- Called for each expression, after its operands and before its own effect. -/
  beforeEffect : Site → σ → Expr → σ × List ρ
  /-- Called for each send, after its effect. -/
  afterSend : Site → σ → SendEvent → σ × List ρ
  /-- The state of a path that goes on under an assumption about a condition. -/
  assume : Subject → σ → Expr → Bool → σ
  atEnd : Site → σ → σ × List ρ

end DelegateSafety
