import DelegateSafety.Names.Map
import DelegateSafety.Nullness.Value

/-! # What a path knows of locals and fields -/
namespace DelegateSafety

/-- A place whose value a path can remember. -/
inductive Slot where
  | local (name : String)
  | field (name : String)
  deriving DecidableEq

/-- The slot that an expression denotes. -/
def Expr.slot? (e : Expr) : Option Slot :=
  match e.strip with
  | .var name _ _ => some (.local name)
  | .field name _ => some (.field name)
  | _ => none

structure Store where
  locals : NameMap Nullness
  fields : NameMap Nullness
  deriving DecidableEq

namespace Store

def empty : Store := ⟨∅, ∅⟩

instance : EmptyCollection Store := ⟨empty⟩

/-- The value remembered for a slot; nothing is known of a slot never bound. -/
def lookup (store : Store) : Slot → Nullness
  | .local name => (store.locals.find? name).getD .unknown
  | .field name => (store.fields.find? name).getD .unknown

def bind (store : Store) (slot : Slot) (value : Nullness) : Store :=
  match slot with
  | .local name => { store with locals := store.locals.insert name value }
  | .field name => { store with fields := store.fields.insert name value }

def bind? (store : Store) (slot : Option Slot) (value : Nullness) : Store :=
  slot.elim store (store.bind · value)

@[simp] theorem lookup_empty (slot : Slot) : (∅ : Store).lookup slot = .unknown := by
  cases slot <;> rfl

@[simp] theorem lookup_bind (store : Store) (slot other : Slot) (value : Nullness) :
    (store.bind slot value).lookup other = if other = slot then value else store.lookup other := by
  cases slot <;> cases other <;> simp [bind, lookup] <;> split <;> simp_all

/-- The value of an expression as far as it can be read off without evaluating anything. -/
def valueOf (store : Store) (e : Expr) : Nullness :=
  match e.strip with
  | .self _ => .nonNull
  | .nil _ => .null
  | .int value _ => .ofInt value
  | .var name _ _ => store.lookup (.local name)
  | .field name _ => store.lookup (.field name)
  | _ => .unknown

/-- Whether an expression is known to be nil. -/
def knowsNull (store : Store) (e : Expr) : Bool := (store.valueOf e).isNull

/-- The store once a condition has turned out as assumed. Only truth tests of slots, comparisons of
slots with nil, and their negations, conjunctions and disjunctions narrow anything. -/
def refine (store : Store) (assumption : Bool) : Expr → Store
  | .paren inner _ => store.refine assumption inner
  | .cast _ inner _ => store.refine assumption inner
  | .unary .not operand _ => store.refine (!assumption) operand
  | .binary op lhs rhs _ =>
    if op.isEquality then
      let value := Nullness.ofTruth ((op == .eq) != assumption)
      if rhs.isNullLiteral then store.bind? lhs.slot? value
      else if lhs.isNullLiteral then store.bind? rhs.slot? value
      else store
    else if (op == .and && assumption) || (op == .or && !assumption) then
      (store.refine assumption lhs).refine assumption rhs
    else store
  | .assign target _ _ => store.bind? target.slot? (.ofTruth assumption)
  | .var name _ _ => store.bind (.local name) (.ofTruth assumption)
  | .field name _ => store.bind (.field name) (.ofTruth assumption)
  | _ => store

end Store

end DelegateSafety
