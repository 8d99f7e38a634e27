/-! # Expressions

The shapes of expression that the checks look at. Property access with a dot is a plain send here,
and a construct that no check looks into keeps only its parts (`other`).
-/
namespace DelegateSafety

structure Position where
  line : UInt32
  column : UInt32
  deriving DecidableEq

structure SourceRange where
  start : Position
  stop : Position
  deriving DecidableEq

def SourceRange.unknown : SourceRange := ⟨⟨0, 0⟩, ⟨0, 0⟩⟩

def SourceRange.ofLine (line : UInt32) : SourceRange := ⟨⟨line, 1⟩, ⟨line, 1⟩⟩

inductive TypeRef where
  | object (className : String)
  | id
  /-- Anything else, as it is spelled. -/
  | scalar (spelling : String)
  deriving DecidableEq

namespace TypeRef

def className? : TypeRef → Option String
  | object name => some name
  | _ => none

def isObjectPointer : TypeRef → Bool
  | scalar _ => false
  | _ => true

def spelling : TypeRef → String
  | object name => name
  | id => "id"
  | scalar name => name

end TypeRef

inductive BinaryOp where
  | eq | ne | lt | gt | le | ge
  | and | or
  | bitAnd | bitOr | bitXor
  | add | sub | mul | div
  deriving DecidableEq

namespace BinaryOp

def isLogical : BinaryOp → Bool
  | and | or => true
  | _ => false

def isBitwise : BinaryOp → Bool
  | bitAnd | bitOr | bitXor => true
  | _ => false

def isEquality : BinaryOp → Bool
  | eq | ne => true
  | _ => false

end BinaryOp

inductive UnaryOp where
  | not | neg | addressOf | deref
  deriving DecidableEq

inductive Receiver (α : Type) where
  | object (target : α)
  | named (className : String)
  | super

def Receiver.target? {α : Type} : Receiver α → Option α
  | .object target => some target
  | _ => none

structure Message (α : Type) where
  receiver : Receiver α
  selector : String
  args : List α

inductive Expr where
  | self (range : SourceRange)
  | nil (range : SourceRange)
  | int (value : Int64) (range : SourceRange)
  /-- A local, a parameter or a global. -/
  | var (name : String) (type : Option TypeRef) (range : SourceRange)
  /-- A field of `self`, named directly. -/
  | field (name : String) (range : SourceRange)
  | send (message : Message Expr) (range : SourceRange)
  | assign (target value : Expr) (range : SourceRange)
  | binary (op : BinaryOp) (lhs rhs : Expr) (range : SourceRange)
  | unary (op : UnaryOp) (operand : Expr) (range : SourceRange)
  | paren (inner : Expr) (range : SourceRange)
  | cast (type : TypeRef) (inner : Expr) (range : SourceRange)
  | selector (name : String) (range : SourceRange)
  | call (callee : String) (args : List Expr) (range : SourceRange)
  | other (parts : List Expr) (range : SourceRange)

namespace Message

variable {α : Type}

def target? (m : Message α) : Option α := m.receiver.target?

def arg? (m : Message α) (i : Nat) : Option α := m.args[i]?

def operands (m : Message α) : List α := m.target?.toList ++ m.args

end Message

namespace Expr

def range : Expr → SourceRange
  | self r | nil r | int _ r | var _ _ r | field _ r | send _ r | assign _ _ r | binary _ _ _ r
  | unary _ _ r | paren _ r | cast _ _ r | selector _ r | call _ _ r | other _ r => r

/-- Direct parts, in the order in which they are evaluated. -/
def operands : Expr → List Expr
  | self _ | nil _ | int _ _ | var _ _ _ | field _ _ | selector _ _ => []
  | send m _ => m.operands
  | assign target value _ => [target, value]
  | binary _ lhs rhs _ => [lhs, rhs]
  | unary _ operand _ => [operand]
  | paren inner _ | cast _ inner _ => [inner]
  | call _ args _ => args
  | other parts _ => parts

section Fold

variable {β : Type}

mutual

/-- Combines each expression with the results of its operands, from the leaves up. -/
def fold (f : Expr → List β → β) : Expr → β
  | self r => f (self r) []
  | nil r => f (nil r) []
  | int v r => f (int v r) []
  | var n t r => f (var n t r) []
  | field n r => f (field n r) []
  | send ⟨.object target, sel, args⟩ r =>
    f (send ⟨.object target, sel, args⟩ r) (fold f target :: foldAll f args)
  | send ⟨.named c, sel, args⟩ r => f (send ⟨.named c, sel, args⟩ r) (foldAll f args)
  | send ⟨.super, sel, args⟩ r => f (send ⟨.super, sel, args⟩ r) (foldAll f args)
  | assign target value r => f (assign target value r) [fold f target, fold f value]
  | binary op lhs rhs r => f (binary op lhs rhs r) [fold f lhs, fold f rhs]
  | unary op operand r => f (unary op operand r) [fold f operand]
  | paren inner r => f (paren inner r) [fold f inner]
  | cast t inner r => f (cast t inner r) [fold f inner]
  | selector n r => f (selector n r) []
  | call callee args r => f (call callee args r) (foldAll f args)
  | other parts r => f (other parts r) (foldAll f parts)

def foldAll (f : Expr → List β → β) : List Expr → List β
  | [] => []
  | e :: rest => fold f e :: foldAll f rest

end

theorem foldAll_eq_map (f : Expr → List β → β) (es : List Expr) :
    foldAll f es = es.map (fold f) := by
  induction es with
  | nil => rfl
  | cons e rest ih => rw [foldAll, ih, List.map_cons]

theorem fold_eq (f : Expr → List β → β) (e : Expr) :
    e.fold f = f e (e.operands.map (fold f)) := by
  unfold fold
  split <;> simp [operands, Message.operands, Message.target?, Receiver.target?, foldAll_eq_map]

end Fold

section Induction

variable {P : Expr → Prop}

mutual

/-- What passes from the operands to the expression holds of every expression. -/
theorem inductionOn (step : ∀ e, (∀ c ∈ e.operands, P c) → P e) : ∀ e, P e
  | self _ | nil _ | int _ _ | var _ _ _ | field _ _ | selector _ _ => step _ nofun
  | send ⟨.object target, _, args⟩ _ =>
    step _ (List.forall_mem_cons.mpr ⟨inductionOn step target, inductionOnAll step args⟩)
  | send ⟨.named _, _, args⟩ _ | send ⟨.super, _, args⟩ _ => step _ (inductionOnAll step args)
  | assign lhs rhs _ | binary _ lhs rhs _ =>
    step _ (List.forall_mem_cons.mpr
      ⟨inductionOn step lhs, List.forall_mem_cons.mpr ⟨inductionOn step rhs, nofun⟩⟩)
  | unary _ inner _ | paren inner _ | cast _ inner _ =>
    step _ (List.forall_mem_cons.mpr ⟨inductionOn step inner, nofun⟩)
  | call _ parts _ | other parts _ => step _ (inductionOnAll step parts)

theorem inductionOnAll (step : ∀ e, (∀ c ∈ e.operands, P c) → P e) :
    ∀ es : List Expr, ∀ c ∈ es, P c
  | [] => nofun
  | e :: rest => List.forall_mem_cons.mpr ⟨inductionOn step e, inductionOnAll step rest⟩

end

end Induction

/-- The expression inside all its parentheses and casts. -/
def strip : Expr → Expr
  | paren inner _ => inner.strip
  | cast _ inner _ => inner.strip
  | e => e

def isNullLiteral (e : Expr) : Bool :=
  match e.strip with
  | nil _ => true
  | int v _ => v == 0
  | _ => false

def isSelf (e : Expr) : Bool :=
  match e.strip with
  | self _ => true
  | _ => false

/-- Every expression inside this one, itself first and parents before their parts. -/
def walk : Expr → List Expr := fold fun e below => e :: below.flatten

theorem walk_eq (e : Expr) : e.walk = e :: e.operands.flatMap walk := by
  rw [walk, fold_eq, List.flatMap_def]

end Expr

end DelegateSafety
