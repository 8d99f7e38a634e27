import DelegateSafety.Exploration.Check

/-! # Evaluation along one path

`PathM` threads a path and gathers reports in order. An expression is evaluated after all its
operands (`evaluate_eq`), and nothing that happens on the way depends on other paths.
-/
namespace DelegateSafety

structure Path (σ : Type) where
  id : Nat
  store : Store
  state : σ

structure Stretch (σ ρ α : Type) where
  value : α
  path : Path σ
  reports : List ρ

def PathM (σ ρ α : Type) : Type := Path σ → Stretch σ ρ α

namespace PathM

variable {σ ρ α β : Type}

instance : Monad (PathM σ ρ) where
  pure a := fun p => ⟨a, p, []⟩
  bind m f := fun p =>
    let first := m p
    let second := f first.value first.path
    ⟨second.value, second.path, first.reports ++ second.reports⟩

theorem pure_apply (a : α) (p : Path σ) : (pure a : PathM σ ρ α) p = ⟨a, p, []⟩ := rfl

theorem bind_apply (m : PathM σ ρ α) (f : α → PathM σ ρ β) (p : Path σ) :
    (m >>= f) p = ⟨(f (m p).value (m p).path).value, (f (m p).value (m p).path).path,
      (m p).reports ++ (f (m p).value (m p).path).reports⟩ := rfl

instance : LawfulMonad (PathM σ ρ) := LawfulMonad.mk' _
  (fun m => funext fun p => by
    change Stretch.mk (m p).value (m p).path ((m p).reports ++ []) = m p
    rw [List.append_nil])
  (fun _ _ => rfl)
  (fun _ _ _ => funext fun p => by simp [bind_apply])

def inOrder : List (PathM σ ρ α) → PathM σ ρ (List α)
  | [] => pure []
  | m :: rest => do
    let a ← m
    let as ← inOrder rest
    pure (a :: as)

def readSlot (slot : Slot) : PathM σ ρ Nullness := fun p => ⟨p.store.lookup slot, p, []⟩

def writeSlot (slot : Option Slot) (value : Nullness) : PathM σ ρ Unit := fun p =>
  ⟨(), { p with store := p.store.bind? slot value }, []⟩

/-- Lets a check see the path and change its state. -/
def consult (frame : Frame) (callback : Site → σ → σ × List ρ) : PathM σ ρ Unit := fun p =>
  let answer := callback ⟨frame, p.id, p.store⟩ p.state
  ⟨(), { p with state := answer.1 }, answer.2⟩

end PathM

open PathM

/-- A send to `self` by a name that no written implementation answers. -/
def Frame.isSynthesizedOnSelf (frame : Frame) (m : Message Expr) : Bool :=
  m.target?.any (·.isSelf) && (frame.scope.definition? m).all (·.implicit)

/-- The field that a synthesized accessor of `self` reads. -/
def Frame.readField? (frame : Frame) (m : Message Expr) : Option String :=
  if frame.isSynthesizedOnSelf m then (frame.scope.getter? m).bind (·.backingField) else none

/-- The field that a synthesized accessor of `self` writes. -/
def Frame.writtenField? (frame : Frame) (m : Message Expr) : Option String :=
  if frame.isSynthesizedOnSelf m then (frame.scope.setter? m).bind (·.backingField) else none

/-- The values of a send's receiver and arguments among the values of its operands. -/
def splitOperands (m : Message Expr) (operands : List Nullness) : Nullness × List Nullness :=
  match m.target? with
  | some _ => (operands.head?.getD .unknown, operands.tail)
  | none => (.nonNull, operands)

section

variable {σ ρ : Type} (frame : Frame) (check : PathCheck σ ρ)

/-- What a send does by itself: a nil receiver answers nil, a synthesized accessor of `self` reads
or writes its field, and of all else nothing is known. -/
def sendEffect (m : Message Expr) (receiver : Nullness) (args : List Nullness) :
    PathM σ ρ Nullness :=
  if receiver.isNull then pure .null
  else match frame.readField? m with
    | some field => readSlot (.field field)
    | none => do
      writeSlot ((frame.writtenField? m).map .field) (args.head?.getD .unknown)
      pure .unknown

def evaluateSend (e : Expr) (m : Message Expr) (operands : List Nullness) :
    PathM σ ρ Nullness := do
  let (receiver, args) := splitOperands m operands
  let value ← sendEffect frame m receiver args
  let event := SendEvent.mk e m receiver args (frame.scope.definition? m)
  consult frame fun site state => check.afterSend site state event
  pure value

def effect (e : Expr) (operands : List Nullness) : PathM σ ρ Nullness :=
  let operand (i : Nat) : Nullness := operands[i]?.getD .unknown
  match e with
  | .self _ | .selector _ _ => pure .nonNull
  | .nil _ => pure .null
  | .int value _ => pure (.ofInt value)
  | .var name _ _ => readSlot (.local name)
  | .field name _ => readSlot (.field name)
  | .paren _ _ | .cast _ _ _ => pure (operand 0)
  | .assign target _ _ => do
    writeSlot target.slot? (operand 1)
    pure (operand 1)
  | .binary op _ _ _ => pure (op.nullness (operand 0) (operand 1))
  | .unary op _ _ => pure (op.nullness (operand 0))
  | .send m _ => evaluateSend frame check e m operands
  | .call _ _ _ | .other _ _ => pure .unknown

def evaluate : Expr → PathM σ ρ Nullness := Expr.fold fun e operands => do
  let values ← inOrder operands
  consult frame fun site state => check.beforeEffect site state e
  effect frame check e values

theorem evaluate_eq (e : Expr) :
    evaluate frame check e = (do
      let values ← inOrder (e.operands.map (evaluate frame check))
      consult frame fun site state => check.beforeEffect site state e
      effect frame check e values) := by
  rw [evaluate, Expr.fold_eq]

end

end DelegateSafety
