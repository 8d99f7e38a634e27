import DelegateSafety.Dangling.Pattern
import DelegateSafety.Proofs.Concrete
import DelegateSafety.Proofs.Lockstep

/-! # What conditions tell

Evaluation changes memory only at expressions that store something (`Evaluates.memory_eq`). A condition
narrows the store once all of it has been evaluated. What it tells of a slot is true of the memory at that
time (`Evaluates.narrowing`), unless the slot was tested on the left of a conjunction or disjunction and
then stored into on the right.
-/
namespace DelegateSafety

variable {frame : Frame}

/-! ## Changes of memory -/

/-- How memory changes in an evaluation is made up of what the parts do to it by themselves. -/
theorem Evaluates.memory_rel {R : Memory → Memory → Prop} (hRefl : ∀ memory, R memory memory)
    (hTrans : ∀ {a b c}, R a b → R b c → R a c) {e : Expr}
    (hParts : e.Within fun part => ∀ {operands before value after},
      Effect frame part operands before value after → R before after)
    {before after : Memory} {value : Bool} (h : Evaluates frame e before value after) :
    R before after := by
  induction e using Expr.inductionOn generalizing before value after with
  | step e ih =>
    obtain ⟨hHere, hBelow⟩ := Expr.within_iff.mp hParts
    obtain ⟨hOperands, hEffect⟩ := h
    have hAll : ∀ {es before values after}, (∀ c ∈ es, c ∈ e.operands) →
        EvaluatesAll frame es before values after → R before after := by
      intro es
      induction es with
      | nil =>
        intro _ _ _ _ h
        cases h
        exact hRefl _
      | cons c rest ihRest =>
        intro _ _ _ hMem h
        obtain ⟨hFirst, hRest⟩ := List.forall_mem_cons.mp hMem
        obtain _ | ⟨hOne, hOthers⟩ := h
        exact hTrans (ih c hFirst (hBelow c hFirst) hOne) (ihRest hRest hOthers)
    exact hTrans (hAll (fun _ => id) hOperands) (hHere hEffect)

/-- An expression that by itself stores nothing, neither by assignment nor by an accessor of `self`. -/
def Frame.storesNothing (frame : Frame) : Expr → Bool
  | .assign _ _ _ => false
  | .send m _ => (frame.writtenField? m).isNone
  | _ => true

theorem Effect.memory_eq {e : Expr} {operands : List Bool} {before after : Memory} {value : Bool}
    (h : Effect frame e operands before value after) (hStores : frame.storesNothing e = true) :
    after = before := by
  cases h with
  | assign => cases hStores
  | setter hWritten => simp [Frame.storesNothing, hWritten] at hStores
  | _ => rfl

theorem Evaluates.memory_eq {e : Expr} (hStores : e.Within (frame.storesNothing · = true))
    {before after : Memory} {value : Bool} (h : Evaluates frame e before value after) :
    after = before :=
  h.memory_rel (R := fun before after => after = before) (fun _ => rfl) (fun h h' => h'.trans h)
    fun part hPart _ _ _ _ hEffect => hEffect.memory_eq (hStores part hPart)

/-- A comparison with nil tells the other side. -/
theorem Effect.of_isEquality {op : BinaryOp} {lhs rhs : Expr} {r : SourceRange} {a b truth : Bool}
    {before after : Memory} (h : Effect frame (.binary op lhs rhs r) [a, b] before truth after)
    (hOp : op.isEquality = true) :
    (b = false → ((op == .eq) != truth) = a) ∧ (a = false → ((op == .eq) != truth) = b) := by
  cases h with
  | and | or => cases hOp
  | eq => cases a <;> cases b <;> decide
  | ne => cases a <;> cases b <;> decide
  | compare => exact ⟨nofun, nofun⟩
  | binary _ hEquality => exact absurd hOp (by simp [hEquality])

/-- A conjunction that holds and a disjunction that does not tell both sides. -/
theorem Effect.of_isLogical {op : BinaryOp} {lhs rhs : Expr} {r : SourceRange} {a b truth : Bool}
    {before after : Memory} (h : Effect frame (.binary op lhs rhs r) [a, b] before truth after)
    (hOp : ((op == .and && truth) || (op == .or && !truth)) = true) : a = truth ∧ b = truth := by
  cases h with
  | and => cases a <;> cases b <;> simp_all
  | or => cases a <;> cases b <;> simp_all
  | eq | ne => simp at hOp
  | compare hEquality => cases op <;> simp_all [BinaryOp.isEquality]
  | binary hLogical => cases op <;> simp_all [BinaryOp.isLogical]

/-! ## What a condition tells of a slot -/

/-- Whether a slot holds anything, as far as narrowing by a condition tells. The right side of a conjunction
or disjunction has the last word. -/
def Expr.narrowing? (slot : Slot) (truth : Bool) : Expr → Option Bool
  | .paren inner _ => inner.narrowing? slot truth
  | .cast _ inner _ => inner.narrowing? slot truth
  | .unary .not operand _ => operand.narrowing? slot (!truth)
  | .binary op lhs rhs _ =>
    if op.isEquality then
      if (otherThanNull? lhs rhs).bind (·.slot?) = some slot then some ((op == .eq) != truth) else none
    else if (op == .and && truth) || (op == .or && !truth) then
      (rhs.narrowing? slot truth).or (lhs.narrowing? slot truth)
    else none
  | .assign target _ _ => if target.slot? = some slot then some truth else none
  | .var name _ _ => if slot = .local name then some truth else none
  | .field name _ => if slot = .field name then some truth else none
  | _ => none

theorem Store.lookup_bind? (store : Store) (target : Option Slot) (slot : Slot) (value : Nullness) :
    (store.bind? target value).lookup slot = if target = some slot then value else store.lookup slot := by
  cases target with
  | none => rfl
  | some target => simp [Store.bind?, eq_comm]

theorem Store.refine_of_isEquality (store : Store) (truth : Bool) {op : BinaryOp}
    (hOp : op.isEquality = true) (lhs rhs : Expr) (r : SourceRange) :
    store.refine truth (.binary op lhs rhs r) =
      store.bind? ((otherThanNull? lhs rhs).bind (·.slot?)) (.ofTruth ((op == .eq) != truth)) := by
  simp only [refine, hOp, if_true, otherThanNull?]
  split
  · rfl
  · split <;> rfl

theorem Store.lookup_refine (store : Store) (truth : Bool) (cond : Expr) (slot : Slot) :
    (store.refine truth cond).lookup slot =
      ((cond.narrowing? slot truth).map .ofTruth).getD (store.lookup slot) := by
  induction cond using Expr.inductionOn generalizing store truth with
  | step cond ih =>
    cases cond with
    | self _ | nil _ | int _ _ | send _ _ | selector _ _ | call _ _ _ | other _ _ => rfl
    | paren inner _ | cast _ inner _ => exact ih inner List.mem_cons_self store truth
    | assign target value _ =>
      rw [refine, lookup_bind?, Expr.narrowing?]
      split <;> rfl
    | var _ _ _ | field _ _ =>
      rw [refine, lookup_bind, Expr.narrowing?]
      split <;> rfl
    | unary op operand _ =>
      cases op with
      | not => exact ih operand List.mem_cons_self store (!truth)
      | neg | addressOf | deref => rfl
    | binary op lhs rhs r =>
      rw [Expr.narrowing?]
      by_cases hOp : op.isEquality = true
      · rw [refine_of_isEquality store truth hOp, lookup_bind?, if_pos hOp]
        split <;> rfl
      · rw [refine, if_neg hOp, if_neg hOp]
        split
        · rw [ih rhs (List.mem_cons_of_mem _ List.mem_cons_self), ih lhs List.mem_cons_self]
          cases rhs.narrowing? slot truth <;> rfl
        · rfl

/-! ## What may have changed since -/

/-- The slot that an expression by itself stores into. -/
def Frame.storedSlot? (frame : Frame) : Expr → Option Slot
  | .assign target _ _ => target.slot?
  | .send m _ => (frame.writtenField? m).map .field
  | _ => none

/-- Whether any part of an expression stores into a slot. -/
def Frame.storesInto (frame : Frame) (slot : Slot) (e : Expr) : Bool :=
  e.walk.any (frame.storedSlot? · == some slot)

/-- Whether what a condition tells of a slot was tested on the left before something on the right stored
into the slot. -/
def Frame.outdates (frame : Frame) (slot : Slot) (truth : Bool) : Expr → Bool
  | .paren inner _ => frame.outdates slot truth inner
  | .cast _ inner _ => frame.outdates slot truth inner
  | .unary .not operand _ => frame.outdates slot (!truth) operand
  | .binary op lhs rhs _ =>
    if (op == .and && truth) || (op == .or && !truth) then
      if (rhs.narrowing? slot truth).isSome then frame.outdates slot truth rhs
      else (lhs.narrowing? slot truth).isSome &&
        (frame.storesInto slot rhs || frame.outdates slot truth lhs)
    else false
  | _ => false

variable {before after : Memory} {value truth : Bool} {slot : Slot}

theorem Effect.apply_eq {e : Expr} {operands : List Bool} (h : Effect frame e operands before value after)
    (hStores : frame.storedSlot? e ≠ some slot) : after slot = before slot := by
  cases h with
  | @assign target =>
    cases hTarget : target.slot? with
    | none => rfl
    | some other =>
      have hApart : slot ≠ other := fun hSame => hStores (hSame ▸ hTarget)
      exact Function.update_of_ne hApart value before
  | @setter m _ field new _ _ hWritten =>
    have hApart : slot ≠ .field field := fun hSame => hStores (by simp [Frame.storedSlot?, hWritten, hSame])
    exact Function.update_of_ne hApart new before
  | _ => rfl

/-- What nothing stores into stays as it is. -/
theorem Evaluates.apply_eq {e : Expr} (h : Evaluates frame e before value after)
    (hStores : frame.storesInto slot e = false) : after slot = before slot := by
  refine h.memory_rel (R := fun before after => after slot = before slot) (fun _ => rfl)
    (fun h h' => h'.trans h) fun part hPart _ _ _ _ hEffect => hEffect.apply_eq ?_
  simpa using List.any_eq_false.mp hStores part hPart

/-- Where nothing is stored nothing is outdated. -/
theorem Frame.outdates_eq_false {cond : Expr} (hStores : cond.Within (frame.storesNothing · = true)) :
    frame.outdates slot truth cond = false := by
  have hSlot : ∀ e, frame.storesNothing e = true → frame.storedSlot? e = none := by
    intro e he
    cases e with
    | assign _ _ _ => cases he
    | send m _ => simpa [Frame.storesNothing, Frame.storedSlot?] using he
    | _ => rfl
  induction cond using Expr.inductionOn generalizing truth with
  | step cond ih =>
    obtain ⟨-, hParts⟩ := Expr.within_iff.mp hStores
    cases cond with
    | self _ | nil _ | int _ _ | send _ _ | selector _ _ | call _ _ _ | other _ _ | var _ _ _
    | field _ _ | assign _ _ _ => rfl
    | paren inner _ | cast _ inner _ => exact ih inner List.mem_cons_self (hParts _ List.mem_cons_self)
    | unary op operand _ =>
      cases op with
      | neg | addressOf | deref => rfl
      | not => exact ih operand List.mem_cons_self (hParts _ List.mem_cons_self)
    | binary op lhs rhs _ =>
      have hLhs := hParts lhs List.mem_cons_self
      have hRhs := hParts rhs (List.mem_cons_of_mem _ List.mem_cons_self)
      have hNotStored : frame.storesInto slot rhs = false := by
        rw [Frame.storesInto, List.any_eq_false]
        intro part hPart
        simp [hSlot part (hRhs part hPart)]
      rw [Frame.outdates, ih lhs List.mem_cons_self hLhs,
        ih rhs (List.mem_cons_of_mem _ List.mem_cons_self) hRhs, hNotStored]
      simp

theorem Evaluates.memory_eq_of_strip {e : Expr} (h : Evaluates frame e before value after)
    (hLeaf : e.strip.operands = []) : after = before := by
  have hEffect := h.strip.leaf hLeaf
  generalize e.strip = leaf at hEffect
  cases hEffect <;> rfl

theorem Evaluates.memory_eq_of_isNullLiteral {e : Expr} (h : Evaluates frame e before value after)
    (hNil : e.isNullLiteral = true) : after = before := by
  refine h.memory_eq_of_strip ?_
  unfold Expr.isNullLiteral at hNil
  split at hNil
  · rename_i hStrip
    rw [hStrip, Expr.operands]
  · rename_i hStrip
    rw [hStrip, Expr.operands]
  · cases hNil

theorem Evaluates.memory_eq_of_slot? {e : Expr} (h : Evaluates frame e before value after)
    (hSlot : e.slot? = some slot) : after = before := by
  refine h.memory_eq_of_strip ?_
  unfold Expr.slot? at hSlot
  split at hSlot
  · rename_i hStrip
    rw [hStrip, Expr.operands]
  · rename_i hStrip
    rw [hStrip, Expr.operands]
  · cases hSlot

/-! ## Conditions -/

theorem Evaluates.of_otherThanNull? {op : BinaryOp} {lhs rhs : Expr} {r : SourceRange}
    (hOp : op.isEquality = true) (h : Evaluates frame (.binary op lhs rhs r) before truth after)
    (hSlot : (otherThanNull? lhs rhs).bind (·.slot?) = some slot) :
    after slot = ((op == .eq) != truth) := by
  obtain ⟨a, b, mid, between, hLhs, hRhs, hEffect⟩ := h.two rfl
  obtain ⟨hOfRhs, hOfLhs⟩ := hEffect.of_isEquality hOp
  have hAfter : after slot = between slot := by
    refine hEffect.apply_eq ?_
    simp [Frame.storedSlot?]
  obtain ⟨other, hOther, hSlot⟩ := Option.bind_eq_some_iff.mp hSlot
  unfold otherThanNull? at hOther
  split at hOther
  · rename_i hNil
    obtain rfl := Option.some.inj hOther
    rw [hAfter, hRhs.memory_eq_of_isNullLiteral hNil, hLhs.memory_eq_of_slot? hSlot,
      hOfRhs (hRhs.of_isNullLiteral hNil), hLhs.of_slot? hSlot]
  · obtain ⟨hNil, hOther⟩ := Option.ite_none_right_eq_some.mp hOther
    obtain rfl := Option.some.inj hOther
    rw [hAfter, hRhs.memory_eq_of_slot? hSlot, hOfLhs (hLhs.of_isNullLiteral hNil), hRhs.of_slot? hSlot]

/-- What a condition tells of a slot is so in the end, unless it is outdated by then. -/
theorem Evaluates.narrowing {cond : Expr} (h : Evaluates frame cond before truth after)
    (hFresh : frame.outdates slot truth cond = false) {known : Bool}
    (hTold : cond.narrowing? slot truth = some known) : after slot = known := by
  induction cond using Expr.inductionOn generalizing before truth after known with
  | step cond ih =>
    cases cond with
    | self _ | nil _ | int _ _ | send _ _ | selector _ _ | call _ _ _ | other _ _ => cases hTold
    | var _ _ _ | field _ _ =>
      obtain ⟨rfl, ⟨⟩⟩ := Option.ite_none_right_eq_some.mp hTold
      cases h.leaf rfl
      rfl
    | paren inner _ | cast _ inner _ =>
      obtain ⟨a, between, hInner, hEffect⟩ := h.one rfl
      cases hEffect
      exact ih inner List.mem_cons_self hInner hFresh hTold
    | unary op operand _ =>
      cases op with
      | neg | addressOf | deref => cases hTold
      | not =>
        obtain ⟨a, between, hOperand, hEffect⟩ := h.one rfl
        cases hEffect with
        | unary hNot => exact absurd rfl hNot
        | not =>
          simp only [Frame.outdates, Expr.narrowing?, Bool.not_not] at hFresh hTold
          exact ih operand List.mem_cons_self hOperand hFresh hTold
    | assign target value _ =>
      obtain ⟨hTarget, hKnown⟩ := Option.ite_none_right_eq_some.mp hTold
      obtain ⟨old, new, mid, between, -, -, hEffect⟩ := h.two rfl
      cases hEffect
      rw [hTarget]
      exact (Function.update_self ..).trans (Option.some.inj hKnown)
    | binary op lhs rhs r =>
      rw [Expr.narrowing?] at hTold
      split at hTold
      · rename_i hOp
        obtain ⟨hSlot, hKnown⟩ := Option.ite_none_right_eq_some.mp hTold
        rw [h.of_otherThanNull? hOp hSlot]
        exact Option.some.inj hKnown
      · obtain ⟨hLogical, hTold⟩ := Option.ite_none_right_eq_some.mp hTold
        obtain ⟨a, b, mid, between, hLhs, hRhs, hEffect⟩ := h.two rfl
        obtain ⟨rfl, rfl⟩ := hEffect.of_isLogical hLogical
        have hAfter : after slot = between slot := by
          refine hEffect.apply_eq ?_
          simp [Frame.storedSlot?]
        rw [hAfter]
        rw [Frame.outdates, if_pos hLogical] at hFresh
        -- The right side tells of the memory it leaves. What the left side tells must last through it.
        rcases Option.or_eq_some_iff.mp hTold with hRight | ⟨hNoRight, hLeft⟩
        · rw [hRight] at hFresh
          exact ih rhs (List.mem_cons_of_mem _ List.mem_cons_self) hRhs hFresh hRight
        · simp only [hNoRight, hLeft, Option.isSome_none, Option.isSome_some, Bool.false_eq_true,
            if_false, Bool.true_and, Bool.or_eq_false_iff] at hFresh
          rw [hRhs.apply_eq hFresh.1]
          exact ih lhs List.mem_cons_self hLhs hFresh.2 hLeft

end DelegateSafety
