import DelegateSafety.Proofs.Narrowing
import DelegateSafety.Sample.Units

/-! # What a path knows is true

A store agrees with a memory in which every slot known to be nil is nil and every slot known not to be
is not. Evaluation keeps agreement (`simulates_evaluate`), and so does narrowing a store by a condition
that has turned out as assumed (`agrees_refine`).
-/
namespace DelegateSafety

open PathM

/-- What is known of a value is true of it. -/
def Nullness.Admits (known : Nullness) (value : Bool) : Prop :=
  match known with
  | .null => value = false
  | .nonNull => value = true
  | .unknown => True

namespace Nullness

variable {a b : Nullness} {x y : Bool}

theorem admits_unknown : unknown.Admits x := trivial

theorem admits_ofTruth (truth : Bool) : (ofTruth truth).Admits truth := by
  cases truth <;> rfl

theorem Admits.not (h : a.Admits x) : a.not.Admits !x := by
  cases a <;> simp_all [Admits, Nullness.not]

theorem Admits.and (ha : a.Admits x) (hb : b.Admits y) : (a.and b).Admits (x && y) := by
  cases a <;> cases b <;> simp_all [Admits, Nullness.and]

theorem Admits.or (ha : a.Admits x) (hb : b.Admits y) : (a.or b).Admits (x || y) := by
  cases a <;> cases b <;> simp_all [Admits, Nullness.or]

theorem Admits.eq (ha : a.Admits x) (hb : b.Admits y) : (a.eq b).Admits (x == y) := by
  cases a <;> cases b <;> simp_all [Admits, Nullness.eq]

/-- Of two values that are not nil it is never known whether they are the same. -/
theorem eq_of_admits_true (ha : a.Admits true) (hb : b.Admits true) : a.eq b = unknown := by
  cases a <;> cases b <;> simp_all [Admits, Nullness.eq]

theorem isNull_of_admits_true (h : a.Admits true) : a.isNull = false := by
  cases a <;> simp_all [Admits, Nullness.isNull]

end Nullness

def Store.Agrees (store : Store) (memory : Memory) : Prop :=
  ∀ slot, (store.lookup slot).Admits (memory slot)

namespace Store

variable {store : Store} {memory : Memory}

theorem agrees_empty (memory : Memory) : (∅ : Store).Agrees memory := by
  intro slot
  rw [lookup_empty]
  exact Nullness.admits_unknown

theorem Agrees.bind? (h : store.Agrees memory) (slot : Option Slot) {known : Nullness}
    {value : Bool} (hValue : known.Admits value) :
    (store.bind? slot known).Agrees (memory.store slot value) := by
  cases slot with
  | none => exact h
  | some slot =>
    intro other
    simp only [Store.bind?, Memory.store, Option.elim_some, lookup_bind, Function.update_apply]
    split
    · exact hValue
    · exact h other

end Store

section

variable {σ ρ α β : Type} {frame : Frame} {check : PathCheck σ ρ}

/-- Started on a path that agrees with the one memory the stretch ends on one that agrees with the
other. -/
def PathM.Simulates (m : PathM σ ρ α) (before after : Memory) (Q : α → Prop) : Prop :=
  ∀ p, p.store.Agrees before → Q (m p).value ∧ (m p).path.store.Agrees after

namespace PathM

variable {before between after : Memory} {P : α → Prop} {Q : β → Prop}

theorem simulates_pure {a : α} (h : P a) : (pure a : PathM σ ρ α).Simulates before before P :=
  fun _ hp => ⟨h, hp⟩

theorem Simulates.bind {m : PathM σ ρ α} {f : α → PathM σ ρ β}
    (hm : m.Simulates before between P) (hf : ∀ a, P a → (f a).Simulates between after Q) :
    (m >>= f).Simulates before after Q := by
  intro p hp
  obtain ⟨hValue, hPath⟩ := hm p hp
  exact hf _ hValue _ hPath

theorem simulates_readSlot (memory : Memory) (slot : Slot) :
    (readSlot slot : PathM σ ρ _).Simulates memory memory (·.Admits (memory slot)) :=
  fun _ hp => ⟨hp slot, hp⟩

theorem simulates_writeSlot (memory : Memory) (slot : Option Slot) {known : Nullness} {value : Bool}
    (h : known.Admits value) :
    (writeSlot slot known : PathM σ ρ _).Simulates memory (memory.store slot value)
      fun _ => True :=
  fun _ hp => ⟨trivial, hp.bind? slot h⟩

theorem simulates_writeSlot_none (memory : Memory) (known : Nullness) :
    (writeSlot none known : PathM σ ρ _).Simulates memory memory fun _ => True :=
  fun _ hp => ⟨trivial, hp⟩

theorem simulates_consult (memory : Memory) (callback : Site → σ → σ × List ρ) :
    (consult frame callback).Simulates memory memory fun _ => True :=
  fun _ hp => ⟨trivial, hp⟩

end PathM

/-! ## Evaluation -/

/-- What is sent to a receiver that is not nil is not taken for a send to nil. -/
theorem isNull_receiver {m : Message Expr} {known : List Nullness} {operands : List Bool}
    (hKnown : List.Forall₂ Nullness.Admits known operands)
    (hTarget : m.target?.isSome = true → operands.head? = some true) :
    (splitOperands m known).1.isNull = false := by
  unfold splitOperands
  split
  · rename_i hSome
    rw [hSome] at hTarget
    cases hKnown with
    | nil => exact absurd (hTarget rfl) (by simp)
    | cons hFirst _ =>
      obtain rfl := Option.some.inj (hTarget rfl)
      exact Nullness.isNull_of_admits_true hFirst
  · rfl

theorem simulates_sendEffect {m : Message Expr} {known : List Nullness} {operands : List Bool}
    {before : Memory} {value : Bool} {after : Memory} {r : SourceRange}
    (h : Effect frame (.send m r) operands before value after)
    (hKnown : List.Forall₂ Nullness.Admits known operands)
    (hSelf : frame.isSynthesizedOnSelf m = true → operands.head? = some true) :
    (sendEffect frame m (splitOperands m known).1 (splitOperands m known).2 :
      PathM σ ρ _).Simulates before after (·.Admits value) := by
  unfold sendEffect
  cases h with
  | sendToNil hTarget =>
    split
    · exact simulates_pure rfl
    · have hNotSelf : frame.isSynthesizedOnSelf m = false :=
        Bool.eq_false_iff.mpr fun hOnSelf => by simpa using hSelf hOnSelf
      have hRead : frame.readField? m = none := by simp [Frame.readField?, hNotSelf]
      have hWritten : frame.writtenField? m = none := by simp [Frame.writtenField?, hNotSelf]
      rw [hRead, hWritten]
      exact (simulates_writeSlot_none _ _).bind fun _ _ => simulates_pure Nullness.admits_unknown
  | getter hRead =>
    rw [isNull_receiver hKnown fun _ => rfl, if_neg Bool.false_ne_true, hRead]
    exact simulates_readSlot _ _
  | setter hWritten =>
    obtain ⟨target, hTarget, -⟩ := Frame.exists_target (Frame.of_writtenField? hWritten).1
    rw [isNull_receiver hKnown fun _ => rfl, if_neg Bool.false_ne_true,
      Frame.readField?_of_writtenField? hWritten, hWritten]
    obtain _ | ⟨_, _ | ⟨hNew, _⟩⟩ := hKnown
    simp only [splitOperands, hTarget]
    exact (simulates_writeSlot _ _ hNew).bind fun _ _ => simulates_pure Nullness.admits_unknown
  | send hRead hWritten hTarget =>
    rw [isNull_receiver hKnown hTarget, if_neg Bool.false_ne_true, hRead, hWritten]
    exact (simulates_writeSlot_none _ _).bind fun _ _ => simulates_pure Nullness.admits_unknown

theorem simulates_effect {e : Expr} {operands : List Bool} {known : List Nullness}
    {before : Memory} {value : Bool} {after : Memory} (h : Effect frame e operands before value after)
    (hKnown : List.Forall₂ Nullness.Admits known operands)
    (hSelf : ∀ m r, e = .send m r → frame.isSynthesizedOnSelf m = true →
      operands.head? = some true) :
    (effect frame check e known).Simulates before after (·.Admits value) := by
  cases e with
  | self _ | selector _ _ | nil _ =>
    cases h
    exact simulates_pure rfl
  | int n _ =>
    cases h
    exact simulates_pure (Nullness.admits_ofTruth _)
  | var _ _ _ | field _ _ =>
    cases h
    exact simulates_readSlot _ _
  | paren _ _ | cast _ _ _ =>
    cases h
    obtain _ | ⟨hOperand, _⟩ := hKnown
    exact simulates_pure hOperand
  | assign target _ _ =>
    cases h
    obtain _ | ⟨_, _ | ⟨hNew, _⟩⟩ := hKnown
    exact (simulates_writeSlot _ _ hNew).bind fun _ _ => simulates_pure hNew
  | binary op _ _ _ =>
    cases h with
    | and =>
      obtain _ | ⟨hLhs, _ | ⟨hRhs, _⟩⟩ := hKnown
      exact simulates_pure (hLhs.and hRhs)
    | or =>
      obtain _ | ⟨hLhs, _ | ⟨hRhs, _⟩⟩ := hKnown
      exact simulates_pure (hLhs.or hRhs)
    | eq =>
      obtain _ | ⟨hLhs, _ | ⟨hRhs, _⟩⟩ := hKnown
      exact simulates_pure (hLhs.eq hRhs)
    | ne =>
      obtain _ | ⟨hLhs, _ | ⟨hRhs, _⟩⟩ := hKnown
      exact simulates_pure (hLhs.eq hRhs).not
    | compare hOp =>
      obtain _ | ⟨hLhs, _ | ⟨hRhs, _⟩⟩ := hKnown
      refine simulates_pure ?_
      cases op <;> cases hOp <;>
        simp [BinaryOp.nullness, Nullness.eq_of_admits_true hLhs hRhs, Nullness.not,
          Nullness.Admits]
    | binary hLogical hEquality =>
      refine simulates_pure ?_
      cases op <;> cases hLogical <;> cases hEquality <;> exact Nullness.admits_unknown
  | unary op _ _ =>
    cases h with
    | not =>
      obtain _ | ⟨hOperand, _⟩ := hKnown
      exact simulates_pure hOperand.not
    | addressOf => exact simulates_pure rfl
    | unary hNot hAddress =>
      refine simulates_pure ?_
      cases op with
      | not => exact absurd rfl hNot
      | addressOf => exact absurd rfl hAddress
      | neg | deref => exact Nullness.admits_unknown
  | send m r =>
    refine (simulates_sendEffect h hKnown (hSelf m r rfl)).bind fun _ hValue => ?_
    exact (simulates_consult _ _).bind fun _ _ => simulates_pure hValue
  | call _ _ _ | other _ _ =>
    cases h
    exact simulates_pure Nullness.admits_unknown

theorem simulates_inOrder {es : List Expr} {before after : Memory} {values : List Bool}
    (hEach : ∀ e ∈ es, ∀ {before after value}, Evaluates frame e before value after →
      (evaluate frame check e).Simulates before after (·.Admits value))
    (h : EvaluatesAll frame es before values after) :
    (inOrder (es.map (evaluate frame check))).Simulates before after
      (List.Forall₂ Nullness.Admits · values) := by
  induction es generalizing before values with
  | nil =>
    cases h
    exact simulates_pure .nil
  | cons e rest ih =>
    obtain _ | ⟨hFirst, hRest⟩ := h
    obtain ⟨hHere, hLater⟩ := List.forall_mem_cons.mp hEach
    refine (hHere hFirst).bind fun _ hValue => ?_
    refine (ih hLater hRest).bind fun _ hValues => ?_
    exact simulates_pure (.cons hValue hValues)

variable (check) in
/-- What evaluation knows of an expression is true of its value. -/
theorem simulates_evaluate (e : Expr) {before after : Memory} {value : Bool}
    (h : Evaluates frame e before value after) :
    (evaluate frame check e).Simulates before after (·.Admits value) := by
  induction e using Expr.inductionOn generalizing before value after with
  | step e ih =>
    obtain ⟨hOperands, hEffect⟩ := h
    rw [evaluate_eq]
    refine (simulates_inOrder ih hOperands).bind fun known hKnown => ?_
    refine (simulates_consult _ _).bind fun _ _ => simulates_effect hEffect hKnown ?_
    rintro m r rfl hOnSelf
    exact hOperands.head?_of_isSynthesizedOnSelf hOnSelf

/-! ## Conditions -/

/-- The store narrowed by how a condition turned out agrees with any memory in which it turned out
so. -/
theorem agrees_refine {cond : Expr} (hStores : cond.Within (frame.storesNothing · = true))
    {store : Store} {memory after : Memory} {truth : Bool}
    (h : Evaluates frame cond memory truth after) (hAgrees : store.Agrees memory) :
    (store.refine truth cond).Agrees memory := by
  intro slot
  rw [Store.lookup_refine]
  cases hTold : cond.narrowing? slot truth with
  | none => exact hAgrees slot
  | some known =>
    have hKnown := h.narrowing (Frame.outdates_eq_false hStores) hTold
    rw [h.memory_eq hStores] at hKnown
    exact hKnown ▸ Nullness.admits_ofTruth known

variable (check) in
/-- A store that agrees with memory agrees with it again once a condition has been evaluated and has
narrowed the store, in all slots of which the condition tells nothing outdated. -/
theorem narrowing_holds {cond : Expr} {before after : Memory} {truth : Bool}
    (h : Evaluates frame cond before truth after) {p : Path σ} (hp : p.store.Agrees before) :
    ∀ slot, frame.outdates slot truth cond = false →
      (((evaluate frame check cond p).path.store.refine truth cond).lookup slot).Admits
        (after slot) := by
  intro slot hFresh
  obtain ⟨-, hAgrees⟩ := simulates_evaluate check cond h p hp
  rw [Store.lookup_refine]
  cases hTold : cond.narrowing? slot truth with
  | none => exact hAgrees slot
  | some known =>
    rw [h.narrowing hFresh hTold]
    exact Nullness.admits_ofTruth known

end

namespace Sample

def bar : Expr := .field "_bar" .unknown

def make : Expr := send (.object (.self .unknown)) "make" []

/-- The new object is tested too. -/
def replacedWhenNil : Expr := .binary .and (.unary .not bar .unknown) (.assign bar make .unknown) .unknown

/-- The new object is not tested itself but asked. -/
def replacedAndAsked : Expr :=
  .binary .and (.unary .not bar .unknown) (send (.object (.assign bar make .unknown)) "ready" []) .unknown

def withoutObjects : Memory := fun _ => false

def withBar : Memory := withoutObjects.store (some (.field "_bar")) true

theorem evaluates_not_bar : Evaluates (fooFrame (delegatePair []) 0) (.unary .not bar .unknown)
    withoutObjects true withoutObjects :=
  ⟨.cons ⟨.nil, .field⟩ .nil, .not⟩

theorem evaluates_replaced : Evaluates (fooFrame (delegatePair []) 0) (.assign bar make .unknown)
    withoutObjects true withBar := by
  let toMake : Message Expr := ⟨.object (.self .unknown), "make", []⟩
  -- The kernel does not evaluate the search for a colon that tells a getter from other messages.
  have hShape : ClassScope.isGetterShape toMake = true := by simp [ClassScope.isGetterShape, toMake]
  have hRead : (fooFrame (delegatePair []) 0).readField? toMake = none := by
    rw [Frame.readField?, ClassScope.getter?, if_pos hShape]
    decide +kernel
  have hWritten : (fooFrame (delegatePair []) 0).writtenField? toMake = none := by decide +kernel
  have hMake : Evaluates (fooFrame (delegatePair []) 0) make withoutObjects true withoutObjects :=
    ⟨.cons ⟨.nil, .self⟩ .nil, .send hRead hWritten fun _ => rfl⟩
  exact ⟨.cons ⟨.nil, .field⟩ (.cons hMake .nil), .assign⟩

end Sample

open Sample in
/-- Whatever the assignment told of the field is still so. -/
theorem replaced_field_is_known :
    let frame := fooFrame (delegatePair []) 0
    let p : Path DelegateState := ⟨0, ∅, .start⟩
    Evaluates frame replacedWhenNil withoutObjects true withBar ∧ p.store.Agrees withoutObjects ∧
      frame.outdates (.field "_bar") true replacedWhenNil = false ∧
      (((evaluate frame (delegatePaths .default ∅) replacedWhenNil p).path.store.refine true
        replacedWhenNil).lookup (.field "_bar")).Admits (withBar (.field "_bar")) := by
  intro frame p
  have hEvaluates : Evaluates frame replacedWhenNil withoutObjects true withBar :=
    ⟨.cons evaluates_not_bar (.cons evaluates_replaced .nil), .and⟩
  have hFresh : frame.outdates (.field "_bar") true replacedWhenNil = false := by decide +kernel
  have hAgrees : p.store.Agrees withoutObjects := Store.agrees_empty _
  exact ⟨hEvaluates, hAgrees, hFresh,
    narrowing_holds (delegatePaths .default ∅) hEvaluates hAgrees (.field "_bar") hFresh⟩

open Sample in
/-- The field was nil when it was tested. When the condition is over it is not, but is taken for nil. -/
theorem replaced_field_is_taken_for_nil :
    let frame := fooFrame (delegatePair []) 0
    let p : Path DelegateState := ⟨0, ∅, .start⟩
    Evaluates frame replacedAndAsked withoutObjects true withBar ∧ p.store.Agrees withoutObjects ∧
      ¬ ((evaluate frame (delegatePaths .default ∅) replacedAndAsked p).path.store.refine true
        replacedAndAsked).Agrees withBar := by
  intro frame p
  have hAsked : Evaluates frame (send (.object (.assign bar make .unknown)) "ready" []) withoutObjects
      true withBar :=
    ⟨.cons evaluates_replaced .nil, .send rfl rfl fun _ => rfl⟩
  refine ⟨⟨.cons evaluates_not_bar (.cons hAsked .nil), .and⟩, Store.agrees_empty _, fun hAgrees => ?_⟩
  have hNull : ((evaluate frame (delegatePaths .default ∅) replacedAndAsked p).path.store.refine true
      replacedAndAsked).lookup (.field "_bar") = .null := by
    rw [Store.lookup_refine]
    rfl
  have hAdmits := hAgrees (.field "_bar")
  rw [hNull] at hAdmits
  cases hAdmits

end DelegateSafety
