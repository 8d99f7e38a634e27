import DelegateSafety.Dangling.Check
import DelegateSafety.Proofs.Rewriting

/-! # Expressions that look the same

The check of dangling delegates looks at expressions in a few ways only: for their types, for what they
denote, for what follows from their truth. Expressions that agree in all of these (`Expr.Alike`) may be
of different shapes and may belong to different units. An expression is alike with another one if it is
the same node over parts that are alike (`Expr.Alike.of_operands`).
-/
namespace DelegateSafety

/-! ## Units that declare the same -/

/-- Units in which every lookup finds the same. Of methods that are found only their kind of definition
counts. -/
structure SourceUnit.SameDeclarations (unit unit' : SourceUnit) : Prop where
  path : unit.path = unit'.path
  lineage : unit.lineage = unit'.lineage
  findField? : unit.findField? = unit'.findField?
  findMethod? : ∀ className selector,
    (unit.findMethod? className selector).map (fun m => (m.implicit, m.isExplicit)) =
      (unit'.findMethod? className selector).map fun m => (m.implicit, m.isExplicit)

namespace SourceUnit

theorem superclass?_eq (unit : SourceUnit) (name : String) :
    unit.superclass? name = (unit.lineage name).head?.bind (·.superclass) := by
  rw [superclass?, lineage, interface?]
  cases h : findInterface? unit.interfaces name with
  | none => rw [lineageIn_of_none h]; rfl
  | some d => rw [lineageIn_of_some h]; rfl

end SourceUnit

/-- The same class, in units that declare the same. -/
structure ClassScope.Matches (scope scope' : ClassScope) : Prop where
  className : scope.className = scope'.className
  unit : scope.unit.SameDeclarations scope'.unit

theorem ClassScope.Matches.refl (scope : ClassScope) : scope.Matches scope :=
  ⟨rfl, rfl, rfl, rfl, fun _ _ => rfl⟩

/-- The same class, with the same fields and in units with the same interfaces. -/
structure ClassScope.Resembles (scope scope' : ClassScope) : Prop where
  className : scope.className = scope'.className
  lineage : scope.unit.lineage = scope'.unit.lineage
  field? : scope.field? = scope'.field?

theorem ClassScope.Matches.resembles {scope scope' : ClassScope} (h : scope.Matches scope') :
    scope.Resembles scope' where
  className := h.className
  lineage := h.unit.lineage
  field? := by
    funext name
    rw [ClassScope.field?, ClassScope.field?, h.unit.findField?, h.className]

namespace ClassScope.Resembles

theorem refl (scope : ClassScope) : scope.Resembles scope := ⟨rfl, rfl, rfl⟩

variable {scope scope' : ClassScope} (h : scope.Resembles scope')

include h

theorem superclass? : scope.unit.superclass? = scope'.unit.superclass? := by
  funext name
  rw [SourceUnit.superclass?_eq, SourceUnit.superclass?_eq, h.lineage]

theorem findProperty? : scope.unit.findProperty? = scope'.unit.findProperty? := by
  funext className property
  rw [SourceUnit.findProperty?, SourceUnit.findProperty?, h.lineage]

theorem findPropertyBySetter? : scope.unit.findPropertyBySetter? = scope'.unit.findPropertyBySetter? := by
  funext className selector
  rw [SourceUnit.findPropertyBySetter?, SourceUnit.findPropertyBySetter?, h.lineage]

end ClassScope.Resembles

/-! ## What an expression shows of itself -/

/-- What the expressions inside an expression tell the scan. -/
def Expr.observations (scope : ClassScope) (config : DelegateConfig) (method : String) (e : Expr) :
    List Observation :=
  e.walk.filterMap (observeExpr scope config method)

theorem Expr.observations_eq (scope : ClassScope) (config : DelegateConfig) (method : String)
    (e : Expr) : e.observations scope config method =
      (observeExpr scope config method e).toList ++
        e.operands.flatMap (observations scope config method) := by
  rw [observations, walk_eq, List.filterMap_cons, List.filterMap_flatMap]
  cases observeExpr scope config method e <;> rfl

/-- What counts of an expression as the receiver of a message. -/
structure Expr.AlikeReceived (scope scope' : ClassScope) (e e' : Expr) : Prop where
  staticType? : scope.staticType? e = scope'.staticType? e'
  isSelf : e.isSelf = e'.isSelf
  fieldOf? : scope.fieldOf? e = scope'.fieldOf? e'
  singletonOf? : ∀ accessors, singletonOf? accessors e = singletonOf? accessors e'
  observations : ∀ config method,
    e.observations scope config method = e'.observations scope' config method

/-- All that counts of an expression, apart from what happens in its evaluation. -/
structure Expr.Alike (scope scope' : ClassScope) (e e' : Expr) : Prop
    extends AlikeReceived scope scope' e e' where
  isNullLiteral : e.isNullLiteral = e'.isNullLiteral
  slot? : e.slot? = e'.slot?
  interestingDelegate? : ∀ facts, interestingDelegate? scope facts e = interestingDelegate? scope' facts e'
  refine : ∀ (store : Store) truth, store.refine truth e = store.refine truth e'
  safeOutcomes : ∀ facts truth, safeOutcomes scope facts truth e = safeOutcomes scope' facts truth e'

inductive Receiver.Related (R : Expr → Expr → Prop) : Receiver Expr → Receiver Expr → Prop
  | object {target target' : Expr} : R target target' → Related R (.object target) (.object target')
  | named (className : String) : Related R (.named className) (.named className)
  | super : Related R .super .super

/-- The same message over a receiver and arguments that are alike. -/
structure Message.Alike (scope scope' : ClassScope) (m m' : Message Expr) : Prop where
  selector : m.selector = m'.selector
  receiver : Receiver.Related (Expr.AlikeReceived scope scope') m.receiver m'.receiver
  args : List.Forall₂ (Expr.Alike scope scope') m.args m'.args

/-! ## Messages -/

namespace Message.Alike

variable {scope scope' : ClassScope} (hScope : scope.Resembles scope') {m m' : Message Expr}
  (h : m.Alike scope scope' m')

include h

theorem length_args : m.args.length = m'.args.length := h.args.length_eq

theorem target? : Option.Rel (Expr.AlikeReceived scope scope') m.target? m'.target? := by
  obtain ⟨receiver, _, _⟩ := m
  obtain ⟨receiver', _, _⟩ := m'
  cases h.receiver with
  | object hTarget => exact .some hTarget
  | named _ | super => exact .none

theorem isSelf_target? : m.target?.any (·.isSelf) = m'.target?.any (·.isSelf) :=
  any_eq_of_rel h.target? fun _ _ hTarget => hTarget.isSelf

theorem fieldOf?_target? : m.target?.bind scope.fieldOf? = m'.target?.bind scope'.fieldOf? :=
  bind_eq_of_rel h.target? fun _ _ hTarget => hTarget.fieldOf?

theorem passesSelf : m.passesSelf = m'.passesSelf := by
  obtain ⟨_, _, args⟩ := m
  obtain ⟨_, _, args'⟩ := m'
  cases h.args with
  | nil => rfl
  | cons hArg _ => exact hArg.isSelf

theorem operands : List.Forall₂ (Expr.AlikeReceived scope scope') m.operands m'.operands :=
  List.rel_append (forall₂_toList_of_rel h.target?) (h.args.imp fun _ _ hArg => hArg.toAlikeReceived)

include hScope

theorem receiverClass? : scope.receiverClass? m.receiver = scope'.receiverClass? m'.receiver := by
  obtain ⟨receiver, _, _⟩ := m
  obtain ⟨receiver', _, _⟩ := m'
  cases h.receiver with
  | object hTarget => simp only [ClassScope.receiverClass?, hTarget.staticType?]
  | named _ => rfl
  | super => simp only [ClassScope.receiverClass?, hScope.superclass?, hScope.className]

theorem getter? : scope.getter? m = scope'.getter? m' := by
  have hShape : ClassScope.isGetterShape m = ClassScope.isGetterShape m' := by
    obtain ⟨_, _, args⟩ := m
    obtain ⟨_, _, args'⟩ := m'
    obtain rfl := h.selector
    cases h.args <;> rfl
  simp only [ClassScope.getter?, hShape, h.selector, h.receiverClass? hScope, hScope.findProperty?]

theorem setter? : scope.setter? m = scope'.setter? m' := by
  simp only [ClassScope.setter?, h.length_args, h.selector, h.receiverClass? hScope,
    hScope.findPropertyBySetter?]

theorem observeSend (config : DelegateConfig) (method : String) :
    observeSend scope config method m = observeSend scope' config method m' := by
  refine bind_eq_of_rel h.target? fun _ _ hTarget => ?_
  simp only [h.passesSelf, hTarget.fieldOf?, hTarget.singletonOf?, h.selector,
    ClassScope.unsafeSetter?, h.setter? hScope]

/-- Sends of messages that are alike are alike. -/
theorem send (r r' : SourceRange) : Expr.Alike scope scope' (.send m r) (.send m' r') where
  staticType? := by rw [ClassScope.staticType?_send, ClassScope.staticType?_send, h.getter? hScope]
  isSelf := rfl
  fieldOf? := by
    simp only [ClassScope.fieldOf?, Expr.strip, h.isSelf_target?, h.getter? hScope]
  singletonOf? accessors := by
    obtain ⟨receiver, selector, args⟩ := m
    obtain ⟨receiver', selector', args'⟩ := m'
    obtain rfl : selector = selector' := h.selector
    cases h.receiver <;> rfl
  observations config method := by
    rw [Expr.observations_eq, Expr.observations_eq]
    simp only [observeExpr, Expr.operands, h.observeSend hScope]
    exact congrArg _ (flatMap_eq_of_rel h.operands fun _ _ hPart => hPart.observations config method)
  isNullLiteral := rfl
  slot? := rfl
  interestingDelegate? facts := by
    simp only [DelegateSafety.interestingDelegate?, Expr.strip, h.fieldOf?_target?, h.getter? hScope]
  refine _ _ := rfl
  safeOutcomes facts truth := by
    simp only [DelegateSafety.safeOutcomes, nullOutcome?, DelegateSafety.interestingDelegate?,
      ClassScope.fieldOf?, Expr.strip, h.isSelf_target?, h.fieldOf?_target?, h.getter? hScope]

end Message.Alike

/-- Messages that are alike and answered by the same kind of definition. -/
structure Message.AlikeSent (scope scope' : ClassScope) (m m' : Message Expr) : Prop
    extends Message.Alike scope scope' m m' where
  definition? : (scope.definition? m).map (fun d => (d.implicit, d.isExplicit)) =
    (scope'.definition? m').map fun d => (d.implicit, d.isExplicit)

theorem Message.Alike.sent {scope scope' : ClassScope} (hScope : scope.Matches scope') {m m' : Message Expr}
    (h : m.Alike scope scope' m') : m.AlikeSent scope scope' m' where
  toAlike := h
  definition? := by
    simp only [ClassScope.definition?, h.selector, h.receiverClass? hScope.resembles, Option.map_bind,
      Function.comp_def, hScope.unit.findMethod?]

/-- A send with other operands sends the message with these. -/
theorem Message.Alike.of_operands {scope scope' : ClassScope} {m : Message Expr} {parts : List Expr}
    (h : List.Forall₂ (Expr.Alike scope scope') m.operands parts) (r : SourceRange) :
    ∃ m', (Expr.send m r).withOperands parts = .send m' r ∧ m'.operands = parts ∧
      m.Alike scope scope' m' := by
  obtain ⟨receiver, selector, args⟩ := m
  cases receiver with
  | object target =>
    obtain _ | ⟨hTarget, hArgs⟩ := h
    exact ⟨_, rfl, rfl, rfl, .object hTarget.toAlikeReceived, hArgs⟩
  | named className => exact ⟨_, rfl, rfl, rfl, .named className, h⟩
  | super => exact ⟨_, rfl, rfl, rfl, .super, h⟩

/-! ## Nodes over parts that are alike -/

namespace Expr

variable {scope scope' scope'' : ClassScope}

theorem Alike.refl (scope : ClassScope) (e : Expr) : e.Alike scope scope e :=
  ⟨⟨rfl, rfl, rfl, fun _ => rfl, fun _ _ => rfl⟩, rfl, rfl, fun _ => rfl, fun _ _ => rfl, fun _ _ => rfl⟩

theorem Alike.trans {e d e' : Expr} (h : e.Alike scope scope' d) (h' : d.Alike scope' scope'' e') :
    e.Alike scope scope'' e' where
  staticType? := h.staticType?.trans h'.staticType?
  isSelf := h.isSelf.trans h'.isSelf
  fieldOf? := h.fieldOf?.trans h'.fieldOf?
  singletonOf? accessors := (h.singletonOf? accessors).trans (h'.singletonOf? accessors)
  observations config method := (h.observations config method).trans (h'.observations config method)
  isNullLiteral := h.isNullLiteral.trans h'.isNullLiteral
  slot? := h.slot?.trans h'.slot?
  interestingDelegate? facts := (h.interestingDelegate? facts).trans (h'.interestingDelegate? facts)
  refine store truth := (h.refine store truth).trans (h'.refine store truth)
  safeOutcomes facts truth := (h.safeOutcomes facts truth).trans (h'.safeOutcomes facts truth)

theorem Alike.nullOutcome? {e e' : Expr} (h : e.Alike scope scope' e') (facts : ClassFacts) :
    nullOutcome? scope facts e = nullOutcome? scope' facts e' := by
  rw [DelegateSafety.nullOutcome?, DelegateSafety.nullOutcome?, h.interestingDelegate?, h.fieldOf?]

theorem observations_of_operands {e e' : Expr} (config : DelegateConfig) (method : String)
    (hSend : ∀ m r, e ≠ .send m r) (hSend' : ∀ m r, e' ≠ .send m r)
    (h : List.Forall₂ (AlikeReceived scope scope') e.operands e'.operands) :
    e.observations scope config method = e'.observations scope' config method := by
  have hNone : observeExpr scope config method e = none := by
    cases e <;> first | rfl | exact absurd rfl (hSend _ _)
  have hNone' : observeExpr scope' config method e' = none := by
    cases e' <;> first | rfl | exact absurd rfl (hSend' _ _)
  rw [observations_eq, observations_eq, hNone, hNone']
  exact congrArg _ (flatMap_eq_of_rel h fun _ _ hPart => hPart.observations config method)

/-- An expression as it is, in parentheses or in a cast. -/
inductive Wraps (e : Expr) : Expr → Prop
  | bare : Wraps e e
  | paren (r : SourceRange) : Wraps e (.paren e r)
  | cast (type : TypeRef) (r : SourceRange) : Wraps e (.cast type e r)

namespace Wraps

variable {e w : Expr} (h : e.Wraps w)

include h

theorem strip : w.strip = e.strip := by
  cases h <;> rfl

theorem refine (store : Store) (truth : Bool) : store.refine truth w = store.refine truth e := by
  cases h with
  | bare => rfl
  | paren _ | cast _ _ => rw [Store.refine]

theorem safeOutcomes (facts : ClassFacts) (truth : Bool) :
    safeOutcomes scope facts truth w = safeOutcomes scope facts truth e := by
  cases h with
  | bare => rfl
  | paren _ | cast _ _ => rw [DelegateSafety.safeOutcomes]

theorem observations (config : DelegateConfig) (method : String) :
    w.observations scope config method = e.observations scope config method := by
  cases h with
  | bare => rfl
  | paren _ | cast _ _ =>
    rw [observations_eq]
    exact List.append_nil _

end Wraps

/-- Parentheses and casts show what is inside them, but for the type of a cast. -/
theorem Alike.wrap {e e' w w' : Expr} (h : e.Alike scope scope' e') (hWraps : e.Wraps w)
    (hWraps' : e'.Wraps w') (hType : scope.staticType? w = scope'.staticType? w') :
    w.Alike scope scope' w' where
  staticType? := hType
  isSelf := by simpa only [Expr.isSelf, hWraps.strip, hWraps'.strip] using h.isSelf
  fieldOf? := by simpa only [ClassScope.fieldOf?, hWraps.strip, hWraps'.strip] using h.fieldOf?
  singletonOf? accessors := by
    simpa only [DelegateSafety.singletonOf?, hWraps.strip, hWraps'.strip] using h.singletonOf? accessors
  observations config method := by
    rw [hWraps.observations, hWraps'.observations, h.observations]
  isNullLiteral := by
    simpa only [Expr.isNullLiteral, hWraps.strip, hWraps'.strip] using h.isNullLiteral
  slot? := by simpa only [Expr.slot?, hWraps.strip, hWraps'.strip] using h.slot?
  interestingDelegate? facts := by
    simpa only [DelegateSafety.interestingDelegate?, hWraps.strip, hWraps'.strip]
      using h.interestingDelegate? facts
  refine store truth := by rw [hWraps.refine, hWraps'.refine, h.refine]
  safeOutcomes facts truth := by rw [hWraps.safeOutcomes, hWraps'.safeOutcomes, h.safeOutcomes]

/-- What is left of two expressions that are compared, if one of them is as given. -/
theorem rel_other {c c' : Expr → Bool} {lhs lhs' rhs rhs' : Expr} (hLhs : lhs.Alike scope scope' lhs')
    (hRhs : rhs.Alike scope scope' rhs') (hl : c lhs = c' lhs') (hr : c rhs = c' rhs') :
    Option.Rel (Alike scope scope') (if c rhs then some lhs else if c lhs then some rhs else none)
      (if c' rhs' then some lhs' else if c' lhs' then some rhs' else none) := by
  rw [hl, hr]
  split
  · exact .some hLhs
  · split
    · exact .some hRhs
    · exact .none

theorem Alike.binary {lhs lhs' rhs rhs' : Expr} (hLhs : lhs.Alike scope scope' lhs')
    (hRhs : rhs.Alike scope scope' rhs') (op : BinaryOp) (r : SourceRange) :
    (Expr.binary op lhs rhs r).Alike scope scope' (.binary op lhs' rhs' r) where
  staticType? := rfl
  isSelf := rfl
  fieldOf? := rfl
  singletonOf? _ := rfl
  observations config method := observations_of_operands config method nofun nofun
    (.cons hLhs.toAlikeReceived (.cons hRhs.toAlikeReceived .nil))
  isNullLiteral := rfl
  slot? := rfl
  interestingDelegate? _ := rfl
  refine store truth := by
    simp only [Store.refine, hLhs.isNullLiteral, hRhs.isNullLiteral, hLhs.slot?, hRhs.slot?,
      hLhs.refine, hRhs.refine]
  safeOutcomes facts truth := by
    have hNull := bind_eq_of_rel (rel_other hLhs hRhs hLhs.isNullLiteral hRhs.isNullLiteral)
      fun _ _ h => h.nullOutcome? facts
    have hSelf := bind_eq_of_rel (rel_other hLhs hRhs hLhs.isSelf hRhs.isSelf)
      fun _ _ h => h.interestingDelegate? facts
    simp only [DelegateSafety.safeOutcomes, otherThanNull?, otherThanSelf?, hNull, hSelf,
      hLhs.safeOutcomes, hRhs.safeOutcomes]

theorem Alike.unary {e e' : Expr} (h : e.Alike scope scope' e') (op : UnaryOp) (r : SourceRange) :
    (Expr.unary op e r).Alike scope scope' (.unary op e' r) where
  staticType? := rfl
  isSelf := rfl
  fieldOf? := rfl
  singletonOf? _ := rfl
  observations config method := observations_of_operands config method nofun nofun
    (.cons h.toAlikeReceived .nil)
  isNullLiteral := rfl
  slot? := rfl
  interestingDelegate? _ := rfl
  refine store truth := by
    cases op with
    | not => exact h.refine store _
    | _ => rfl
  safeOutcomes facts truth := by
    cases op with
    | not => exact h.safeOutcomes facts _
    | _ => rfl

theorem Alike.assign {target target' value value' : Expr} (hTarget : target.Alike scope scope' target')
    (hValue : value.Alike scope scope' value') (r : SourceRange) :
    (Expr.assign target value r).Alike scope scope' (.assign target' value' r) where
  staticType? := rfl
  isSelf := rfl
  fieldOf? := rfl
  singletonOf? _ := rfl
  observations config method := observations_of_operands config method nofun nofun
    (.cons hTarget.toAlikeReceived (.cons hValue.toAlikeReceived .nil))
  isNullLiteral := rfl
  slot? := rfl
  interestingDelegate? _ := rfl
  refine store truth := by simp only [Store.refine, hTarget.slot?]
  safeOutcomes _ _ := rfl

/-- The same node over parts that are alike. -/
theorem Alike.of_operands (hScope : scope.Resembles scope') {e : Expr} {parts : List Expr}
    (h : List.Forall₂ (Alike scope scope') e.operands parts) :
    e.Alike scope scope' (e.withOperands parts) := by
  cases e with
  | self r =>
    cases h
    exact ⟨⟨congrArg _ (congrArg _ hScope.className), rfl, rfl, fun _ => rfl, fun _ _ => rfl⟩,
      rfl, rfl, fun _ => rfl, fun _ _ => rfl, fun _ _ => rfl⟩
  | nil r | int value r | selector name r | var name type r =>
    cases h
    exact ⟨⟨rfl, rfl, rfl, fun _ => rfl, fun _ _ => rfl⟩, rfl, rfl, fun _ => rfl, fun _ _ => rfl,
      fun _ _ => rfl⟩
  | field name r =>
    cases h
    have hType : (scope.field? name).map (·.type) = (scope'.field? name).map (·.type) := by
      rw [hScope.field?]
    exact ⟨⟨hType, rfl, rfl, fun _ => rfl, fun _ _ => rfl⟩, rfl, rfl, fun _ => rfl, fun _ _ => rfl,
      fun _ _ => rfl⟩
  | send m r =>
    obtain ⟨m', hSend, -, hMessage⟩ := Message.Alike.of_operands h r
    rw [hSend]
    exact hMessage.send hScope r r
  | assign target value r =>
    obtain _ | ⟨hTarget, _ | ⟨hValue, ⟨⟩⟩⟩ := h
    exact hTarget.assign hValue r
  | binary op lhs rhs r =>
    obtain _ | ⟨hLhs, _ | ⟨hRhs, ⟨⟩⟩⟩ := h
    exact hLhs.binary hRhs op r
  | unary op operand r =>
    obtain _ | ⟨hOperand, ⟨⟩⟩ := h
    exact hOperand.unary op r
  | paren inner r =>
    obtain _ | ⟨hInner, ⟨⟩⟩ := h
    exact hInner.wrap (.paren r) (.paren r) hInner.staticType?
  | cast type inner r =>
    obtain _ | ⟨hInner, ⟨⟩⟩ := h
    refine hInner.wrap (.cast type r) (.cast type r) ?_
    cases type with
    | object name => rfl
    | id | scalar _ => exact hInner.staticType?
  | call callee args r | other parts r =>
    refine ⟨⟨rfl, rfl, rfl, fun _ => rfl, fun config method => ?_⟩, rfl, rfl, fun _ => rfl,
      fun _ _ => rfl, fun _ _ => rfl⟩
    exact observations_of_operands config method nofun nofun (h.imp fun _ _ h => h.toAlikeReceived)

/-- What is rewritten by steps to what is alike is alike. -/
theorem Rewrites.alike (hScope : scope.Resembles scope') {step : Expr → Expr → Prop}
    (hStep : ∀ e d, step e d → e.Alike scope scope d) {e e' : Expr} (h : Rewrites step e e') :
    e.Alike scope scope' e' :=
  inductionOn (P := Alike scope scope') (fun _ _ _ hParts => .of_operands hScope hParts)
    (fun e d _ hHere hRest => (hStep e d hHere).trans hRest) h

/-- An expression looks the same in classes that resemble each other. -/
theorem Alike.of_resembles (hScope : scope.Resembles scope') (e : Expr) : e.Alike scope scope' e :=
  (@Rewrites.refl (fun _ _ => False) e).alike hScope nofun

end Expr

end DelegateSafety
