import DelegateSafety.Dangling.Guard
import DelegateSafety.Sample.Units

/-! # What guards say

An interpretation gives values to the fields of a class, to the properties of their objects and to all else
that a condition is made of, and the operators have their usual meaning. Whatever is concluded from a
condition is true in every interpretation in which the condition turns out as assumed.
-/
namespace DelegateSafety

/-- Values for all that a condition can speak of. -/
structure Interpretation (V : Type) where
  nil : V
  self : V
  self_ne_nil : self ≠ nil
  /-- What a test that holds comes to. -/
  yes : V
  yes_ne_nil : yes ≠ nil
  field : String → V
  /-- A property of the object in a field. -/
  property : (field property : String) → V
  other : Expr → V

namespace Interpretation

variable {V : Type} [DecidableEq V] (I : Interpretation V) (scope : ClassScope)

def ofTruth (truth : Bool) : V := if truth then I.yes else I.nil

def holds (v : V) : Bool := v != I.nil

/-- A field and an accessor of `self` that it backs are the same thing. -/
def sent (m : Message Expr) (r : SourceRange) : V :=
  match scope.fieldOf? (.send m r) with
  | some field => I.field field
  | none =>
    match m.target?.bind scope.fieldOf?, scope.getter? m with
    | some field, some property => I.property field property.name
    | _, _ => I.other (.send m r)

/-- What a connective or a comparison comes to, in its usual meaning. -/
def connect? (op : BinaryOp) (a b : V) : Option V :=
  match op with
  | .and => some (I.ofTruth (I.holds a && I.holds b))
  | .or => some (I.ofTruth (I.holds a || I.holds b))
  | .eq => some (I.ofTruth (a == b))
  | .ne => some (I.ofTruth (a != b))
  | _ => none

def value : Expr → V
  | .paren inner _ => value inner
  | .cast _ inner _ => value inner
  | .self _ => I.self
  | .nil _ => I.nil
  | .int n r => if n == 0 then I.nil else I.other (.int n r)
  | .field name _ => I.field name
  | .send m r => I.sent scope m r
  | .unary op operand r =>
    if op = .not then I.ofTruth (!I.holds (value operand)) else I.other (.unary op operand r)
  | .binary op lhs rhs r =>
    (I.connect? op (value lhs) (value rhs)).getD (I.other (.binary op lhs rhs r))
  | e => I.other e

def truth (e : Expr) : Bool := I.holds (I.value scope e)

theorem value_send (m : Message Expr) (r : SourceRange) :
    I.value scope (.send m r) = I.sent scope m r := rfl

@[simp] theorem holds_ofTruth (b : Bool) : I.holds (I.ofTruth b) = b := by
  cases b <;> simp [holds, ofTruth, I.yes_ne_nil]

@[simp] theorem truth_paren (e : Expr) (r : SourceRange) :
    I.truth scope (.paren e r) = I.truth scope e := rfl

@[simp] theorem truth_not (e : Expr) (r : SourceRange) :
    I.truth scope (.unary .not e r) = !I.truth scope e := I.holds_ofTruth _

@[simp] theorem truth_and (lhs rhs : Expr) (r : SourceRange) :
    I.truth scope (.binary .and lhs rhs r) = (I.truth scope lhs && I.truth scope rhs) :=
  I.holds_ofTruth _

@[simp] theorem truth_or (lhs rhs : Expr) (r : SourceRange) :
    I.truth scope (.binary .or lhs rhs r) = (I.truth scope lhs || I.truth scope rhs) :=
  I.holds_ofTruth _

@[simp] theorem truth_eq (lhs rhs : Expr) (r : SourceRange) :
    I.truth scope (.binary .eq lhs rhs r) = (I.value scope lhs == I.value scope rhs) :=
  I.holds_ofTruth _

@[simp] theorem truth_ne (lhs rhs : Expr) (r : SourceRange) :
    I.truth scope (.binary .ne lhs rhs r) = (I.value scope lhs != I.value scope rhs) :=
  I.holds_ofTruth _

variable {I scope} {e lhs rhs : Expr}

theorem truth_eq_false_iff : I.truth scope e = false ↔ I.value scope e = I.nil := by
  simp [truth, holds]

/-- How a comparison turns out tells whether its sides are the same. -/
theorem value_eq_iff {op : BinaryOp} (hOp : op.isEquality = true) {r : SourceRange} {assumption : Bool}
    (h : I.truth scope (.binary op lhs rhs r) = assumption) :
    I.value scope lhs = I.value scope rhs ↔ ((op == .eq) == assumption) = true := by
  subst h
  cases op <;> cases hOp
  · rw [truth_eq]
    simp
  · have hNe : (BinaryOp.ne == .eq) = false := rfl
    rw [truth_ne, hNe]
    simp

theorem value_strip (e : Expr) : I.value scope e.strip = I.value scope e := by
  induction e using Expr.inductionOn with
  | step e ih =>
    cases e with
    | paren inner _ | cast _ inner _ => exact ih inner List.mem_cons_self
    | _ => rfl

theorem value_of_isNullLiteral (h : e.isNullLiteral = true) : I.value scope e = I.nil := by
  rw [← value_strip]
  unfold Expr.isNullLiteral at h
  split at h
  · rename_i hStrip
    rw [hStrip]
    rfl
  · rename_i hStrip
    rw [hStrip]
    exact if_pos h
  · cases h

theorem value_of_isSelf (h : e.isSelf = true) : I.value scope e = I.self := by
  rw [← value_strip]
  unfold Expr.isSelf at h
  split at h
  · rename_i hStrip
    rw [hStrip]
    rfl
  · cases h

end Interpretation

/-! ## Shapes that conclusions are drawn from -/

section

variable {scope : ClassScope} {e : Expr} {field : String}

theorem ClassScope.fieldOf?_of_isSelf (h : e.isSelf = true) : scope.fieldOf? e = none := by
  unfold Expr.isSelf at h
  split at h
  · rename_i hStrip
    rw [fieldOf?, hStrip]
  · cases h

/-- A message to the object in a field is not an accessor of `self`. -/
theorem ClassScope.fieldOf?_send_eq_none {m : Message Expr} (r : SourceRange)
    (h : m.target?.bind scope.fieldOf? = some field) : scope.fieldOf? (.send m r) = none := by
  obtain ⟨target, hTarget, hField⟩ := Option.bind_eq_some_iff.mp h
  have hNotSelf : target.isSelf = false :=
    Bool.eq_false_iff.mpr fun hSelf => by simp [fieldOf?_of_isSelf hSelf] at hField
  simp only [fieldOf?, Expr.strip, hTarget, Option.any_some, hNotSelf, Bool.false_eq_true, if_false]

theorem ClassScope.exists_findProperty? {m : Message Expr} {property : PropertyDecl}
    (h : scope.getter? m = some property) :
    ∃ className, scope.unit.findProperty? className property.name = some property := by
  obtain ⟨-, hGetter⟩ := Option.ite_none_right_eq_some.mp h
  obtain ⟨className, -, hProperty⟩ := Option.bind_eq_some_iff.mp hGetter
  obtain ⟨decl, -, hDecl⟩ := List.exists_of_findSome?_eq_some hProperty
  have hName : property.name = m.selector := by simpa using List.find?_some hDecl
  exact ⟨className, hName ▸ hProperty⟩

end

namespace SafeOutcome

/-- What an outcome claims of the values at the time. -/
def Holds {V : Type} (I : Interpretation V) : SafeOutcome → Prop
  | .propertyCleared field property => I.property field property ≠ I.self
  | .fieldCleared field => I.field field = I.nil

/-- An outcome is about an interesting field and, if about a property, about one without ownership. -/
def Concerns (scope : ClassScope) (facts : ClassFacts) : SafeOutcome → Prop
  | .propertyCleared field property => facts.isInteresting field = true ∧
    ∃ className decl, scope.unit.findProperty? className property = some decl ∧ decl.name = property ∧
      decl.ownership = .assign
  | .fieldCleared field => facts.isInteresting field = true

end SafeOutcome

theorem Ownership.isUnsafe_iff {ownership : Ownership} : ownership.isUnsafe = true ↔ ownership = .assign := by
  cases ownership <;> simp [isUnsafe]

section

variable {scope : ClassScope} {facts : ClassFacts} {e : Expr} {o : SafeOutcome}

/-- What is taken for a property without ownership reads one, of the object in an interesting field. -/
theorem exists_of_interestingDelegate? (h : interestingDelegate? scope facts e = some o) :
    ∃ m r field property, e.strip = .send m r ∧ m.target?.bind scope.fieldOf? = some field ∧
      scope.getter? m = some property ∧ facts.isInteresting field = true ∧
      property.ownership = .assign ∧ o = .propertyCleared field property.name := by
  unfold interestingDelegate? at h
  split at h
  · rename_i m r hStrip
    obtain ⟨field, hField, h⟩ := Option.bind_eq_some_iff.mp h
    obtain ⟨property, hProperty, rfl⟩ := Option.map_eq_some_iff.mp h
    obtain ⟨hTarget, hInteresting⟩ := Option.filter_eq_some_iff.mp hField
    obtain ⟨hGetter, hUnsafe⟩ := Option.filter_eq_some_iff.mp hProperty
    exact ⟨m, r, field, property, hStrip, hTarget, hGetter, hInteresting,
      Ownership.isUnsafe_iff.mp hUnsafe, rfl⟩
  · cases h

theorem concerns_of_interestingDelegate? (h : interestingDelegate? scope facts e = some o) :
    o.Concerns scope facts := by
  obtain ⟨m, r, field, property, -, -, hGetter, hInteresting, hOwnership, rfl⟩ :=
    exists_of_interestingDelegate? h
  obtain ⟨className, hFound⟩ := ClassScope.exists_findProperty? hGetter
  exact ⟨hInteresting, className, property, hFound, rfl, hOwnership⟩

theorem nullOutcome?_cases (h : nullOutcome? scope facts e = some o) :
    interestingDelegate? scope facts e = some o ∨
      ∃ field, scope.fieldOf? e = some field ∧ facts.isInteresting field = true ∧
        o = .fieldCleared field := by
  rcases Option.or_eq_some_iff.mp h with hDelegate | ⟨-, hField⟩
  · exact .inl hDelegate
  · obtain ⟨field, hKept, rfl⟩ := Option.map_eq_some_iff.mp hField
    obtain ⟨hField, hInteresting⟩ := Option.filter_eq_some_iff.mp hKept
    exact .inr ⟨field, hField, hInteresting, rfl⟩

theorem concerns_of_nullOutcome? (h : nullOutcome? scope facts e = some o) : o.Concerns scope facts := by
  rcases nullOutcome?_cases h with hDelegate | ⟨field, -, hInteresting, rfl⟩
  · exact concerns_of_interestingDelegate? hDelegate
  · exact hInteresting

end

section

variable {V : Type} [DecidableEq V] {I : Interpretation V} {scope : ClassScope} {facts : ClassFacts}
  {e lhs rhs other : Expr} {o : SafeOutcome} {field : String}

theorem value_of_fieldOf? (h : scope.fieldOf? e = some field) : I.value scope e = I.field field := by
  rw [← I.value_strip]
  have hField := h
  unfold ClassScope.fieldOf? at h
  split at h
  · rename_i hStrip
    cases h
    rw [hStrip]
    rfl
  · rename_i m r hStrip
    have hSend : scope.fieldOf? (.send m r) = some field := h
    rw [hStrip, Interpretation.value_send, Interpretation.sent, hSend]
  · cases h

theorem holds_of_interestingDelegate? (h : interestingDelegate? scope facts e = some o)
    (hApart : I.value scope e ≠ I.self) : o.Holds I := by
  obtain ⟨m, r, field, property, hStrip, hTarget, hGetter, -, -, rfl⟩ := exists_of_interestingDelegate? h
  rw [← I.value_strip, hStrip, Interpretation.value_send, Interpretation.sent,
    ClassScope.fieldOf?_send_eq_none r hTarget, hTarget, hGetter] at hApart
  exact hApart

theorem holds_of_nullOutcome? (h : nullOutcome? scope facts e = some o)
    (hNil : I.value scope e = I.nil) : o.Holds I := by
  rcases nullOutcome?_cases h with hDelegate | ⟨field, hField, -, rfl⟩
  · refine holds_of_interestingDelegate? hDelegate ?_
    rw [hNil]
    exact I.self_ne_nil.symm
  · exact (value_of_fieldOf? hField).symm.trans hNil

theorem value_of_otherThanNull? (h : otherThanNull? lhs rhs = some other)
    (hSame : I.value scope lhs = I.value scope rhs) : I.value scope other = I.nil := by
  unfold otherThanNull? at h
  split at h
  · rename_i hNil
    cases h
    rw [hSame, I.value_of_isNullLiteral hNil]
  · obtain ⟨hNil, hOther⟩ := Option.ite_none_right_eq_some.mp h
    cases hOther
    rw [← hSame, I.value_of_isNullLiteral hNil]

theorem value_of_otherThanSelf? (h : otherThanSelf? lhs rhs = some other)
    (hApart : I.value scope lhs ≠ I.value scope rhs) : I.value scope other ≠ I.self := by
  unfold otherThanSelf? at h
  split at h
  · rename_i hSelf
    cases h
    rwa [I.value_of_isSelf hSelf] at hApart
  · obtain ⟨hSelf, hOther⟩ := Option.ite_none_right_eq_some.mp h
    cases hOther
    rw [I.value_of_isSelf hSelf] at hApart
    exact hApart.symm

/-- A conjunction that holds and a disjunction that does not tell both sides. -/
theorem truth_of_isLogical {op : BinaryOp} {assumption : Bool} {r : SourceRange}
    (hOp : ((op == .and && assumption) || (op == .or && !assumption)) = true)
    (h : I.truth scope (.binary op lhs rhs r) = assumption) :
    I.truth scope lhs = assumption ∧ I.truth scope rhs = assumption := by
  cases op <;> cases assumption <;> simp_all

/-! ## Conclusions -/

/-- A guard that turned out as assumed implies what it is trusted for, and that is always about
properties without ownership and fields that are of interest. -/
theorem guards_imply_outcomes (I : Interpretation V) (scope : ClassScope) (facts : ClassFacts)
    (assumption : Bool) (cond : Expr) :
    ∀ o ∈ safeOutcomes scope facts assumption cond,
      o.Concerns scope facts ∧ (I.truth scope cond = assumption → o.Holds I) := by
  fun_induction safeOutcomes scope facts assumption cond with
  | case1 assumption inner _ ih => exact ih
  | case2 assumption _ inner _ ih => exact ih
  | case3 assumption operand _ ih =>
    intro o ho
    obtain ⟨hConcerns, hHolds⟩ := ih o ho
    refine ⟨hConcerns, fun hTruth => hHolds ?_⟩
    rw [← hTruth, I.truth_not, Bool.not_not]
  | case4 assumption op lhs rhs _ hOp ihLhs ihRhs =>
    intro o ho
    rcases List.mem_append.mp ho with ho | ho
    · obtain ⟨hConcerns, hHolds⟩ := ihLhs o ho
      exact ⟨hConcerns, fun hTruth => hHolds (truth_of_isLogical hOp hTruth).1⟩
    · obtain ⟨hConcerns, hHolds⟩ := ihRhs o ho
      exact ⟨hConcerns, fun hTruth => hHolds (truth_of_isLogical hOp hTruth).2⟩
  | case5 assumption op lhs rhs _ _ hEquality hSame =>
    intro o ho
    obtain ⟨other, hOther, hOutcome⟩ := Option.bind_eq_some_iff.mp (Option.mem_toList.mp ho)
    refine ⟨concerns_of_nullOutcome? hOutcome, fun hTruth => holds_of_nullOutcome? hOutcome ?_⟩
    exact value_of_otherThanNull? hOther ((I.value_eq_iff hEquality hTruth).mpr hSame)
  | case6 assumption op lhs rhs _ _ hEquality hApart =>
    intro o ho
    obtain ⟨other, hOther, hOutcome⟩ := Option.bind_eq_some_iff.mp (Option.mem_toList.mp ho)
    refine ⟨concerns_of_interestingDelegate? hOutcome,
      fun hTruth => holds_of_interestingDelegate? hOutcome ?_⟩
    exact value_of_otherThanSelf? hOther (mt (I.value_eq_iff hEquality hTruth).mp hApart)
  | case7 | case8 => exact nofun
  | case9 assumption e _ _ _ _ hAssumption =>
    intro o ho
    obtain rfl := Bool.eq_false_iff.mpr hAssumption
    have hOutcome := Option.mem_toList.mp ho
    exact ⟨concerns_of_nullOutcome? hOutcome,
      fun hTruth => holds_of_nullOutcome? hOutcome (I.truth_eq_false_iff.mp hTruth)⟩

end

namespace Sample

def askForDelegate : Message Expr := ⟨.object (.field "_bar" .unknown), "delegate", []⟩

def delegateIsSelf : Expr := .binary .eq (.send askForDelegate .unknown) (.self .unknown) .unknown

/-- Neither the delegate of the object is `self`, nor is there an object. -/
def emptyOrForeign : Expr :=
  .unary .not (.paren (.binary .or delegateIsSelf (.field "_bar" .unknown) .unknown) .unknown) .unknown

/-- No field holds an object, and nothing but `self` is `self`. -/
def vacant : Interpretation Nat where
  nil := 0
  self := 1
  self_ne_nil := by decide
  yes := 2
  yes_ne_nil := by decide
  field _ := 0
  property _ _ := 3
  other _ := 4

end Sample

open Sample in
/-- The guard is trusted for the property and for the field, and both rightly. -/
theorem empty_or_foreign_is_trusted :
    let scope : ClassScope := ⟨delegatePair [], "Foo"⟩
    let facts := ClassFacts.ofObservations [.property "_bar" "delegate"]
    safeOutcomes scope facts true emptyOrForeign =
        [.propertyCleared "_bar" "delegate", .fieldCleared "_bar"] ∧
      vacant.truth scope emptyOrForeign = true ∧
      ∀ o ∈ safeOutcomes scope facts true emptyOrForeign, o.Concerns scope facts ∧ o.Holds vacant := by
  intro scope facts
  -- The kernel does not evaluate the search for a colon that tells a getter from other messages.
  have hShape : ClassScope.isGetterShape askForDelegate = true := by
    simp [ClassScope.isGetterShape, askForDelegate]
  have hField : askForDelegate.target?.bind scope.fieldOf? = some "_bar" := rfl
  have hDelegate : interestingDelegate? scope facts (.send askForDelegate .unknown) =
      some (.propertyCleared "_bar" "delegate") := by
    simp only [interestingDelegate?, Expr.strip]
    rw [ClassScope.getter?, if_pos hShape]
    decide +kernel
  have hForeign : vacant.value scope (.send askForDelegate .unknown) ≠ vacant.self := by
    rw [Interpretation.value_send, Interpretation.sent, ClassScope.fieldOf?_send_eq_none .unknown hField,
      hField]
    cases scope.getter? askForDelegate <;> simp [vacant]
  have hIsSelf : vacant.truth scope delegateIsSelf = false := by
    rw [delegateIsSelf, Interpretation.truth_eq]
    exact beq_eq_false_iff_ne.mpr hForeign
  have hTruth : vacant.truth scope emptyOrForeign = true := by
    rw [emptyOrForeign, Interpretation.truth_not, Interpretation.truth_paren, Interpretation.truth_or,
      hIsSelf]
    rfl
  refine ⟨?_, hTruth, fun o ho => ?_⟩
  · change (interestingDelegate? scope facts (.send askForDelegate .unknown)).toList ++ _ = _
    rw [hDelegate]
    rfl
  obtain ⟨hConcerns, hHolds⟩ := guards_imply_outcomes vacant scope facts true emptyOrForeign o ho
  exact ⟨hConcerns, hHolds hTruth⟩

end DelegateSafety
