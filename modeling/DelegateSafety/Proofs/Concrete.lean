import Mathlib.Data.List.Basic
import Mathlib.Logic.Function.Basic
import DelegateSafety.Exploration.Evaluate

/-! # Concrete runs

What a method does when every local and every field is either nil or not. Whatever exploration cannot
know has an arbitrary value here. A run comes with the directions that its conditions took. Nothing gets
stuck: every expression has a value in every memory (`exists_evaluates`), and what does not loop can be
executed from every memory (`exists_executes`).
-/
namespace DelegateSafety

/-- Whether each slot is something other than nil. -/
abbrev Memory : Type := Slot → Bool

def Memory.store (memory : Memory) (slot : Option Slot) (value : Bool) : Memory :=
  slot.elim memory fun slot => Function.update memory slot value

/-- An expression's own effect and value, once its operands have values. -/
inductive Effect (frame : Frame) : Expr → List Bool → Memory → Bool → Memory → Prop
  | self {r memory} : Effect frame (.self r) [] memory true memory
  | selector {name r memory} : Effect frame (.selector name r) [] memory true memory
  | nil {r memory} : Effect frame (.nil r) [] memory false memory
  | int {n r memory} : Effect frame (.int n r) [] memory (n != 0) memory
  | var {name type r memory} : Effect frame (.var name type r) [] memory (memory (.local name)) memory
  | field {name r memory} : Effect frame (.field name r) [] memory (memory (.field name)) memory
  | paren {e r a memory} : Effect frame (.paren e r) [a] memory a memory
  | cast {type e r a memory} : Effect frame (.cast type e r) [a] memory a memory
  | assign {target e r old new memory} :
    Effect frame (.assign target e r) [old, new] memory new (memory.store target.slot? new)
  | not {e r a memory} : Effect frame (.unary .not e r) [a] memory (!a) memory
  | addressOf {e r a memory} : Effect frame (.unary .addressOf e r) [a] memory true memory
  | unary {op e r a value memory} (hNot : op ≠ .not) (hAddress : op ≠ .addressOf) :
    Effect frame (.unary op e r) [a] memory value memory
  | and {lhs rhs r a b memory} : Effect frame (.binary .and lhs rhs r) [a, b] memory (a && b) memory
  | or {lhs rhs r a b memory} : Effect frame (.binary .or lhs rhs r) [a, b] memory (a || b) memory
  | eq {lhs rhs r a b memory} (hNil : a = false ∨ b = false) :
    Effect frame (.binary .eq lhs rhs r) [a, b] memory (a == b) memory
  | ne {lhs rhs r a b memory} (hNil : a = false ∨ b = false) :
    Effect frame (.binary .ne lhs rhs r) [a, b] memory (a != b) memory
  /-- Two values that are not nil may or may not be the same. -/
  | compare {op lhs rhs r value memory} (hOp : op.isEquality = true) :
    Effect frame (.binary op lhs rhs r) [true, true] memory value memory
  | binary {op lhs rhs r a b value memory} (hLogical : op.isLogical = false)
    (hEquality : op.isEquality = false) :
    Effect frame (.binary op lhs rhs r) [a, b] memory value memory
  | sendToNil {m r args memory} (hTarget : m.target?.isSome = true) :
    Effect frame (.send m r) (false :: args) memory false memory
  | getter {m r field memory} (hRead : frame.readField? m = some field) :
    Effect frame (.send m r) [true] memory (memory (.field field)) memory
  | setter {m r field new value memory} (hWritten : frame.writtenField? m = some field) :
    Effect frame (.send m r) [true, new] memory value (memory.store (some (.field field)) new)
  | send {m r operands value memory} (hRead : frame.readField? m = none)
    (hWritten : frame.writtenField? m = none)
    (hTarget : m.target?.isSome = true → operands.head? = some true) :
    Effect frame (.send m r) operands memory value memory
  | call {callee args r operands value memory} :
    Effect frame (.call callee args r) operands memory value memory
  | other {parts r operands value memory} :
    Effect frame (.other parts r) operands memory value memory

mutual

/-- Operands are evaluated first and in order, whatever the operator. -/
inductive Evaluates (frame : Frame) : Expr → Memory → Bool → Memory → Prop
  | step {e before operands between value after}
    (hOperands : EvaluatesAll frame e.operands before operands between)
    (hEffect : Effect frame e operands between value after) :
    Evaluates frame e before value after

inductive EvaluatesAll (frame : Frame) : List Expr → Memory → List Bool → Memory → Prop
  | nil {memory} : EvaluatesAll frame [] memory [] memory
  | cons {e rest before value between values after} (hFirst : Evaluates frame e before value between)
    (hRest : EvaluatesAll frame rest between values after) :
    EvaluatesAll frame (e :: rest) before (value :: values) after

end

inductive Flow where
  | on | returned

abbrev Directions : Type := List (Expr × Bool)

mutual

/-- Runs in which every loop that is entered goes round at most `bound` times. -/
inductive Executes (frame : Frame) (bound : Nat) :
    Stmt → Memory → Directions → Memory → Flow → Prop
  | expr {e before value after} (h : Evaluates frame e before value after) :
    Executes frame bound (.expr e) before [] after .on
  | block {body before directions after flow}
    (h : ExecutesAll frame bound body before directions after flow) :
    Executes frame bound (.block body) before directions after flow
  | init {v e before value after} (hStorage : v.hasStaticStorage = false) (hInit : v.init = some e)
    (h : Evaluates frame e before value after) :
    Executes frame bound (.decl v) before [] (after.store (some (.local v.name)) value) .on
  | noInit {v before value} (hStorage : v.hasStaticStorage = false) (hInit : v.init = none) :
    Executes frame bound (.decl v) before [] (before.store (some (.local v.name)) value) .on
  /-- An earlier call may have left anything in it. -/
  | static {v before value} (hStorage : v.hasStaticStorage = true) :
    Executes frame bound (.decl v) before [] (before.store (some (.local v.name)) value) .on
  | ret {memory} : Executes frame bound (.ret none) memory [] memory .returned
  | retValue {e before value after} (h : Evaluates frame e before value after) :
    Executes frame bound (.ret (some e)) before [] after .returned
  | yes {cond yes no before between directions after flow}
    (hCond : Evaluates frame cond before true between)
    (h : Executes frame bound yes between directions after flow) :
    Executes frame bound (.branch cond yes no) before ((cond, true) :: directions) after flow
  | no {cond yes no before between directions after flow}
    (hCond : Evaluates frame cond before false between)
    (h : Executes frame bound no between directions after flow) :
    Executes frame bound (.branch cond yes (some no)) before ((cond, false) :: directions) after flow
  | skip {cond yes before after} (hCond : Evaluates frame cond before false after) :
    Executes frame bound (.branch cond yes none) before [(cond, false)] after .on
  | loop {cond body before directions after flow}
    (h : Iterates frame bound cond body bound before directions after flow) :
    Executes frame bound (.loop cond body) before directions after flow

inductive Iterates (frame : Frame) (bound : Nat) :
    Expr → Stmt → Nat → Memory → Directions → Memory → Flow → Prop
  | leave {cond body rounds before after} (hCond : Evaluates frame cond before false after) :
    Iterates frame bound cond body rounds before [(cond, false)] after .on
  | round {cond body rounds before entered directions between later after flow}
    (hCond : Evaluates frame cond before true entered)
    (hBody : Executes frame bound body entered directions between .on)
    (hRest : Iterates frame bound cond body rounds between later after flow) :
    Iterates frame bound cond body (rounds + 1) before ((cond, true) :: (directions ++ later)) after
      flow
  | returned {cond body rounds before entered directions after}
    (hCond : Evaluates frame cond before true entered)
    (hBody : Executes frame bound body entered directions after .returned) :
    Iterates frame bound cond body (rounds + 1) before ((cond, true) :: directions) after .returned

inductive ExecutesAll (frame : Frame) (bound : Nat) :
    List Stmt → Memory → Directions → Memory → Flow → Prop
  | nil {memory} : ExecutesAll frame bound [] memory [] memory .on
  | cons {s rest before directions between later after flow}
    (hFirst : Executes frame bound s before directions between .on)
    (hRest : ExecutesAll frame bound rest between later after flow) :
    ExecutesAll frame bound (s :: rest) before (directions ++ later) after flow
  | returned {s rest before directions after}
    (hFirst : Executes frame bound s before directions after .returned) :
    ExecutesAll frame bound (s :: rest) before directions after .returned

end

variable {frame : Frame}

/-! ## Accessors of `self` -/

theorem Frame.of_readField? {m : Message Expr} {field : String}
    (h : frame.readField? m = some field) : frame.isSynthesizedOnSelf m = true ∧ m.args = [] := by
  unfold Frame.readField? at h
  split at h
  · rename_i hOnSelf
    obtain ⟨getter, hGetter, -⟩ := Option.bind_eq_some_iff.mp h
    unfold ClassScope.getter? at hGetter
    split at hGetter
    · rename_i hShape
      unfold ClassScope.isGetterShape at hShape
      exact ⟨hOnSelf, List.isEmpty_iff.mp (Bool.and_eq_true_iff.mp hShape).1⟩
    · cases hGetter
  · cases h

theorem Frame.of_writtenField? {m : Message Expr} {field : String}
    (h : frame.writtenField? m = some field) :
    frame.isSynthesizedOnSelf m = true ∧ ∃ arg, m.args = [arg] := by
  unfold Frame.writtenField? at h
  split at h
  · rename_i hOnSelf
    obtain ⟨setter, hSetter, -⟩ := Option.bind_eq_some_iff.mp h
    unfold ClassScope.setter? at hSetter
    split at hSetter
    · rename_i hArgs
      exact ⟨hOnSelf, List.length_eq_one_iff.mp hArgs⟩
    · cases hSetter
  · cases h

/-- A send is not a reading and a writing accessor at once. -/
theorem Frame.readField?_of_writtenField? {m : Message Expr} {field : String}
    (h : frame.writtenField? m = some field) : frame.readField? m = none := by
  obtain ⟨-, arg, hArgs⟩ := Frame.of_writtenField? h
  cases hRead : frame.readField? m with
  | none => rfl
  | some other =>
    obtain ⟨-, hNoArgs⟩ := Frame.of_readField? hRead
    rw [hArgs] at hNoArgs
    cases hNoArgs

theorem Frame.exists_target {m : Message Expr} (h : frame.isSynthesizedOnSelf m = true) :
    ∃ target, m.target? = some target ∧ target.isSelf = true := by
  unfold Frame.isSynthesizedOnSelf at h
  obtain ⟨hAny, -⟩ := Bool.and_eq_true_iff.mp h
  cases hTarget : m.target? with
  | none => rw [hTarget] at hAny; cases hAny
  | some target => exact ⟨target, rfl, by rwa [hTarget] at hAny⟩

/-! ## Inversion -/

theorem Evaluates.leaf {e : Expr} {before after : Memory} {value : Bool}
    (h : Evaluates frame e before value after) (hOperands : e.operands = []) :
    Effect frame e [] before value after := by
  obtain ⟨hAll, hEffect⟩ := h
  rw [hOperands] at hAll
  cases hAll
  exact hEffect

theorem Evaluates.one {e operand : Expr} {before after : Memory} {value : Bool}
    (h : Evaluates frame e before value after) (hOperands : e.operands = [operand]) :
    ∃ a between, Evaluates frame operand before a between ∧
      Effect frame e [a] between value after := by
  obtain ⟨hAll, hEffect⟩ := h
  rw [hOperands] at hAll
  obtain _ | ⟨hFirst, hRest⟩ := hAll
  cases hRest
  exact ⟨_, _, hFirst, hEffect⟩

theorem Evaluates.two {e lhs rhs : Expr} {before after : Memory} {value : Bool}
    (h : Evaluates frame e before value after) (hOperands : e.operands = [lhs, rhs]) :
    ∃ a b mid between, Evaluates frame lhs before a mid ∧ Evaluates frame rhs mid b between ∧
      Effect frame e [a, b] between value after := by
  obtain ⟨hAll, hEffect⟩ := h
  rw [hOperands] at hAll
  obtain _ | ⟨hFirst, _ | ⟨hSecond, hRest⟩⟩ := hAll
  cases hRest
  exact ⟨_, _, _, _, hFirst, hSecond, hEffect⟩

theorem Evaluates.strip {e : Expr} {before after : Memory} {value : Bool}
    (h : Evaluates frame e before value after) : Evaluates frame e.strip before value after := by
  fun_induction Expr.strip e with
  | case1 inner _ ih | case2 _ inner _ ih =>
    obtain ⟨a, between, hInner, hEffect⟩ := h.one rfl
    cases hEffect
    exact ih hInner
  | case3 => exact h

theorem Evaluates.of_isSelf {e : Expr} {before after : Memory} {value : Bool}
    (h : Evaluates frame e before value after) (hSelf : e.isSelf = true) : value = true := by
  have hStrip := h.strip
  unfold Expr.isSelf at hSelf
  split at hSelf
  · rename_i hEq
    rw [hEq] at hStrip
    cases hStrip.leaf rfl
    rfl
  · cases hSelf

theorem Evaluates.of_isNullLiteral {e : Expr} {before after : Memory} {value : Bool}
    (h : Evaluates frame e before value after) (hNil : e.isNullLiteral = true) : value = false := by
  have hStrip := h.strip
  unfold Expr.isNullLiteral at hNil
  split at hNil
  · rename_i hEq
    rw [hEq] at hStrip
    cases hStrip.leaf rfl
    rfl
  · rename_i hEq
    rw [hEq] at hStrip
    cases hStrip.leaf rfl
    simpa using hNil
  · cases hNil

theorem Evaluates.of_slot? {e : Expr} {before after : Memory} {value : Bool} {slot : Slot}
    (h : Evaluates frame e before value after) (hSlot : e.slot? = some slot) :
    value = before slot := by
  have hStrip := h.strip
  unfold Expr.slot? at hSlot
  split at hSlot
  · rename_i hEq
    rw [hEq] at hStrip
    cases hStrip.leaf rfl
    cases hSlot
    rfl
  · rename_i hEq
    rw [hEq] at hStrip
    cases hStrip.leaf rfl
    cases hSlot
    rfl
  · cases hSlot

/-- The receiver of an accessor of `self` is never nil. -/
theorem EvaluatesAll.head?_of_isSynthesizedOnSelf {m : Message Expr} {before after : Memory}
    {operands : List Bool} (h : EvaluatesAll frame m.operands before operands after)
    (hOnSelf : frame.isSynthesizedOnSelf m = true) : operands.head? = some true := by
  obtain ⟨target, hTarget, hSelf⟩ := Frame.exists_target hOnSelf
  simp only [Message.operands, hTarget] at h
  obtain _ | ⟨hFirst, _⟩ := h
  exact congrArg some (hFirst.of_isSelf hSelf)

/-! ## Nothing gets stuck -/

theorem exists_effect_send {m : Message Expr} {r : SourceRange} {operands : List Bool}
    (memory : Memory) (hLength : operands.length = m.operands.length)
    (hSelf : frame.isSynthesizedOnSelf m = true → operands.head? = some true) :
    ∃ value after, Effect frame (.send m r) operands memory value after := by
  cases hRead : frame.readField? m with
  | some field =>
    obtain ⟨hOnSelf, hArgs⟩ := Frame.of_readField? hRead
    obtain ⟨target, hTarget, -⟩ := Frame.exists_target hOnSelf
    simp only [Message.operands, hTarget, hArgs, Option.toList_some, List.append_nil] at hLength
    obtain ⟨a, rfl⟩ := List.length_eq_one_iff.mp hLength
    obtain rfl : a = true := Option.some.inj (hSelf hOnSelf)
    exact ⟨_, _, .getter hRead⟩
  | none =>
    cases hWritten : frame.writtenField? m with
    | some field =>
      obtain ⟨hOnSelf, arg, hArgs⟩ := Frame.of_writtenField? hWritten
      obtain ⟨target, hTarget, -⟩ := Frame.exists_target hOnSelf
      simp only [Message.operands, hTarget, hArgs, Option.toList_some] at hLength
      obtain ⟨a, b, rfl⟩ := List.length_eq_two.mp hLength
      obtain rfl : a = true := Option.some.inj (hSelf hOnSelf)
      exact ⟨true, _, .setter hWritten⟩
    | none =>
      by_cases hNil : m.target?.isSome = true ∧ operands.head? = some false
      · obtain ⟨hTarget, hHead⟩ := hNil
        obtain ⟨args, rfl⟩ := List.head?_eq_some_iff.mp hHead
        exact ⟨_, _, .sendToNil hTarget⟩
      · refine ⟨true, _, .send hRead hWritten fun hTarget => ?_⟩
        obtain ⟨target, hSome⟩ := Option.isSome_iff_exists.mp hTarget
        cases operands with
        | nil => simp [Message.operands, hSome] at hLength
        | cons a args =>
          cases a with
          | true => rfl
          | false => exact absurd ⟨hTarget, rfl⟩ hNil

theorem exists_effect {e : Expr} {operands : List Bool} (memory : Memory)
    (hLength : operands.length = e.operands.length)
    (hSelf : ∀ m r, e = .send m r → frame.isSynthesizedOnSelf m = true →
      operands.head? = some true) : ∃ value after, Effect frame e operands memory value after := by
  cases e with
  | self _ | nil _ | int _ _ | var _ _ _ | field _ _ | selector _ _ =>
    obtain rfl := List.length_eq_zero_iff.mp hLength
    exact ⟨_, _, by constructor⟩
  | paren _ _ | cast _ _ _ =>
    obtain ⟨a, rfl⟩ := List.length_eq_one_iff.mp hLength
    exact ⟨_, _, by constructor⟩
  | assign _ _ _ =>
    obtain ⟨a, b, rfl⟩ := List.length_eq_two.mp hLength
    exact ⟨_, _, .assign⟩
  | unary op _ _ =>
    obtain ⟨a, rfl⟩ := List.length_eq_one_iff.mp hLength
    cases op with
    | not => exact ⟨_, _, .not⟩
    | addressOf => exact ⟨_, _, .addressOf⟩
    | neg | deref => exact ⟨true, _, .unary nofun nofun⟩
  | binary op _ _ _ =>
    obtain ⟨a, b, rfl⟩ := List.length_eq_two.mp hLength
    by_cases hNil : a = false ∨ b = false
    · cases op with
      | eq => exact ⟨_, _, .eq hNil⟩
      | ne => exact ⟨_, _, .ne hNil⟩
      | and => exact ⟨_, _, .and⟩
      | or => exact ⟨_, _, .or⟩
      | lt | gt | le | ge | bitAnd | bitOr | bitXor | add | sub | mul | div =>
        exact ⟨true, _, .binary rfl rfl⟩
    · obtain ⟨rfl, rfl⟩ : a = true ∧ b = true := by simpa using hNil
      cases op with
      | eq | ne => exact ⟨true, _, .compare rfl⟩
      | and => exact ⟨_, _, .and⟩
      | or => exact ⟨_, _, .or⟩
      | lt | gt | le | ge | bitAnd | bitOr | bitXor | add | sub | mul | div =>
        exact ⟨true, _, .binary rfl rfl⟩
  | send m r => exact exists_effect_send memory hLength (hSelf m r rfl)
  | call _ _ _ => exact ⟨true, _, .call⟩
  | other _ _ => exact ⟨true, _, .other⟩

/-- No expression gets stuck, and so no condition does. -/
theorem exists_evaluates (frame : Frame) (e : Expr) (memory : Memory) :
    ∃ value after, Evaluates frame e memory value after := by
  induction e using Expr.inductionOn generalizing memory with
  | step e ih =>
    have hAll : ∀ (es : List Expr) memory, (∀ c ∈ es, c ∈ e.operands) →
        ∃ values after, EvaluatesAll frame es memory values after ∧ values.length = es.length := by
      intro es
      induction es with
      | nil => exact fun memory _ => ⟨[], memory, .nil, rfl⟩
      | cons c rest ihRest =>
        intro memory hMem
        obtain ⟨hFirst, hRest⟩ := List.forall_mem_cons.mp hMem
        obtain ⟨value, between, hValue⟩ := ih c hFirst memory
        obtain ⟨values, after, hValues, hLength⟩ := ihRest between hRest
        exact ⟨value :: values, after, .cons hValue hValues, congrArg (· + 1) hLength⟩
    obtain ⟨operands, between, hOperands, hLength⟩ := hAll e.operands memory fun _ => id
    obtain ⟨value, after, hEffect⟩ : ∃ value after, Effect frame e operands between value after := by
      refine exists_effect between hLength ?_
      rintro m r rfl hOnSelf
      exact hOperands.head?_of_isSynthesizedOnSelf hOnSelf
    exact ⟨value, after, .step hOperands hEffect⟩

def Stmt.IsLoopless (s : Stmt) : Prop := ∀ cond body, .loop cond body ∉ s.walk

theorem Stmt.IsLoopless.child {s c : Stmt} (h : s.IsLoopless) (hc : c ∈ s.children) : c.IsLoopless :=
  fun cond body hLoop => h cond body (Stmt.walk_subset hc hLoop)

mutual

/-- What does not loop can be executed from any memory. -/
theorem exists_executes (frame : Frame) (bound : Nat) : ∀ {s : Stmt}, s.IsLoopless → ∀ before,
    ∃ directions after flow, Executes frame bound s before directions after flow
  | .expr e, _, before => by
    obtain ⟨value, after, h⟩ := exists_evaluates frame e before
    exact ⟨_, _, _, .expr h⟩
  | .block body, hs, before => by
    obtain ⟨directions, after, flow, h⟩ := exists_executesAll frame bound (fun _ hc => hs.child hc) before
    exact ⟨_, _, _, .block h⟩
  | .decl v, _, before => by
    cases hStorage : v.hasStaticStorage with
    | true => exact ⟨[], before.store (some (.local v.name)) true, .on, .static hStorage⟩
    | false =>
      cases hInit : v.init with
      | none => exact ⟨[], before.store (some (.local v.name)) true, .on, .noInit hStorage hInit⟩
      | some e =>
        obtain ⟨value, after, h⟩ := exists_evaluates frame e before
        exact ⟨_, _, _, .init hStorage hInit h⟩
  | .ret none, _, before => ⟨[], before, .returned, .ret⟩
  | .ret (some e), _, before => by
    obtain ⟨value, after, h⟩ := exists_evaluates frame e before
    exact ⟨_, _, _, .retValue h⟩
  | .branch cond yes none, hs, before => by
    obtain ⟨truth, between, hCond⟩ := exists_evaluates frame cond before
    cases truth with
    | false => exact ⟨_, _, _, .skip hCond⟩
    | true =>
      have hYes : yes.IsLoopless := hs.child List.mem_cons_self
      obtain ⟨directions, after, flow, h⟩ := exists_executes frame bound hYes between
      exact ⟨_, _, _, .yes hCond h⟩
  | .branch cond yes (some no), hs, before => by
    obtain ⟨truth, between, hCond⟩ := exists_evaluates frame cond before
    cases truth with
    | false =>
      have hNo : no.IsLoopless := hs.child (List.mem_cons_of_mem _ List.mem_cons_self)
      obtain ⟨directions, after, flow, h⟩ := exists_executes frame bound hNo between
      exact ⟨_, _, _, .no hCond h⟩
    | true =>
      have hYes : yes.IsLoopless := hs.child List.mem_cons_self
      obtain ⟨directions, after, flow, h⟩ := exists_executes frame bound hYes between
      exact ⟨_, _, _, .yes hCond h⟩
  | .loop cond body, hs, _ => absurd (Stmt.self_mem_walk _) (hs cond body)

theorem exists_executesAll (frame : Frame) (bound : Nat) : ∀ {ss : List Stmt},
    (∀ s ∈ ss, s.IsLoopless) → ∀ before,
    ∃ directions after flow, ExecutesAll frame bound ss before directions after flow
  | [], _, before => ⟨[], before, .on, .nil⟩
  | s :: rest, hss, before => by
    obtain ⟨hs, hRest⟩ := List.forall_mem_cons.mp hss
    obtain ⟨directions, between, flow, hFirst⟩ := exists_executes frame bound hs before
    cases flow with
    | returned => exact ⟨_, _, _, .returned hFirst⟩
    | on =>
      obtain ⟨later, after, flow, h⟩ := exists_executesAll frame bound hRest between
      exact ⟨_, _, _, .cons hFirst h⟩

end

end DelegateSafety
