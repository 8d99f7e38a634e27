import Mathlib.Data.List.Perm.Basic
import DelegateSafety.Proofs.NullRelease

/-! # The calls of an evaluation

Evaluating an expression shows the check each expression inside it once, parts before what they are parts
of, and each send once more right after it (`calls_follow_postorder`). The order is that of the expression
alone, whatever the path knows and whatever the check makes of it. What a call sees is the store as the
operands have left it, and only the second call of a send sees what the send has done itself.
-/
namespace DelegateSafety

open PathM

variable {σ ρ : Type}

/-! ## Post-order -/

namespace Expr

/-- Every expression inside this one, parts before what they are parts of. -/
def postorder : Expr → List Expr := fold fun e below => below.flatten ++ [e]

theorem postorder_eq (e : Expr) : e.postorder = e.operands.flatMap postorder ++ [e] := by
  rw [postorder, fold_eq, List.flatMap_def]

theorem postorder_perm_walk (e : Expr) : e.postorder.Perm e.walk := by
  induction e using inductionOn with
  | step e ih =>
    rw [postorder_eq, walk_eq]
    exact (List.perm_append_singleton e _).trans (.cons e (List.Perm.flatMap_left _ ih))

end Expr

/-- What a call of an evaluation is about. -/
inductive Turn where
  | node (e : Expr)
  | sent (e : Expr)

/-- The calls about an expression itself: one before its effect, and one after it if it is a send. -/
def Expr.turns : Expr → List Turn
  | .send m r => [.node (.send m r), .sent (.send m r)]
  | e => [.node e]

def Callback.turn? : Callback → Option Turn
  | .beforeEffect _ e => some (.node e)
  | .afterSend _ event => some (.sent event.expr)
  | .assume _ _ _ | .atEnd _ => none

/-! ## The effect of an expression -/

/-- The slot that an expression binds to the value of its second operand: what an assignment is made to,
or the field behind a synthesized setter of `self`. -/
def Frame.boundSlot? (frame : Frame) : Expr → Option Slot
  | .assign target _ _ => target.slot?
  | .send m _ => (frame.writtenField? m).map .field
  | _ => none

section

variable (frame : Frame) (check : PathCheck σ ρ)

/-- The operands of an expression, evaluated in order. -/
def operandsAlong (e : Expr) (q : Path (Traced σ ρ)) :
    Stretch (Traced σ ρ) (Path (Traced σ ρ)) (List Nullness) :=
  inOrder (e.operands.map (evaluate frame check.traced)) q

/-- The store once an expression has had its effect. -/
def storeAfter (e : Expr) (q : Path (Traced σ ρ)) : Store :=
  let operands := operandsAlong frame check e q
  operands.path.store.bind? (frame.boundSlot? e) (operands.value[1]?.getD .unknown)

/-- On the way of evaluating an expression from a path, a part of it is taken up from another path. -/
inductive TakesUp : Expr → Path (Traced σ ρ) → Expr → Path (Traced σ ρ) → Prop
  | whole (e q) : TakesUp e q e q
  | operand {e c d before after q s} (hAmong : e.operands = before ++ c :: after)
      (hInside : TakesUp c (inOrder (before.map (evaluate frame check.traced)) q).path d s) :
      TakesUp e q d s

/-- A call about an expression taken up from `q`, made when its operands have been evaluated. The first
sees the store as they have left it. The one after a send follows at once and sees what the send has done. -/
inductive ShownAt (q : Path (Traced σ ρ)) (e : Expr) : List Callback → Callback → Prop
  | node : ShownAt q e (operandsAlong frame check e q).path.state.made
      (.beforeEffect ⟨frame, q.id, (operandsAlong frame check e q).path.store⟩ e)
  | sent {event : SendEvent} (hEvent : event.expr = e) :
      ShownAt q e ((operandsAlong frame check e q).path.state.made ++
          [.beforeEffect ⟨frame, q.id, (operandsAlong frame check e q).path.store⟩ e])
        (.afterSend ⟨frame, q.id, storeAfter frame check e q⟩ event)

/-- On the way from one path to another the calls have been about the given turns, in order. Each was made
of an expression that `taken` says was taken up. -/
structure Makes (taken : Expr → Path (Traced σ ρ) → Prop) (turns : List Turn)
    (q r : Path (Traced σ ρ)) : Prop where
  id : r.id = q.id
  calls : ∃ calls, r.state.made = q.state.made ++ calls ∧ calls.map Callback.turn? = turns.map some ∧
    ∀ before call, before ++ [call] <+: calls →
      ∃ e s, taken e s ∧ s.id = q.id ∧ ShownAt frame check s e (q.state.made ++ before) call

variable {frame check}

namespace Makes

variable {taken taken' : Expr → Path (Traced σ ρ) → Prop} {turns turns' : List Turn}
  {q r s : Path (Traced σ ρ)}

theorem refl (q : Path (Traced σ ρ)) : Makes frame check taken [] q q :=
  ⟨rfl, [], (List.append_nil _).symm, rfl, by simp⟩

theorem imp (h : Makes frame check taken turns q r) (hTaken : ∀ e s, taken e s → taken' e s) :
    Makes frame check taken' turns q r := by
  obtain ⟨hId, calls, hMade, hTurns, hShown⟩ := h
  refine ⟨hId, calls, hMade, hTurns, fun before call hBefore => ?_⟩
  obtain ⟨e, s, hFrom, hCall⟩ := hShown before call hBefore
  exact ⟨e, s, hTaken e s hFrom, hCall⟩

theorem trans (h : Makes frame check taken turns q r) (h' : Makes frame check taken turns' r s) :
    Makes frame check taken (turns ++ turns') q s := by
  obtain ⟨hId, calls, hMade, hTurns, hShown⟩ := h
  obtain ⟨hId', calls', hMade', hTurns', hShown'⟩ := h'
  refine ⟨hId'.trans hId, calls ++ calls', ?_, ?_, fun before call hBefore => ?_⟩
  · rw [hMade', hMade, List.append_assoc]
  · rw [List.map_append, List.map_append, hTurns, hTurns']
  · obtain ⟨after, hAfter⟩ := hBefore
    rcases List.append_eq_append_iff.mp hAfter with ⟨rest, rfl, -⟩ | ⟨rest, hSplit, hRest⟩
    · exact hShown before call (List.prefix_append _ _)
    · -- The call is the last of the first calls or one of the later ones.
      rcases List.eq_nil_or_concat rest with rfl | ⟨earlier, last, rfl⟩
      · rw [List.append_nil] at hSplit
        exact hShown before call (hSplit ▸ List.prefix_refl _)
      · rw [List.concat_eq_append, ← List.append_assoc] at hSplit
        rw [List.concat_eq_append] at hRest
        obtain ⟨rfl, hLast⟩ := List.append_inj' hSplit rfl
        obtain rfl : call = last := by simpa using hLast
        obtain ⟨e, s, hFrom, hs, hCall⟩ := hShown' earlier call ⟨after, hRest.symm⟩
        refine ⟨e, s, hFrom, hs.trans hId, ?_⟩
        rwa [hMade, List.append_assoc] at hCall

/-- One call more. -/
theorem single {e : Expr} {call : Callback} {turn : Turn} (hId : r.id = q.id)
    (hMade : r.state.made = q.state.made ++ [call]) (hTurn : call.turn? = some turn) (hFrom : taken e s)
    (hs : s.id = q.id) (hShown : ShownAt frame check s e q.state.made call) :
    Makes frame check taken [turn] q r := by
  refine ⟨hId, [call], hMade, by simp [hTurn], fun before other hBefore => ?_⟩
  obtain ⟨after, hAfter⟩ := hBefore
  cases before with
  | nil =>
    obtain ⟨rfl, -⟩ := List.cons.inj hAfter
    exact ⟨e, s, hFrom, hs, by rwa [List.append_nil]⟩
  | cons first rest => simp at hAfter

end Makes

/-! ## Evaluation -/

/-- The receiver of a synthesized setter is `self`, which is not nil. -/
theorem splitOperands_written {m : Message Expr} {r : SourceRange} {field : String}
    (hWritten : frame.writtenField? m = some field) (q : Path (Traced σ ρ)) :
    let values := (operandsAlong frame check (.send m r) q).value
    (splitOperands m values).1.isNull = false ∧ (splitOperands m values).2.head? = values[1]? := by
  obtain ⟨hOnSelf, arg, hArgs⟩ := Frame.of_writtenField? hWritten
  obtain ⟨target, hTarget, hSelf⟩ := Frame.exists_target hOnSelf
  obtain ⟨receiver, selector, args⟩ := m
  obtain rfl : args = [arg] := hArgs
  cases receiver with
  | object object =>
    obtain rfl : object = target := Option.some.inj hTarget
    have hValue := (evaluate_isSelf frame check.traced q hSelf).value
    constructor
    · change (evaluate frame check.traced object q).value.isNull = false
      rw [hValue]
      rfl
    · rfl
  | named _ | super => cases hTarget

theorem sendEffect_path (m : Message Expr) {receiver : Nullness} {args : List Nullness}
    (hNull : ∀ field, frame.writtenField? m = some field → receiver.isNull = false)
    (q : Path (Traced σ ρ)) :
    ((sendEffect frame m receiver args : PathM _ (Path (Traced σ ρ)) _) q).path =
      { q with store :=
          q.store.bind? ((frame.writtenField? m).map .field) (args.head?.getD .unknown) } := by
  unfold sendEffect
  cases hWritten : frame.writtenField? m with
  | some field =>
    rw [if_neg (by simp [hNull field hWritten]), Frame.readField?_of_writtenField? hWritten]
    rfl
  | none =>
    split
    · rfl
    · cases frame.readField? m <;> rfl

theorem effect_path {e : Expr} (hSend : ∀ m r, e ≠ .send m r) (values : List Nullness)
    (p : Path (Traced σ ρ)) : (effect frame check.traced e values p).path =
      { p with store := p.store.bind? (frame.boundSlot? e) (values[1]?.getD .unknown) } := by
  cases e with
  | send m r => exact absurd rfl (hSend m r)
  | _ => rfl

variable (frame check) in
/-- The path that has shown an expression and not had its effect yet. -/
def announced (e : Expr) (q : Path (Traced σ ρ)) : Path (Traced σ ρ) :=
  let operands := (operandsAlong frame check e q).path
  ⟨operands.id, operands.store,
    operands.state.extend check (.beforeEffect ⟨frame, operands.id, operands.store⟩ e)⟩

theorem evaluate_traced_path (e : Expr) (q : Path (Traced σ ρ)) :
    (evaluate frame check.traced e q).path =
      (effect frame check.traced e (operandsAlong frame check e q).value
        (announced frame check e q)).path := by
  rw [evaluate_eq]
  rfl

theorem makes_announced (e : Expr) {q : Path (Traced σ ρ)}
    (hId : (operandsAlong frame check e q).path.id = q.id) :
    Makes frame check (TakesUp frame check e q) [.node e] (operandsAlong frame check e q).path
      (announced frame check e q) := by
  have hNode := @ShownAt.node σ ρ frame check q e
  rw [← hId] at hNode
  exact .single rfl rfl rfl (.whole e q) hId.symm hNode

/-- A send that has been shown has its effect and is shown once more. -/
theorem makes_sent (m : Message Expr) (r : SourceRange) {q : Path (Traced σ ρ)}
    (hId : (operandsAlong frame check (.send m r) q).path.id = q.id) :
    let whole : Expr := .send m r
    Makes frame check (TakesUp frame check whole q) [.sent whole] (announced frame check whole q)
        (evaluate frame check.traced whole q).path ∧
      (evaluate frame check.traced whole q).path.store = storeAfter frame check whole q := by
  intro whole
  let values := (operandsAlong frame check whole q).value
  let shown := announced frame check whole q
  let sent := (sendEffect frame m (splitOperands m values).1 (splitOperands m values).2 shown :
    Stretch _ (Path (Traced σ ρ)) _).path
  let event : SendEvent :=
    ⟨whole, m, (splitOperands m values).1, (splitOperands m values).2, frame.scope.definition? m⟩
  have hSent : sent = { shown with store := storeAfter frame check whole q } := by
    refine (sendEffect_path m (fun field hWritten => (splitOperands_written hWritten q).1) _).trans ?_
    refine congrArg (Path.mk _ · _) ?_
    cases hWritten : frame.writtenField? m with
    | none =>
      simp only [storeAfter, Frame.boundSlot?, whole, hWritten, Option.map_none]
      rfl
    | some field =>
      rw [(splitOperands_written hWritten q).2, ← hWritten]
      rfl
  have hPath : (evaluate frame check.traced whole q).path =
      ⟨sent.id, sent.store, sent.state.extend check (.afterSend ⟨frame, sent.id, sent.store⟩ event)⟩ :=
    evaluate_traced_path whole q
  rw [hSent] at hPath
  have hCall := @ShownAt.sent σ ρ frame check q whole event rfl
  rw [hPath]
  rw [← hId] at hCall
  exact ⟨.single rfl rfl rfl (.whole whole q) hId.symm hCall, rfl⟩

/-- Once its operands have made their calls, an expression makes its own and has its effect. -/
theorem makes_own (e : Expr) {q : Path (Traced σ ρ)} (hId : (operandsAlong frame check e q).path.id = q.id) :
    Makes frame check (TakesUp frame check e q) e.turns (operandsAlong frame check e q).path
        (evaluate frame check.traced e q).path ∧
      (evaluate frame check.traced e q).path.store = storeAfter frame check e q := by
  have hAnnounced := makes_announced e hId
  by_cases hSend : ∃ m r, e = .send m r
  · obtain ⟨m, r, rfl⟩ := hSend
    obtain ⟨hSent, hStore⟩ := makes_sent m r hId
    exact ⟨hAnnounced.trans hSent, hStore⟩
  · have hTurns : e.turns = [.node e] := by
      cases e with
      | send m r => exact absurd ⟨m, r, rfl⟩ hSend
      | _ => rfl
    rw [evaluate_traced_path, effect_path fun m r hEq => hSend ⟨m, r, hEq⟩, hTurns]
    exact ⟨⟨hAnnounced.id, hAnnounced.calls⟩, rfl⟩

theorem makes_inOrder {es : List Expr} (h : ∀ e ∈ es, ∀ q, Makes frame check (TakesUp frame check e q)
      (e.postorder.flatMap Expr.turns) q (evaluate frame check.traced e q).path)
    (q : Path (Traced σ ρ)) :
    Makes frame check (fun d s => ∃ before c after, es = before ++ c :: after ∧
        TakesUp frame check c (inOrder (before.map (evaluate frame check.traced)) q).path d s)
      ((es.flatMap Expr.postorder).flatMap Expr.turns) q
      (inOrder (es.map (evaluate frame check.traced)) q).path := by
  induction es generalizing q with
  | nil => exact .refl q
  | cons e rest ih =>
    obtain ⟨hFirst, hRest⟩ := List.forall_mem_cons.mp h
    rw [List.flatMap_cons, List.flatMap_append]
    refine .trans ((hFirst q).imp fun d s hTaken => ⟨[], e, rest, rfl, hTaken⟩)
      ((ih hRest _).imp ?_)
    rintro d s ⟨before, c, after, rfl, hTaken⟩
    exact ⟨e :: before, c, after, rfl, hTaken⟩

theorem makes_evaluate (e : Expr) (q : Path (Traced σ ρ)) : Makes frame check (TakesUp frame check e q)
    (e.postorder.flatMap Expr.turns) q (evaluate frame check.traced e q).path := by
  induction e using Expr.inductionOn generalizing q with
  | step e ih =>
    have hOperands := makes_inOrder ih q
    rw [Expr.postorder_eq, List.flatMap_append, List.flatMap_singleton]
    refine .trans (hOperands.imp ?_) (makes_own e hOperands.id).1
    rintro d s ⟨before, c, after, hAmong, hTaken⟩
    exact .operand hAmong hTaken

/-- What an expression leaves the store as is what its operands have left, and what it binds itself. -/
theorem store_evaluate (e : Expr) (q : Path (Traced σ ρ)) :
    (evaluate frame check.traced e q).path.store = storeAfter frame check e q :=
  (makes_own e (makes_inOrder (fun c _ => makes_evaluate c) q).id).2

/-- Remembering the calls changes nothing. -/
theorem evaluate_traced (e : Expr) (q : Path (Traced σ ρ)) :
    let traced := evaluate frame check.traced e q
    let plain := evaluate frame check e ⟨q.id, q.store, q.state.state⟩
    traced.value = plain.value ∧ traced.path.store = plain.path.store ∧
      traced.path.state.state = plain.path.state ∧
      traced.reports.flatMap (·.state.filed) = plain.reports := by
  have hAlike : AnswerAlike frame (fun _ => True) check.traced check (fun t s => t.state = s)
      (fun t s => t.state = s) (fun ps rs => ps.flatMap (·.state.filed) = rs) := {
    nil := rfl
    append := fun h h' => by rw [List.flatMap_append, h, h']
    fresh := id
    beforeEffect := by
      rintro t _ n store e - rfl
      exact ⟨rfl, List.append_nil _⟩
    afterSend := by
      rintro t _ n store m r receiver args - rfl
      exact ⟨rfl, List.append_nil _⟩ }
  obtain ⟨hValue, hPath, hReports⟩ := hAlike.along_evaluate e (fun _ _ => trivial) q
    ⟨q.id, q.store, q.state.state⟩ ⟨rfl, rfl, rfl⟩
  exact ⟨hValue, hPath.store, hPath.state, hReports⟩

end

/-- Evaluating an expression makes the calls of its post-order, each expression's own when its operands
have been evaluated. Nothing is left out, nothing comes more often than it is written, and no condition is
taken up on the way. What a part of the expression makes of the store is what the parts after it start
from. -/
theorem calls_follow_postorder (frame : Frame) (check : PathCheck σ ρ) (e : Expr) (q : Path (Traced σ ρ)) :
    let traced := evaluate frame check.traced e q
    let plain := evaluate frame check e ⟨q.id, q.store, q.state.state⟩
    (traced.value = plain.value ∧ traced.path.store = plain.path.store ∧
      traced.path.state.state = plain.path.state ∧
      traced.reports.flatMap (·.state.filed) = plain.reports) ∧
    e.postorder.Perm e.walk ∧
    ∃ calls, traced.path.state.made = q.state.made ++ calls ∧
      calls.map Callback.turn? = (e.postorder.flatMap Expr.turns).map some ∧
      ∀ before call, before ++ [call] <+: calls → ∃ c s, TakesUp frame check e q c s ∧ s.id = q.id ∧
        ShownAt frame check s c (q.state.made ++ before) call ∧
        (evaluate frame check.traced c s).path.store = storeAfter frame check c s := by
  obtain ⟨-, calls, hMade, hTurns, hShown⟩ := @makes_evaluate σ ρ frame check e q
  refine ⟨evaluate_traced e q, e.postorder_perm_walk, calls, hMade, hTurns, fun before call hBefore => ?_⟩
  obtain ⟨c, s, hTaken, hs, hCall⟩ := hShown before call hBefore
  exact ⟨c, s, hTaken, hs, hCall, store_evaluate c s⟩

end DelegateSafety
