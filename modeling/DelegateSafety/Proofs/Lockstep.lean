import Mathlib.Data.List.Forall2
import DelegateSafety.Exploration.Paths

/-! # Two checks in lockstep

Exploration does not look at what a check remembers or files. Two checks that answer corresponding
calls correspondingly are therefore led along the same paths, with the same numbers, the same stores
and the same statistics. The relation on states comes in two parts, since no condition is assumed
on a path before the path has been shown to the check.
-/
namespace DelegateSafety

open PathM Explore DelegateSafety.Path

variable {σ τ ρ π α β γ δ : Type}

/-- The expressions inside a statement and their parts, all of them from a given stock. -/
def Stmt.Within (inside : Expr → Prop) (s : Stmt) : Prop := ∀ e ∈ s.allExprs, inside e

def Expr.Within (inside : Expr → Prop) (e : Expr) : Prop := ∀ c ∈ e.walk, inside c

theorem Expr.within_iff {inside : Expr → Prop} {e : Expr} :
    e.Within inside ↔ inside e ∧ ∀ c ∈ e.operands, c.Within inside := by
  simp only [Expr.Within]
  rw [Expr.walk_eq]
  simp only [List.mem_cons, List.mem_flatMap, forall_eq_or_imp, forall_exists_index, and_imp]
  exact and_congr_right fun _ => ⟨fun h c hc d hd => h d c hc hd, fun h d c hc hd => h c hc d hd⟩

theorem Stmt.within_iff {inside : Expr → Prop} {s : Stmt} :
    s.Within inside ↔ (∀ e ∈ s.exprs, e.Within inside) ∧ ∀ c ∈ s.children, c.Within inside := by
  simp only [Stmt.Within, Expr.Within, Stmt.allExprs]
  rw [Stmt.walk_eq]
  simp only [List.flatMap_cons, List.mem_append, List.mem_flatMap]
  constructor
  · intro h
    exact ⟨fun e he d hd => h d (.inl ⟨e, he, hd⟩),
      fun c hc d ⟨t, ht, e, he, hd⟩ => h d (.inr ⟨t, ⟨c, hc, ht⟩, e, he, hd⟩)⟩
  · rintro ⟨hExprs, hChildren⟩ d (⟨e, he, hd⟩ | ⟨t, ⟨c, hc, ht⟩, e, he, hd⟩)
    · exact hExprs e he d hd
    · exact hChildren c hc d ⟨t, ht, e, he, hd⟩

/-- Two checks that answer the calls of an evaluation correspondingly. `Fresh` relates their states on
any path, `Met` on paths that have been shown to them. -/
structure AnswerAlike (frame : Frame) (inside : Expr → Prop) (left : PathCheck σ ρ)
    (right : PathCheck τ π) (Fresh Met : σ → τ → Prop) (Filed : List ρ → List π → Prop) : Prop where
  nil : Filed [] []
  append : ∀ {a a' b b'}, Filed a b → Filed a' b' → Filed (a ++ a') (b ++ b')
  fresh : ∀ {s t}, Met s t → Fresh s t
  beforeEffect : ∀ {s t} n store e, inside e → Fresh s t →
    Met (left.beforeEffect ⟨frame, n, store⟩ s e).1 (right.beforeEffect ⟨frame, n, store⟩ t e).1 ∧
    Filed (left.beforeEffect ⟨frame, n, store⟩ s e).2 (right.beforeEffect ⟨frame, n, store⟩ t e).2
  afterSend : ∀ {s t} n store m r receiver args, inside (.send m r) → Met s t →
    let event := ⟨.send m r, m, receiver, args, frame.scope.definition? m⟩
    Met (left.afterSend ⟨frame, n, store⟩ s event).1 (right.afterSend ⟨frame, n, store⟩ t event).1 ∧
    Filed (left.afterSend ⟨frame, n, store⟩ s event).2 (right.afterSend ⟨frame, n, store⟩ t event).2

/-- Two checks that answer all calls correspondingly. -/
structure Lockstep (frame : Frame) (inside : Expr → Prop) (left : PathCheck σ ρ)
    (right : PathCheck τ π) (Fresh Met : σ → τ → Prop) (Filed : List ρ → List π → Prop) : Prop
    extends AnswerAlike frame inside left right Fresh Met Filed where
  start : Fresh left.start right.start
  assumed : ∀ {s t} cond truth, inside cond → Met s t →
    Met (left.assume frame.subject s cond truth) (right.assume frame.subject t cond truth)
  atEnd : ∀ {s t} n store, Fresh s t →
    Filed (left.atEnd ⟨frame, n, store⟩ s).2 (right.atEnd ⟨frame, n, store⟩ t).2

/-- Paths that differ at most in what the checks remember. -/
structure Path.Alike (S : σ → τ → Prop) (p : Path σ) (q : Path τ) : Prop where
  id : p.id = q.id
  store : p.store = q.store
  state : S p.state q.state

def PathM.Along (Filed : List ρ → List π → Prop) (S S' : σ → τ → Prop) (m : PathM σ ρ α)
    (n : PathM τ π α) : Prop :=
  ∀ p q, Path.Alike S p q →
    (m p).value = (n q).value ∧ Path.Alike S' (m p).path (n q).path ∧ Filed (m p).reports (n q).reports

/-- Explorations that differ at most in what is filed and, up to `V`, in what they come to. -/
def Explore.Explores (Filed : List ρ → List π → Prop) (V : α → β → Prop) (m : Explore ρ α)
    (n : Explore π β) : Prop :=
  ∀ next, V (m next).value (n next).value ∧ (m next).nextPath = (n next).nextPath ∧
    (m next).forks = (n next).forks ∧ (m next).stats = (n next).stats ∧
    Filed (m next).reports (n next).reports

variable {frame : Frame} {inside : Expr → Prop} {left : PathCheck σ ρ} {right : PathCheck τ π}
  {Fresh Met : σ → τ → Prop} {Filed : List ρ → List π → Prop}

namespace AnswerAlike

variable (H : AnswerAlike frame inside left right Fresh Met Filed) {S S' S'' : σ → τ → Prop}

include H

theorem along_pure (a : α) : Along Filed S S (pure a : PathM σ ρ α) (pure a) :=
  fun _ _ h => ⟨rfl, h, H.nil⟩

theorem along_bind {m : PathM σ ρ α} {n : PathM τ π α} {f : α → PathM σ ρ β}
    {g : α → PathM τ π β} (hm : Along Filed S S' m n) (hf : ∀ a, Along Filed S' S'' (f a) (g a)) :
    Along Filed S S'' (m >>= f) (n >>= g) := by
  intro p q h
  obtain ⟨hValue, hPath, hReports⟩ := hm p q h
  obtain ⟨hValue', hPath', hReports'⟩ := hf (m p).value _ _ hPath
  simp only [PathM.bind_apply]
  rw [← hValue]
  exact ⟨hValue', hPath', H.append hReports hReports'⟩

theorem alike_fresh {p : Path σ} {q : Path τ} (hp : Alike Met p q) : Alike Fresh p q :=
  ⟨hp.id, hp.store, H.fresh hp.state⟩

theorem along_fresh {m : PathM σ ρ α} {n : PathM τ π α} (h : Along Filed S Met m n) :
    Along Filed S Fresh m n := by
  intro p q hp
  obtain ⟨hValue, hPath, hReports⟩ := h p q hp
  exact ⟨hValue, H.alike_fresh hPath, hReports⟩

theorem along_readSlot (slot : Slot) :
    Along Filed S S (readSlot slot : PathM σ ρ _) (readSlot slot) := by
  intro p q h
  exact ⟨by simp only [readSlot, h.store], h, H.nil⟩

theorem along_writeSlot (slot : Option Slot) (value : Nullness) :
    Along Filed S S (writeSlot slot value : PathM σ ρ _) (writeSlot slot value) := by
  intro p q h
  exact ⟨rfl, ⟨h.id, by simp only [writeSlot, h.store], h.state⟩, H.nil⟩

omit H in
theorem along_consult {f : Site → σ → σ × List ρ} {g : Site → τ → τ × List π}
    (h : ∀ {s t} n store, S s t → S' (f ⟨frame, n, store⟩ s).1 (g ⟨frame, n, store⟩ t).1 ∧
      Filed (f ⟨frame, n, store⟩ s).2 (g ⟨frame, n, store⟩ t).2) :
    Along Filed S S' (consult frame f) (consult frame g) := by
  intro p q hp
  obtain ⟨hState, hReports⟩ := h p.id p.store hp.state
  simp only [consult, ← hp.id, ← hp.store]
  exact ⟨trivial, ⟨rfl, rfl, hState⟩, hReports⟩

theorem along_inOrder {ms : List (PathM σ ρ α)} {ns : List (PathM τ π α)}
    (h : List.Forall₂ (Along Filed S S) ms ns) : Along Filed S S (inOrder ms) (inOrder ns) := by
  induction h with
  | nil => exact H.along_pure _
  | cons hm _ ih =>
    exact H.along_bind hm fun _ => H.along_bind ih fun _ => H.along_pure _

theorem along_sendEffect (m : Message Expr) (receiver : Nullness) (args : List Nullness) :
    Along Filed S S (sendEffect frame m receiver args : PathM σ ρ _)
      (sendEffect frame m receiver args) := by
  unfold sendEffect
  split
  · exact H.along_pure _
  · split
    · exact H.along_readSlot _
    · exact H.along_bind (H.along_writeSlot _ _) fun _ => H.along_pure _

theorem along_effect (e : Expr) (he : inside e) (values : List Nullness) :
    Along Filed Met Met (effect frame left e values) (effect frame right e values) := by
  cases e with
  | self _ | nil _ | int _ _ | selector _ _ | paren _ _ | cast _ _ _ | binary _ _ _ _
  | unary _ _ _ | call _ _ _ | other _ _ => exact H.along_pure _
  | var _ _ _ | field _ _ => exact H.along_readSlot _
  | assign _ _ _ => exact H.along_bind (H.along_writeSlot _ _) fun _ => H.along_pure _
  | send m r =>
    refine H.along_bind (H.along_sendEffect _ _ _) fun _ =>
      H.along_bind (along_consult fun n store h => ?_) fun _ => H.along_pure _
    exact H.afterSend n store m r _ _ he h

theorem along_evaluate (e : Expr) (he : e.Within inside) :
    Along Filed Fresh Met (evaluate frame left e) (evaluate frame right e) := by
  induction e using Expr.inductionOn with
  | step e ih =>
    obtain ⟨hInside, hParts⟩ := Expr.within_iff.mp he
    rw [evaluate_eq, evaluate_eq]
    refine H.along_bind (H.along_inOrder ?_) fun values =>
      H.along_bind (along_consult fun n store h => ?_) fun _ =>
        H.along_effect e hInside values
    · exact List.forall₂_map_left_iff.mpr (List.forall₂_map_right_iff.mpr
        (List.forall₂_same.mpr fun c hc => H.along_fresh (ih c hc (hParts c hc))))
    · exact H.beforeEffect n store e hInside h

theorem along_declare (v : VarDecl) (hv : ∀ e ∈ v.init, e.Within inside) :
    Along Filed Fresh Fresh (declare frame left v) (declare frame right v) := by
  unfold declare
  split
  · rename_i init hInit
    exact H.along_bind (H.along_fresh (H.along_evaluate init (hv init hInit))) fun _ =>
      H.along_writeSlot _ _
  · exact H.along_bind (H.along_pure _) fun _ => H.along_writeSlot _ _

end AnswerAlike

namespace Lockstep

variable (H : Lockstep frame inside left right Fresh Met Filed)

include H

section Explores

variable {V : α → β → Prop} {W : γ → δ → Prop} (limits : Limits)

theorem explores_pure {a : α} {b : β} (h : V a b) :
    Explores Filed V (pure a : Explore ρ α) (pure b) :=
  fun _ => ⟨h, rfl, rfl, rfl, H.nil⟩

theorem explores_bind {m : Explore ρ α} {n : Explore π β} {f : α → Explore ρ γ}
    {g : β → Explore π δ} (hm : Explores Filed V m n)
    (hf : ∀ a b, V a b → Explores Filed W (f a) (g b)) : Explores Filed W (m >>= f) (n >>= g) := by
  intro next
  obtain ⟨hValue, hNext, hForks, hStats, hReports⟩ := hm next
  obtain ⟨hValue', hNext', hForks', hStats', hReports'⟩ := hf _ _ hValue (m next).nextPath
  simp only [Explore.bind_apply, ← hNext, ← hForks, ← hStats]
  exact ⟨hValue', hNext', congrArg _ hForks', congrArg _ hStats', H.append hReports hReports'⟩

theorem explores_count (stats : Stats) :
    Explores Filed (fun _ _ => True) (count stats : Explore ρ Unit) (count stats) :=
  fun _ => ⟨trivial, rfl, rfl, rfl, H.nil⟩

omit H in
theorem explores_along {S S' : σ → τ → Prop} {m : PathM σ ρ α} {n : PathM τ π α}
    (h : Along Filed S S' m n) {p : Path σ} {q : Path τ} (hp : Alike S p q) :
    Explores Filed (fun x y => x.1 = y.1 ∧ Alike S' x.2 y.2) (along m p) (along n q) := by
  intro next
  obtain ⟨hValue, hPath, hReports⟩ := h p q hp
  exact ⟨⟨hValue, hPath⟩, rfl, rfl, rfl, hReports⟩

theorem explores_fork {S : σ → τ → Prop} {p : Path σ} {q : Path τ} (hp : Alike S p q) :
    Explores Filed (fun x y => List.Forall₂ (Alike S) x.toList y.toList)
      (fork limits p : Explore ρ _) (fork limits q) := by
  intro next
  unfold fork
  split
  · exact ⟨.nil, rfl, rfl, rfl, H.nil⟩
  · exact ⟨.cons ⟨rfl, hp.store, hp.state⟩ .nil, rfl, rfl, rfl, H.nil⟩

theorem explores_forEach {S S' : σ → τ → Prop} {f : Path σ → Explore ρ (List (Path σ))}
    {g : Path τ → Explore π (List (Path τ))}
    (h : ∀ p q, Alike S p q → Explores Filed (List.Forall₂ (Alike S')) (f p) (g q))
    {ps : List (Path σ)} {qs : List (Path τ)} (hps : List.Forall₂ (Alike S) ps qs) :
    Explores Filed (List.Forall₂ (Alike S')) (forEach f ps) (forEach g qs) := by
  induction hps with
  | nil => exact H.explores_pure .nil
  | cons hp _ ih =>
    exact H.explores_bind (h _ _ hp) fun _ _ hThese => H.explores_bind ih fun _ _ hOthers =>
      H.explores_pure (List.rel_append hThese hOthers)

theorem alike_assume {cond : Expr} (hCond : cond.Within inside) (truth : Bool) {p : Path σ}
    {q : Path τ} (hp : Alike Met p q) :
    Alike Met (assume frame left cond truth p) (assume frame right cond truth q) :=
  ⟨hp.id, congrArg (Store.refine · truth cond) hp.store,
    H.assumed cond truth (Expr.within_iff.mp hCond).1 hp.state⟩

theorem explores_split {cond : Expr} (hCond : cond.Within inside) {p : Path σ} {q : Path τ}
    (hp : Alike Fresh p q) :
    Explores Filed (fun x y => List.Forall₂ (Alike Met) x.1.toList y.1.toList ∧
        List.Forall₂ (Alike Met) x.2.toList y.2.toList)
      (split frame limits left cond p) (split frame limits right cond q) := by
  refine H.explores_bind (explores_along (H.along_evaluate cond hCond) hp) ?_
  rintro ⟨value, p⟩ ⟨_, q⟩ ⟨rfl, hp⟩
  have hAssume := fun truth => H.alike_assume hCond truth hp
  dsimp only
  cases value with
  | nonNull =>
    exact H.explores_bind (H.explores_count _) fun _ _ _ =>
      H.explores_pure ⟨.cons (hAssume true) .nil, .nil⟩
  | null =>
    exact H.explores_bind (H.explores_count _) fun _ _ _ =>
      H.explores_pure ⟨.nil, .cons (hAssume false) .nil⟩
  | unknown =>
    refine H.explores_bind (H.explores_fork limits hp) fun other other' hOther =>
      H.explores_pure ⟨.cons (hAssume true) .nil, ?_⟩
    cases other <;> cases other' <;> cases hOther
    · exact .nil
    · rename_i hOther _
      exact .cons (H.alike_assume hCond false hOther) .nil

theorem explores_splitAll {cond : Expr} (hCond : cond.Within inside) {ps : List (Path σ)}
    {qs : List (Path τ)} (hps : List.Forall₂ (Alike Fresh) ps qs) :
    Explores Filed (fun x y => List.Forall₂ (Alike Met) x.1 y.1 ∧ List.Forall₂ (Alike Met) x.2 y.2)
      (splitAll frame limits left cond ps) (splitAll frame limits right cond qs) := by
  induction hps with
  | nil => exact H.explores_pure ⟨.nil, .nil⟩
  | cons hp _ ih =>
    refine H.explores_bind (H.explores_split limits hCond hp) ?_
    rintro ⟨_, _⟩ ⟨_, _⟩ ⟨hEnter, hLeave⟩
    refine H.explores_bind ih ?_
    rintro ⟨_, _⟩ ⟨_, _⟩ ⟨hEntering, hLeaving⟩
    exact H.explores_pure ⟨List.rel_append hEnter hEntering, List.rel_append hLeave hLeaving⟩

theorem explores_leaveLoop {cond : Expr} (hCond : cond.Within inside) {p : Path σ} {q : Path τ}
    (hp : Alike Fresh p q) :
    Explores Filed (List.Forall₂ (Alike Fresh)) (leaveLoop frame left cond p)
      (leaveLoop frame right cond q) := by
  refine H.explores_bind (explores_along (H.along_evaluate cond hCond) hp) ?_
  rintro ⟨value, p⟩ ⟨_, q⟩ ⟨rfl, hp⟩
  dsimp only
  split
  · exact H.explores_bind (H.explores_count _) fun _ _ _ => H.explores_pure .nil
  · exact H.explores_pure (.cons (H.alike_fresh (H.alike_assume hCond false hp)) .nil)

theorem explores_iterate {cond : Expr} (hCond : cond.Within inside)
    {body : List (Path σ) → Explore ρ (List (Path σ))}
    {body' : List (Path τ) → Explore π (List (Path τ))}
    (hBody : ∀ {ps qs}, List.Forall₂ (Alike Fresh) ps qs →
      Explores Filed (List.Forall₂ (Alike Fresh)) (body ps) (body' qs))
    (bound : Nat) {ps : List (Path σ)} {qs : List (Path τ)}
    (hps : List.Forall₂ (Alike Fresh) ps qs) :
    Explores Filed (List.Forall₂ (Alike Fresh)) (iterate frame limits left cond body bound ps)
      (iterate frame limits right cond body' bound qs) := by
  induction bound generalizing ps qs with
  | zero =>
    cases hps with
    | nil => exact H.explores_pure .nil
    | cons hp hps =>
      exact H.explores_forEach (fun _ _ => H.explores_leaveLoop hCond) (.cons hp hps)
  | succ bound ih =>
    cases hps with
    | nil => exact H.explores_pure .nil
    | cons hp hps =>
      refine H.explores_bind (H.explores_splitAll limits hCond (.cons hp hps)) ?_
      rintro ⟨_, _⟩ ⟨_, _⟩ ⟨hEntering, hLeaving⟩
      exact H.explores_bind (hBody (hEntering.imp fun _ _ => H.alike_fresh)) fun _ _ hLooping =>
        H.explores_bind (ih hLooping) fun _ _ hLater =>
          H.explores_pure (List.rel_append (hLeaving.imp fun _ _ => H.alike_fresh) hLater)

theorem explores_endPath {p : Path σ} {q : Path τ} (hp : Alike Fresh p q) :
    Explores Filed (List.Forall₂ (Alike Fresh)) (endPath frame left p) (endPath frame right q) := by
  have hEnd : Along Filed Fresh (fun _ _ => True) (consult frame left.atEnd)
      (consult frame right.atEnd) :=
    AnswerAlike.along_consult fun n store h => ⟨trivial, H.atEnd n store h⟩
  exact H.explores_bind (explores_along hEnd hp) fun _ _ _ =>
    H.explores_bind (H.explores_count _) fun _ _ _ => H.explores_pure .nil

theorem explores_evaluate {e : Expr} (he : e.Within inside) {p : Path σ} {q : Path τ}
    (hp : Alike Fresh p q) :
    Explores Filed (fun x y => x.1 = y.1 ∧ Alike Fresh x.2 y.2) (along (evaluate frame left e) p)
      (along (evaluate frame right e) q) :=
  explores_along (H.along_fresh (H.along_evaluate e he)) hp

mutual

theorem explores_execute : ∀ {s : Stmt}, s.Within inside → ∀ {ps : List (Path σ)}
    {qs : List (Path τ)}, List.Forall₂ (Alike Fresh) ps qs →
    Explores Filed (List.Forall₂ (Alike Fresh)) (execute frame limits left s ps)
      (execute frame limits right s qs)
  | .expr e, hs, _, _, hps => by
    have he := (Stmt.within_iff.mp hs).1 e List.mem_cons_self
    exact H.explores_forEach (fun _ _ hp => H.explores_bind (H.explores_evaluate he hp)
      fun _ _ h => H.explores_pure (.cons h.2 .nil)) hps
  | .block body, hs, _, _, hps =>
    explores_executeAll (Stmt.within_iff.mp hs).2 hps
  | .decl v, hs, _, _, hps => by
    have hv : ∀ e ∈ v.init, e.Within inside := fun e he =>
      (Stmt.within_iff.mp hs).1 e (Option.mem_toList.mpr he)
    exact H.explores_forEach (fun _ _ hp =>
      H.explores_bind (explores_along (H.along_declare v hv) hp)
        fun _ _ h => H.explores_pure (.cons h.2 .nil)) hps
  | .ret none, _, _, _, hps => H.explores_forEach (fun _ _ => H.explores_endPath) hps
  | .ret (some value), hs, _, _, hps => by
    have hValue := (Stmt.within_iff.mp hs).1 value List.mem_cons_self
    exact H.explores_forEach (fun _ _ hp => H.explores_bind (H.explores_evaluate hValue hp)
      fun _ _ h => H.explores_endPath h.2) hps
  | .branch cond yes none, hs, _, _, hps => by
    obtain ⟨hExprs, hChildren⟩ := Stmt.within_iff.mp hs
    have hCond := hExprs cond List.mem_cons_self
    have hYes := hChildren yes List.mem_cons_self
    refine H.explores_forEach
      (fun p q hp => H.explores_bind (H.explores_split limits hCond hp) ?_) hps
    rintro ⟨_, _⟩ ⟨_, _⟩ ⟨hTaken, hOther⟩
    exact H.explores_bind (explores_execute hYes (hTaken.imp fun _ _ => H.alike_fresh))
      fun _ _ h => H.explores_pure (List.rel_append h (hOther.imp fun _ _ => H.alike_fresh))
  | .branch cond yes (some no), hs, _, _, hps => by
    obtain ⟨hExprs, hChildren⟩ := Stmt.within_iff.mp hs
    have hCond := hExprs cond List.mem_cons_self
    have hYes := hChildren yes List.mem_cons_self
    have hNo := hChildren no (List.mem_cons_of_mem _ List.mem_cons_self)
    refine H.explores_forEach
      (fun p q hp => H.explores_bind (H.explores_split limits hCond hp) ?_) hps
    rintro ⟨_, _⟩ ⟨_, _⟩ ⟨hTaken, hOther⟩
    exact H.explores_bind (explores_execute hYes (hTaken.imp fun _ _ => H.alike_fresh))
      fun _ _ h => H.explores_bind (explores_execute hNo (hOther.imp fun _ _ => H.alike_fresh))
        fun _ _ h' => H.explores_pure (List.rel_append h h')
  | .loop cond body, hs, _, _, hps => by
    obtain ⟨hExprs, hChildren⟩ := Stmt.within_iff.mp hs
    have hCond := hExprs cond List.mem_cons_self
    have hBody := hChildren body List.mem_cons_self
    exact H.explores_iterate limits hCond (fun h => explores_execute hBody h) _ hps

theorem explores_executeAll : ∀ {ss : List Stmt}, (∀ s ∈ ss, s.Within inside) →
    ∀ {ps : List (Path σ)} {qs : List (Path τ)}, List.Forall₂ (Alike Fresh) ps qs →
    Explores Filed (List.Forall₂ (Alike Fresh)) (executeAll frame limits left ss ps)
      (executeAll frame limits right ss qs)
  | [], _, _, _, hps => H.explores_pure hps
  | s :: rest, hs, _, _, hps => by
    obtain ⟨hFirst, hRest⟩ := List.forall_mem_cons.mp hs
    exact H.explores_bind (explores_execute hFirst hps) fun _ _ h => explores_executeAll hRest h

end

end Explores

theorem explore_alike (limits : Limits)
    (hBody : ∀ body ∈ frame.method.body, Stmt.Within inside body) :
    (explore frame limits left).nextPath = (explore frame limits right).nextPath ∧
    (explore frame limits left).forks = (explore frame limits right).forks ∧
    (explore frame limits left).stats = (explore frame limits right).stats ∧
    Filed (explore frame limits left).reports (explore frame limits right).reports := by
  unfold explore
  split
  · exact ⟨rfl, rfl, rfl, H.nil⟩
  · rename_i body hSome
    have hStart : List.Forall₂ (Alike Fresh) [⟨0, ∅, left.start⟩] [⟨0, ∅, right.start⟩] :=
      .cons ⟨rfl, rfl, H.start⟩ .nil
    exact (H.explores_bind (H.explores_count _) (fun _ _ _ =>
      H.explores_bind (H.explores_execute limits (hBody body hSome) hStart) fun _ _ hLive =>
        H.explores_bind (H.explores_forEach (fun _ _ => H.explores_endPath) hLive) fun _ _ _ =>
          H.explores_pure (V := fun _ _ => True) trivial) 1).2

end Lockstep

/-- Two checks that file the same make the same exploration. -/
theorem Lockstep.explore_eq {right : PathCheck τ ρ} (H : Lockstep frame inside left right Fresh Met Eq)
    (limits : Limits) (hBody : ∀ body ∈ frame.method.body, Stmt.Within inside body) :
    explore frame limits left = explore frame limits right := by
  obtain ⟨hNext, hForks, hStats, hReports⟩ := H.explore_alike limits hBody
  cases hLeft : explore frame limits left
  cases hRight : explore frame limits right
  simp_all

end DelegateSafety
