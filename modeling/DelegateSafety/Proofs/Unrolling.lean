import Mathlib.Algebra.Order.BigOperators.Group.List
import Mathlib.Algebra.Order.Group.Nat
import DelegateSafety.Proofs.Budget
import DelegateSafety.Proofs.Origin

/-! # More rounds of a loop

With a larger bound on the rounds of loops an exploration goes through all it went through before, in the
same order, and through more in between. Numbers of paths change, so that paths are compared by store and
state alone (`Path.SameSpot`) and reports without their paths. Where the smaller bound leaves a loop for
good the larger one tests the condition once more, and the side on which the loop is left is the same
(`within_leaveLoop_split`).
-/
namespace DelegateSafety

open PathM Explore

variable {σ ρ π α β γ δ : Type}

/-! ## Numbers do not matter along a path -/

/-- Paths that differ at most in their numbers. -/
structure Path.SameSpot (p q : Path σ) : Prop where
  store : p.store = q.store
  state : p.state = q.state

/-- What a check answers does not depend on the number of the path, apart from what is erased. -/
structure PathCheck.Unnumbered (check : PathCheck σ ρ) (erase : ρ → π) : Prop where
  beforeEffect : ∀ frame n n' store s e,
    (check.beforeEffect ⟨frame, n, store⟩ s e).1 = (check.beforeEffect ⟨frame, n', store⟩ s e).1 ∧
    (check.beforeEffect ⟨frame, n, store⟩ s e).2.map erase =
      (check.beforeEffect ⟨frame, n', store⟩ s e).2.map erase
  afterSend : ∀ frame n n' store s event,
    (check.afterSend ⟨frame, n, store⟩ s event).1 = (check.afterSend ⟨frame, n', store⟩ s event).1 ∧
    (check.afterSend ⟨frame, n, store⟩ s event).2.map erase =
      (check.afterSend ⟨frame, n', store⟩ s event).2.map erase
  atEnd : ∀ frame n n' store s,
    (check.atEnd ⟨frame, n, store⟩ s).1 = (check.atEnd ⟨frame, n', store⟩ s).1 ∧
    (check.atEnd ⟨frame, n, store⟩ s).2.map erase = (check.atEnd ⟨frame, n', store⟩ s).2.map erase

def PathM.Unnumbered (erase : ρ → π) (m : PathM σ ρ α) : Prop :=
  ∀ p q, Path.SameSpot p q → (m p).value = (m q).value ∧ Path.SameSpot (m p).path (m q).path ∧
    (m p).reports.map erase = (m q).reports.map erase

namespace PathM

variable {erase : ρ → π}

theorem unnumbered_pure (a : α) : (pure a : PathM σ ρ α).Unnumbered erase :=
  fun _ _ h => ⟨rfl, h, rfl⟩

theorem Unnumbered.bind {m : PathM σ ρ α} {f : α → PathM σ ρ β} (hm : m.Unnumbered erase)
    (hf : ∀ a, (f a).Unnumbered erase) : (m >>= f).Unnumbered erase := by
  intro p q h
  obtain ⟨hValue, hPath, hReports⟩ := hm p q h
  obtain ⟨hValue', hPath', hReports'⟩ := hf (m p).value _ _ hPath
  simp only [PathM.bind_apply, List.map_append, ← hValue, hReports, hReports']
  exact ⟨hValue', hPath', trivial⟩

theorem unnumbered_readSlot (slot : Slot) : (readSlot slot : PathM σ ρ _).Unnumbered erase :=
  fun _ _ h => ⟨congrArg (Store.lookup · slot) h.store, h, rfl⟩

theorem unnumbered_writeSlot (slot : Option Slot) (value : Nullness) :
    (writeSlot slot value : PathM σ ρ _).Unnumbered erase :=
  fun _ _ h => ⟨rfl, ⟨congrArg (Store.bind? · slot value) h.store, h.state⟩, rfl⟩

theorem unnumbered_consult (frame : Frame) {f : Site → σ → σ × List ρ}
    (h : ∀ n n' store s, (f ⟨frame, n, store⟩ s).1 = (f ⟨frame, n', store⟩ s).1 ∧
      (f ⟨frame, n, store⟩ s).2.map erase = (f ⟨frame, n', store⟩ s).2.map erase) :
    (consult frame f).Unnumbered erase := by
  rintro ⟨n, store, s⟩ ⟨n', _, _⟩ ⟨rfl, rfl⟩
  obtain ⟨hState, hReports⟩ := h n n' store s
  exact ⟨rfl, ⟨rfl, hState⟩, hReports⟩

theorem unnumbered_inOrder {ms : List (PathM σ ρ α)} (h : ∀ m ∈ ms, m.Unnumbered erase) :
    (inOrder ms).Unnumbered erase := by
  induction ms with
  | nil => exact unnumbered_pure _
  | cons m rest ih =>
    obtain ⟨hFirst, hRest⟩ := List.forall_mem_cons.mp h
    exact hFirst.bind fun _ => (ih hRest).bind fun _ => unnumbered_pure _

theorem unnumbered_sendEffect (frame : Frame) (m : Message Expr) (receiver : Nullness)
    (args : List Nullness) : (sendEffect frame m receiver args : PathM σ ρ _).Unnumbered erase := by
  unfold sendEffect
  split
  · exact unnumbered_pure _
  · split
    · exact unnumbered_readSlot _
    · exact (unnumbered_writeSlot _ _).bind fun _ => unnumbered_pure _

end PathM

section

variable {check : PathCheck σ ρ} {erase : ρ → π} (H : check.Unnumbered erase) (frame : Frame)

include H

theorem unnumbered_effect (e : Expr) (values : List Nullness) :
    (effect frame check e values).Unnumbered erase := by
  cases e with
  | self _ | nil _ | int _ _ | selector _ _ | paren _ _ | cast _ _ _ | binary _ _ _ _
  | unary _ _ _ | call _ _ _ | other _ _ => exact unnumbered_pure _
  | var _ _ _ | field _ _ => exact unnumbered_readSlot _
  | assign _ _ _ => exact (unnumbered_writeSlot _ _).bind fun _ => unnumbered_pure _
  | send m r =>
    refine (unnumbered_sendEffect _ _ _ _).bind fun _ => ?_
    exact (unnumbered_consult frame fun n n' store s => H.afterSend frame n n' store s _).bind
      fun _ => unnumbered_pure _

theorem unnumbered_evaluate (e : Expr) : (evaluate frame check e).Unnumbered erase := by
  induction e using Expr.inductionOn with
  | step e ih =>
    rw [evaluate_eq]
    refine (unnumbered_inOrder (List.forall_mem_map.mpr ih)).bind fun values => ?_
    exact (unnumbered_consult frame fun n n' store s => H.beforeEffect frame n n' store s e).bind
      fun _ => unnumbered_effect H frame e values

theorem unnumbered_declare (v : VarDecl) : (declare frame check v).Unnumbered erase := by
  unfold declare
  split
  · exact (unnumbered_evaluate H frame _).bind fun _ => unnumbered_writeSlot _ _
  · exact (unnumbered_pure _).bind fun _ => unnumbered_writeSlot _ _

end

theorem Path.SameSpot.assume {p q : Path σ} (h : p.SameSpot q) (frame : Frame)
    (check : PathCheck σ ρ) (cond : Expr) (truth : Bool) :
    (assume frame check cond truth p).SameSpot (assume frame check cond truth q) :=
  ⟨congrArg (Store.refine · truth cond) h.store,
    congrArg (check.assume frame.subject · cond truth) h.state⟩

/-! ## One exploration within another -/

/-- The first list is, up to numbers, some of the second one in the same order. -/
abbrev AmongPaths (ps qs : List (Path σ)) : Prop := List.SublistForall₂ Path.SameSpot ps qs

theorem AmongPaths.append {ps ps' qs qs' : List (Path σ)} (h : AmongPaths ps qs)
    (h' : AmongPaths ps' qs') : AmongPaths (ps ++ ps') (qs ++ qs') := by
  obtain ⟨rs, hSame, hSublist⟩ := List.sublistForall₂_iff.mp h
  obtain ⟨rs', hSame', hSublist'⟩ := List.sublistForall₂_iff.mp h'
  exact List.sublistForall₂_iff.mpr
    ⟨rs ++ rs', List.rel_append hSame hSame', hSublist.append hSublist'⟩

theorem AmongPaths.append_left {ps qs : List (Path σ)} (h : AmongPaths ps qs) (others : List (Path σ)) :
    AmongPaths ps (others ++ qs) := by
  obtain ⟨rs, hSame, hSublist⟩ := List.sublistForall₂_iff.mp h
  exact List.sublistForall₂_iff.mpr ⟨rs, hSame, hSublist.trans (List.sublist_append_right others qs)⟩

theorem AmongPaths.singleton {p q : Path σ} (h : p.SameSpot q) : AmongPaths [p] [q] := .cons h .nil

/-- If the second exploration refuses no fork, it files all that the first one does, in the same order,
and ends at least as many paths. -/
def Explore.Within (erase : ρ → π) (V : α → β → Prop) (m : Explore ρ α) (n : Explore ρ β) : Prop :=
  ∀ next next', none ∉ (n next').forks → V (m next).value (n next').value ∧
    ((m next).reports.map erase).Sublist ((n next').reports.map erase) ∧
    (m next).stats.pathsCompleted ≤ (n next').stats.pathsCompleted

namespace Explore

variable {erase : ρ → π} {V : α → β → Prop} {W : γ → δ → Prop}

theorem within_pure {a : α} {b : β} (h : V a b) :
    Within erase V (pure a : Explore ρ α) (pure b) :=
  fun _ _ _ => ⟨h, List.Sublist.refl _, le_rfl⟩

theorem within_count {stats stats' : Stats} (h : stats.pathsCompleted ≤ stats'.pathsCompleted) :
    Within erase (fun _ _ => True) (count stats : Explore ρ Unit) (count stats') :=
  fun _ _ _ => ⟨trivial, List.Sublist.refl _, h⟩

theorem Within.bind {m : Explore ρ α} {n : Explore ρ β} {f : α → Explore ρ γ} {g : β → Explore ρ δ}
    (h : Within erase V m n) (hRest : ∀ a b, V a b → Within erase W (f a) (g b)) :
    Within erase W (m >>= f) (n >>= g) := by
  intro next next' hForks
  simp only [Explore.bind_apply, List.mem_append, not_or] at hForks ⊢
  obtain ⟨hValue, hReports, hCompleted⟩ := h next next' hForks.1
  obtain ⟨hValue', hReports', hCompleted'⟩ := hRest _ _ hValue (m next).nextPath _ hForks.2
  refine ⟨hValue', ?_, Nat.add_le_add hCompleted hCompleted'⟩
  rw [List.map_append, List.map_append]
  exact hReports.append hReports'

/-- The larger exploration may do more before. -/
theorem within_after {m : Explore ρ α} {g : γ → Explore ρ β} (n : Explore ρ γ)
    (h : ∀ c, Within erase V m (g c)) : Within erase V m (n >>= g) := by
  intro next next' hForks
  simp only [Explore.bind_apply, List.mem_append, not_or] at hForks ⊢
  obtain ⟨hValue, hReports, hCompleted⟩ := h _ next _ hForks.2
  refine ⟨hValue, ?_, hCompleted.trans (Nat.le_add_left _ _)⟩
  rw [List.map_append]
  exact hReports.trans (List.sublist_append_right _ _)

theorem within_along {m : PathM σ ρ α} (h : m.Unnumbered erase) {p q : Path σ} (hp : p.SameSpot q) :
    Within erase (fun x y => x.1 = y.1 ∧ x.2.SameSpot y.2) (along m p) (along m q) := by
  intro next next' _
  obtain ⟨hValue, hPath, hReports⟩ := h p q hp
  exact ⟨⟨hValue, hPath⟩, by rw [along, along, hReports], le_rfl⟩

theorem within_forked {p q : Path σ} (hp : p.SameSpot q) {limits : Limits} :
    Within erase (fun x y => ∃ r, y = some r ∧ x.SameSpot r) (pure p : Explore ρ _)
      (fork limits q) := by
  intro next next' hForks
  unfold fork at hForks ⊢
  split at hForks
  · simp at hForks
  · rename_i hRoom
    rw [if_neg hRoom]
    exact ⟨⟨_, rfl, hp.store, hp.state⟩, List.Sublist.refl _, le_rfl⟩

/-- The first exploration may refuse a fork that the second one does not. -/
theorem within_fork {p q : Path σ} (hp : p.SameSpot q) {limits limits' : Limits} :
    Within erase (fun x y => ∃ r, y = some r ∧ ∀ p ∈ x, p.SameSpot r) (fork limits p : Explore ρ _)
      (fork limits' q) := by
  intro next next' hForks
  obtain ⟨⟨r, hSome, hr⟩, hReports, hCompleted⟩ := within_forked hp next next' hForks
  refine ⟨⟨r, hSome, ?_⟩, ?_, ?_⟩ <;> unfold fork <;> split
  · simp
  · simpa using ⟨hr.store, hr.state⟩
  · exact hReports
  · exact hReports
  · exact hCompleted
  · exact hCompleted

theorem within_forEach {f g : Path σ → Explore ρ (List (Path σ))}
    (h : ∀ p q, p.SameSpot q → Within erase AmongPaths (f p) (g q)) {ps qs : List (Path σ)}
    (hps : AmongPaths ps qs) : Within erase AmongPaths (forEach f ps) (forEach g qs) := by
  induction hps with
  | @nil qs =>
    intro next next' _
    exact ⟨.nil, List.nil_sublist _, Nat.zero_le _⟩
  | cons hp _ ih =>
    exact (h _ _ hp).bind fun _ _ hThese => ih.bind fun _ _ hOthers =>
      within_pure (hThese.append hOthers)
  | cons_right _ ih =>
    -- The path that has nothing to go with it files more and is left out of the result.
    refine within_after _ fun these => ?_
    rw [← bind_pure (forEach f _)]
    exact ih.bind fun _ _ hOthers => within_pure (hOthers.append_left _)

end Explore

section

variable {check : PathCheck σ ρ} {erase : ρ → π} (H : check.Unnumbered erase) (frame : Frame)
  {limits limits' : Limits} {p q : Path σ} {ps qs : List (Path σ)}

include H

omit H in
theorem within_goOn {m : PathM σ ρ α} (h : m.Unnumbered erase) (hp : p.SameSpot q) :
    Within erase AmongPaths (do let (_, p) ← along m p; pure [p])
      (do let (_, p) ← along m q; pure [p]) :=
  (within_along h hp).bind fun _ _ h => within_pure (.singleton h.2)

theorem within_endPath (hp : p.SameSpot q) :
    Within erase AmongPaths (endPath frame check p) (endPath frame check q) := by
  have hEnd := unnumbered_consult frame fun n n' store s => H.atEnd frame n n' store s
  exact (within_along hEnd hp).bind fun _ _ _ => (within_count le_rfl).bind fun _ _ _ =>
    within_pure .nil

theorem within_split (cond : Expr) (hp : p.SameSpot q) :
    Within erase (fun x y => AmongPaths x.1.toList y.1.toList ∧ AmongPaths x.2.toList y.2.toList)
      (split frame limits check cond p) (split frame limits' check cond q) := by
  refine (within_along (unnumbered_evaluate H frame cond) hp).bind ?_
  rintro ⟨value, p⟩ ⟨_, q⟩ ⟨rfl, hp⟩
  have hAssume := fun truth => hp.assume frame check cond truth
  dsimp only
  cases value with
  | nonNull =>
    exact (within_count le_rfl).bind fun _ _ _ => within_pure ⟨.singleton (hAssume true), .nil⟩
  | null =>
    exact (within_count le_rfl).bind fun _ _ _ => within_pure ⟨.nil, .singleton (hAssume false)⟩
  | unknown =>
    refine (within_fork hp).bind ?_
    rintro other _ ⟨r, rfl, hOther⟩
    refine within_pure ⟨.singleton (hAssume true), ?_⟩
    cases other with
    | none => exact .nil
    | some p => exact .singleton ((hOther p rfl).assume frame check cond false)

theorem within_splitAll (cond : Expr) (hps : AmongPaths ps qs) :
    Within erase (fun x y => AmongPaths x.1 y.1 ∧ AmongPaths x.2 y.2)
      (splitAll frame limits check cond ps) (splitAll frame limits' check cond qs) := by
  induction hps with
  | nil =>
    intro next next' _
    exact ⟨⟨.nil, .nil⟩, List.nil_sublist _, Nat.zero_le _⟩
  | cons hp _ ih =>
    refine (within_split H frame cond hp).bind ?_
    rintro ⟨_, _⟩ ⟨_, _⟩ ⟨hEnter, hLeave⟩
    refine ih.bind ?_
    rintro ⟨_, _⟩ ⟨_, _⟩ ⟨hEntering, hLeaving⟩
    exact within_pure ⟨hEnter.append hEntering, hLeave.append hLeaving⟩
  | @cons_right q ps qs _ ih =>
    refine within_after _ fun first => ?_
    rw [← bind_pure (splitAll frame limits check cond ps)]
    refine ih.bind ?_
    rintro ⟨_, _⟩ ⟨_, _⟩ ⟨hEntering, hLeaving⟩
    exact within_pure ⟨hEntering.append_left _, hLeaving.append_left _⟩

/-! ## The end of a loop -/

theorem within_leaveLoop (cond : Expr) (hp : p.SameSpot q) :
    Within erase AmongPaths (leaveLoop frame check cond p) (leaveLoop frame check cond q) := by
  refine (within_along (unnumbered_evaluate H frame cond) hp).bind ?_
  rintro ⟨value, p⟩ ⟨_, q⟩ ⟨rfl, hp⟩
  dsimp only
  split
  · exact (within_count le_rfl).bind fun _ _ _ => within_pure .nil
  · exact within_pure (.singleton (hp.assume frame check cond false))

/-- Where a loop is left for good it is also left if it may go on. -/
theorem within_leaveLoop_split (cond : Expr) (hp : p.SameSpot q) :
    Within erase (fun live x => AmongPaths live x.2.toList) (leaveLoop frame check cond p)
      (split frame limits' check cond q) := by
  refine (within_along (unnumbered_evaluate H frame cond) hp).bind ?_
  rintro ⟨value, p⟩ ⟨_, q⟩ ⟨rfl, hp⟩
  have hLeave := hp.assume frame check cond false
  dsimp only
  cases value with
  | nonNull =>
    rw [if_pos rfl]
    exact (within_count (Nat.zero_le _)).bind fun _ _ _ => within_pure .nil
  | null => exact within_after _ fun _ => within_pure (.singleton hLeave)
  | unknown =>
    rw [if_neg nofun, ← pure_bind p fun p => pure [assume frame check cond false p]]
    refine (within_forked hp).bind ?_
    rintro p _ ⟨r, rfl, hOther⟩
    exact within_pure (.singleton (hOther.assume frame check cond false))

theorem within_forEach_leaveLoop_splitAll (cond : Expr) (hps : AmongPaths ps qs) :
    Within erase (fun live x => AmongPaths live x.2) (forEach (leaveLoop frame check cond) ps)
      (splitAll frame limits' check cond qs) := by
  induction hps with
  | nil =>
    intro next next' _
    exact ⟨.nil, List.nil_sublist _, Nat.zero_le _⟩
  | cons hp _ ih =>
    refine (within_leaveLoop_split H frame cond hp).bind fun _ _ hLeave => ?_
    exact ih.bind fun _ _ hLeaving => within_pure (hLeave.append hLeaving)
  | @cons_right q ps qs _ ih =>
    refine within_after _ fun first => ?_
    rw [← bind_pure (forEach (leaveLoop frame check cond) ps)]
    exact ih.bind fun _ _ hLeaving => within_pure (hLeaving.append_left _)

theorem within_iterate (cond : Expr) {body body' : List (Path σ) → Explore ρ (List (Path σ))}
    (hBody : ∀ {ps qs}, AmongPaths ps qs → Within erase AmongPaths (body ps) (body' qs))
    (hNil : body [] = pure []) (hNil' : body' [] = pure []) {bound bound' : Nat}
    (hLe : bound ≤ bound') (hps : AmongPaths ps qs) :
    Within erase AmongPaths (iterate frame limits check cond body bound ps)
      (iterate frame limits' check cond body' bound' qs) := by
  induction bound generalizing bound' ps qs with
  | zero =>
    rw [iterate_zero]
    cases bound' with
    | zero =>
      rw [iterate_zero]
      exact within_forEach (fun _ _ => within_leaveLoop H frame cond) hps
    | succ bound' =>
      rw [iterate_succ _ _ _ _ hNil', ← bind_pure (forEach _ ps)]
      refine (within_forEach_leaveLoop_splitAll H frame cond hps).bind ?_
      rintro live ⟨entering, leaving⟩ hLeaving
      refine within_after _ fun looping => within_after _ fun later => ?_
      refine within_pure ?_
      rw [← List.append_nil live]
      exact AmongPaths.append hLeaving .nil
  | succ bound ih =>
    obtain ⟨bound', rfl⟩ := Nat.exists_eq_add_of_lt hLe
    rw [iterate_succ _ _ _ _ hNil, iterate_succ _ _ _ _ hNil']
    refine (within_splitAll H frame cond hps).bind ?_
    rintro ⟨_, _⟩ ⟨_, _⟩ ⟨hEntering, hLeaving⟩
    exact (hBody hEntering).bind fun _ _ hLooping => (ih (by omega) hLooping).bind
      fun _ _ hLater => within_pure (hLeaving.append hLater)

theorem within_endAll (hps : AmongPaths ps qs) :
    Within erase (fun _ _ => True)
      (do let _ ← forEach (endPath frame check) ps; (pure () : Explore ρ Unit))
      (do let _ ← forEach (endPath frame check) qs; (pure () : Explore ρ Unit)) :=
  (within_forEach (fun _ _ => within_endPath H frame) hps).bind fun _ _ _ => within_pure trivial

end

/-! ## Statements -/

section

variable {check : PathCheck σ ρ} {erase : ρ → π}

mutual

theorem within_execute (H : check.Unnumbered erase) (frame : Frame) (budget : Nat)
    {unroll unroll' : Nat} (hLe : unroll ≤ unroll') : ∀ (s : Stmt)
    {ps qs : List (Path σ)}, AmongPaths ps qs →
    Within erase AmongPaths (execute frame ⟨budget, unroll⟩ check s ps)
      (execute frame ⟨budget, unroll'⟩ check s qs)
  | .expr e, _, _, hps => within_forEach (fun _ _ => within_goOn (unnumbered_evaluate H frame e)) hps
  | .block body, _, _, hps => within_executeAll H frame budget hLe body hps
  | .decl v, _, _, hps => within_forEach (fun _ _ => within_goOn (unnumbered_declare H frame v)) hps
  | .ret none, _, _, hps => within_forEach (fun _ _ => within_endPath H frame) hps
  | .ret (some value), _, _, hps =>
    within_forEach (fun _ _ hp => (within_along (unnumbered_evaluate H frame value) hp).bind
      fun _ _ h => within_endPath H frame h.2) hps
  | .branch cond yes none, _, _, hps => by
    refine within_forEach (fun _ _ hp => (within_split H frame cond hp).bind ?_) hps
    rintro ⟨_, _⟩ ⟨_, _⟩ ⟨hTaken, hOther⟩
    exact (within_execute H frame budget hLe yes hTaken).bind fun _ _ hYes =>
      within_pure (hYes.append hOther)
  | .branch cond yes (some no), _, _, hps => by
    refine within_forEach (fun _ _ hp => (within_split H frame cond hp).bind ?_) hps
    rintro ⟨_, _⟩ ⟨_, _⟩ ⟨hTaken, hOther⟩
    exact (within_execute H frame budget hLe yes hTaken).bind fun _ _ hYes =>
      (within_execute H frame budget hLe no hOther).bind fun _ _ hNo => within_pure (hYes.append hNo)
  | .loop cond body, _, _, hps =>
    within_iterate H frame cond (fun h => within_execute H frame budget hLe body h)
      (execute_nil _ _ _ body) (execute_nil _ _ _ body) hLe hps

theorem within_executeAll (H : check.Unnumbered erase) (frame : Frame) (budget : Nat)
    {unroll unroll' : Nat} (hLe : unroll ≤ unroll') :
    ∀ (ss : List Stmt) {ps qs : List (Path σ)}, AmongPaths ps qs →
    Within erase AmongPaths (executeAll frame ⟨budget, unroll⟩ check ss ps)
      (executeAll frame ⟨budget, unroll'⟩ check ss qs)
  | [], _, _, hps => within_pure hps
  | s :: rest, _, _, hps =>
    (within_execute H frame budget hLe s hps).bind fun _ _ h =>
      within_executeAll H frame budget hLe rest h

end

theorem explore_within (H : check.Unnumbered erase) (frame : Frame) {budget unroll unroll' : Nat}
    (hLe : unroll ≤ unroll')
    (hForks : none ∉ (explore frame ⟨budget, unroll'⟩ check).forks) :
    ((explore frame ⟨budget, unroll⟩ check).reports.map erase).Sublist
        ((explore frame ⟨budget, unroll'⟩ check).reports.map erase) ∧
      (explore frame ⟨budget, unroll⟩ check).stats.pathsCompleted ≤
        (explore frame ⟨budget, unroll'⟩ check).stats.pathsCompleted := by
  unfold explore at hForks ⊢
  cases hBody : frame.method.body with
  | none => exact ⟨List.Sublist.refl _, le_rfl⟩
  | some body =>
    rw [hBody] at hForks
    have hStart : AmongPaths [(⟨0, ∅, check.start⟩ : Path σ)] [⟨0, ∅, check.start⟩] :=
      .singleton ⟨rfl, rfl⟩
    have hAll := (within_count (le_refl Stats.method.pathsCompleted)).bind fun _ _ _ =>
      (within_execute H frame budget hLe body hStart).bind fun _ _ hLive => within_endAll H frame hLive
    exact (hAll 1 1 hForks).2

end

/-! ## Dangling delegates -/

section

variable {config : DelegateConfig} {known : FactsByClass}

theorem withoutPath_verify (r : Release) (facts : ClassFacts) (frame : Frame) (n n' : Nat)
    (store : Store) (s : DelegateState) :
    (r.verify facts ⟨frame, n, store⟩ s).map Diagnostic.withoutPath =
      (r.verify facts ⟨frame, n', store⟩ s).map Diagnostic.withoutPath := by
  cases hField : facts.field? r.field with
  | none => rw [Release.verify_eq_nil hField, Release.verify_eq_nil hField]
  | some fieldFacts =>
    rw [Release.verify_eq hField, Release.verify_eq hField, List.map_map, List.map_map]
    rfl

theorem withoutPath_verifyAll (releases : List Release) (facts : ClassFacts) (frame : Frame)
    (n n' : Nat) (store : Store) (s : DelegateState) :
    (releases.flatMap (·.verify facts ⟨frame, n, store⟩ s)).map Diagnostic.withoutPath =
      (releases.flatMap (·.verify facts ⟨frame, n', store⟩ s)).map Diagnostic.withoutPath := by
  rw [List.map_flatMap, List.map_flatMap]
  exact List.flatMap_congr fun r _ => withoutPath_verify r facts frame n n' store s

theorem unnumbered_delegatePaths (config : DelegateConfig) (known : FactsByClass) :
    (delegatePaths config known).Unnumbered Diagnostic.withoutPath where
  beforeEffect frame n n' store s e := by
    refine ⟨rfl, ?_⟩
    simp only [delegatePaths]
    cases known.find? frame.className with
    | none => rfl
    | some facts =>
      simp only [Option.elim_some, checkAssignment_eq]
      exact withoutPath_verifyAll _ facts frame n n' store _
  afterSend frame n n' store s event := by
    simp only [delegatePaths]
    cases known.find? frame.className with
    | none => exact ⟨rfl, rfl⟩
    | some facts =>
      simp only [Option.elim_some, checkSend_fst, checkSend_snd]
      exact ⟨rfl, withoutPath_verifyAll _ facts frame n n' store _⟩
  atEnd frame n n' store s := by
    refine ⟨rfl, ?_⟩
    simp only [delegatePaths]
    cases known.find? frame.className with
    | none => rfl
    | some facts =>
      simp only [Option.elim_some, checkTeardown_eq_flatMap]
      exact withoutPath_verifyAll _ facts frame n n' store _

end

theorem pathsCompleted_foldl (all : List Stats) (start : Stats) :
    (all.foldl (· + ·) start).pathsCompleted =
      start.pathsCompleted + (all.map (·.pathsCompleted)).sum := by
  induction all generalizing start with
  | nil => rfl
  | cons stats rest ih =>
    rw [List.foldl_cons, ih, List.map_cons, List.sum_cons, Stats.add_def, Nat.add_assoc]

/-- Whether a report is about a declaration is not erased. -/
theorem withoutPath_filter (reports : List Diagnostic) :
    (reports.filter (!·.context.isDeclaration)).map Diagnostic.withoutPath =
      (reports.map Diagnostic.withoutPath).filter (!·.context.isDeclaration) := by
  rw [List.filter_map]
  refine congrArg (List.map _) (List.filter_congr fun d _ => ?_)
  simp only [Function.comp, Diagnostic.withoutPath]
  cases d.context <;> rfl

/-- Going round loops more often loses no report of a path and no path that comes to its end, as long as
the budget has room for all paths. The reports come in the same order, with those that are new in
between. -/
theorem unrolling_loses_nothing (config : DelegateConfig) (subject : Subject) (budget : Nat)
    {unroll unroll' : Nat} (hLe : unroll ≤ unroll')
    (hForks : ∀ frame ∈ UnitCheck.frames subject, none ∉ (explore frame ⟨budget, unroll'⟩
      (delegatePaths config (scannedFacts config subject))).forks) :
    let run (unroll : Nat) := (danglingDelegateCheck config).run subject ⟨budget, unroll⟩
    let found (unroll : Nat) :=
      ((run unroll).reports.filter (!·.context.isDeclaration)).map Diagnostic.withoutPath
    (found unroll).Sublist (found unroll') ∧
      (run unroll).stats.pathsCompleted ≤ (run unroll').stats.pathsCompleted := by
  intro run found
  have hFrames := fun frame hFrame => explore_within
    (unnumbered_delegatePaths config (scannedFacts config subject)) frame hLe (hForks frame hFrame)
  constructor
  · simp only [found, withoutPath_filter]
    refine List.Sublist.filter _ ?_
    simp only [run, run_eq, List.map_append, List.map_flatMap]
    exact (List.Sublist.refl _).append
      (List.Sublist.flatMap_right _ fun frame hFrame => (hFrames frame hFrame).1)
  · simp only [run, run_eq, pathsCompleted_foldl, List.map_map]
    exact Nat.add_le_add_left (List.sum_le_sum fun frame hFrame => (hFrames frame hFrame).2) _

open Sample in
/-- `drain` replaces a field on one more path when its loop is entered twice. -/
theorem drain_with_two_rounds :
    let unit := replacedAfterDrain
    let run (unroll : Nat) := (danglingDelegateCheck .default).run (.ofUnit unit none) ⟨512, unroll⟩
    let found (unroll : Nat) :=
      ((run unroll).reports.filter (!·.context.isDeclaration)).map Diagnostic.withoutPath
    ((found 1).length, (run 1).stats.pathsCompleted) = (2, 4) ∧
    ((found 2).length, (run 2).stats.pathsCompleted) = (3, 5) ∧
    (found 1).Sublist (found 2) := by
  have hForks : ∀ frame ∈ UnitCheck.frames (.ofUnit replacedAfterDrain none),
      none ∉ (explore frame ⟨512, 2⟩ (delegatePaths .default
        (scannedFacts .default (.ofUnit replacedAfterDrain none)))).forks := by decide +kernel
  exact ⟨by decide +kernel, by decide +kernel,
    (unrolling_loses_nothing .default (.ofUnit replacedAfterDrain none) 512 (by decide) hForks).1⟩

end DelegateSafety
