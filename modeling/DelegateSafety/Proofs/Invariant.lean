import DelegateSafety.Exploration.Paths

/-! # Invariants of the paths explored

What every evaluation and every assumption keeps true of a check's state is true on every path
explored, and what holds of all that they file holds of all reports (`Invariant.forall_reports`).
Each step may rely on what has been filed before (`Shown`), so that a later call can know of the
earlier ones.
-/
namespace DelegateSafety

open PathM Explore

variable {σ ρ α β : Type}

/-- Along a path that starts `Good` everything filed is as in `Q`, and the path stays `Good`. -/
def PathM.Keeps (Good : Nat → σ → Prop) (Shown Q : ρ → Prop) (m : PathM σ ρ α) : Prop :=
  ∀ p, Good p.id p.state → (∀ d ∈ (m p).reports, Shown d) →
    Good (m p).path.id (m p).path.state ∧ ∀ d ∈ (m p).reports, Q d

/-- An exploration files only what is as in `Q`, and its result is as in `V`. -/
def Explore.Files (Shown Q : ρ → Prop) (V : α → Prop) (m : Explore ρ α) : Prop :=
  ∀ next, (∀ d ∈ (m next).reports, Shown d) → V (m next).value ∧ ∀ d ∈ (m next).reports, Q d

/-! ## Along one path -/

namespace PathM

section

variable {Good : Nat → σ → Prop} {Shown Q : ρ → Prop} {frame : Frame} {check : PathCheck σ ρ}

theorem keeps_pure (a : α) : (pure a : PathM σ ρ α).Keeps Good Shown Q :=
  fun _ hGood _ => ⟨hGood, by simp [pure_apply]⟩

theorem Keeps.bind {m : PathM σ ρ α} {f : α → PathM σ ρ β} (hm : m.Keeps Good Shown Q)
    (hf : ∀ a, (f a).Keeps Good Shown Q) : (m >>= f).Keeps Good Shown Q := by
  intro p hGood hShown
  simp only [bind_apply, List.forall_mem_append] at hShown ⊢
  obtain ⟨hMid, hFirst⟩ := hm p hGood hShown.1
  obtain ⟨hEnd, hSecond⟩ := hf _ _ hMid hShown.2
  exact ⟨hEnd, hFirst, hSecond⟩

theorem keeps_readSlot (slot : Slot) : (readSlot slot : PathM σ ρ _).Keeps Good Shown Q :=
  fun _ hGood _ => ⟨hGood, by simp [readSlot]⟩

theorem keeps_writeSlot (slot : Option Slot) (value : Nullness) :
    (writeSlot slot value : PathM σ ρ _).Keeps Good Shown Q :=
  fun _ hGood _ => ⟨hGood, by simp [writeSlot]⟩

theorem keeps_consult {f : Site → σ → σ × List ρ}
    (h : ∀ n store s, Good n s → (∀ d ∈ (f ⟨frame, n, store⟩ s).2, Shown d) →
      Good n (f ⟨frame, n, store⟩ s).1 ∧ ∀ d ∈ (f ⟨frame, n, store⟩ s).2, Q d) :
    (consult frame f).Keeps Good Shown Q :=
  fun p hGood hShown => h p.id p.store p.state hGood hShown

theorem keeps_inOrder {ms : List (PathM σ ρ α)} (h : ∀ m ∈ ms, m.Keeps Good Shown Q) :
    (inOrder ms).Keeps Good Shown Q := by
  induction ms with
  | nil => exact keeps_pure _
  | cons m rest ih =>
    obtain ⟨hFirst, hRest⟩ := List.forall_mem_cons.mp h
    exact hFirst.bind fun _ => (ih hRest).bind fun _ => keeps_pure _

theorem keeps_sendEffect (m : Message Expr) (receiver : Nullness) (args : List Nullness) :
    (sendEffect frame m receiver args : PathM σ ρ _).Keeps Good Shown Q := by
  unfold sendEffect
  split
  · exact keeps_pure _
  · split
    · exact keeps_readSlot _
    · exact (keeps_writeSlot _ _).bind fun _ => keeps_pure _

theorem keeps_effect
    (hSend : ∀ event, (consult frame fun site s => check.afterSend site s event).Keeps Good Shown Q)
    (e : Expr) (values : List Nullness) : (effect frame check e values).Keeps Good Shown Q := by
  cases e with
  | self _ | nil _ | int _ _ | selector _ _ | paren _ _ | cast _ _ _ | binary _ _ _ _
  | unary _ _ _ | call _ _ _ | other _ _ => exact keeps_pure _
  | var _ _ _ | field _ _ => exact keeps_readSlot _
  | assign _ _ _ => exact (keeps_writeSlot _ _).bind fun _ => keeps_pure _
  | send m r =>
    exact (keeps_sendEffect _ _ _).bind fun _ => (hSend _).bind fun _ => keeps_pure _

/-- What the answers to single calls keep, evaluation keeps. -/
theorem keeps_evaluate
    (hBefore : ∀ e, (consult frame fun site s => check.beforeEffect site s e).Keeps Good Shown Q)
    (hSend : ∀ event, (consult frame fun site s => check.afterSend site s event).Keeps Good Shown Q)
    (e : Expr) : (evaluate frame check e).Keeps Good Shown Q := by
  induction e using Expr.inductionOn with
  | step e ih =>
    rw [evaluate_eq]
    refine Keeps.bind (keeps_inOrder ?_) fun values =>
      (hBefore e).bind fun _ => keeps_effect hSend e values
    exact List.forall_mem_map.mpr ih

theorem keeps_declare (hEvaluate : ∀ e, (evaluate frame check e).Keeps Good Shown Q)
    (v : VarDecl) : (declare frame check v).Keeps Good Shown Q := by
  unfold declare
  split
  · exact (hEvaluate _).bind fun _ => keeps_writeSlot _ _
  · exact (keeps_pure _).bind fun _ => keeps_writeSlot _ _

end

end PathM

/-! ## Over all paths -/

section

variable {Good : σ → Prop} {Shown Q : ρ → Prop} {frame : Frame} {check : PathCheck σ ρ}

def AllGood (Good : σ → Prop) (ps : List (Path σ)) : Prop := ∀ p ∈ ps, Good p.state

namespace AllGood

theorem nil : AllGood Good [] := List.forall_mem_nil _

theorem singleton {p : Path σ} (hp : Good p.state) : AllGood Good [p] :=
  List.forall_mem_singleton.mpr hp

theorem append {ps qs : List (Path σ)} (hps : AllGood Good ps) (hqs : AllGood Good qs) :
    AllGood Good (ps ++ qs) :=
  List.forall_mem_append.mpr ⟨hps, hqs⟩

end AllGood

/-- What a check keeps true on every path of a method. -/
structure Invariant (frame : Frame) (check : PathCheck σ ρ) (Good : σ → Prop) (Shown Q : ρ → Prop) :
    Prop where
  start : Good check.start
  evaluates : ∀ e, (evaluate frame check e).Keeps (fun _ => Good) Shown Q
  assumed : ∀ {s} cond truth, Good s → Good (check.assume frame.subject s cond truth)
  atEnd : (consult frame check.atEnd).Keeps (fun _ => Good) Shown Q

namespace Invariant

section

variable {V : α → Prop} {W : β → Prop}

theorem files_pure {a : α} (h : V a) : (pure a : Explore ρ α).Files Shown Q V :=
  fun _ _ => ⟨h, by simp [Explore.pure_apply]⟩

theorem files_bind {m : Explore ρ α} {f : α → Explore ρ β} (hm : m.Files Shown Q V)
    (hf : ∀ a, V a → (f a).Files Shown Q W) : (m >>= f).Files Shown Q W := by
  intro next hShown
  simp only [Explore.bind_apply, List.forall_mem_append] at hShown ⊢
  obtain ⟨hValue, hFirst⟩ := hm next hShown.1
  obtain ⟨hResult, hSecond⟩ := hf _ hValue _ hShown.2
  exact ⟨hResult, hFirst, hSecond⟩

theorem files_count (stats : Stats) :
    (count stats : Explore ρ Unit).Files Shown Q fun _ => True :=
  fun _ _ => ⟨trivial, by simp [count]⟩

theorem files_along {m : PathM σ ρ α} (h : m.Keeps (fun _ => Good) Shown Q) {p : Path σ} (hp : Good p.state) :
    (along m p).Files Shown Q fun x => Good x.2.state :=
  fun _ hShown => h p hp hShown

theorem files_fork (limits : Limits) {p : Path σ} (hp : Good p.state) :
    (fork limits p : Explore ρ _).Files Shown Q fun x => ∀ q ∈ x, Good q.state := by
  intro next _
  unfold fork
  split
  · exact ⟨by simp, by simp⟩
  · exact ⟨by simpa using hp, by simp⟩

theorem files_forEach {Good' : σ → Prop} {f : Path σ → Explore ρ (List (Path σ))}
    (h : ∀ p, Good p.state → (f p).Files Shown Q (AllGood Good'))
    {ps : List (Path σ)} (hps : AllGood Good ps) :
    (forEach f ps).Files Shown Q (AllGood Good') := by
  induction ps with
  | nil => exact files_pure .nil
  | cons p rest ih =>
    obtain ⟨hp, hRest⟩ := List.forall_mem_cons.mp hps
    exact files_bind (h p hp) fun _ hThese => files_bind (ih hRest) fun _ hOthers =>
      files_pure (hThese.append hOthers)

end

variable (limits : Limits)

theorem files_split (H : Invariant frame check Good Shown Q) (cond : Expr) {p : Path σ}
    (hp : Good p.state) :
    (split frame limits check cond p).Files Shown Q fun x =>
      AllGood Good x.1.toList ∧ AllGood Good x.2.toList := by
  refine files_bind (files_along (H.evaluates cond) hp) ?_
  rintro ⟨value, p⟩ hp
  have hAssume := fun truth => H.assumed cond truth hp
  dsimp only
  cases value with
  | nonNull =>
    exact files_bind (files_count _) fun _ _ =>
      files_pure ⟨.singleton (hAssume true), .nil⟩
  | null =>
    exact files_bind (files_count _) fun _ _ =>
      files_pure ⟨.nil, .singleton (hAssume false)⟩
  | unknown =>
    refine files_bind (files_fork limits hp) fun other hOther =>
      files_pure ⟨.singleton (hAssume true), ?_⟩
    intro q hq
    obtain ⟨r, hr, rfl⟩ := Option.map_eq_some_iff.mp (Option.mem_toList.mp hq)
    exact H.assumed cond false (hOther r hr)

theorem files_splitAll (H : Invariant frame check Good Shown Q) (cond : Expr)
    {ps : List (Path σ)} (hps : AllGood Good ps) :
    (splitAll frame limits check cond ps).Files Shown Q fun x =>
      AllGood Good x.1 ∧ AllGood Good x.2 := by
  induction ps with
  | nil => exact files_pure ⟨.nil, .nil⟩
  | cons p rest ih =>
    obtain ⟨hp, hRest⟩ := List.forall_mem_cons.mp hps
    refine files_bind (H.files_split limits cond hp) ?_
    rintro ⟨_, _⟩ ⟨hEnter, hLeave⟩
    refine files_bind (ih hRest) ?_
    rintro ⟨_, _⟩ ⟨hEntering, hLeaving⟩
    exact files_pure ⟨hEnter.append hEntering, hLeave.append hLeaving⟩

theorem files_leaveLoop (H : Invariant frame check Good Shown Q) (cond : Expr) {p : Path σ}
    (hp : Good p.state) :
    (leaveLoop frame check cond p).Files Shown Q (AllGood Good) := by
  refine files_bind (files_along (H.evaluates cond) hp) ?_
  rintro ⟨value, p⟩ hp
  dsimp only
  split
  · exact files_bind (files_count _) fun _ _ => files_pure .nil
  · exact files_pure (.singleton (H.assumed cond false hp))

theorem files_iterate (H : Invariant frame check Good Shown Q) (cond : Expr)
    {body : List (Path σ) → Explore ρ (List (Path σ))}
    (hBody : ∀ {ps}, AllGood Good ps → (body ps).Files Shown Q (AllGood Good))
    (bound : Nat) {ps : List (Path σ)} (hps : AllGood Good ps) :
    (iterate frame limits check cond body bound ps).Files Shown Q (AllGood Good) := by
  induction bound generalizing ps with
  | zero =>
    cases ps with
    | nil => exact files_pure .nil
    | cons p rest => exact files_forEach (fun _ => H.files_leaveLoop cond) hps
  | succ bound ih =>
    cases ps with
    | nil => exact files_pure .nil
    | cons p rest =>
      refine files_bind (H.files_splitAll limits cond hps) ?_
      rintro ⟨_, _⟩ ⟨hEntering, hLeaving⟩
      exact files_bind (hBody hEntering) fun _ hLooping => files_bind (ih hLooping) fun _ hLater =>
        files_pure (hLeaving.append hLater)

theorem files_endPath (H : Invariant frame check Good Shown Q) {p : Path σ} (hp : Good p.state) :
    (endPath frame check p).Files Shown Q (AllGood Good) :=
  files_bind (files_along H.atEnd hp) fun _ _ => files_bind (files_count _) fun _ _ =>
    files_pure .nil

mutual

theorem files_execute (H : Invariant frame check Good Shown Q) : ∀ (s : Stmt)
    {ps : List (Path σ)}, AllGood Good ps →
    (execute frame limits check s ps).Files Shown Q (AllGood Good)
  | .expr e, _, hps =>
    files_forEach (fun _ hp => files_bind (files_along (H.evaluates e) hp)
      fun _ h => files_pure (.singleton h)) hps
  | .block body, _, hps => files_executeAll H body hps
  | .decl v, _, hps =>
    files_forEach (fun _ hp => files_bind (files_along (keeps_declare H.evaluates v) hp)
      fun _ h => files_pure (.singleton h)) hps
  | .ret none, _, hps => files_forEach (fun _ => H.files_endPath) hps
  | .ret (some value), _, hps =>
    files_forEach (fun _ hp => files_bind (files_along (H.evaluates value) hp)
      fun _ h => H.files_endPath h) hps
  | .branch cond yes none, _, hps =>
    files_forEach (fun _ hp => files_bind (H.files_split limits cond hp) fun _ h =>
      files_bind (files_execute H yes h.1) fun _ hYes =>
        files_pure (hYes.append h.2)) hps
  | .branch cond yes (some no), _, hps =>
    files_forEach (fun _ hp => files_bind (H.files_split limits cond hp) fun _ h =>
      files_bind (files_execute H yes h.1) fun _ hYes =>
        files_bind (files_execute H no h.2) fun _ hNo =>
          files_pure (hYes.append hNo)) hps
  | .loop cond body, _, hps =>
    H.files_iterate limits cond (fun h => files_execute H body h) _ hps

theorem files_executeAll (H : Invariant frame check Good Shown Q) : ∀ (ss : List Stmt)
    {ps : List (Path σ)}, AllGood Good ps →
    (executeAll frame limits check ss ps).Files Shown Q (AllGood Good)
  | [], _, hps => files_pure hps
  | s :: rest, _, hps => files_bind (files_execute H s hps) fun _ h => files_executeAll H rest h

end

/-- All that is filed about a method is as the invariant says, if all of it may be relied on. -/
theorem forall_reports (H : Invariant frame check Good Shown Q)
    (hShown : ∀ d ∈ (explore frame limits check).reports, Shown d) :
    ∀ d ∈ (explore frame limits check).reports, Q d := by
  unfold explore at hShown ⊢
  split at hShown
  · simp [Explore.pure_apply]
  · rename_i body _
    refine (files_bind (files_count _) (fun _ _ => files_bind (H.files_execute limits body ?_)
      fun _ hLive => files_bind (files_forEach (fun _ => H.files_endPath) hLive) fun _ _ =>
        files_pure (V := fun _ => True) trivial) 1 hShown).2
    exact .singleton H.start

end Invariant

end

end DelegateSafety
