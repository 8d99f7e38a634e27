import Mathlib.Tactic.Ring
import DelegateSafety.Proofs.Places
import DelegateSafety.Proofs.Postorder

/-! # How often a statement is visited

Along one path a statement inside the bodies of `d` loops is visited at most `k ^ d` times, where `k` is the
bound on rounds, and the condition of a loop there once more for each time the loop is come to. After a
return no other statement is visited (`visits_are_bounded`). A path is followed by what it has noted
(`PathM.Notes`), and each statement adds to the visits of a place what is counted along it
(`files_executeAt`).
-/
namespace DelegateSafety

open PathM Explore Invariant

variable {α β : Type}

/-! ## Evaluations in the notes -/

/-- Notes down calls about the given turns, in order, and files nothing but what it has noted so far. -/
def PathM.Notes (note : Callback → α) (turns : List Turn) (m : PathM (List α) (List α) β) : Prop :=
  ∀ p, ∃ calls, (m p).path.state = p.state ++ calls.map note ∧ calls.map Callback.turn? = turns.map some ∧
    ∀ noted ∈ (m p).reports, ∃ made, made <+: calls ∧ noted = p.state ++ made.map note

namespace PathM

variable {note : Callback → α} {frame : Frame}

theorem notes_pure (b : β) : (pure b : PathM (List α) (List α) β).Notes note [] :=
  fun _ => ⟨[], (List.append_nil _).symm, rfl, List.forall_mem_nil _⟩

theorem Notes.bind {γ : Type} {turns turns' : List Turn} {m : PathM (List α) (List α) β}
    {f : β → PathM (List α) (List α) γ} (hm : m.Notes note turns) (hf : ∀ b, (f b).Notes note turns') :
    (m >>= f).Notes note (turns ++ turns') := by
  intro p
  obtain ⟨calls, hState, hTurns, hReports⟩ := hm p
  obtain ⟨calls', hState', hTurns', hReports'⟩ := hf (m p).value (m p).path
  refine ⟨calls ++ calls', ?_, by simp [hTurns, hTurns'], List.forall_mem_append.mpr ⟨?_, ?_⟩⟩
  · rw [bind_apply, hState', hState, List.map_append, List.append_assoc]
  · intro noted hNoted
    obtain ⟨made, hMade, rfl⟩ := hReports noted hNoted
    exact ⟨made, hMade.trans (List.prefix_append _ _), rfl⟩
  · intro noted hNoted
    obtain ⟨made, hMade, rfl⟩ := hReports' noted hNoted
    exact ⟨calls ++ made, (List.prefix_append_right_inj calls).mpr hMade, by simp [hState]⟩

theorem notes_readSlot (slot : Slot) : (readSlot slot : PathM (List α) (List α) _).Notes note [] :=
  fun _ => ⟨[], (List.append_nil _).symm, rfl, List.forall_mem_nil _⟩

theorem notes_writeSlot (slot : Option Slot) (value : Nullness) :
    (writeSlot slot value : PathM (List α) (List α) _).Notes note [] :=
  fun _ => ⟨[], (List.append_nil _).symm, rfl, List.forall_mem_nil _⟩

theorem notes_consult {call : Site → Callback} {turn : Turn} (h : ∀ site, (call site).turn? = some turn) :
    (consult frame fun site noted => (noted ++ [note (call site)], [noted ++ [note (call site)]])).Notes
      note [turn] :=
  fun p => ⟨[call ⟨frame, p.id, p.store⟩], rfl, by simp [h],
    List.forall_mem_singleton.mpr ⟨_, List.prefix_refl _, rfl⟩⟩

theorem notes_inOrder {es : List Expr} {turns : Expr → List Turn} {f : Expr → PathM (List α) (List α) β}
    (h : ∀ e ∈ es, (f e).Notes note (turns e)) : (inOrder (es.map f)).Notes note (es.flatMap turns) := by
  induction es with
  | nil => exact notes_pure _
  | cons e rest ih =>
    obtain ⟨hFirst, hRest⟩ := List.forall_mem_cons.mp h
    have hAll := hFirst.bind fun b => (ih hRest).bind fun bs => notes_pure (b :: bs)
    rw [List.append_nil] at hAll
    exact hAll

theorem notes_sendEffect (m : Message Expr) (receiver : Nullness) (args : List Nullness) :
    (sendEffect frame m receiver args : PathM (List α) (List α) _).Notes note [] := by
  unfold sendEffect
  split
  · exact notes_pure _
  · split
    · exact notes_readSlot _
    · exact (notes_writeSlot _ _).bind fun _ => notes_pure _

theorem notes_own (e : Expr) (values : List Nullness) :
    (do
      consult frame fun site noted => (PathCheck.noting note).beforeEffect site noted e
      effect frame (.noting note) e values).Notes note e.turns := by
  have hNode := @notes_consult α note frame (Callback.beforeEffect · e) (.node e) fun _ => rfl
  cases e with
  | self _ | nil _ | int _ _ | selector _ _ | paren _ _ | cast _ _ _ | binary _ _ _ _
  | unary _ _ _ | call _ _ _ | other _ _ => exact hNode.bind fun _ => notes_pure _
  | var _ _ _ | field _ _ => exact hNode.bind fun _ => notes_readSlot _
  | assign _ _ _ => exact hNode.bind fun _ => (notes_writeSlot _ _).bind fun _ => notes_pure _
  | send m r =>
    exact hNode.bind fun _ => (notes_sendEffect _ _ _).bind fun _ =>
      (notes_consult fun _ => rfl).bind fun _ => notes_pure _

theorem notes_evaluate (e : Expr) :
    (evaluate frame (.noting note) e).Notes note (e.postorder.flatMap Expr.turns) := by
  induction e using Expr.inductionOn with
  | step e ih =>
    have hOperands := notes_inOrder ih
    rw [← List.flatMap_assoc] at hOperands
    rw [evaluate_eq, Expr.postorder_eq, List.flatMap_append, List.flatMap_singleton]
    exact hOperands.bind (notes_own e)

end PathM

/-- The turns of one visit of a statement, apart from the statements inside it. -/
def Stmt.turns (s : Stmt) : List Turn := s.exprs.flatMap fun e => e.postorder.flatMap Expr.turns

theorem notes_declare {note : Callback → α} (frame : Frame) (v : VarDecl) :
    (declare frame (.noting note) v).Notes note (Stmt.decl v).turns := by
  unfold declare
  rw [Stmt.turns, Stmt.exprs]
  cases v.init with
  | none => exact (notes_pure _).bind fun _ => notes_writeSlot _ _
  | some init =>
    rw [Option.toList_some, List.flatMap_singleton]
    have hAll := (@notes_evaluate α note frame init).bind fun value =>
      notes_writeSlot (some (.local v.name)) value
    rw [List.append_nil] at hAll
    exact hAll

/-! ## The course of a path -/

/-- What the calls made at a place have been about. -/
def turnsAt (q : Place) (log : CallLog) : List Turn :=
  (log.filter (·.1 = q)).filterMap (·.2.turn?)

theorem turnsAt_append (q : Place) (log log' : CallLog) :
    turnsAt q (log ++ log') = turnsAt q log ++ turnsAt q log' := by
  simp [turnsAt]

theorem turnsAt_isPrefix (q : Place) {log log' : CallLog} (h : log <+: log') :
    turnsAt q log <+: turnsAt q log' := by
  obtain ⟨rest, rfl⟩ := h
  rw [turnsAt_append]
  exact List.prefix_append _ _

theorem filterMap_turn? {calls : List Callback} {turns : List Turn}
    (h : calls.map Callback.turn? = turns.map some) : calls.filterMap Callback.turn? = turns := by
  have hAll := congrArg (List.filterMap id) h
  rwa [List.filterMap_map, List.filterMap_map, Function.id_comp, Function.id_comp,
    List.filterMap_some] at hAll

theorem turnsAt_note (q place : Place) {calls : List Callback} {turns : List Turn}
    (h : calls.map Callback.turn? = turns.map some) :
    turnsAt q (calls.map (Prod.mk place)) = if place = q then turns else [] := by
  split
  · rename_i hHere
    rw [turnsAt, List.filter_map, List.filterMap_map]
    simp [Function.comp_def, hHere, filterMap_turn? h]
  · rename_i hElsewhere
    simp [turnsAt, hElsewhere]

theorem turnsAt_singleton (q place : Place) {call : Callback} (h : call.turn? = none) :
    turnsAt q [(place, call)] = [] := by
  by_cases hHere : place = q <;> simp [turnsAt, hHere, h]

/-- The calls made so far are not the end and are about statements of the body other than returns. -/
def Underway (body : Stmt) (log : CallLog) : Prop :=
  ∀ x ∈ log, x.2.isEnd = false ∧ ∃ s, body.at? x.1 = some s ∧ ∀ value, s ≠ .ret value

/-- A path through a body. Once it has come to a return nothing comes but the value of that return, each
turn once, and the end. -/
inductive Course (body : Stmt) : CallLog → Prop
  | underway {log} (hLog : Underway body log) : Course body log
  | returning {log r value} {made : List Callback} (hLog : Underway body log)
      (hAt : body.at? r = some (.ret value))
      (hMade : made.map Callback.turn? <+: (Stmt.ret value).turns.map some) :
      Course body (log ++ made.map (Prod.mk r))
  | returned {log r value site} {calls : List Callback} (hLog : Underway body log)
      (hAt : body.at? r = some (.ret value))
      (hCalls : calls.map Callback.turn? = (Stmt.ret value).turns.map some) :
      Course body (log ++ calls.map (Prod.mk r) ++ [(r, .atEnd site)])
  | fallen {log site} (hLog : Underway body log) : Course body (log ++ [([], .atEnd site)])

/-! ## Along the paths -/

theorem flatten_replicate_isPrefix (turns : List Turn) {n b : Nat} (h : n ≤ b) :
    (List.replicate n turns).flatten <+: (List.replicate b turns).flatten := by
  obtain ⟨rest, rfl⟩ := Nat.exists_eq_add_of_le h
  rw [List.replicate_add, List.flatten_append]
  exact List.prefix_append _ _

theorem isEnd_eq_false_of_turn? {call : Callback} {turn : Turn} (h : call.turn? = some turn) :
    call.isEnd = false := by
  cases call with
  | beforeEffect _ _ | afterSend _ _ | assume _ _ _ => rfl
  | atEnd _ => cases h

/-- A path that has come to no return and has visited the watched place at most `b` times. -/
def Visited (body : Stmt) (q : Place) (t : Stmt) (b : Nat) (log : CallLog) : Prop :=
  Underway body log ∧ ∃ n ≤ b, turnsAt q log = (List.replicate n t.turns).flatten

/-- A path on which the watched place is visited at most `b` times, the last time perhaps not to the end. -/
def Visiting (body : Stmt) (q : Place) (t : Stmt) (b : Nat) (log : CallLog) : Prop :=
  Course body log ∧ turnsAt q log <+: (List.replicate b t.turns).flatten

section

variable {body : Stmt} {q place : Place} {s t : Stmt} {b B : Nat} {log : CallLog}
  {calls : List Callback}

theorem Visited.mono {b' : Nat} (h : Visited body q t b log) (hLe : b ≤ b') : Visited body q t b' log := by
  obtain ⟨hUnderway, n, hCount, hTurns⟩ := h
  exact ⟨hUnderway, n, hCount.trans hLe, hTurns⟩

theorem Visited.visiting (h : Visited body q t b log) (hLe : b ≤ B) {noted : CallLog}
    (hNoted : noted <+: log) : Visiting body q t B noted := by
  obtain ⟨hUnderway, n, hCount, hTurns⟩ := h
  refine ⟨.underway fun x hx => hUnderway x (hNoted.subset hx), ?_⟩
  exact (hTurns ▸ turnsAt_isPrefix q hNoted).trans (flatten_replicate_isPrefix _ (hCount.trans hLe))

theorem turnsAt_visit (hTarget : body.at? q = some t) (hAt : body.at? place = some s)
    (hCalls : calls.map Callback.turn? = s.turns.map some) {n : Nat}
    (hLog : turnsAt q log = (List.replicate n t.turns).flatten) :
    turnsAt q (log ++ calls.map (Prod.mk place)) =
      (List.replicate (n + visit q place) t.turns).flatten := by
  rw [turnsAt_append, turnsAt_note q place hCalls, hLog, List.replicate_add, List.flatten_append, visit]
  split
  · rename_i hHere
    obtain rfl : s = t := Option.some.inj (hAt.symm.trans (hHere ▸ hTarget))
    simp
  · simp

theorem Visited.append (h : Visited body q t b log) (hTarget : body.at? q = some t)
    (hAt : body.at? place = some s) (hGoes : ∀ value, s ≠ .ret value)
    (hCalls : calls.map Callback.turn? = s.turns.map some) :
    Visited body q t (b + visit q place) (log ++ calls.map (Prod.mk place)) := by
  obtain ⟨hUnderway, n, hCount, hTurns⟩ := h
  refine ⟨List.forall_mem_append.mpr ⟨hUnderway, List.forall_mem_map.mpr fun call hCall => ?_⟩,
    n + visit q place, Nat.add_le_add_right hCount _, turnsAt_visit hTarget hAt hCalls hTurns⟩
  obtain ⟨turn, -, hTurn⟩ := List.mem_map.mp (hCalls ▸ List.mem_map_of_mem hCall)
  exact ⟨isEnd_eq_false_of_turn? hTurn.symm, s, hAt, hGoes⟩

/-- A condition that is taken up is no visit of its own. -/
theorem Visited.assume (h : Visited body q t b log) (hAt : body.at? place = some s)
    (hGoes : ∀ value, s ≠ .ret value) (subject : Subject) (cond : Expr) (truth : Bool) :
    Visited body q t b (log ++ [(place, .assume subject cond truth)]) := by
  obtain ⟨hUnderway, n, hCount, hTurns⟩ := h
  refine ⟨List.forall_mem_append.mpr ⟨hUnderway, List.forall_mem_singleton.mpr ⟨rfl, s, hAt, hGoes⟩⟩, n,
    hCount, ?_⟩
  rw [turnsAt_append, hTurns, turnsAt_singleton q place rfl, List.append_nil]

theorem visiting_of_return {value : Option Expr} (h : Visited body q t b log) (hLe : b + visit q place ≤ B)
    (hTarget : body.at? q = some t) (hAt : body.at? place = some (.ret value))
    (hCalls : calls.map Callback.turn? = (Stmt.ret value).turns.map some) {made : List Callback}
    (hMade : made <+: calls) : Visiting body q t B (log ++ made.map (Prod.mk place)) := by
  obtain ⟨hUnderway, n, hCount, hTurns⟩ := h
  refine ⟨.returning hUnderway hAt (hCalls ▸ hMade.map _), ?_⟩
  have hAll := turnsAt_visit hTarget hAt hCalls hTurns
  have hSoFar := turnsAt_isPrefix q ((List.prefix_append_right_inj log).mpr (hMade.map (Prod.mk place)))
  rw [hAll] at hSoFar
  exact hSoFar.trans (flatten_replicate_isPrefix _ ((Nat.add_le_add_right hCount _).trans hLe))

theorem visiting_of_returned {value : Option Expr} (h : Visited body q t b log)
    (hLe : b + visit q place ≤ B) (hTarget : body.at? q = some t)
    (hAt : body.at? place = some (.ret value))
    (hCalls : calls.map Callback.turn? = (Stmt.ret value).turns.map some) (site : Site) :
    Visiting body q t B (log ++ calls.map (Prod.mk place) ++ [(place, .atEnd site)]) := by
  obtain ⟨-, hTurns⟩ := visiting_of_return h hLe hTarget hAt hCalls (List.prefix_refl calls)
  refine ⟨.returned h.1 hAt hCalls, ?_⟩
  rwa [turnsAt_append, turnsAt_singleton q place rfl, List.append_nil]

theorem visiting_of_fallen (h : Visited body q t b log) (hLe : b ≤ B) (site : Site) :
    Visiting body q t B (log ++ [([], .atEnd site)]) := by
  obtain ⟨-, hTurns⟩ := h.visiting hLe (List.prefix_refl log)
  refine ⟨.fallen h.1, ?_⟩
  rwa [turnsAt_append, turnsAt_singleton q [] rfl, List.append_nil]

end

/-! ## Exploring -/

section

variable {frame : Frame} {limits : Limits} {body : Stmt} {q : Place} {t : Stmt} {B : Nat}

theorem files_notes {note : Callback → Place × Callback} {turns : List Turn}
    {m : PathM CallLog CallLog β} (hNotes : m.Notes note turns)
    {p : Path CallLog} {V Q : CallLog → Prop}
    (hNext : ∀ calls : List Callback, calls.map Callback.turn? = turns.map some →
      V (p.state ++ calls.map note))
    (hShown : ∀ calls made : List Callback, calls.map Callback.turn? = turns.map some → made <+: calls →
      Q (p.state ++ made.map note)) :
    (along m p).Files (fun _ => True) Q fun x => V x.2.state := by
  intro next _
  obtain ⟨calls, hState, hTurns, hReports⟩ := hNotes p
  refine ⟨?_, fun noted hNoted => ?_⟩
  · change V (m p).path.state
    rw [hState]
    exact hNext calls hTurns
  · obtain ⟨made, hMade, rfl⟩ := hReports noted hNoted
    exact hShown calls made hTurns hMade

theorem files_leave {place : Place} {p : Path CallLog} {Good : CallLog → Prop}
    (h : ∀ site, Visiting body q t B (p.state ++ [(place, .atEnd site)])) :
    (endPath frame (.noting (Prod.mk place)) p).Files (fun _ => True) (Visiting body q t B)
      (AllGood Good) := by
  have hEnd : (along (consult frame (PathCheck.noting (Prod.mk place)).atEnd) p).Files (fun _ => True)
      (Visiting body q t B) fun _ => True :=
    fun _ _ => ⟨trivial, List.forall_mem_singleton.mpr (h _)⟩
  exact files_bind hEnd fun _ _ => files_bind (files_count _) fun _ _ => files_pure .nil

section

variable (hTarget : body.at? q = some t) {place : Place} {s : Stmt} (hAt : body.at? place = some s)
  (hGoes : ∀ value, s ≠ .ret value) {b : Nat} (hLe : b + visit q place ≤ B)

include hTarget hAt hGoes hLe

theorem files_visit {m : PathM CallLog CallLog β}
    (hNotes : m.Notes (Prod.mk place) s.turns) {p : Path CallLog}
    (hp : Visited body q t b p.state) :
    (along m p).Files (fun _ => True) (Visiting body q t B) fun x =>
      Visited body q t (b + visit q place) x.2.state :=
  files_notes hNotes (fun _ hCalls => hp.append hTarget hAt hGoes hCalls) fun _ _ hCalls hMade =>
    (hp.append hTarget hAt hGoes hCalls).visiting hLe ((List.prefix_append_right_inj _).mpr (hMade.map _))

variable {cond : Expr} (hCond : s.exprs = [cond])

include hCond

theorem files_test {p : Path CallLog} (hp : Visited body q t b p.state) :
    (along (evaluate frame (.noting (Prod.mk place)) cond) p).Files (fun _ => True) (Visiting body q t B)
      fun x => ∀ truth, Visited body q t (b + visit q place)
        (x.2.state ++ [(place, .assume frame.subject cond truth)]) := by
  have hNotes : (evaluate frame (.noting (Prod.mk place)) cond).Notes (Prod.mk place) s.turns := by
    rw [Stmt.turns, hCond, List.flatMap_singleton]
    exact notes_evaluate cond
  exact fun next hTrue => (files_visit hTarget hAt hGoes hLe hNotes hp next hTrue).imp_left
    fun hVisited truth => hVisited.assume hAt hGoes frame.subject cond truth

theorem files_splitAt {p : Path CallLog} (hp : Visited body q t b p.state) :
    (split frame limits (.noting (Prod.mk place)) cond p).Files (fun _ => True) (Visiting body q t B)
      fun x => AllGood (Visited body q t (b + visit q place)) x.1.toList ∧
        AllGood (Visited body q t (b + visit q place)) x.2.toList := by
  refine files_bind (files_test hTarget hAt hGoes hLe hCond hp) ?_
  rintro ⟨value, p⟩ hAssume
  dsimp only at hAssume ⊢
  cases value with
  | nonNull =>
    exact files_bind (files_count _) fun _ _ => files_pure ⟨.singleton (hAssume true), .nil⟩
  | null =>
    exact files_bind (files_count _) fun _ _ => files_pure ⟨.nil, .singleton (hAssume false)⟩
  | unknown =>
    let Good (noted : CallLog) : Prop := ∀ truth,
      Visited body q t (b + visit q place) (noted ++ [(place, .assume frame.subject cond truth)])
    have hFork : (fork limits p : Explore CallLog _).Files (fun _ => True)
        (Visiting body q t B) fun other => ∀ r ∈ other, Good r.state := files_fork limits hAssume
    refine files_bind hFork fun other hOther => files_pure ⟨.singleton (hAssume true), fun r hr => ?_⟩
    obtain ⟨fork, hFork, rfl⟩ := Option.map_eq_some_iff.mp (Option.mem_toList.mp hr)
    exact hOther fork hFork false

theorem files_splitAllAt {ps : List (Path CallLog)}
    (hps : AllGood (Visited body q t b) ps) :
    (splitAll frame limits (.noting (Prod.mk place)) cond ps).Files (fun _ => True) (Visiting body q t B)
      fun x => AllGood (Visited body q t (b + visit q place)) x.1 ∧
        AllGood (Visited body q t (b + visit q place)) x.2 := by
  induction ps with
  | nil => exact files_pure ⟨.nil, .nil⟩
  | cons p rest ih =>
    obtain ⟨hp, hRest⟩ := List.forall_mem_cons.mp hps
    refine files_bind (files_splitAt hTarget hAt hGoes hLe hCond hp) ?_
    rintro ⟨_, _⟩ ⟨hEnter, hLeave⟩
    refine files_bind (ih hRest) ?_
    rintro ⟨_, _⟩ ⟨hEntering, hLeaving⟩
    exact files_pure ⟨hEnter.append hEntering, hLeave.append hLeaving⟩

theorem files_leaveLoopAt {p : Path CallLog} (hp : Visited body q t b p.state) :
    (leaveLoop frame (.noting (Prod.mk place)) cond p).Files (fun _ => True) (Visiting body q t B)
      (AllGood (Visited body q t (b + visit q place))) := by
  refine files_bind (files_test hTarget hAt hGoes hLe hCond hp) ?_
  rintro ⟨value, p⟩ hAssume
  dsimp only
  split
  · exact files_bind (files_count _) fun _ _ => files_pure .nil
  · exact files_pure (.singleton (hAssume false))

end

theorem AllGood.visited_mono {b b' : Nat} {ps : List (Path CallLog)}
    (h : AllGood (Visited body q t b) ps) (hLe : b ≤ b') : AllGood (Visited body q t b') ps :=
  fun p hp => (h p hp).mono hLe

variable (hTarget : body.at? q = some t)

include hTarget

/-- What one execution of the body costs is paid at most once a round, and the condition once more. -/
theorem files_iterateAt {place : Place} {s : Stmt} (hAt : body.at? place = some s)
    (hGoes : ∀ value, s ≠ .ret value) {cond : Expr} (hCond : s.exprs = [cond])
    {inner : List (Path CallLog) → Explore _ (List (Path CallLog))}
    {c : Nat}
    (hInner : ∀ {b ps}, b + c ≤ B → AllGood (Visited body q t b) ps →
      (inner ps).Files (fun _ => True) (Visiting body q t B) (AllGood (Visited body q t (b + c))))
    (bound : Nat) {b : Nat} {ps : List (Path CallLog)}
    (hLe : b + ((bound + 1) * visit q place + bound * c) ≤ B) (hps : AllGood (Visited body q t b) ps) :
    (iterate frame limits (.noting (Prod.mk place)) cond inner bound ps).Files (fun _ => True)
      (Visiting body q t B)
      (AllGood (Visited body q t (b + ((bound + 1) * visit q place + bound * c)))) := by
  induction bound generalizing b ps with
  | zero =>
    rw [Nat.zero_mul, Nat.add_zero, Nat.one_mul] at hLe ⊢
    cases ps with
    | nil => exact files_pure .nil
    | cons p rest => exact files_forEach (fun _ => files_leaveLoopAt hTarget hAt hGoes hLe hCond) hps
  | succ bound ih =>
    have hSum : (bound + 1 + 1) * visit q place + (bound + 1) * c =
        visit q place + (c + ((bound + 1) * visit q place + bound * c)) := by ring
    rw [hSum, ← Nat.add_assoc, ← Nat.add_assoc] at hLe ⊢
    cases ps with
    | nil => exact files_pure .nil
    | cons p rest =>
      refine files_bind (files_splitAllAt hTarget hAt hGoes (by omega) hCond hps) ?_
      rintro ⟨_, _⟩ ⟨hEntering, hLeaving⟩
      exact files_bind (hInner (by omega) hEntering) fun _ hLooping =>
        files_bind (ih (by omega) hLooping) fun _ hLater =>
          files_pure (.append (hLeaving.visited_mono (by omega)) hLater)

/-- A return ends the path, which has come to it once. -/
theorem files_return {place : Place} {value : Option Expr} (hAt : body.at? place = some (.ret value))
    {b : Nat} (hLe : b + visit q place ≤ B) {ps : List (Path CallLog)}
    (hps : AllGood (Visited body q t b) ps) {Good : CallLog → Prop} :
    (executeAt frame limits (fun r => .noting (Prod.mk r)) place (.ret value) ps).Files (fun _ => True)
      (Visiting body q t B) (AllGood Good) := by
  cases value with
  | none =>
    refine files_forEach (fun p hp => files_leave fun site => ?_) hps
    have hNone : ([] : List Callback).map Callback.turn? = (Stmt.ret none).turns.map some := rfl
    have hEnd := visiting_of_returned hp hLe hTarget hAt hNone site
    rwa [List.map_nil, List.append_nil] at hEnd
  | some e =>
    have hNotes : (evaluate frame (.noting (Prod.mk place)) e).Notes (Prod.mk place)
        (Stmt.ret (some e)).turns := by
      rw [Stmt.turns, Stmt.exprs, Option.toList_some, List.flatMap_singleton]
      exact notes_evaluate e
    refine files_forEach (fun p hp => files_bind (files_notes hNotes
      (V := fun noted => ∀ site, Visiting body q t B (noted ++ [(place, .atEnd site)]))
      (fun calls hCalls => visiting_of_returned hp hLe hTarget hAt hCalls)
      fun calls made hCalls => visiting_of_return hp hLe hTarget hAt hCalls) fun _ h => files_leave h) hps

omit hTarget

mutual

theorem files_executeAt (hTarget : body.at? q = some t) : ∀ (place : Place) (s : Stmt),
    body.at? place = some s → ∀ {b : Nat} {ps : List (Path CallLog)},
    b + s.visits limits.maxLoopUnroll q place ≤ B → AllGood (Visited body q t b) ps →
    (executeAt frame limits (fun r => .noting (Prod.mk r)) place s ps).Files (fun _ => True)
      (Visiting body q t B)
      (AllGood (Visited body q t (b + s.visits limits.maxLoopUnroll q place)))
  | place, .expr e, hAt, b, ps, hLe, hps => by
    have hNotes : (evaluate frame (.noting (Prod.mk place)) e).Notes (Prod.mk place) (Stmt.expr e).turns := by
      rw [Stmt.turns, Stmt.exprs, List.flatMap_singleton]
      exact notes_evaluate e
    exact files_forEach (fun p hp => files_bind (files_visit hTarget hAt nofun hLe hNotes hp)
      fun _ h => files_pure (.singleton h)) hps
  | place, .block inner, hAt, b, ps, hLe, hps => by
    rw [Stmt.visits, ← Nat.add_assoc] at hLe ⊢
    have hChildren : ∀ j c, inner[j]? = some c → body.at? (place ++ [0 + j]) = some c := fun j c hChild =>
      (Nat.zero_add j).symm ▸ Stmt.at?_child hAt hChild
    exact files_executeAllAt hTarget place 0 inner hChildren hLe (hps.visited_mono (Nat.le_add_right _ _))
  | place, .decl v, hAt, b, ps, hLe, hps =>
    files_forEach (fun p hp => files_bind (files_visit hTarget hAt nofun hLe (notes_declare frame v) hp)
      fun _ h => files_pure (.singleton h)) hps
  | place, .ret none, hAt, b, ps, hLe, hps => files_return hTarget hAt hLe hps
  | place, .ret (some e), hAt, b, ps, hLe, hps => files_return hTarget hAt hLe hps
  | place, .branch cond yes none, hAt, b, ps, hLe, hps => by
    rw [Stmt.visits, ← Nat.add_assoc] at hLe ⊢
    refine files_forEach (fun p hp => files_bind
      (files_splitAt hTarget hAt nofun (by omega) rfl hp) ?_) hps
    rintro ⟨taken, other⟩ ⟨hTaken, hOther⟩
    have hYes := files_executeAt hTarget (place ++ [0]) yes (Stmt.at?_child hAt rfl) hLe hTaken
    exact files_bind hYes fun _ hFromYes =>
      files_pure (hFromYes.append (hOther.visited_mono (Nat.le_add_right _ _)))
  | place, .branch cond yes (some no), hAt, b, ps, hLe, hps => by
    rw [Stmt.visits, ← Nat.add_assoc, ← Nat.add_assoc] at hLe ⊢
    refine files_forEach (fun p hp => files_bind
      (files_splitAt hTarget hAt nofun (by omega) rfl hp) ?_) hps
    rintro ⟨taken, other⟩ ⟨hTaken, hOther⟩
    have hYes := files_executeAt hTarget (place ++ [0]) yes (Stmt.at?_child hAt rfl) (by omega) hTaken
    have hNo := files_executeAt hTarget (place ++ [1]) no (Stmt.at?_child hAt rfl) hLe
      (hOther.visited_mono (Nat.le_add_right _ _))
    exact files_bind hYes fun _ hFromYes => files_bind hNo fun _ hFromNo =>
      files_pure (.append (hFromYes.visited_mono (Nat.le_add_right _ _)) hFromNo)
  | place, .loop cond inner, hAt, b, ps, hLe, hps => by
    have hInner := Stmt.at?_child hAt (i := 0) rfl
    exact files_iterateAt hTarget hAt nofun rfl
      (fun h hEntering => files_executeAt hTarget _ inner hInner h hEntering) _ hLe hps

theorem files_executeAllAt (hTarget : body.at? q = some t) : ∀ (place : Place) (i : Nat) (ss : List Stmt),
    (∀ j c, ss[j]? = some c → body.at? (place ++ [i + j]) = some c) →
    ∀ {b : Nat} {ps : List (Path CallLog)},
    b + Stmt.visitsAll limits.maxLoopUnroll q place i ss ≤ B → AllGood (Visited body q t b) ps →
    (executeAllAt frame limits (fun r => .noting (Prod.mk r)) place i ss ps).Files (fun _ => True)
      (Visiting body q t B)
      (AllGood (Visited body q t (b + Stmt.visitsAll limits.maxLoopUnroll q place i ss)))
  | place, i, [], hAt, b, ps, hLe, hps => files_pure hps
  | place, i, s :: rest, hAt, b, ps, hLe, hps => by
    rw [Stmt.visitsAll, ← Nat.add_assoc] at hLe ⊢
    refine files_bind (files_executeAt hTarget (place ++ [i]) s (hAt 0 s rfl) (by omega) hps) fun _ h =>
      files_executeAllAt hTarget place (i + 1) rest (fun j c hChild => ?_) hLe h
    rw [Nat.add_assoc, Nat.add_comm 1]
    exact hAt (j + 1) c hChild

end

theorem visiting_of_mem_placedCalls (hBody : frame.method.body = some body) (hTarget : body.at? q = some t) :
    ∀ log ∈ placedCalls frame limits, Visiting body q t (body.visits limits.maxLoopUnroll q []) log := by
  unfold placedCalls exploreAt
  rw [hBody]
  have hStart : AllGood (Visited body q t 0) [⟨0, ∅, (PathCheck.noting (Prod.mk ([] : Place))).start⟩] :=
    .singleton ⟨List.forall_mem_nil _, 0, Nat.le_refl 0, rfl⟩
  have hLe := (Nat.zero_add (body.visits limits.maxLoopUnroll q [])).le
  have hEnd (p) (hp : Visited body q t (0 + body.visits limits.maxLoopUnroll q []) p.state) :
      (endPath frame (.noting (Prod.mk [])) p).Files (fun _ => True)
        (Visiting body q t (body.visits limits.maxLoopUnroll q [])) (AllGood fun _ => True) :=
    files_leave (visiting_of_fallen hp hLe)
  exact (files_bind (files_count _) (fun _ _ => files_bind (files_executeAt hTarget [] body rfl hLe hStart)
    fun _ hLive => files_bind (files_forEach hEnd hLive) fun _ _ => files_pure (V := fun _ => True) trivial)
    1 fun _ _ => trivial).2

end

/-- Along a path a place is visited at most as often as the statement there can be come to, which is the bound
to the power of the loops around it, and the condition of a loop once more than its body. From a return on
nothing else is visited. The calls are those that any check gets. -/
theorem visits_are_bounded {σ ρ : Type} (frame : Frame) (limits : Limits) (check : PathCheck σ ρ)
    {body : Stmt} (hBody : frame.method.body = some body) :
    (placedCalls frame limits).map (·.map Prod.snd) =
      (explore frame limits check.traced).reports.map (·.state.made) ∧
    ∀ log ∈ placedCalls frame limits, Course body log ∧ ∀ place s, body.at? place = some s →
      turnsAt place log <+: (List.replicate
        (s.rounds limits.maxLoopUnroll * limits.maxLoopUnroll ^ body.loopDepth place) s.turns).flatten := by
  refine ⟨(map_placedCalls frame limits).trans (map_made_traced frame limits check).symm, fun log hLog =>
    ⟨(visiting_of_mem_placedCalls hBody (q := []) rfl log hLog).1, fun place s hAt => ?_⟩⟩
  have hCount := Stmt.visits_at limits.maxLoopUnroll [] hAt
  rw [List.nil_append] at hCount
  rw [← hCount]
  exact (visiting_of_mem_placedCalls hBody hAt log hLog).2

namespace Sample

/-- One loop inside another, around a return for one way out. -/
def nestedLoops : Stmt :=
  let more : Expr := .var "more" none .unknown
  let next : Expr := .call "next" [] .unknown
  .loop more (.block [.loop next (.expr (.var "x" none .unknown)), .branch next (.ret none) none])

def nestedFrame : Frame :=
  ⟨.ofUnit (delegatePair []) none, "Foo", { method "drain" [] with body := some nestedLoops }⟩

end Sample

open Sample in
/-- With a bound of two the innermost expression is evaluated four times at most, and on some path it is. -/
theorem nested_loops_run_four_times :
    nestedLoops.at? [0, 0, 0] = some (.expr (.var "x" none .unknown)) ∧
    (∀ log ∈ placedCalls nestedFrame ⟨512, 2⟩, Course nestedLoops log ∧
      turnsAt [0, 0, 0] log <+:
        (List.replicate (1 * 2 ^ 2) (Stmt.expr (.var "x" none .unknown)).turns).flatten) ∧
    ∃ log ∈ placedCalls nestedFrame ⟨512, 2⟩, (turnsAt [0, 0, 0] log).length = 4 := by
  refine ⟨rfl, fun log hLog => ?_, by decide +kernel⟩
  obtain ⟨hCourse, hPlaces⟩ :=
    (visits_are_bounded nestedFrame ⟨512, 2⟩ PathCheck.silent rfl).2 log hLog
  exact ⟨hCourse, hPlaces [0, 0, 0] _ rfl⟩

end DelegateSafety
