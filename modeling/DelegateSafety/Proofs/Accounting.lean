import Mathlib.Algebra.Order.Group.Multiset
import Mathlib.Order.Interval.Finset.Nat
import Mathlib.Order.Interval.Multiset
import DelegateSafety.Proofs.Enumeration
import DelegateSafety.Proofs.OpenTests

/-! # The books of an exploration

Each path is known by a number, and a new path is given the next one. An exploration that holds some
paths ends them or hands them on, together with those it has added (`Explored.Accounts`). Nothing is
lost on the way: every path that was ever begun or refused is counted once.
-/
namespace DelegateSafety

open PathM Explore

variable {σ ρ α β : Type}

/-! ## Along a path -/

/-- The path keeps its number, and what is shown on the way is that path. -/
def PathM.StaysOn (m : PathM (Traced σ ρ) (Path (Traced σ ρ)) α) : Prop :=
  ∀ p, (m p).path.id = p.id ∧ ∀ shown ∈ (m p).reports, shown.id = p.id

theorem PathM.staysOn_of_keeps {m : PathM (Traced σ ρ) (Path (Traced σ ρ)) α}
    (h : ∀ n, m.Keeps (fun id _ => id = n) (fun _ => True) fun shown => shown.id = n) : m.StaysOn :=
  fun p => h p.id p rfl fun _ _ => trivial

section

variable (frame : Frame) (check : PathCheck σ ρ)

theorem staysOn_evaluate (e : Expr) : (evaluate frame check.traced e).StaysOn :=
  staysOn_of_keeps fun _ => keeps_evaluate_traced (fun _ _ _ _ hId _ => ⟨hId, hId⟩) e

theorem staysOn_atEnd : (consult frame check.traced.atEnd).StaysOn :=
  staysOn_of_keeps fun _ => keeps_show (fun _ _ _ _ hId _ => ⟨hId, hId⟩) .atEnd

theorem staysOn_declare (v : VarDecl) : (declare frame check.traced v).StaysOn :=
  staysOn_of_keeps fun _ =>
    keeps_declare (keeps_evaluate_traced fun _ _ _ _ hId _ => ⟨hId, hId⟩) v

end

/-! ## The account -/

def numbersOf (paths : List (Path σ)) : Multiset Nat := paths.map (·.id)

/-- The numbers of the paths whose ends are shown. -/
def endedNumbers (shown : List (Path (Traced σ ρ))) : Multiset Nat :=
  numbersOf (shown.filter (·.isEnded))

theorem numbersOf_cons (p : Path σ) (ps : List (Path σ)) :
    numbersOf (p :: ps) = {p.id} + numbersOf ps :=
  rfl

theorem numbersOf_append (ps qs : List (Path σ)) :
    numbersOf (ps ++ qs) = numbersOf ps + numbersOf qs := by
  simp [numbersOf]

theorem endedNumbers_append (ps qs : List (Path (Traced σ ρ))) :
    endedNumbers (ps ++ qs) = endedNumbers ps + endedNumbers qs := by
  simp only [endedNumbers, List.filter_append, numbersOf_append]

theorem mem_endedNumbers {shown : List (Path (Traced σ ρ))} {p : Path (Traced σ ρ)}
    (hp : p ∈ shown) (hEnded : p.isEnded = true) : p.id ∈ endedNumbers shown :=
  Multiset.mem_coe.mpr (List.mem_map_of_mem (List.mem_filter.mpr ⟨hp, hEnded⟩))

/-- What became of the paths that were held and of those added since. The numbers of a result are
those of the paths that go on. -/
structure Explored.Accounts (limits : Limits) (held : Multiset Nat) (next : Nat)
    (numbers : α → Multiset Nat) (r : Explored (Path (Traced σ ρ)) α) : Prop where
  next_le : next ≤ r.nextPath
  nextPath_le : r.nextPath ≤ max next limits.maxPaths
  issued : numbers r.value + endedNumbers r.reports ≤ held + Multiset.Ico next r.nextPath
  shown : ∀ p ∈ r.reports, p.id ∈ held + Multiset.Ico next r.nextPath
  silent : r.reports.Pairwise fun p q => p.isEnded = true → q.id ≠ p.id
  completed : r.stats.pathsCompleted = (endedNumbers r.reports).card
  balance : r.stats.pathsCompleted + r.stats.pathsAbandoned + (numbers r.value).card =
    held.card + r.forks.length

/-- No number is held twice, and none is yet to be given out. -/
structure Issued (held : Multiset Nat) (next : Nat) : Prop where
  nodup : held.Nodup
  lt : ∀ n ∈ held, n < next

theorem issued_start : Issued {0} 1 := ⟨Multiset.nodup_singleton 0, by simp⟩

namespace Issued

variable {held held' : Multiset Nat} {next next' : Nat}

theorem mono (h : Issued held next) (hLe : held' ≤ held) : Issued held' next :=
  ⟨Multiset.nodup_of_le hLe h.nodup, fun n hn => h.lt n (Multiset.mem_of_le hLe hn)⟩

/-- With the numbers given out since. -/
theorem add_Ico (h : Issued held next) (hLe : next ≤ next') :
    Issued (held + Multiset.Ico next next') next' := by
  constructor
  · refine Multiset.nodup_add.mpr ⟨h.nodup, Multiset.nodup_Ico, Multiset.disjoint_left.mpr ?_⟩
    intro n hHeld hNew
    exact absurd (h.lt n hHeld) (not_lt.mpr (Multiset.mem_Ico.mp hNew).1)
  · intro n hn
    rcases Multiset.mem_add.mp hn with hHeld | hNew
    · exact (h.lt n hHeld).trans_le hLe
    · exact (Multiset.mem_Ico.mp hNew).2

end Issued

/-- Whatever number is next, an exploration that holds the given paths accounts for them. -/
def Explore.Accounted (limits : Limits) (held : Multiset Nat) (numbers : α → Multiset Nat)
    (m : Explore (Path (Traced σ ρ)) α) : Prop :=
  ∀ next, Issued held next → (m next).Accounts limits held next numbers

namespace Explored.Accounts

variable {limits : Limits} {held others : Multiset Nat} {next : Nat} {numbers : α → Multiset Nat}
  {numbers' : β → Multiset Nat} {first : Explored (Path (Traced σ ρ)) α}
  {second : Explored (Path (Traced σ ρ)) β}

/-- While some paths are taken further others wait. -/
theorem issued_waiting (h : first.Accounts limits held next numbers) (others : Multiset Nat) :
    numbers first.value + others + endedNumbers first.reports ≤
      held + others + Multiset.Ico next first.nextPath := by
  rw [add_right_comm, add_right_comm held]
  exact add_le_add_left h.issued others

theorem issued_value (h : first.Accounts limits held next numbers)
    (hIssued : Issued (held + others) next) : Issued (numbers first.value + others) first.nextPath :=
  (hIssued.add_Ico h.next_le).mono ((Multiset.le_add_right _ _).trans (h.issued_waiting others))

theorem Ico_add (h : first.Accounts limits held next numbers)
    (h' : second.Accounts limits (numbers first.value + others) first.nextPath numbers') :
    Multiset.Ico next first.nextPath + Multiset.Ico first.nextPath second.nextPath =
      Multiset.Ico next second.nextPath :=
  Multiset.Ico_add_Ico_eq_Ico h.next_le h'.next_le

theorem issued_append (h : first.Accounts limits held next numbers)
    (h' : second.Accounts limits (numbers first.value + others) first.nextPath numbers') :
    numbers' second.value + endedNumbers (first.reports ++ second.reports) ≤
      held + others + Multiset.Ico next second.nextPath :=
  calc
    numbers' second.value + endedNumbers (first.reports ++ second.reports)
    _ = numbers' second.value + endedNumbers second.reports + endedNumbers first.reports := by
      rw [endedNumbers_append, add_comm (endedNumbers first.reports), add_assoc]
    _ ≤ numbers first.value + others + Multiset.Ico first.nextPath second.nextPath +
        endedNumbers first.reports := add_le_add_left h'.issued _
    _ = numbers first.value + others + endedNumbers first.reports +
        Multiset.Ico first.nextPath second.nextPath := add_right_comm _ _ _
    _ ≤ held + others + Multiset.Ico next first.nextPath +
        Multiset.Ico first.nextPath second.nextPath := add_le_add_left (h.issued_waiting others) _
    _ = held + others + Multiset.Ico next second.nextPath := by rw [add_assoc, h.Ico_add h']

theorem shown_append (h : first.Accounts limits held next numbers)
    (h' : second.Accounts limits (numbers first.value + others) first.nextPath numbers') :
    ∀ p ∈ first.reports ++ second.reports,
      p.id ∈ held + others + Multiset.Ico next second.nextPath := by
  rw [← h.Ico_add h', ← add_assoc]
  refine List.forall_mem_append.mpr ⟨fun p hp => ?_, fun p hp => ?_⟩
  · refine Multiset.mem_of_le (Multiset.le_add_right _ _) ?_
    rw [add_right_comm]
    exact Multiset.mem_of_le (Multiset.le_add_right _ _) (h.shown p hp)
  · have hWaiting := (Multiset.le_add_right _ _).trans (h.issued_waiting others)
    exact Multiset.mem_of_le (add_le_add_left hWaiting _) (h'.shown p hp)

/-- Nothing that is shown later has the number of a path that was ended before: it either waited or
got a number of its own. -/
theorem silent_append (h : first.Accounts limits held next numbers)
    (h' : second.Accounts limits (numbers first.value + others) first.nextPath numbers')
    (hIssued : Issued (held + others) next) :
    (first.reports ++ second.reports).Pairwise fun p q => p.isEnded = true → q.id ≠ p.id := by
  refine List.pairwise_append.mpr ⟨h.silent, h'.silent, fun p hp q hq hEnded hSame => ?_⟩
  have hAll := (hIssued.add_Ico h.next_le).mono (h.issued_waiting others)
  have hGone := mem_endedNumbers hp hEnded
  have hLive := h'.shown q hq
  rw [hSame] at hLive
  rcases Multiset.mem_add.mp hLive with hWaited | hNew
  · exact Multiset.disjoint_left.mp (Multiset.nodup_add.mp hAll.nodup).2.2 hWaited hGone
  · have hOld := hAll.lt _ (Multiset.mem_add.mpr (.inr hGone))
    exact absurd hOld (not_lt.mpr (Multiset.mem_Ico.mp hNew).1)

end Explored.Accounts

namespace Explore

variable {limits : Limits} {held others : Multiset Nat} {numbers : α → Multiset Nat}
  {numbers' : β → Multiset Nat} {m : Explore (Path (Traced σ ρ)) α}
  {f : α → Explore (Path (Traced σ ρ)) β}

theorem Accounted.bind_waiting (hm : m.Accounted limits held numbers)
    (hf : ∀ a, (f a).Accounted limits (numbers a + others) numbers') :
    (m >>= f).Accounted limits (held + others) numbers' := by
  intro next hIssued
  have h := hm next (hIssued.mono (Multiset.le_add_right _ _))
  have h' := hf (m next).value (m next).nextPath (h.issued_value hIssued)
  rw [Explore.bind_apply]
  exact {
    next_le := h.next_le.trans h'.next_le
    nextPath_le := by
      have hFirst := h.nextPath_le
      have hSecond := h'.nextPath_le
      dsimp only
      omega
    issued := h.issued_append h'
    shown := h.shown_append h'
    silent := h.silent_append h' hIssued
    completed := by
      rw [endedNumbers_append, Multiset.card_add, ← h.completed, ← h'.completed]
      rfl
    balance := by
      have hFirst := h.balance
      have hSecond := h'.balance
      simp only [Multiset.card_add, Stats.add_def, List.length_append] at hSecond ⊢
      omega }

theorem Accounted.bind (hm : m.Accounted limits held numbers)
    (hf : ∀ a, (f a).Accounted limits (numbers a) numbers') :
    (m >>= f).Accounted limits held numbers' := by
  rw [← add_zero held]
  exact hm.bind_waiting fun a => (add_zero (numbers a)).symm ▸ hf a

theorem Accounted.congr {numbers' : α → Multiset Nat} (hm : m.Accounted limits held numbers)
    (h : ∀ next, numbers (m next).value = numbers' (m next).value) :
    m.Accounted limits held numbers' := by
  intro next hIssued
  have hAccounts := hm next hIssued
  exact { hAccounts with
    issued := h next ▸ hAccounts.issued
    balance := h next ▸ hAccounts.balance }

/-- What does nothing but count, and counts neither a path that was ended nor one given up. -/
theorem accounted_of_quiet {held : Multiset Nat} {stats : Stats} {a : α}
    (hStats : stats.pathsCompleted = 0 ∧ stats.pathsAbandoned = 0) (h : numbers a = held) :
    Accounted limits held numbers fun next =>
      (⟨a, next, [], stats, []⟩ : Explored (Path (Traced σ ρ)) α) := by
  subst h
  intro next _
  exact {
    next_le := le_rfl
    nextPath_le := le_max_left _ _
    issued := by simp [endedNumbers, numbersOf]
    shown := List.forall_mem_nil _
    silent := .nil
    completed := hStats.1
    balance := by simp [hStats] }

theorem accounted_pure {a : α} (h : numbers a = held) :
    (pure a : Explore (Path (Traced σ ρ)) α).Accounted limits held numbers :=
  accounted_of_quiet ⟨rfl, rfl⟩ h

theorem accounted_count {stats : Stats}
    (hStats : stats.pathsCompleted = 0 ∧ stats.pathsAbandoned = 0) :
    (count stats : Explore (Path (Traced σ ρ)) Unit).Accounted limits held fun _ => held :=
  accounted_of_quiet hStats rfl

theorem accounted_along {m : PathM (Traced σ ρ) (Path (Traced σ ρ)) α} (hStays : m.StaysOn)
    (hEnds : m.EndsNothing) (p : Path (Traced σ ρ)) :
    (along m p).Accounted limits {p.id} fun x => {x.2.id} := by
  intro next _
  obtain ⟨hPath, hShown⟩ := hStays p
  have hNone : endedNumbers (m p).reports = 0 := by
    rw [endedNumbers, (hEnds p p ⟨rfl, rfl, rfl⟩).2.2]
    rfl
  exact {
    next_le := le_rfl
    nextPath_le := le_max_left _ _
    issued := by simp [along, hNone, hPath]
    shown := fun q hq => by simp [along, hShown q hq]
    silent := List.pairwise_of_forall_mem_list fun q hq _ _ hEnded => by
      have hGone : q.id ∈ endedNumbers (m p).reports := mem_endedNumbers hq hEnded
      rw [hNone] at hGone
      cases hGone
    completed := by simp [along, hNone, Stats.zero_def]
    balance := by simp [along, Stats.zero_def] }

/-- Of a fork either both paths go on or one is refused. -/
theorem accounted_fork (p : Path (Traced σ ρ)) :
    (fork limits p : Explore (Path (Traced σ ρ)) _).Accounted limits {p.id}
      fun other => {p.id} + numbersOf other.toList := by
  intro next _
  unfold fork
  split
  · exact {
      next_le := le_rfl
      nextPath_le := le_max_left _ _
      issued := by simp [endedNumbers, numbersOf]
      shown := List.forall_mem_nil _
      silent := .nil
      completed := rfl
      balance := by simp [numbersOf, Stats.abandoned, Stats.zero] }
  · rename_i hRoom
    exact {
      next_le := Nat.le_succ next
      nextPath_le := by
        dsimp only
        omega
      issued := by simp [endedNumbers, numbersOf]
      shown := List.forall_mem_nil _
      silent := .nil
      completed := rfl
      balance := by simp [numbersOf, Stats.zero_def] }

theorem accounted_abandon (n : Nat) :
    (do count .abandoned; pure [] : Explore (Path (Traced σ ρ)) (List (Path (Traced σ ρ)))).Accounted
      limits {n} numbersOf := by
  intro next _
  exact {
    next_le := le_rfl
    nextPath_le := le_max_left _ _
    issued := by simp [Explore.bind_apply, count, pure_apply, endedNumbers, numbersOf]
    shown := List.forall_mem_nil _
    silent := .nil
    completed := rfl
    balance := rfl }

theorem accounted_forEach
    {g : Path (Traced σ ρ) → Explore (Path (Traced σ ρ)) (List (Path (Traced σ ρ)))}
    (h : ∀ p, (g p).Accounted limits {p.id} numbersOf) (ps : List (Path (Traced σ ρ))) :
    (forEach g ps).Accounted limits (numbersOf ps) numbersOf := by
  induction ps with
  | nil => exact accounted_pure rfl
  | cons p rest ih =>
    -- The rest wait while the first is taken further, and what comes of it while they are.
    rw [numbersOf_cons]
    refine (h p).bind_waiting fun these => ?_
    rw [add_comm]
    refine ih.bind_waiting fun others => accounted_pure ?_
    rw [numbersOf_append, add_comm]

end Explore

/-! ## Operations of the explorer -/

section

variable (frame : Frame) (limits : Limits) (check : PathCheck σ ρ)

theorem accounted_endPath (p : Path (Traced σ ρ)) :
    (endPath frame check.traced p).Accounted limits {p.id} numbersOf := by
  intro next _
  have hEnd : endPath frame check.traced p next =
      ⟨[], next, [], .completed, [(consult frame check.traced.atEnd p).path]⟩ := rfl
  have hNumber : endedNumbers [(consult frame check.traced.atEnd p).path] = {p.id} := by
    simp [endedNumbers, numbersOf, Path.isEnded, consult, PathCheck.traced, Traced.extend,
      Callback.isEnd]
  rw [hEnd]
  exact {
    next_le := le_rfl
    nextPath_le := le_max_left _ _
    issued := by simp [hNumber, numbersOf]
    shown := List.forall_mem_singleton.mpr (Multiset.mem_add.mpr (.inl (Multiset.mem_singleton_self _)))
    silent := List.pairwise_singleton _ _
    completed := by
      rw [hNumber]
      rfl
    balance := rfl }

theorem accounted_split (cond : Expr) (p : Path (Traced σ ρ)) :
    (split frame limits check.traced cond p).Accounted limits {p.id}
      fun x => numbersOf x.1.toList + numbersOf x.2.toList := by
  refine (accounted_along (staysOn_evaluate frame check cond)
    (evaluate_endsNothing frame check cond) p).bind ?_
  rintro ⟨value, p⟩
  dsimp only
  cases value with
  | nonNull => exact (accounted_count ⟨rfl, rfl⟩).bind fun _ => accounted_pure rfl
  | null => exact (accounted_count ⟨rfl, rfl⟩).bind fun _ => accounted_pure rfl
  | unknown =>
    refine (accounted_fork p).bind fun other => accounted_pure ?_
    cases other <;> rfl

theorem accounted_splitAll (cond : Expr) (ps : List (Path (Traced σ ρ))) :
    (splitAll frame limits check.traced cond ps).Accounted limits (numbersOf ps)
      fun x => numbersOf x.1 + numbersOf x.2 := by
  induction ps with
  | nil => exact accounted_pure rfl
  | cons p rest ih =>
    rw [numbersOf_cons]
    refine (accounted_split frame limits check cond p).bind_waiting ?_
    rintro ⟨enter, leave⟩
    rw [add_comm]
    refine ih.bind_waiting ?_
    rintro ⟨entering, leaving⟩
    refine accounted_pure ?_
    simp only [numbersOf_append]
    abel

theorem accounted_leaveLoop (cond : Expr) (p : Path (Traced σ ρ)) :
    (leaveLoop frame check.traced cond p).Accounted limits {p.id} numbersOf := by
  refine (accounted_along (staysOn_evaluate frame check cond)
    (evaluate_endsNothing frame check cond) p).bind ?_
  rintro ⟨value, p⟩
  dsimp only
  split
  · exact accounted_abandon p.id
  · exact accounted_pure rfl

theorem accounted_iterate (cond : Expr)
    {body : List (Path (Traced σ ρ)) → Explore _ (List (Path (Traced σ ρ)))}
    (hBody : ∀ ps, (body ps).Accounted limits (numbersOf ps) numbersOf) (bound : Nat)
    (ps : List (Path (Traced σ ρ))) :
    (iterate frame limits check.traced cond body bound ps).Accounted limits (numbersOf ps)
      numbersOf := by
  induction bound generalizing ps with
  | zero =>
    cases ps with
    | nil => exact accounted_pure rfl
    | cons p rest => exact accounted_forEach (accounted_leaveLoop frame limits check cond) (p :: rest)
  | succ bound ih =>
    cases ps with
    | nil => exact accounted_pure rfl
    | cons p rest =>
      refine (accounted_splitAll frame limits check cond (p :: rest)).bind ?_
      rintro ⟨entering, leaving⟩
      refine (hBody entering).bind_waiting fun looping => (ih looping).bind_waiting fun later =>
        accounted_pure ?_
      rw [numbersOf_append, add_comm]

mutual

theorem accounted_execute : ∀ (s : Stmt) (ps : List (Path (Traced σ ρ))),
    (execute frame limits check.traced s ps).Accounted limits (numbersOf ps) numbersOf
  | .expr e, ps =>
    accounted_forEach (fun p => (accounted_along (staysOn_evaluate frame check e)
      (evaluate_endsNothing frame check e) p).bind fun _ => accounted_pure rfl) ps
  | .block body, ps => accounted_executeAll body ps
  | .decl v, ps =>
    accounted_forEach (fun p => (accounted_along (staysOn_declare frame check v)
      (declare_endsNothing frame check v) p).bind fun _ => accounted_pure rfl) ps
  | .ret none, ps => accounted_forEach (accounted_endPath frame limits check) ps
  | .ret (some value), ps =>
    accounted_forEach (fun p => (accounted_along (staysOn_evaluate frame check value)
      (evaluate_endsNothing frame check value) p).bind fun x =>
        accounted_endPath frame limits check x.2) ps
  | .branch cond yes none, ps => by
    refine accounted_forEach (fun p => (accounted_split frame limits check cond p).bind ?_) ps
    rintro ⟨taken, other⟩
    refine (accounted_execute yes taken.toList).bind_waiting fun fromYes => accounted_pure ?_
    rw [numbersOf_append]
  | .branch cond yes (some no), ps => by
    refine accounted_forEach (fun p => (accounted_split frame limits check cond p).bind ?_) ps
    rintro ⟨taken, other⟩
    refine (accounted_execute yes taken.toList).bind_waiting fun fromYes => ?_
    rw [add_comm]
    refine (accounted_execute no other.toList).bind_waiting fun fromNo => accounted_pure ?_
    rw [numbersOf_append, add_comm]
  | .loop cond body, ps =>
    accounted_iterate frame limits check cond (accounted_execute body) _ ps

theorem accounted_executeAll : ∀ (ss : List Stmt) (ps : List (Path (Traced σ ρ))),
    (executeAll frame limits check.traced ss ps).Accounted limits (numbersOf ps) numbersOf
  | [], _ => accounted_pure rfl
  | s :: rest, ps => (accounted_execute s ps).bind fun paths => accounted_executeAll rest paths

end

theorem value_forEach_endPath (ps : List (Path σ)) (next : Nat) :
    (forEach (endPath frame check) ps next).value = [] := by
  induction ps generalizing next with
  | nil => rfl
  | cons p rest ih => exact ih next

variable {frame limits check}

theorem explore_accounts {body : Stmt} (hBody : frame.method.body = some body) :
    (explore frame limits check.traced).Accounts limits {0} 1 (fun _ => 0) := by
  have hEnds : ∀ live : List (Path (Traced σ ρ)), (forEach (endPath frame check.traced) live).Accounted
      limits (numbersOf live) fun _ => 0 := fun live =>
    (accounted_forEach (accounted_endPath frame limits check) live).congr fun next => by
      rw [value_forEach_endPath]
      rfl
  unfold explore
  rw [hBody]
  refine ((accounted_count ⟨rfl, rfl⟩).bind fun _ => ?_) 1 issued_start
  refine (accounted_execute frame limits check body [⟨0, ∅, .start check⟩]).bind fun live => ?_
  exact (hEnds live).bind fun _ => accounted_pure rfl

/-- No call follows the end of a path. -/
theorem isEnd_eq_false_of_mem_dropLast {p : Path (Traced σ ρ)}
    (hp : p ∈ (explore frame limits check.traced).reports) :
    ∀ call ∈ p.state.made.dropLast, call.isEnd = false := by
  let Open (t : Traced σ ρ) : Prop := ∀ call ∈ t.made, call.isEnd = false
  have hExtend : ∀ {t : Traced σ ρ} {call : Callback}, Open t → call.isEnd = false →
      Open (t.extend check call) :=
    fun hOpen hCall => List.forall_mem_append.mpr ⟨hOpen, List.forall_mem_singleton.mpr hCall⟩
  have hShow : ∀ {t : Traced σ ρ} (call : Callback) (n store), Open t →
      ∀ q ∈ [(⟨n, store, t.extend check call⟩ : Path (Traced σ ρ))],
        ∀ call ∈ q.state.made.dropLast, call.isEnd = false := by
    intro t call n store hOpen
    refine List.forall_mem_singleton.mpr ?_
    rw [Traced.extend, List.dropLast_concat]
    exact hOpen
  have hLockstep : Lockstep frame (fun _ => True) check.traced check.traced
      (fun s t => s = t ∧ Open t) (fun s t => s = t ∧ Open t)
      (fun ps _ => ∀ p ∈ ps, ∀ call ∈ p.state.made.dropLast, call.isEnd = false) := {
    nil := by simp
    append := fun h h' => List.forall_mem_append.mpr ⟨h, h'⟩
    start := ⟨rfl, List.forall_mem_nil _⟩
    fresh := id
    beforeEffect := by
      rintro t _ n store e - ⟨rfl, hOpen⟩
      exact ⟨⟨rfl, hExtend hOpen rfl⟩, hShow _ _ _ hOpen⟩
    afterSend := by
      rintro t _ n store m r receiver args - ⟨rfl, hOpen⟩
      exact ⟨⟨rfl, hExtend hOpen rfl⟩, hShow _ _ _ hOpen⟩
    assumed := by
      rintro t _ cond truth - ⟨rfl, hOpen⟩
      exact ⟨rfl, hExtend hOpen rfl⟩
    atEnd := by
      rintro t _ n store ⟨rfl, hOpen⟩
      exact hShow _ _ _ hOpen }
  exact (hLockstep.explore_alike limits fun _ _ _ _ => trivial).2.2.2 p hp

/-- Paths end under different numbers, each below the budget, and nothing is called for a path that has
ended. The paths counted as completed are those that ended, and with those given up they make one
more than the tests that were open both ways. These are the tests that came to nothing definite. -/
theorem path_accounting {body : Stmt} (hBody : frame.method.body = some body)
    (hBudget : 1 ≤ limits.maxPaths) :
    let shown := (explore frame limits check.traced).reports
    let explored := explore frame limits check
    ((shown.filter (·.isEnded)).map (·.id)).Nodup ∧
    (∀ p ∈ shown, p.isEnded = true → p.id < limits.maxPaths) ∧
    shown.Pairwise (fun p q => p.isEnded = true → q.id ≠ p.id) ∧
    (∀ p ∈ shown, ∀ call ∈ p.state.made.dropLast, call.isEnd = false) ∧
    explored.stats.pathsCompleted = (shown.filter (·.isEnded)).length ∧
    explored.stats.pathsCompleted ≤ limits.maxPaths ∧
    explored.stats.pathsCompleted + explored.stats.pathsAbandoned = 1 + explored.forks.length ∧
    explored.forks.length = (tests frame limits check body [⟨0, ∅, check.start⟩] 1).count .unknown := by
  intro shown explored
  have h := @explore_accounts _ _ frame limits check _ hBody
  obtain ⟨-, hForks, hStats, -⟩ := explore_traced frame limits check
  have hLast : (explore frame limits check.traced).nextPath ≤ limits.maxPaths :=
    h.nextPath_le.trans (max_le hBudget le_rfl)
  have hEnded := (Multiset.le_add_left _ _).trans h.issued
  have hNumbers := (issued_start.add_Ico h.next_le).mono hEnded
  have hCompleted := h.completed
  have hBalance := h.balance
  rw [hStats] at hCompleted
  rw [hStats, hForks] at hBalance
  have hLt : ∀ p ∈ shown, p.isEnded = true → p.id < limits.maxPaths := fun p hp hEnded =>
    (hNumbers.lt _ (mem_endedNumbers hp hEnded)).trans_le hLast
  refine ⟨hNumbers.nodup, hLt, h.silent, fun p hp => isEnd_eq_false_of_mem_dropLast hp, ?_, ?_, ?_,
    length_forks_explore hBody⟩
  · rw [hCompleted, endedNumbers, numbersOf, Multiset.coe_card, List.length_map]
  · have hCard := Multiset.card_le_card hEnded
    rw [← hCompleted, Multiset.card_add, Multiset.card_singleton] at hCard
    have hIco : (Multiset.Ico 1 (explore frame limits check.traced).nextPath).card =
        (explore frame limits check.traced).nextPath - 1 := Nat.card_Ico _ _
    have hFirst := h.next_le
    change (explore frame limits check).stats.pathsCompleted ≤ limits.maxPaths
    omega
  · simpa using hBalance

end

open Sample in
/-- With room for two paths only, `drain` has forks refused. -/
theorem drain_accounts_for_refused_forks :
    let paths := delegatePaths .default (knownFacts earlyReturn)
    let explored := explore (fooFrame earlyReturn 0) ⟨2, 2⟩ paths
    none ∈ explored.forks ∧ explored.stats.pathsCompleted ≤ 2 ∧
    explored.stats.pathsCompleted + explored.stats.pathsAbandoned = 1 + explored.forks.length ∧
    explored.forks.length = (tests (fooFrame earlyReturn 0) ⟨2, 2⟩ paths (.block drainBody)
      [⟨0, ∅, paths.start⟩] 1).count .unknown := by
  have hBody : (fooFrame earlyReturn 0).method.body = some (.block drainBody) := rfl
  obtain ⟨-, -, -, -, -, hBudget, hBalance, hTests⟩ := @path_accounting _ _ _ ⟨2, 2⟩
    (delegatePaths .default (knownFacts earlyReturn)) _ hBody (by decide)
  exact ⟨by decide +kernel, hBudget, hBalance, hTests⟩

end DelegateSafety
