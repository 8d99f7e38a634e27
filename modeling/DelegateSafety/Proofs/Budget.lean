import DelegateSafety.Proofs.Accounting
import DelegateSafety.Proofs.Filing

/-! # Two budgets

With a larger budget further paths come in between, and those that a smaller budget has room for stay as
they are. The exploration under the smaller budget is what the larger one makes of the paths with numbers
below it (`Explored.Restricts`): from the point where the smaller budget is used up, a new path is
numbered from it onward, and whatever comes of such a path is as well.
-/
namespace DelegateSafety

open PathM Explore

variable {σ ρ α β γ δ : Type}

/-! ## Below a bound -/

def below (cap : Nat) (ps : List (Path σ)) : List (Path σ) := ps.filter (·.id < cap)

section

variable {cap : Nat} {p : Path σ} {ps qs : List (Path σ)}

theorem below_append : below cap (ps ++ qs) = below cap ps ++ below cap qs := List.filter_append ..

theorem below_cons : below cap (p :: ps) = if p.id < cap then p :: below cap ps else below cap ps := by
  simp [below, List.filter_cons]

theorem below_eq_self (h : ∀ q ∈ ps, q.id < cap) : below cap ps = ps :=
  List.filter_eq_self.mpr fun q hq => decide_eq_true (h q hq)

theorem below_eq_nil (h : ∀ q ∈ ps, cap ≤ q.id) : below cap ps = [] :=
  List.filter_eq_nil_iff.mpr fun q hq => by simpa using h q hq

end

/-- The paths held under the smaller budget are those held under the larger one that it has room for. -/
structure Cut (cap : Nat) (ps qs : List (Path σ)) (next : Nat) : Prop where
  eq_below : ps = below cap qs
  lt : ∀ q ∈ qs, q.id < next

namespace Cut

variable {cap next next' : Nat} {p : Path σ} {ps ps' qs qs' : List (Path σ)}

theorem nil : Cut cap ([] : List (Path σ)) [] next := ⟨rfl, List.forall_mem_nil _⟩

theorem singleton (hCap : p.id < cap) (hNext : p.id < next) : Cut cap [p] [p] next :=
  ⟨by simp [below, hCap], List.forall_mem_singleton.mpr hNext⟩

theorem mono (h : Cut cap ps qs next) (hLe : next ≤ next') : Cut cap ps qs next' :=
  ⟨h.eq_below, fun q hq => (h.lt q hq).trans_le hLe⟩

theorem append (h : Cut cap ps qs next) (h' : Cut cap ps' qs' next) :
    Cut cap (ps ++ ps') (qs ++ qs') next :=
  ⟨by rw [below_append, h.eq_below, h'.eq_below], List.forall_mem_append.mpr ⟨h.lt, h'.lt⟩⟩

theorem of_beyond (h : ∀ n ∈ numbersOf qs, cap ≤ n ∧ n < next) : Cut cap [] qs next := by
  have hNumbers : ∀ q ∈ qs, cap ≤ q.id ∧ q.id < next := fun q hq =>
    h q.id (Multiset.mem_coe.mpr (List.mem_map_of_mem hq))
  exact ⟨(below_eq_nil fun q hq => (hNumbers q hq).1).symm, fun q hq => (hNumbers q hq).2⟩

end Cut

/-! ## Two explorations -/

/-- One exploration is the part of the other that has numbers below the cap. The relation on results
may depend on the next free number. -/
structure Explored.Restricts (cap next : Nat) (V : α → β → Nat → Prop)
    (small : Explored (Path (Traced σ ρ)) α) (large : Explored (Path (Traced σ ρ)) β) : Prop where
  next_le : next ≤ large.nextPath
  value : V small.value large.value large.nextPath
  nextPath : small.nextPath = min large.nextPath cap
  reports : small.reports = below cap large.reports

/-- From any free number onward. The one with the smaller budget stops counting at the cap. -/
def Explore.Restricts (cap since : Nat) (V : α → β → Nat → Prop)
    (small : Explore (Path (Traced σ ρ)) α) (large : Explore (Path (Traced σ ρ)) β) : Prop :=
  ∀ next, since ≤ next → (small (min next cap)).Restricts cap next V (large next)

namespace Explore

variable {cap since : Nat} {V : α → β → Nat → Prop} {W : γ → δ → Nat → Prop}

theorem restricts_pure {a : α} {b : β} (h : ∀ next, since ≤ next → V a b next) :
    Restricts cap since V (pure a : Explore (Path (Traced σ ρ)) α) (pure b) :=
  fun next hSince => ⟨le_rfl, h next hSince, rfl, rfl⟩

theorem restricts_count (stats : Stats) :
    Restricts cap since (fun _ _ _ => True) (count stats : Explore (Path (Traced σ ρ)) Unit)
      (count stats) :=
  fun _ _ => ⟨le_rfl, trivial, rfl, rfl⟩

theorem Restricts.bind {small : Explore (Path (Traced σ ρ)) α} {large : Explore (Path (Traced σ ρ)) β}
    {f : α → Explore (Path (Traced σ ρ)) γ} {g : β → Explore (Path (Traced σ ρ)) δ}
    (h : Restricts cap since V small large)
    (hRest : ∀ a b since', since ≤ since' → V a b since' → Restricts cap since' W (f a) (g b)) :
    Restricts cap since W (small >>= f) (large >>= g) := by
  intro next hSince
  obtain ⟨hLe, hValue, hNext, hReports⟩ := h next hSince
  obtain ⟨hLe', hValue', hNext', hReports'⟩ :=
    hRest _ _ (large next).nextPath (hSince.trans hLe) hValue _ le_rfl
  rw [← hNext] at hValue' hNext' hReports'
  simp only [Explore.bind_apply]
  exact ⟨hLe.trans hLe', hValue', hNext', by rw [below_append, hReports, hReports']⟩

theorem Restricts.reports_start {small : Explore (Path (Traced σ ρ)) α}
    {large : Explore (Path (Traced σ ρ)) β} (h : Restricts cap 1 V small large) (hCap : 1 ≤ cap) :
    (small 1).reports = below cap (large 1).reports := by
  have hReports := (h 1 le_rfl).reports
  rwa [Nat.min_eq_left hCap] at hReports

theorem restricts_along {m : PathM (Traced σ ρ) (Path (Traced σ ρ)) α} (hStays : m.StaysOn)
    {p : Path (Traced σ ρ)} (hCap : p.id < cap) :
    Restricts cap since (fun x y _ => x = y ∧ y.2.id = p.id) (along m p) (along m p) := by
  intro next _
  obtain ⟨hPath, hShown⟩ := hStays p
  have hReports : below cap (m p).reports = (m p).reports :=
    below_eq_self fun q hq => (hShown q hq).symm ▸ hCap
  exact ⟨le_rfl, ⟨rfl, hPath⟩, rfl, hReports.symm⟩

theorem restricts_goOn {m : PathM (Traced σ ρ) (Path (Traced σ ρ)) α} (hStays : m.StaysOn)
    {p : Path (Traced σ ρ)} (hCap : p.id < cap) (hSince : p.id < since) :
    Restricts cap since (Cut cap) (do let (_, p) ← along m p; pure [p])
      (do let (_, p) ← along m p; pure [p]) := by
  refine (restricts_along hStays hCap).bind ?_
  rintro ⟨_, p'⟩ _ since' hSince' ⟨rfl, hId⟩
  exact restricts_pure fun next hNext => Cut.singleton (hId.trans_lt hCap)
    (hId.trans_lt (hSince.trans_le (hSince'.trans hNext)))

/-- Nothing below the cap comes of a path beyond it. -/
theorem restricts_beyond {limits : Limits} {n : Nat} {numbers : β → Multiset Nat}
    {large : Explore (Path (Traced σ ρ)) β} (h : large.Accounted limits {n} numbers)
    (hCap : cap ≤ n) (hSince : n < since) {a : α}
    (hV : ∀ b next, (∀ k ∈ numbers b, cap ≤ k ∧ k < next) → V a b next) :
    Restricts cap since V (pure a) large := by
  intro next hNext
  have hIssued : Issued {n} next :=
    ⟨Multiset.nodup_singleton n, by simpa using hSince.trans_le hNext⟩
  have hAccounts := h next hIssued
  have hLe := hAccounts.next_le
  have hBeyond : ∀ k ∈ ({n} : Multiset Nat) + Multiset.Ico next (large next).nextPath,
      cap ≤ k ∧ k < (large next).nextPath := by
    simp only [Multiset.mem_add, Multiset.mem_singleton, Multiset.mem_Ico]
    omega
  have hValue : ∀ k ∈ numbers (large next).value, cap ≤ k ∧ k < (large next).nextPath := fun k hk =>
    hBeyond k (Multiset.mem_of_le ((Multiset.le_add_right _ _).trans hAccounts.issued) hk)
  have hReports : below cap (large next).reports = [] :=
    below_eq_nil fun q hq => (hBeyond q.id (hAccounts.shown q hq)).1
  refine ⟨hLe, hV _ _ hValue, ?_, hReports.symm⟩
  rw [Explore.pure_apply]
  dsimp only
  omega

theorem forEach_singleton
    (g : Path (Traced σ ρ) → Explore (Path (Traced σ ρ)) (List (Path (Traced σ ρ))))
    (p : Path (Traced σ ρ)) : forEach g [p] = g p := by
  simp [forEach]

theorem forEach_below_cons
    (f : Path (Traced σ ρ) → Explore (Path (Traced σ ρ)) (List (Path (Traced σ ρ))))
    (p : Path (Traced σ ρ)) (ps : List (Path (Traced σ ρ))) :
    forEach f (below cap (p :: ps)) = (do
      let these ← (if p.id < cap then f p else pure [] : Explore _ _)
      let others ← forEach f (below cap ps)
      pure (these ++ others)) := by
  rw [below_cons]
  split
  · rfl
  · simp

theorem restricts_forEach {limits : Limits}
    {f g : Path (Traced σ ρ) → Explore (Path (Traced σ ρ)) (List (Path (Traced σ ρ)))}
    (hWithin : ∀ p since, p.id < cap → p.id < since → Restricts cap since (Cut cap) (f p) (g p))
    (hBeyond : ∀ p, (forEach g [p]).Accounted limits (numbersOf [p]) numbersOf)
    {ps qs : List (Path (Traced σ ρ))} (hCut : Cut cap ps qs since) :
    Restricts cap since (Cut cap) (forEach f ps) (forEach g qs) := by
  obtain ⟨rfl, hLt⟩ := hCut
  induction qs generalizing since with
  | nil => exact restricts_pure fun _ _ => Cut.nil
  | cons q rest ih =>
    obtain ⟨hFirst, hRest⟩ := List.forall_mem_cons.mp hLt
    have hThese : Restricts cap since (Cut cap) (if q.id < cap then f q else pure []) (g q) := by
      split
      · rename_i hCap
        exact hWithin q since hCap hFirst
      · rename_i hCap
        have hAccounted := forEach_singleton g q ▸ hBeyond q
        exact restricts_beyond hAccounted (not_lt.mp hCap) hFirst fun _ _ => Cut.of_beyond
    rw [forEach_below_cons]
    refine hThese.bind fun these these' since' hSince hThese => ?_
    refine (ih fun p hp => (hRest p hp).trans_le hSince).bind
      fun others others' since'' hSince hOthers => ?_
    exact restricts_pure fun next hNext =>
      (hThese.mono (hSince.trans hNext)).append (hOthers.mono hNext)

end Explore

section

variable (frame : Frame) (check : PathCheck σ ρ) {cap budget : Nat} (unroll : Nat) {since : Nat}

theorem restricts_endPath {p : Path (Traced σ ρ)} (hCap : p.id < cap) :
    Restricts cap since (Cut cap) (endPath frame check.traced p) (endPath frame check.traced p) := by
  refine (restricts_along (staysOn_atEnd frame check) hCap).bind fun _ _ _ _ _ => ?_
  exact (restricts_count _).bind fun _ _ _ _ _ => restricts_pure fun _ _ => Cut.nil

/-- A test below the cap that is open both ways gets a second path below the cap, or one beyond it, or
none. -/
theorem restricts_split (hLe : cap ≤ budget) (cond : Expr) {p : Path (Traced σ ρ)}
    (hCap : p.id < cap) (hSince : p.id < since) :
    Restricts cap since
      (fun x y next => Cut cap x.1.toList y.1.toList next ∧ Cut cap x.2.toList y.2.toList next)
      (split frame ⟨cap, unroll⟩ check.traced cond p)
      (split frame ⟨budget, unroll⟩ check.traced cond p) := by
  intro next hNext
  obtain ⟨hPath, hShown⟩ := staysOn_evaluate frame check cond p
  have hReports : below cap (evaluate frame check.traced cond p).reports =
      (evaluate frame check.traced cond p).reports :=
    below_eq_self fun q hq => (hShown q hq).symm ▸ hCap
  have hSame : ∀ truth next', next ≤ next' →
      Cut cap [assume frame check.traced cond truth (evaluate frame check.traced cond p).path]
        [assume frame check.traced cond truth (evaluate frame check.traced cond p).path] next' :=
    fun truth next' hNext' => Cut.singleton (hPath.trans_lt hCap)
      (hPath.trans_lt (hSince.trans_le (hNext.trans hNext')))
  rw [split_apply, split_apply]
  dsimp only
  cases (evaluate frame check.traced cond p).value with
  | nonNull => exact ⟨le_rfl, ⟨hSame true next le_rfl, Cut.nil⟩, rfl, hReports.symm⟩
  | null => exact ⟨le_rfl, ⟨Cut.nil, hSame false next le_rfl⟩, rfl, hReports.symm⟩
  | unknown =>
    dsimp only
    by_cases hRoom : next < cap
    · rw [if_neg (by omega), if_neg (by omega)]
      refine ⟨Nat.le_succ next, ⟨hSame true _ (Nat.le_succ next), ?_⟩, ?_, hReports.symm⟩
      · rw [Nat.min_eq_left hRoom.le]
        exact Cut.singleton hRoom (Nat.lt_succ_self next)
      · dsimp only
        omega
    · rw [if_pos (by omega)]
      by_cases hOther : budget ≤ next
      · rw [if_pos hOther]
        exact ⟨le_rfl, ⟨hSame true next le_rfl, Cut.nil⟩, rfl, hReports.symm⟩
      · rw [if_neg hOther]
        refine ⟨Nat.le_succ next, ⟨hSame true _ (Nat.le_succ next), ?_⟩, ?_, hReports.symm⟩
        · exact Cut.of_beyond fun n hn => by
            obtain rfl : n = next := by simpa [numbersOf] using hn
            exact ⟨not_lt.mp hRoom, Nat.lt_succ_self n⟩
        · dsimp only
          omega

theorem splitAll_below_cons (limits : Limits) (cond : Expr) (p : Path (Traced σ ρ))
    (ps : List (Path (Traced σ ρ))) :
    splitAll frame limits check.traced cond (below cap (p :: ps)) = (do
      let (enter, leave) ← (if p.id < cap then split frame limits check.traced cond p
        else pure (none, none) : Explore _ _)
      let (entering, leaving) ← splitAll frame limits check.traced cond (below cap ps)
      pure (enter.toList ++ entering, leave.toList ++ leaving)) := by
  rw [below_cons]
  split
  · rfl
  · simp

theorem restricts_splitAll (hLe : cap ≤ budget) (cond : Expr) {ps qs : List (Path (Traced σ ρ))}
    (hCut : Cut cap ps qs since) :
    Restricts cap since (fun x y next => Cut cap x.1 y.1 next ∧ Cut cap x.2 y.2 next)
      (splitAll frame ⟨cap, unroll⟩ check.traced cond ps)
      (splitAll frame ⟨budget, unroll⟩ check.traced cond qs) := by
  obtain ⟨rfl, hLt⟩ := hCut
  induction qs generalizing since with
  | nil => exact restricts_pure fun _ _ => ⟨Cut.nil, Cut.nil⟩
  | cons q rest ih =>
    obtain ⟨hFirst, hRest⟩ := List.forall_mem_cons.mp hLt
    have hThese : Restricts cap since
        (fun x y next => Cut cap x.1.toList y.1.toList next ∧ Cut cap x.2.toList y.2.toList next)
        (if q.id < cap then split frame ⟨cap, unroll⟩ check.traced cond q else pure (none, none))
        (split frame ⟨budget, unroll⟩ check.traced cond q) := by
      split
      · rename_i hCap
        exact restricts_split frame check unroll hLe cond hCap hFirst
      · rename_i hCap
        refine restricts_beyond (accounted_split frame ⟨budget, unroll⟩ check cond q)
          (not_lt.mp hCap) hFirst fun _ _ hNumbers => ⟨?_, ?_⟩
        · exact Cut.of_beyond fun n hn => hNumbers n (Multiset.mem_add.mpr (.inl hn))
        · exact Cut.of_beyond fun n hn => hNumbers n (Multiset.mem_add.mpr (.inr hn))
    rw [splitAll_below_cons]
    refine hThese.bind ?_
    rintro ⟨_, _⟩ ⟨_, _⟩ since' hSince ⟨hEnter, hLeave⟩
    refine (ih fun p hp => (hRest p hp).trans_le hSince).bind ?_
    rintro ⟨_, _⟩ ⟨_, _⟩ since'' hSince ⟨hEntering, hLeaving⟩
    exact restricts_pure fun next hNext =>
      ⟨(hEnter.mono (hSince.trans hNext)).append (hEntering.mono hNext),
        (hLeave.mono (hSince.trans hNext)).append (hLeaving.mono hNext)⟩

theorem restricts_leaveLoop (cond : Expr) {p : Path (Traced σ ρ)} (hCap : p.id < cap)
    (hSince : p.id < since) :
    Restricts cap since (Cut cap) (leaveLoop frame check.traced cond p)
      (leaveLoop frame check.traced cond p) := by
  refine (restricts_along (staysOn_evaluate frame check cond) hCap).bind ?_
  rintro ⟨value, p'⟩ _ since' hSince' ⟨rfl, hId⟩
  dsimp only at hId ⊢
  split
  · exact (restricts_count _).bind fun _ _ _ _ _ => restricts_pure fun _ _ => Cut.nil
  · exact restricts_pure fun next hNext => Cut.singleton (hId.trans_lt hCap)
      (hId.trans_lt (hSince.trans_le (hSince'.trans hNext)))

/-! ## Without paths nothing is done -/

section

variable (limits : Limits)

theorem iterate_nil (cond : Expr)
    (body : List (Path σ) → Explore ρ (List (Path σ)))
    (bound : Nat) : iterate frame limits check cond body bound [] = pure [] := by
  cases bound <;> rfl

theorem iterate_zero (cond : Expr)
    (body : List (Path σ) → Explore ρ (List (Path σ)))
    (ps : List (Path σ)) :
    iterate frame limits check cond body 0 ps = forEach (leaveLoop frame check cond) ps := by
  cases ps <;> rfl

theorem iterate_succ (cond : Expr)
    {body : List (Path σ) → Explore ρ (List (Path σ))}
    (hBody : body [] = pure []) (bound : Nat) (ps : List (Path σ)) :
    iterate frame limits check cond body (bound + 1) ps = (do
      let (entering, leaving) ← splitAll frame limits check cond ps
      let looping ← body entering
      let later ← iterate frame limits check cond body bound looping
      pure (leaving ++ later)) := by
  cases ps with
  | nil => simp [iterate_nil, splitAll, hBody]
  | cons p rest => rfl

mutual

theorem execute_nil : ∀ s : Stmt, execute frame limits check s [] = pure []
  | .expr _ | .decl _ | .ret none | .ret (some _) | .branch _ _ none | .branch _ _ (some _) => rfl
  | .block body => executeAll_nil body
  | .loop _ _ => iterate_nil _ _ _ _ _ _

theorem executeAll_nil : ∀ ss : List Stmt, executeAll frame limits check ss [] = pure []
  | [] => rfl
  | s :: rest => by
    rw [executeAll, execute_nil s, pure_bind]
    exact executeAll_nil rest

end

end

/-! ## Statements -/

theorem restricts_iterate (hLe : cap ≤ budget) (cond : Expr)
    {body body' : List (Path (Traced σ ρ)) → Explore (Path (Traced σ ρ)) (List (Path (Traced σ ρ)))}
    (hBody : ∀ {ps qs since}, Cut cap ps qs since →
      Restricts cap since (Cut cap) (body ps) (body' qs))
    (hNil : body [] = pure []) (hNil' : body' [] = pure []) (bound : Nat)
    {ps qs : List (Path (Traced σ ρ))} (hCut : Cut cap ps qs since) :
    Restricts cap since (Cut cap) (iterate frame ⟨cap, unroll⟩ check.traced cond body bound ps)
      (iterate frame ⟨budget, unroll⟩ check.traced cond body' bound qs) := by
  induction bound generalizing ps qs since with
  | zero =>
    rw [iterate_zero, iterate_zero]
    exact restricts_forEach (fun p since => restricts_leaveLoop frame check cond)
      (fun p => accounted_forEach (accounted_leaveLoop frame ⟨budget, unroll⟩ check cond) [p]) hCut
  | succ bound ih =>
    rw [iterate_succ _ _ _ _ hNil, iterate_succ _ _ _ _ hNil']
    refine (restricts_splitAll frame check unroll hLe cond hCut).bind ?_
    rintro ⟨_, _⟩ ⟨_, _⟩ since' - ⟨hEntering, hLeaving⟩
    refine (hBody hEntering).bind fun _ _ since₁ hSince₁ hLooping => ?_
    refine (ih hLooping).bind fun _ _ since₂ hSince₂ hLater => restricts_pure fun next hNext => ?_
    exact (hLeaving.mono (hSince₁.trans (hSince₂.trans hNext))).append (hLater.mono hNext)

mutual

theorem restricts_execute (hLe : cap ≤ budget) : ∀ (s : Stmt) {since : Nat}
    {ps qs : List (Path (Traced σ ρ))}, Cut cap ps qs since →
    Restricts cap since (Cut cap) (execute frame ⟨cap, unroll⟩ check.traced s ps)
      (execute frame ⟨budget, unroll⟩ check.traced s qs)
  | .expr e, _, _, _, hCut =>
    restricts_forEach (fun p since => restricts_goOn (staysOn_evaluate frame check e))
      (fun p => accounted_execute frame ⟨budget, unroll⟩ check (.expr e) [p]) hCut
  | .block body, _, _, _, hCut => restricts_executeAll hLe body hCut
  | .decl v, _, _, _, hCut =>
    restricts_forEach (fun p since => restricts_goOn (staysOn_declare frame check v))
      (fun p => accounted_execute frame ⟨budget, unroll⟩ check (.decl v) [p]) hCut
  | .ret none, _, _, _, hCut =>
    restricts_forEach (fun p since hCap _ => restricts_endPath frame check hCap)
      (fun p => accounted_execute frame ⟨budget, unroll⟩ check (.ret none) [p]) hCut
  | .ret (some value), _, _, _, hCut => by
    refine restricts_forEach (fun p since hCap hSince => ?_)
      (fun p => accounted_execute frame ⟨budget, unroll⟩ check (.ret (some value)) [p]) hCut
    refine (restricts_along (staysOn_evaluate frame check value) hCap).bind ?_
    rintro ⟨_, p'⟩ _ since' hSince' ⟨rfl, hId⟩
    exact restricts_endPath frame check (hId.trans_lt hCap)
  | .branch cond yes none, _, _, _, hCut => by
    refine restricts_forEach (fun p since hCap hSince => ?_)
      (fun p => accounted_execute frame ⟨budget, unroll⟩ check (.branch cond yes none) [p]) hCut
    refine (restricts_split frame check unroll hLe cond hCap hSince).bind ?_
    rintro ⟨_, _⟩ ⟨_, _⟩ since₁ - ⟨hTaken, hOther⟩
    refine (restricts_execute hLe yes hTaken).bind fun _ _ since₂ hSince₂ hYes =>
      restricts_pure fun next hNext => ?_
    exact (hYes.mono hNext).append (hOther.mono (hSince₂.trans hNext))
  | .branch cond yes (some no), _, _, _, hCut => by
    refine restricts_forEach (fun p since hCap hSince => ?_)
      (fun p => accounted_execute frame ⟨budget, unroll⟩ check (.branch cond yes (some no)) [p]) hCut
    refine (restricts_split frame check unroll hLe cond hCap hSince).bind ?_
    rintro ⟨_, _⟩ ⟨_, _⟩ since₁ - ⟨hTaken, hOther⟩
    refine (restricts_execute hLe yes hTaken).bind fun _ _ since₂ hSince₂ hYes => ?_
    refine (restricts_execute hLe no (hOther.mono hSince₂)).bind fun _ _ since₃ hSince₃ hNo =>
      restricts_pure fun next hNext => ?_
    exact (hYes.mono (hSince₃.trans hNext)).append (hNo.mono hNext)
  | .loop cond body, _, _, _, hCut =>
    restricts_iterate frame check unroll hLe cond (fun h => restricts_execute hLe body h)
      (execute_nil _ _ _ body) (execute_nil _ _ _ body) unroll hCut

theorem restricts_executeAll (hLe : cap ≤ budget) : ∀ (ss : List Stmt) {since : Nat}
    {ps qs : List (Path (Traced σ ρ))}, Cut cap ps qs since →
    Restricts cap since (Cut cap) (executeAll frame ⟨cap, unroll⟩ check.traced ss ps)
      (executeAll frame ⟨budget, unroll⟩ check.traced ss qs)
  | [], _, _, _, hCut => restricts_pure fun _ hNext => hCut.mono hNext
  | s :: rest, _, _, _, hCut =>
    (restricts_execute hLe s hCut).bind fun _ _ _ _ hPaths => restricts_executeAll hLe rest hPaths

end

theorem reports_traced_below (hCap : 1 ≤ cap) (hLe : cap ≤ budget) :
    (explore frame ⟨cap, unroll⟩ check.traced).reports =
      below cap (explore frame ⟨budget, unroll⟩ check.traced).reports := by
  have hEnds : ∀ {since} {ps qs : List (Path (Traced σ ρ))}, Cut cap ps qs since →
      Restricts cap since (Cut cap) (forEach (endPath frame check.traced) ps)
        (forEach (endPath frame check.traced) qs) := fun hCut =>
    restricts_forEach (fun p since h _ => restricts_endPath frame check h)
      (fun p => accounted_forEach (accounted_endPath frame ⟨budget, unroll⟩ check) [p]) hCut
  unfold explore
  cases frame.method.body with
  | none => rfl
  | some body =>
    have hStart : Cut cap [(⟨0, ∅, .start check⟩ : Path (Traced σ ρ))] [⟨0, ∅, .start check⟩] 1 :=
      Cut.singleton hCap Nat.one_pos
    dsimp only
    refine Restricts.reports_start (V := fun _ _ _ => True) ?_ hCap
    refine (restricts_count _).bind fun _ _ since hSince _ => ?_
    refine (restricts_execute frame check unroll hLe body (hStart.mono hSince)).bind
      fun _ _ _ _ hLive => ?_
    exact (hEnds hLive).bind fun _ _ _ _ _ => restricts_pure fun _ _ => trivial

/-! ## Reports -/

/-- The number of the path on which a finding was established. -/
def Diagnostic.path? (d : Diagnostic) : Option Nat :=
  match d.context with
  | .declaration _ => none
  | .path _ _ n => some n

variable {frame unroll} {config : DelegateConfig} {known : FactsByClass}

theorem path?_of_mem_filed {limits : Limits} {p : Path (Traced DelegateState Diagnostic)}
    (hp : p ∈ (explore frame limits (delegatePaths config known).traced).reports)
    {d : Diagnostic} (hd : d ∈ p.state.filed) : d.path? = some p.id := by
  obtain ⟨-, before, call, hMade, -⟩ := isShown_of_mem_traced _ _ _ hp
  have hSites := site_of_mem_traced hp
  rw [filed_of_mem_traced hp, hMade, PathCheck.filed_concat] at hd
  rw [hMade, List.getLast?_concat] at hSites
  obtain ⟨site, hSite, facts, -, r, -, property, -, -, rfl⟩ := mem_filed_iff.mp hd
  rw [hSites call rfl site hSite]
  rfl

theorem flatMap_filed_below {ps : List (Path (Traced DelegateState Diagnostic))}
    (h : ∀ p ∈ ps, ∀ d ∈ p.state.filed, d.path? = some p.id) :
    (below cap ps).flatMap (·.state.filed) =
      (ps.flatMap (·.state.filed)).filter (·.path?.any (· < cap)) := by
  induction ps with
  | nil => rfl
  | cons p rest ih =>
    obtain ⟨hFirst, hRest⟩ := List.forall_mem_cons.mp h
    rw [List.flatMap_cons, List.filter_append, ← ih hRest, below_cons]
    split
    · rename_i hWithin
      have hAll : p.state.filed.filter (·.path?.any (· < cap)) = p.state.filed :=
        List.filter_eq_self.mpr fun d hd => by simpa [hFirst d hd] using hWithin
      rw [List.flatMap_cons, hAll]
    · rename_i hBeyond
      have hNone : p.state.filed.filter (·.path?.any (· < cap)) = [] :=
        List.filter_eq_nil_iff.mpr fun d hd => by simpa [hFirst d hd] using hBeyond
      rw [hNone, List.nil_append]

theorem reports_below (hCap : 1 ≤ cap) (hLe : cap ≤ budget) :
    (explore frame ⟨cap, unroll⟩ (delegatePaths config known)).reports =
      (explore frame ⟨budget, unroll⟩ (delegatePaths config known)).reports.filter
        (·.path?.any (· < cap)) := by
  obtain ⟨-, -, -, hSmall⟩ := explore_traced frame ⟨cap, unroll⟩ (delegatePaths config known)
  obtain ⟨-, -, -, hLarge⟩ := explore_traced frame ⟨budget, unroll⟩ (delegatePaths config known)
  rw [← hSmall, ← hLarge, reports_traced_below frame _ unroll hCap hLe]
  exact flatMap_filed_below fun p hp d hd => path?_of_mem_filed hp hd

end

/-- A smaller budget takes from the paths that come to their ends, and from the reports of a method,
those with larger numbers and leaves the others as they are. -/
theorem smaller_budget_keeps_paths_below (frame : Frame) (check : PathCheck σ ρ)
    (config : DelegateConfig) (known : FactsByClass) {cap budget : Nat} (hCap : 1 ≤ cap)
    (hLe : cap ≤ budget) (unroll : Nat) :
    let ended (maxPaths : Nat) :=
      (explore frame ⟨maxPaths, unroll⟩ check.traced).reports.filter (·.isEnded)
    let filed (maxPaths : Nat) :=
      (explore frame ⟨maxPaths, unroll⟩ (delegatePaths config known)).reports
    ended cap = (ended budget).filter (·.id < cap) ∧
    filed cap = (filed budget).filter (·.path?.any (· < cap)) := by
  refine ⟨?_, reports_below hCap hLe⟩
  dsimp only
  rw [reports_traced_below frame check unroll hCap hLe]
  exact List.filter_comm ..

namespace Sample

/-- `self` is stored in `init`, and `drain` replaces the field unless it is left early. -/
def replacedAfterDrain : SourceUnit :=
  let bar : Expr := .field "_bar" .unknown
  delegatePair [
    method "init" [.expr (setProperty bar "delegate" (.self .unknown))],
    method "drain" (drainBody ++ [.expr (.assign bar (.var "other" none .unknown) .unknown)])]

end Sample

open Sample in
/-- With room for two paths `drain` is seen to replace the field once, with more room three times. -/
theorem drain_with_room_for_two :
    let filed (maxPaths : Nat) := (explore (fooFrame replacedAfterDrain 1) ⟨maxPaths, 2⟩
      (delegatePaths .default (knownFacts replacedAfterDrain))).reports
    (filed 2).length = 1 ∧ (filed 512).length = 3 ∧
    filed 2 = (filed 512).filter (·.path?.any (· < 2)) := by
  have hBelow := @smaller_budget_keeps_paths_below _ _ (fooFrame replacedAfterDrain 1)
    (delegatePaths .default (knownFacts replacedAfterDrain)) .default
    (knownFacts replacedAfterDrain) 2 512 (by decide) (by decide) 2
  exact ⟨by decide +kernel, by decide +kernel, hBelow.2⟩

end DelegateSafety
