import Mathlib.Algebra.BigOperators.Group.Multiset.Basic
import Mathlib.Tactic.Abel
import DelegateSafety.Proofs.Unrolling

/-! # What comes of a path

Without refusals it makes no difference to what an exploration gathers in which order it takes up paths.
A statement makes a `Harvest` of each path, which knows neither order nor numbers, and an exploration
gathers the harvests of all its paths (`gathers_execute`). It refuses a fork just if they are too many.
-/
namespace DelegateSafety

open PathM Explore

variable {σ ρ π α β γ : Type}

/-! ## Harvests -/

instance : AddCommMonoid Stats where
  add_assoc := Stats.add_assoc
  zero_add := Stats.zero_add
  add_zero := Stats.add_zero
  add_comm a b := by simp [Stats.add_def, Nat.add_comm]
  nsmul := nsmulRec

/-- What there is at the end, with what is filed, what is counted and how many tests are open both ways
until then. -/
@[ext] structure Harvest (π α : Type) where
  values : Multiset α
  reports : Multiset π
  stats : Stats
  forks : Nat

namespace Harvest

instance : Zero (Harvest π α) := ⟨⟨0, 0, 0, 0⟩⟩

instance : Add (Harvest π α) :=
  ⟨fun h k => ⟨h.values + k.values, h.reports + k.reports, h.stats + k.stats, h.forks + k.forks⟩⟩

instance : AddCommMonoid (Harvest π α) where
  add_assoc _ _ _ := Harvest.ext (add_assoc ..) (add_assoc ..) (add_assoc ..) (add_assoc ..)
  zero_add _ := Harvest.ext (zero_add _) (zero_add _) (zero_add _) (zero_add _)
  add_zero _ := Harvest.ext (add_zero _) (add_zero _) (add_zero _) (add_zero _)
  add_comm _ _ := Harvest.ext (add_comm ..) (add_comm ..) (add_comm ..) (add_comm ..)
  nsmul := nsmulRec

def only (values : Multiset α) : Harvest π α := ⟨values, 0, 0, 0⟩

def counted (stats : Stats) : Harvest π α := ⟨0, 0, stats, 0⟩

def forked (values : Multiset α) : Harvest π α := ⟨values, 0, 0, 1⟩

def withoutValues (h : Harvest π α) : Harvest π β := ⟨0, h.reports, h.stats, h.forks⟩

/-- What comes of the values takes their place. -/
def andThen (h : Harvest π α) (f : α → Harvest π β) : Harvest π β :=
  h.withoutValues + (h.values.map f).sum

theorem withoutValues_add (h k : Harvest π α) :
    (h + k).withoutValues = (h.withoutValues + k.withoutValues : Harvest π β) := rfl

theorem withoutValues_add_only (h : Harvest π α) (values : Multiset β) :
    h.withoutValues + only values = ⟨values, h.reports, h.stats, h.forks⟩ :=
  Harvest.ext (zero_add _) (add_zero _) (add_zero _) (add_zero _)

theorem only_add (s t : Multiset α) : (only (s + t) : Harvest π α) = only s + only t := rfl

theorem only_andThen (a : α) (f : α → Harvest π β) : (only {a}).andThen f = f a := by
  rw [andThen, only, Multiset.map_singleton, Multiset.sum_singleton]
  exact zero_add (f a)

theorem add_andThen (h k : Harvest π α) (f : α → Harvest π β) :
    (h + k).andThen f = h.andThen f + k.andThen f := by
  have hValues : (h + k).values = h.values + k.values := rfl
  rw [andThen, andThen, andThen, withoutValues_add, hValues, Multiset.map_add, Multiset.sum_add]
  exact add_add_add_comm _ _ _ _

theorem sum_andThen (s : Multiset γ) (g : γ → Harvest π α) (f : α → Harvest π β) :
    (s.map g).sum.andThen f = (s.map fun c => (g c).andThen f).sum := by
  induction s using Multiset.induction with
  | empty => rfl
  | cons c s ih => simp only [Multiset.map_cons, Multiset.sum_cons, add_andThen, ih]

theorem withoutValues_andThen (h : Harvest π γ) (f : α → Harvest π β) :
    (h.withoutValues : Harvest π α).andThen f = h.withoutValues := add_zero _

theorem andThen_assoc (h : Harvest π γ) (g : γ → Harvest π α) (f : α → Harvest π β) :
    (h.andThen g).andThen f = h.andThen fun c => (g c).andThen f := by
  have hFirst : h.andThen g = h.withoutValues + (h.values.map g).sum := rfl
  rw [hFirst, add_andThen, withoutValues_andThen, sum_andThen]
  rfl

theorem sum_only (s : Multiset α) : (s.map fun a => (only {a} : Harvest π α)).sum = only s := by
  induction s using Multiset.induction with
  | empty => rfl
  | cons a s ih => rw [Multiset.map_cons, Multiset.sum_cons, ih, ← only_add, Multiset.singleton_add]

theorem andThen_only (h : Harvest π α) (f : α → β) :
    (h.andThen fun a => only {f a}) = ⟨h.values.map f, h.reports, h.stats, h.forks⟩ := by
  have hSum : (h.values.map fun a => (only {f a} : Harvest π β)).sum = only (h.values.map f) := by
    rw [← sum_only, Multiset.map_map]
    rfl
  rw [andThen, hSum, withoutValues_add_only]

end Harvest

/-! ## Gathering -/

/-- A result brings home what the harvest says, and has used up a number for each fork. -/
structure Explored.Brings (erase : ρ → π) (view : α → Multiset β) (r : Explored ρ α) (next : Nat)
    (h : Harvest π β) : Prop where
  nextPath : r.nextPath = next + h.forks
  values : view r.value = h.values
  reports : (r.reports.map erase : Multiset π) = h.reports
  stats : r.stats = h.stats

/-- Whatever number is next, an exploration refuses no fork just if there is room for those of the harvest,
and then brings it home. -/
structure Explore.Gathers (room : Nat) (erase : ρ → π) (view : α → Multiset β) (m : Explore ρ α)
    (h : Harvest π β) : Prop where
  refuses_iff : ∀ next, none ∉ (m next).forks ↔ h.forks = 0 ∨ next + h.forks ≤ room
  brings : ∀ next, none ∉ (m next).forks → (m next).Brings erase view next h

namespace Explore

variable {room : Nat} {erase : ρ → π} {δ : Type} {view : α → Multiset β} {view' : γ → Multiset δ}
  {m : Explore ρ α} {f : α → Explore ρ γ} {h : Harvest π β} {k : Harvest π δ}

theorem gathers_pure {a : α} {values : Multiset β} (hValues : view a = values) :
    (pure a : Explore ρ α).Gathers room erase view (.only values) where
  refuses_iff _ := by simp [pure_apply, Harvest.only]
  brings _ _ := ⟨rfl, hValues, rfl, rfl⟩

theorem gathers_count (stats : Stats) :
    (count stats : Explore ρ Unit).Gathers room erase (fun _ => (0 : Multiset β)) (.counted stats) where
  refuses_iff _ := by simp [count, Harvest.counted]
  brings _ _ := ⟨rfl, rfl, rfl, rfl⟩

theorem Gathers.bind (hm : m.Gathers room erase view h)
    (hf : ∀ a, view a = h.values → (f a).Gathers room erase view' k) :
    (m >>= f).Gathers room erase view' (h.withoutValues + k) := by
  constructor
  · intro next
    have hForks : (h.withoutValues + k : Harvest π δ).forks = h.forks + k.forks := rfl
    rw [Explore.bind_apply, List.mem_append, not_or, hForks]
    have hFirst := hm.refuses_iff next
    by_cases hRoom : none ∈ (m next).forks
    · have hNone : ¬ none ∉ (m next).forks := not_not.mpr hRoom
      rw [hFirst] at hNone
      have hOver : ¬ (h.forks + k.forks = 0 ∨ next + (h.forks + k.forks) ≤ room) := by omega
      exact iff_of_false (fun hBoth => hBoth.1 hRoom) hOver
    · have hBrought := hm.brings next hRoom
      have hSecond := (hf _ hBrought.values).refuses_iff (m next).nextPath
      have hFits := hFirst.mp hRoom
      rw [hSecond, hBrought.nextPath, and_iff_right hRoom]
      omega
  · intro next hForks
    rw [Explore.bind_apply, List.mem_append, not_or] at hForks
    have hFirst := hm.brings next hForks.1
    have hSecond := (hf _ hFirst.values).brings _ hForks.2
    rw [Explore.bind_apply]
    constructor
    · have hNumber := hFirst.nextPath
      have hNumber' := hSecond.nextPath
      have hSum : (h.withoutValues + k : Harvest π δ).forks = h.forks + k.forks := rfl
      dsimp only
      omega
    · exact hSecond.values.trans (zero_add _).symm
    · rw [List.map_append, ← Multiset.coe_add, hFirst.reports, hSecond.reports]
      rfl
    · rw [hFirst.stats, hSecond.stats]
      rfl

theorem Gathers.andThen {g : β → Harvest π δ} (hm : m.Gathers room erase view h)
    (hf : ∀ a, (f a).Gathers room erase view' ((view a).map g).sum) :
    (m >>= f).Gathers room erase view' (h.andThen g) :=
  hm.bind fun a ha => ha ▸ hf a

theorem Gathers.join {n : Explore ρ γ} {view' : γ → Multiset β} {k : Harvest π β}
    (hm : m.Gathers room erase view h) (hn : n.Gathers room erase view' k) {η : Type} {combine : α → γ → η}
    {viewBoth : η → Multiset β} (hBoth : ∀ a c, viewBoth (combine a c) = view a + view' c) :
    (do let a ← m; let c ← n; pure (combine a c)).Gathers room erase viewBoth (h + k) := by
  have hSum : h + k = h.withoutValues + (k.withoutValues + .only (h.values + k.values)) := by
    have hParts (l : Harvest π β) : l = l.withoutValues + .only l.values :=
      (l.withoutValues_add_only l.values).symm
    rw [Harvest.only_add]
    nth_rewrite 1 [hParts h, hParts k]
    abel
  rw [hSum]
  refine hm.bind fun a ha => hn.bind fun c hc => gathers_pure ?_
  rw [hBoth, ha, hc]

theorem Gathers.joinValues {n : Explore ρ α} (hn : n.Gathers room erase view h) (values : Multiset β)
    {η : Type} {f : α → η} {viewBoth : η → Multiset β} (hBoth : ∀ a, viewBoth (f a) = view a + values) :
    (do let a ← n; pure (f a)).Gathers room erase viewBoth (h + Harvest.only values) := by
  have hPure : (pure () : Explore ρ Unit).Gathers room erase (fun _ => values) (.only values) :=
    gathers_pure rfl
  exact hn.join hPure fun a _ => hBoth a

end Explore

/-! ## Spots -/

/-- Where a path stands, but for its number. -/
abbrev Spot (σ : Type) : Type := Store × σ

def Path.spot (p : Path σ) : Spot σ := (p.store, p.state)

def Spot.path (x : Spot σ) : Path σ := ⟨0, x.1, x.2⟩

def spots (ps : List (Path σ)) : Multiset (Spot σ) := ps.map Path.spot

theorem spots_append (ps qs : List (Path σ)) : spots (ps ++ qs) = spots ps + spots qs := by
  rw [spots, List.map_append, ← Multiset.coe_add]
  rfl

/-- Paths on either side of a test. -/
def sides (ps qs : List (Path σ)) : Multiset (Bool × Spot σ) :=
  (spots ps).map (Prod.mk true) + (spots qs).map (Prod.mk false)

theorem sum_sides (ps qs : List (Path σ)) (f g : Spot σ → Harvest π α) :
    ((sides ps qs).map fun y => if y.1 then f y.2 else g y.2).sum =
      ((spots ps).map f).sum + ((spots qs).map g).sum := by
  simp [sides]

theorem sides_append (ps ps' qs qs' : List (Path σ)) :
    sides (ps ++ ps') (qs ++ qs') = sides ps qs + sides ps' qs' := by
  simp only [sides, spots_append, Multiset.map_add]
  abel

/-- What comes of a spot along one path. -/
def PathM.harvest (erase : ρ → π) (m : PathM σ ρ α) (x : Spot σ) : Harvest π (α × Spot σ) :=
  ⟨{((m x.path).value, (m x.path).path.spot)}, (m x.path).reports.map erase, 0, 0⟩

theorem PathM.harvest_map (erase : ρ → π) (m : PathM σ ρ α) (f : α → β) (x : Spot σ) :
    (do let a ← m; pure (f a) : PathM σ ρ β).harvest erase x =
      (m.harvest erase x).andThen fun y => .only {(f y.1, y.2)} := by
  simp only [Harvest.andThen_only, PathM.harvest, PathM.bind_apply, PathM.pure_apply, List.append_nil,
    Multiset.map_singleton]

namespace Explore

variable {room : Nat} {erase : ρ → π} {view : γ → Multiset β}

theorem gathers_along {m : PathM σ ρ α} (hm : m.Unnumbered erase) (p : Path σ) :
    (along m p).Gathers room erase (fun x => {(x.1, x.2.spot)}) (m.harvest erase p.spot) := by
  obtain ⟨hValue, hPath, hReports⟩ := hm p p.spot.path ⟨rfl, rfl⟩
  constructor
  · simp [along, PathM.harvest]
  · intro next _
    refine ⟨rfl, ?_, congrArg _ hReports, rfl⟩
    simp only [along, PathM.harvest, hValue, Path.spot, hPath.store, hPath.state]

theorem Gathers.follow {m : PathM σ ρ α} (hm : m.Unnumbered erase) (p : Path σ)
    {f : α × Path σ → Explore ρ γ} {g : α × Spot σ → Harvest π β}
    (hf : ∀ a q, (f (a, q)).Gathers room erase view (g (a, q.spot))) :
    (along m p >>= f).Gathers room erase view ((m.harvest erase p.spot).andThen g) := by
  refine (gathers_along hm p).andThen fun ⟨a, q⟩ => ?_
  rw [Multiset.map_singleton, Multiset.sum_singleton]
  exact hf a q

theorem Gathers.fromSides {m : Explore ρ α} {h : Harvest π (Bool × Spot σ)} {ins outs : α → List (Path σ)}
    (hm : m.Gathers room erase (fun a => sides (ins a) (outs a)) h) {f : α → Explore ρ γ}
    (g g' : Spot σ → Harvest π β) (hf : ∀ a, (f a).Gathers room erase view
      (((spots (ins a)).map g).sum + ((spots (outs a)).map g').sum)) :
    (m >>= f).Gathers room erase view (h.andThen fun y => if y.1 then g y.2 else g' y.2) :=
  hm.andThen fun a => (sum_sides (ins a) (outs a) g g').symm ▸ hf a

theorem gathers_forEach {f : Path σ → Explore ρ (List (Path σ))} {g : Spot σ → Harvest π (Spot σ)}
    (h : ∀ p, (f p).Gathers room erase spots (g p.spot)) (ps : List (Path σ)) :
    (forEach f ps).Gathers room erase spots ((spots ps).map g).sum := by
  induction ps with
  | nil => exact gathers_pure rfl
  | cons p rest ih =>
    have hSum : ((spots (p :: rest)).map g).sum = g p.spot + ((spots rest).map g).sum := by
      simp [spots]
    rw [hSum]
    exact (h p).join ih spots_append

end Explore

/-! ## Statements -/

section

variable (frame : Frame) (limits : Limits) (check : PathCheck σ ρ) (erase : ρ → π)

def assumeAt (cond : Expr) (truth : Bool) (x : Spot σ) : Spot σ :=
  (assume frame check cond truth x.path).spot

/-- The directions that a condition leaves open. -/
def testHarvest (cond : Expr) (x : Spot σ) : Harvest π (Bool × Spot σ) :=
  ((evaluate frame check cond).harvest erase x).andThen fun y =>
    let side (truth : Bool) := (truth, assumeAt frame check cond truth y.2)
    match y.1 with
    | .nonNull => .counted .pruned + .only {side true}
    | .null => .counted .pruned + .only {side false}
    | .unknown => .forked {side true, side false}

def leaveHarvest (cond : Expr) (x : Spot σ) : Harvest π (Spot σ) :=
  ((evaluate frame check cond).harvest erase x).andThen fun y =>
    if y.1 = .nonNull then .counted .abandoned else .only {assumeAt frame check cond false y.2}

def loopHarvest (cond : Expr) (body : Spot σ → Harvest π (Spot σ)) :
    (bound : Nat) → Spot σ → Harvest π (Spot σ)
  | 0, x => leaveHarvest frame check erase cond x
  | bound + 1, x => (testHarvest frame check erase cond x).andThen fun y =>
    if y.1 then (body y.2).andThen (loopHarvest cond body bound) else .only {y.2}

def endHarvest (x : Spot σ) : Harvest π (Spot σ) :=
  ((consult frame check.atEnd).harvest erase x).andThen fun _ => .counted .completed

mutual

def harvest : Stmt → Spot σ → Harvest π (Spot σ)
  | .expr e, x => ((evaluate frame check e).harvest erase x).andThen fun y => .only {y.2}
  | .block body, x => harvestAll body x
  | .decl v, x => ((declare frame check v).harvest erase x).andThen fun y => .only {y.2}
  | .ret none, x => endHarvest frame check erase x
  | .ret (some value), x => ((evaluate frame check value).harvest erase x).andThen fun y =>
    endHarvest frame check erase y.2
  | .branch cond yes none, x => (testHarvest frame check erase cond x).andThen fun y =>
    if y.1 then harvest yes y.2 else .only {y.2}
  | .branch cond yes (some no), x => (testHarvest frame check erase cond x).andThen fun y =>
    if y.1 then harvest yes y.2 else harvest no y.2
  | .loop cond body, x => loopHarvest frame check erase cond (harvest body) limits.maxLoopUnroll x

def harvestAll : List Stmt → Spot σ → Harvest π (Spot σ)
  | [], x => .only {x}
  | s :: rest, x => (harvest s x).andThen (harvestAll rest)

end

/-- What comes of a method from beginning to end. -/
def methodHarvest (body : Stmt) : Harvest π Unit :=
  .counted .method + ((harvest frame limits check erase body (∅, check.start)).andThen
    (endHarvest frame check erase)).withoutValues

end

/-! ## Exploration gathers the harvests -/

section

variable {check : PathCheck σ ρ} {erase : ρ → π} (H : check.Unnumbered erase) (frame : Frame)
  (limits : Limits)

theorem gathers_fork (p : Path σ) : (fork limits p : Explore ρ _).Gathers limits.maxPaths erase
    (fun other => spots other.toList) (.forked {p.spot}) := by
  constructor
  · intro next
    unfold fork
    split <;> simp [Harvest.forked] <;> omega
  · intro next hForks
    unfold fork at hForks ⊢
    split at hForks
    · simp at hForks
    · rename_i hRoom
      rw [if_neg hRoom]
      exact ⟨rfl, rfl, rfl, rfl⟩

include H

theorem gathers_endPath (p : Path σ) : (endPath frame check p).Gathers limits.maxPaths erase spots
    (endHarvest frame check erase p.spot) := by
  have hEnd := unnumbered_consult frame fun n n' store s => H.atEnd frame n n' store s
  refine Gathers.follow hEnd p fun _ q => ?_
  exact (gathers_count _).joinValues 0 fun _ => rfl

theorem gathers_split (cond : Expr) (p : Path σ) :
    (split frame limits check cond p).Gathers limits.maxPaths erase
      (fun x => sides x.1.toList x.2.toList) (testHarvest frame check erase cond p.spot) := by
  refine Gathers.follow (unnumbered_evaluate H frame cond) p fun value q => ?_
  dsimp only
  cases value with
  | nonNull => exact (gathers_count _).joinValues _ fun _ => rfl
  | null => exact (gathers_count _).joinValues _ fun _ => rfl
  | unknown =>
    have hForked (values : Multiset (Bool × Spot σ)) : (.forked values : Harvest π _) =
        (Harvest.forked {q.spot}).withoutValues + .only values :=
      (Harvest.withoutValues_add_only (.forked {q.spot}) values).symm
    dsimp only
    rw [hForked]
    refine (gathers_fork limits q).bind fun other hOther => gathers_pure ?_
    change spots other.toList = {q.spot} at hOther
    cases other with
    | none => simp [spots] at hOther
    | some r =>
      have hSpot : r.spot = q.spot := by simpa [spots] using hOther
      have hOut : (assume frame check cond false r).spot = assumeAt frame check cond false q.spot :=
        congrArg (assumeAt frame check cond false) hSpot
      simp only [sides, spots, Option.map_some, Option.toList_some, List.map_cons, List.map_nil,
        Multiset.coe_singleton, Multiset.map_singleton, hOut]
      rfl

theorem gathers_splitAll (cond : Expr) (ps : List (Path σ)) :
    (splitAll frame limits check cond ps).Gathers limits.maxPaths erase (fun x => sides x.1 x.2)
      ((spots ps).map (testHarvest frame check erase cond)).sum := by
  induction ps with
  | nil => exact gathers_pure rfl
  | cons p rest ih =>
    have hSum : ((spots (p :: rest)).map (testHarvest frame check erase cond)).sum =
        testHarvest frame check erase cond p.spot +
          ((spots rest).map (testHarvest frame check erase cond)).sum := by
      simp [spots]
    rw [hSum]
    exact (gathers_split H frame limits cond p).join ih fun _ _ => sides_append _ _ _ _

theorem gathers_leaveLoop (cond : Expr) (p : Path σ) :
    (leaveLoop frame check cond p).Gathers limits.maxPaths erase spots
      (leaveHarvest frame check erase cond p.spot) := by
  refine Gathers.follow (unnumbered_evaluate H frame cond) p fun value q => ?_
  dsimp only
  split
  · exact (gathers_count _).joinValues 0 fun _ => rfl
  · exact gathers_pure rfl

theorem gathers_iterate (cond : Expr) {body : List (Path σ) → Explore ρ (List (Path σ))}
    {bodyHarvest : Spot σ → Harvest π (Spot σ)}
    (hBody : ∀ ps, (body ps).Gathers limits.maxPaths erase spots ((spots ps).map bodyHarvest).sum)
    (hNil : body [] = pure []) (bound : Nat) (ps : List (Path σ)) :
    (iterate frame limits check cond body bound ps).Gathers limits.maxPaths erase spots
      ((spots ps).map (loopHarvest frame check erase cond bodyHarvest bound)).sum := by
  induction bound generalizing ps with
  | zero =>
    rw [iterate_zero]
    exact gathers_forEach (gathers_leaveLoop H frame limits cond) ps
  | succ bound ih =>
    rw [iterate_succ _ _ _ _ hNil]
    simp only [loopHarvest]
    rw [← Harvest.sum_andThen]
    refine (gathers_splitAll H frame limits cond ps).fromSides
      (fun y => (bodyHarvest y).andThen (loopHarvest frame check erase cond bodyHarvest bound))
      (fun y => .only {y}) fun ⟨entering, leaving⟩ => ?_
    rw [Harvest.sum_only, ← Harvest.sum_andThen]
    dsimp only
    -- Those that enter go through the body and all later rounds, those that leave are set aside.
    rw [← bind_assoc]
    refine ((hBody entering).andThen fun looping => ih looping).joinValues _ fun later => ?_
    rw [spots_append, add_comm]

end

section

variable {check : PathCheck σ ρ} {erase : ρ → π}

mutual

theorem gathers_execute (H : check.Unnumbered erase) (frame : Frame) (limits : Limits) :
    ∀ (s : Stmt) (ps : List (Path σ)),
    (execute frame limits check s ps).Gathers limits.maxPaths erase spots
      ((spots ps).map (harvest frame limits check erase s)).sum
  | .expr e, ps => gathers_forEach (fun p =>
      Gathers.follow (unnumbered_evaluate H frame e) p fun _ _ => gathers_pure rfl) ps
  | .block body, ps => gathers_executeAll H frame limits body ps
  | .decl v, ps => gathers_forEach (fun p =>
      Gathers.follow (unnumbered_declare H frame v) p fun _ _ => gathers_pure rfl) ps
  | .ret none, ps => gathers_forEach (gathers_endPath H frame limits) ps
  | .ret (some value), ps => gathers_forEach (fun p =>
      Gathers.follow (unnumbered_evaluate H frame value) p fun _ q => gathers_endPath H frame limits q) ps
  | .branch cond yes none, ps => by
    refine gathers_forEach (fun p => ?_) ps
    refine (gathers_split H frame limits cond p).fromSides (harvest frame limits check erase yes)
      (fun y => .only {y}) fun ⟨taken, other⟩ => ?_
    rw [Harvest.sum_only]
    exact (gathers_execute H frame limits yes taken.toList).joinValues _ fun _ => spots_append _ _
  | .branch cond yes (some no), ps => by
    refine gathers_forEach (fun p => ?_) ps
    refine (gathers_split H frame limits cond p).fromSides (harvest frame limits check erase yes)
      (harvest frame limits check erase no) fun ⟨taken, other⟩ => ?_
    exact (gathers_execute H frame limits yes taken.toList).join
      (gathers_execute H frame limits no other.toList) spots_append
  | .loop cond body, ps =>
    gathers_iterate H frame limits cond (gathers_execute H frame limits body) (execute_nil _ _ _ body) _ ps

theorem gathers_executeAll (H : check.Unnumbered erase) (frame : Frame) (limits : Limits) :
    ∀ (ss : List Stmt) (ps : List (Path σ)),
    (executeAll frame limits check ss ps).Gathers limits.maxPaths erase spots
      ((spots ps).map (harvestAll frame limits check erase ss)).sum
  | [], ps => by
    simp only [harvestAll, Harvest.sum_only]
    exact gathers_pure rfl
  | s :: rest, ps => by
    simp only [harvestAll]
    rw [← Harvest.sum_andThen]
    exact (gathers_execute H frame limits s ps).andThen (gathers_executeAll H frame limits rest)

end

/-- An exploration refuses no fork just if there is room for all that the method has, and then it gathers
what comes of the method. -/
theorem explore_gathers (H : check.Unnumbered erase) (frame : Frame) (limits : Limits) {body : Stmt}
    (hBody : frame.method.body = some body) :
    let h := methodHarvest frame limits check erase body
    (none ∉ (explore frame limits check).forks ↔ h.forks = 0 ∨ 1 + h.forks ≤ limits.maxPaths) ∧
      (none ∉ (explore frame limits check).forks →
        ((explore frame limits check).reports.map erase : Multiset π) = h.reports ∧
        (explore frame limits check).stats = h.stats) := by
  intro h
  have hGathers : (do
      count .method
      let live ← execute frame limits check body [⟨0, ∅, check.start⟩]
      let _ ← forEach (endPath frame check) live
      pure () : Explore ρ Unit).Gathers limits.maxPaths erase (fun _ => 0) h := by
    have hRun := (gathers_execute H frame limits body [⟨0, ∅, check.start⟩]).andThen
      (gathers_forEach (gathers_endPath H frame limits))
    have hStart : spots [⟨0, ∅, check.start⟩] = {(∅, check.start)} := rfl
    rw [hStart, Multiset.map_singleton, Multiset.sum_singleton] at hRun
    have hCount : (count .method : Explore ρ Unit).Gathers limits.maxPaths erase
        (fun _ => (0 : Multiset Unit)) (.counted .method) := gathers_count _
    refine hCount.bind fun _ _ => ?_
    rw [← bind_assoc, ← add_zero (Harvest.withoutValues _)]
    exact hRun.bind fun _ _ => gathers_pure rfl
  unfold explore
  rw [hBody]
  exact ⟨hGathers.refuses_iff 1, fun hForks =>
    ⟨(hGathers.brings 1 hForks).reports, (hGathers.brings 1 hForks).stats⟩⟩

end

end DelegateSafety
