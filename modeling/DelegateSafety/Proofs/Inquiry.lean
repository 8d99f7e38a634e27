import Mathlib.Data.Multiset.Bind

/-! # Computations that ask for directions

A run of a program whose tests may go either way is a computation that asks. It can be given its
directions in advance (`Inquiry.follow`), or all directions can be tried and the leaves gathered
(`Inquiry.Leaves`). Both come to the same (`Leaves.exists_number`).
-/
namespace DelegateSafety

/-- A computation that may ask whether to go on. If it is to leave instead it is given a number. -/
inductive Inquiry (α : Type) where
  | done (a : α)
  | ask (enter : Inquiry α) (leave : Nat → Inquiry α)

namespace Inquiry

variable {α β γ : Type}

def bind : Inquiry α → (α → Inquiry β) → Inquiry β
  | done a, f => f a
  | ask enter leave, f => ask (enter.bind f) fun n => (leave n).bind f

instance : Monad Inquiry where
  pure := done
  bind := bind

theorem done_bind (a : α) (f : α → Inquiry β) : done a >>= f = f a := rfl

/-- The result under given directions, if they are neither too few nor too many. The number given
on leaving may depend on all directions so far. -/
def follow : (List Bool → Nat) → Inquiry α → List Bool → Option α
  | _, done a, [] => some a
  | _, done _, _ :: _ => none
  | _, ask _ _, [] => none
  | number, ask enter _, true :: later => follow (fun bs => number (true :: bs)) enter later
  | number, ask _ leave, false :: later =>
    follow (fun bs => number (false :: bs)) (leave (number [false])) later

/-- No number is given before the first direction. -/
theorem follow_congr {number number' : List Bool → Nat} (h : ∀ bs, bs ≠ [] → number bs = number' bs)
    (t : Inquiry α) (bs : List Bool) : follow number t bs = follow number' t bs := by
  induction t generalizing number number' bs with
  | done a => cases bs <;> rfl
  | ask enter leave ihEnter ihLeave =>
    match bs with
    | [] => rfl
    | true :: later => exact ihEnter (fun bs _ => h _ (List.cons_ne_nil true bs)) later
    | false :: later =>
      simp only [follow]
      rw [h [false] (List.cons_ne_nil _ _)]
      exact ihLeave _ (fun bs _ => h _ (List.cons_ne_nil false bs)) later

/-- All results, each with the directions that lead to it, when `before` have been given already. -/
inductive Leaves : Inquiry α → (before : List Bool) → Multiset (List Bool × α) → Prop
  | done (a : α) (before : List Bool) : Leaves (done a) before {(before, a)}
  | ask {enter : Inquiry α} {leave : Nat → Inquiry α} {before : List Bool}
    {entering leaving : Multiset (List Bool × α)} (n : Nat)
    (hEnter : Leaves enter (before ++ [true]) entering)
    (hLeave : Leaves (leave n) (before ++ [false]) leaving) :
    Leaves (ask enter leave) before (entering + leaving)

/-- All results of going on from each of several starts. -/
def LeavesAll (f : α → Inquiry β) (starts : Multiset (List Bool × α))
    (leaves : Multiset (List Bool × β)) : Prop :=
  ∃ parts, Multiset.Rel (fun start part => Leaves (f start.2) start.1 part) starts parts ∧
    parts.join = leaves

namespace LeavesAll

variable {f : α → Inquiry β} {g : β → Inquiry γ} {starts starts' : Multiset (List Bool × α)}
  {mid mid' : Multiset (List Bool × β)} {leaves : Multiset (List Bool × γ)}

theorem zero (f : α → Inquiry β) : LeavesAll f 0 0 :=
  ⟨0, Multiset.rel_zero_left.mpr rfl, rfl⟩

theorem zero_iff : LeavesAll f 0 mid ↔ mid = 0 := by
  constructor
  · rintro ⟨parts, hParts, rfl⟩
    rw [Multiset.rel_zero_left.mp hParts]
    rfl
  · rintro rfl
    exact zero f

theorem add (h : LeavesAll f starts mid) (h' : LeavesAll f starts' mid') :
    LeavesAll f (starts + starts') (mid + mid') := by
  obtain ⟨parts, hParts, rfl⟩ := h
  obtain ⟨parts', hParts', rfl⟩ := h'
  exact ⟨parts + parts', hParts.add hParts', Multiset.join_add _ _⟩

theorem of_add (h : LeavesAll f (starts + starts') mid) :
    ∃ these those, LeavesAll f starts these ∧ LeavesAll f starts' those ∧ mid = these + those := by
  obtain ⟨parts, hParts, rfl⟩ := h
  obtain ⟨ps, qs, hPs, hQs, rfl⟩ := Multiset.rel_add_left.mp hParts
  exact ⟨ps.join, qs.join, ⟨ps, hPs, rfl⟩, ⟨qs, hQs, rfl⟩, Multiset.join_add _ _⟩

theorem singleton_iff {bs : List Bool} {a : α} :
    LeavesAll f {(bs, a)} mid ↔ Leaves (f a) bs mid := by
  constructor
  · rintro ⟨parts, hParts, rfl⟩
    obtain ⟨part, rest, hPart, hRest, rfl⟩ := Multiset.rel_cons_left.mp hParts
    rw [Multiset.rel_zero_left.mp hRest, Multiset.join_cons, Multiset.join_zero, add_zero]
    exact hPart
  · intro h
    exact ⟨{mid}, Multiset.Rel.cons h .zero, Multiset.singleton_join _⟩

theorem cons {bs : List Bool} {a : α} {part : Multiset (List Bool × β)}
    (h : Leaves (f a) bs part) (hRest : LeavesAll f starts mid) :
    LeavesAll f ((bs, a) ::ₘ starts) (part + mid) := by
  rw [← Multiset.singleton_add]
  exact add (singleton_iff.mpr h) hRest

theorem done (g : α → β) (starts : Multiset (List Bool × α)) :
    LeavesAll (fun a => .done (g a)) starts (starts.map fun start => (start.1, g start.2)) := by
  induction starts using Multiset.induction with
  | empty => exact zero _
  | cons start rest ih =>
    rw [Multiset.map_cons, ← Multiset.singleton_add]
    exact cons (f := fun a => Inquiry.done (g a)) (.done _ _) ih

theorem map_iff {h : γ → α} {origins : Multiset (List Bool × γ)} :
    LeavesAll f (origins.map fun origin => (origin.1, h origin.2)) mid ↔
      LeavesAll (fun c => f (h c)) origins mid := by
  simp only [LeavesAll, Multiset.rel_map_left]

end LeavesAll

theorem Leaves.bind {t : Inquiry α} {before : List Bool} {mid : Multiset (List Bool × α)}
    (h : Leaves t before mid) {f : α → Inquiry β} {leaves : Multiset (List Bool × β)}
    (hAll : LeavesAll f mid leaves) : Leaves (t >>= f) before leaves := by
  induction h generalizing leaves with
  | done a before =>
    rw [done_bind]
    exact LeavesAll.singleton_iff.mp hAll
  | ask n _ _ ihEnter ihLeave =>
    obtain ⟨these, those, hThese, hThose, rfl⟩ := hAll.of_add
    exact .ask n (ihEnter hThese) (ihLeave hThose)

theorem LeavesAll.bind {f : α → Inquiry β} {g : β → Inquiry γ}
    {starts : Multiset (List Bool × α)} {mid : Multiset (List Bool × β)}
    {leaves : Multiset (List Bool × γ)} (h : LeavesAll f starts mid)
    (hAll : LeavesAll g mid leaves) : LeavesAll (fun a => f a >>= g) starts leaves := by
  obtain ⟨parts, hParts, rfl⟩ := h
  induction hParts generalizing leaves with
  | zero =>
    rw [Multiset.join_zero, LeavesAll.zero_iff] at hAll
    exact hAll ▸ LeavesAll.zero _
  | cons hPart _ ih =>
    rw [Multiset.join_cons] at hAll
    obtain ⟨these, those, hThese, hThose, rfl⟩ := hAll.of_add
    exact LeavesAll.cons (hPart.bind hThese) (ih hThose)

def joinNumbers (n : Nat) (entering leaving : List Bool → Nat) : List Bool → Nat
  | true :: bs => entering bs
  | [false] => n
  | false :: bs => leaving bs
  | [] => 0

theorem follow_joinNumbers (n : Nat) (entering leaving : List Bool → Nat) (t : Inquiry α)
    (bs : List Bool) :
    follow (fun bs => joinNumbers n entering leaving (false :: bs)) t bs = follow leaving t bs := by
  refine follow_congr (fun bs hBs => ?_) t bs
  obtain ⟨b, later, rfl⟩ := List.exists_cons_of_ne_nil hBs
  rfl

/-- The numbers that were given are those of some numbering, and under it the leaves are exactly
what the computation comes to, each direction sequence counting once. -/
theorem Leaves.exists_number {t : Inquiry α} {before : List Bool}
    {leaves : Multiset (List Bool × α)} (h : Leaves t before leaves) :
    ∃ (number : List Bool → Nat) (runs : List (List Bool × α)),
      (runs.map Prod.fst).Nodup ∧ (∀ bs a, (bs, a) ∈ runs ↔ follow number t bs = some a) ∧
      leaves = runs.map fun run => (before ++ run.1, run.2) := by
  induction h with
  | done a before =>
    refine ⟨fun _ => 0, [([], a)], List.nodup_singleton _, ?_, ?_⟩
    · intro bs b
      cases bs <;> simp [follow, eq_comm]
    · simp
  | @ask enter leave before entering leaving n _ _ ihEnter ihLeave =>
    obtain ⟨number, runs, hNodup, hRuns, rfl⟩ := ihEnter
    obtain ⟨number', runs', hNodup', hRuns', rfl⟩ := ihLeave
    refine ⟨joinNumbers n number number', runs.map (fun run => (true :: run.1, run.2)) ++
      runs'.map (fun run => (false :: run.1, run.2)), ?_, ?_, ?_⟩
    · have hTags (b : Bool) (some : List (List Bool × α)) :
          (some.map fun run => (b :: run.1, run.2)).map Prod.fst =
            (some.map Prod.fst).map (List.cons b) := by
        simp [Function.comp_def]
      rw [List.map_append, hTags, hTags, List.nodup_append]
      refine ⟨hNodup.map List.cons_injective, hNodup'.map List.cons_injective, ?_⟩
      rintro _ hTrue _ hFalse rfl
      obtain ⟨bs, -, hBs⟩ := List.mem_map.mp hTrue
      obtain ⟨bs', -, rfl⟩ := List.mem_map.mp hFalse
      cases hBs
    · intro bs a
      match bs with
      | [] => simp [follow]
      | true :: later => simpa [follow, joinNumbers] using hRuns later a
      | false :: later =>
        have hNumber : joinNumbers n number number' [false] = n := rfl
        rw [follow, follow_joinNumbers, hNumber]
        simpa using hRuns' later a
    · simp [Function.comp_def]

/-- There are directions that lead to a result as stated, whatever numbers are given. -/
def Can (Q : α → Prop) : Inquiry α → Prop
  | done a => Q a
  | ask enter leave => enter.Can Q ∨ ∀ n, (leave n).Can Q

theorem Can.bind {P : α → Prop} {Q : β → Prop} {t : Inquiry α} {f : α → Inquiry β} (h : t.Can P)
    (hf : ∀ a, P a → (f a).Can Q) : (t >>= f).Can Q := by
  induction t with
  | done a => exact hf a h
  | ask enter leave ihEnter ihLeave =>
    rcases h with hEnter | hLeave
    · exact .inl (ihEnter hEnter)
    · exact .inr fun n => ihLeave n (hLeave n)

theorem Leaves.exists_of_can {t : Inquiry α} {before : List Bool}
    {leaves : Multiset (List Bool × α)} (h : Leaves t before leaves) {Q : α → Prop}
    (hCan : t.Can Q) : ∃ leaf ∈ leaves, Q leaf.2 := by
  induction h with
  | done a before => exact ⟨(before, a), Multiset.mem_singleton_self _, hCan⟩
  | ask n _ _ ihEnter ihLeave =>
    rcases hCan with hEnter | hLeave
    · obtain ⟨leaf, hLeaf, hQ⟩ := ihEnter hEnter
      exact ⟨leaf, Multiset.mem_add.mpr (.inl hLeaf), hQ⟩
    · obtain ⟨leaf, hLeaf, hQ⟩ := ihLeave (hLeave n)
      exact ⟨leaf, Multiset.mem_add.mpr (.inr hLeaf), hQ⟩

end Inquiry

end DelegateSafety
