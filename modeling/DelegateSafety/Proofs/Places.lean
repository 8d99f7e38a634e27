import Mathlib.Algebra.Group.Nat.Defs
import DelegateSafety.Proofs.Filing

/-! # Exploring with places

The way down to a statement of a body tells it from others that read alike (`Place`). Exploration does not
ask where a statement stands. With a check of its own at each place it goes along the same paths
(`explores_executeAt`), so that checks that note their place say of each call where it was made
(`map_placedCalls`). How often a place can be visited is counted along the body (`Stmt.visits`) and comes to
a power of the bound on rounds (`Stmt.visits_at`).
-/
namespace DelegateSafety

open PathM Explore DelegateSafety.Path

variable {σ τ ρ π α : Type}

/-- The way down to a statement, as indices among children. -/
abbrev Place := List Nat

namespace Stmt

def at? : Stmt → Place → Option Stmt
  | s, [] => some s
  | s, i :: rest => s.children[i]?.bind (at? · rest)

def isLoop : Stmt → Bool
  | loop _ _ => true
  | expr _ | block _ | branch _ _ _ | ret _ | decl _ => false

/-- How many loops a place is inside of. -/
def loopDepth : Stmt → Place → Nat
  | _, [] => 0
  | s, i :: rest => s.isLoop.toNat + s.children[i]?.elim 0 (loopDepth · rest)

theorem at?_append (s : Stmt) (place rest : Place) :
    s.at? (place ++ rest) = (s.at? place).bind (at? · rest) := by
  induction place generalizing s with
  | nil => rfl
  | cons i place ih =>
    rw [List.cons_append, at?, at?, Option.bind_assoc]
    exact congrArg _ (funext fun c => ih c)

theorem at?_child {s t : Stmt} {place : Place} {i : Nat} {c : Stmt} (h : s.at? place = some t)
    (hChild : t.children[i]? = some c) : s.at? (place ++ [i]) = some c := by
  rw [at?_append, h, Option.bind_some, at?, hChild, Option.bind_some, at?]

end Stmt

section

variable (frame : Frame) (limits : Limits) (check : Place → PathCheck σ ρ)

mutual

/-- Takes paths through a statement at a place. -/
def executeAt (place : Place) : Stmt → List (Path σ) → Explore ρ (List (Path σ))
  | .expr e => forEach fun p => do
    let (_, p) ← along (evaluate frame (check place) e) p
    pure [p]
  | .block body => executeAllAt place 0 body
  | .decl v => forEach fun p => do
    let (_, p) ← along (declare frame (check place) v) p
    pure [p]
  | .ret none => forEach (endPath frame (check place))
  | .ret (some value) => forEach fun p => do
    let (_, p) ← along (evaluate frame (check place) value) p
    endPath frame (check place) p
  | .branch cond yes none => forEach fun p => do
    let (taken, other) ← split frame limits (check place) cond p
    let fromYes ← executeAt (place ++ [0]) yes taken.toList
    pure (fromYes ++ other.toList)
  | .branch cond yes (some no) => forEach fun p => do
    let (taken, other) ← split frame limits (check place) cond p
    let fromYes ← executeAt (place ++ [0]) yes taken.toList
    let fromNo ← executeAt (place ++ [1]) no other.toList
    pure (fromYes ++ fromNo)
  | .loop cond body =>
    iterate frame limits (check place) cond (executeAt (place ++ [0]) body) limits.maxLoopUnroll

/-- Takes paths through the statements of a block from the one with a given index on. -/
def executeAllAt (place : Place) (i : Nat) : List Stmt → List (Path σ) → Explore ρ (List (Path σ))
  | [], paths => pure paths
  | s :: rest, paths => do
    let paths ← executeAt (place ++ [i]) s paths
    executeAllAt place (i + 1) rest paths

end

/-- Explores the method with a check of its own at each place. Falling off the end is up to the check of the
whole body. -/
def exploreAt : Explored ρ Unit :=
  match frame.method.body with
  | none => (pure () : Explore ρ Unit) 0
  | some body =>
    (do
      count .method
      let live ← executeAt frame limits check [] body [⟨0, ∅, (check []).start⟩]
      let _ ← forEach (endPath frame (check [])) live
      pure () : Explore ρ Unit) 1

end

/-- Notes down each call made of it, and files all that it has noted so far. -/
def PathCheck.noting (note : Callback → α) : PathCheck (List α) (List α) where
  start := []
  beforeEffect site noted e :=
    let noted := noted ++ [note (.beforeEffect site e)]
    (noted, [noted])
  afterSend site noted event :=
    let noted := noted ++ [note (.afterSend site event)]
    (noted, [noted])
  assume subject noted cond truth := noted ++ [note (.assume subject cond truth)]
  atEnd site noted :=
    let noted := noted ++ [note (.atEnd site)]
    (noted, [noted])

/-- Calls and the places they were made at. -/
abbrev CallLog := List (Place × Callback)

/-- The calls made along a path so far, for each time that one is shown. -/
def placedCalls (frame : Frame) (limits : Limits) : List CallLog :=
  (exploreAt frame limits fun place => .noting (Prod.mk place)).reports

/-! ## Counting visits -/

/-- One visit, if a place is the one that is watched. -/
def visit (q place : Place) : Nat := if place = q then 1 else 0

namespace Stmt

/-- How often one execution of a statement tests a condition of its own or evaluates what it is made of. -/
def rounds (k : Nat) (s : Stmt) : Nat := if s.isLoop then k + 1 else 1

mutual

/-- How often a place is visited at most while the statement at another is executed once. -/
def visits (k : Nat) (q : Place) : Place → Stmt → Nat
  | place, .expr _ | place, .ret _ | place, .decl _ => visit q place
  | place, .block body => visit q place + visitsAll k q place 0 body
  | place, .branch _ yes none => visit q place + visits k q (place ++ [0]) yes
  | place, .branch _ yes (some no) =>
    visit q place + visits k q (place ++ [0]) yes + visits k q (place ++ [1]) no
  | place, .loop _ body => (k + 1) * visit q place + k * visits k q (place ++ [0]) body

def visitsAll (k : Nat) (q : Place) : Place → Nat → List Stmt → Nat
  | _, _, [] => 0
  | place, i, s :: rest => visits k q (place ++ [i]) s + visitsAll k q place (i + 1) rest

end

theorem visit_self (q : Place) : visit q q = 1 := if_pos rfl

theorem visit_of_not_isPrefix {q place : Place} (h : ¬ place <+: q) : visit q place = 0 :=
  if_neg fun hEq : place = q => h (hEq ▸ List.prefix_refl place)

theorem not_isPrefix_child {q place : Place} (h : ¬ place <+: q) (i : Nat) : ¬ place ++ [i] <+: q :=
  fun hChild => h ((List.prefix_append place [i]).trans hChild)

theorem not_isPrefix_sibling (place rest : Place) {i j : Nat} (h : i ≠ j) :
    ¬ place ++ [j] <+: place ++ i :: rest := by
  rw [List.prefix_append_right_inj, List.cons_prefix_cons]
  exact fun hFirst => h hFirst.1.symm

mutual

theorem visits_eq_zero (k : Nat) {q place : Place} (h : ¬ place <+: q) : ∀ s, visits k q place s = 0
  | .expr _ | .ret _ | .decl _ => by rw [visits, visit_of_not_isPrefix h]
  | .block body => by rw [visits, visit_of_not_isPrefix h, visitsAll_eq_zero k h 0 body]
  | .branch _ yes none => by
    rw [visits, visit_of_not_isPrefix h, visits_eq_zero k (not_isPrefix_child h 0) yes]
  | .branch _ yes (some no) => by
    rw [visits, visit_of_not_isPrefix h, visits_eq_zero k (not_isPrefix_child h 0) yes,
      visits_eq_zero k (not_isPrefix_child h 1) no]
  | .loop _ body => by
    rw [visits, visit_of_not_isPrefix h, visits_eq_zero k (not_isPrefix_child h 0) body, Nat.mul_zero,
      Nat.mul_zero]

theorem visitsAll_eq_zero (k : Nat) {q place : Place} (h : ¬ place <+: q) :
    ∀ i ss, visitsAll k q place i ss = 0
  | _, [] => rfl
  | i, s :: rest => by
    rw [visitsAll, visits_eq_zero k (not_isPrefix_child h i) s, visitsAll_eq_zero k h (i + 1) rest]

end

theorem visitsAll_of_lt (k : Nat) (place rest : Place) {i : Nat} (ss : List Stmt) {start : Nat}
    (h : i < start) : visitsAll k (place ++ i :: rest) place start ss = 0 := by
  induction ss generalizing start with
  | nil => rfl
  | cons s others ih =>
    rw [visitsAll, visits_eq_zero k (not_isPrefix_sibling place rest (Nat.ne_of_lt h)) s,
      ih (Nat.lt_succ_of_lt h)]

/-- Of the statements of a block only the one on the way down counts. -/
theorem visitsAll_child (k : Nat) (place rest : Place) {ss : List Stmt} {i : Nat} {c : Stmt} (start : Nat)
    (h : ss[i]? = some c) : visitsAll k (place ++ (start + i) :: rest) place start ss =
      visits k (place ++ (start + i) :: rest) (place ++ [start + i]) c := by
  induction ss generalizing start i with
  | nil => simp at h
  | cons s others ih =>
    cases i with
    | zero =>
      obtain rfl : s = c := by simpa using h
      rw [visitsAll, Nat.add_zero, visitsAll_of_lt k place rest others (Nat.lt_succ_self start), Nat.add_zero]
    | succ i =>
      have hOther : start + (i + 1) ≠ start := by omega
      have hLater : start + (i + 1) = start + 1 + i := by omega
      rw [visitsAll, visits_eq_zero k (not_isPrefix_sibling place rest hOther) s, Nat.zero_add, hLater]
      exact ih (start + 1) h

/-- A loop tests its condition once more than its body is executed. -/
theorem visits_eq (k : Nat) (q place : Place) (s : Stmt) : visits k q place s =
    s.rounds k * visit q place + (if s.isLoop then k else 1) * visitsAll k q place 0 s.children := by
  cases s with
  | expr _ | ret _ | decl _ | block _ => simp [visits, visitsAll, rounds, isLoop, children]
  | branch cond yes no => cases no <;> simp [visits, visitsAll, rounds, isLoop, children, Nat.add_assoc]
  | loop cond body => simp [visits, visitsAll, rounds, isLoop, children]

/-- The count comes to a power of the bound. -/
theorem visits_at (k : Nat) (place : Place) {s t : Stmt} {rest : Place} (h : s.at? rest = some t) :
    visits k (place ++ rest) place s = t.rounds k * k ^ s.loopDepth rest := by
  induction rest generalizing s place with
  | nil =>
    obtain rfl : s = t := by simpa [at?] using h
    have hBelow (i : Nat) : ¬ place ++ [i] <+: place := fun hPrefix =>
      Nat.not_succ_le_self place.length (by simpa using hPrefix.length_le)
    have hInside : ∀ start ss, visitsAll k place place start ss = 0 := by
      intro start ss
      induction ss generalizing start with
      | nil => rfl
      | cons c others ih => rw [visitsAll, visits_eq_zero k (hBelow start) c, ih (start + 1)]
    rw [List.append_nil, visits_eq, visit_self, hInside, loopDepth, Nat.pow_zero, Nat.mul_zero, Nat.add_zero]
  | cons i rest ih =>
    rw [at?] at h
    obtain ⟨c, hChild, hAt⟩ := Option.bind_eq_some_iff.mp h
    have hHere : visit (place ++ i :: rest) place = 0 := if_neg (by simp)
    have hAll := visitsAll_child k place rest 0 hChild
    have hInside := ih (place ++ [i]) hAt
    rw [List.append_assoc, List.singleton_append] at hInside
    rw [Nat.zero_add] at hAll
    rw [visits_eq, hHere, hAll, hInside, loopDepth, hChild, Option.elim_some, Nat.pow_add, Nat.mul_zero,
      Nat.zero_add]
    cases s.isLoop
    · simp
    · rw [if_pos rfl, Bool.toNat_true, Nat.pow_one, Nat.mul_left_comm]

end Stmt

/-! ## The same paths -/

section

variable {frame : Frame} {limits : Limits} {left : Place → PathCheck σ ρ} {right : PathCheck τ π}
  {Fresh Met : σ → τ → Prop} {Filed : List ρ → List π → Prop}
  (H : ∀ place, Lockstep frame (fun _ => True) (left place) right Fresh Met Filed)

include H

mutual

theorem explores_executeAt : ∀ (place : Place) (s : Stmt) {ps : List (Path σ)} {qs : List (Path τ)},
    List.Forall₂ (Alike Fresh) ps qs →
    Explores Filed (List.Forall₂ (Alike Fresh)) (executeAt frame limits left place s ps)
      (execute frame limits right s qs)
  | place, .expr e, _, _, hps =>
    (H place).explores_forEach (fun _ _ hp =>
      (H place).explores_bind ((H place).explores_evaluate (fun _ _ => trivial) hp) fun _ _ h =>
        (H place).explores_pure (.cons h.2 .nil)) hps
  | place, .block body, _, _, hps => explores_executeAllAt place 0 body hps
  | place, .decl v, _, _, hps =>
    (H place).explores_forEach (fun _ _ hp =>
      (H place).explores_bind
        (Lockstep.explores_along ((H place).along_declare v fun _ _ _ _ => trivial) hp)
        fun _ _ h => (H place).explores_pure (.cons h.2 .nil)) hps
  | place, .ret none, _, _, hps => (H place).explores_forEach (fun _ _ => (H place).explores_endPath) hps
  | place, .ret (some value), _, _, hps =>
    (H place).explores_forEach (fun _ _ hp =>
      (H place).explores_bind ((H place).explores_evaluate (fun _ _ => trivial) hp) fun _ _ h =>
        (H place).explores_endPath h.2) hps
  | place, .branch cond yes none, _, _, hps => by
    refine (H place).explores_forEach (fun p q hp =>
      (H place).explores_bind ((H place).explores_split limits (fun _ _ => trivial) hp) ?_) hps
    rintro ⟨_, _⟩ ⟨_, _⟩ ⟨hTaken, hOther⟩
    exact (H place).explores_bind
      (explores_executeAt _ yes (hTaken.imp fun _ _ => (H place).alike_fresh)) fun _ _ h =>
        (H place).explores_pure (List.rel_append h (hOther.imp fun _ _ => (H place).alike_fresh))
  | place, .branch cond yes (some no), _, _, hps => by
    refine (H place).explores_forEach (fun p q hp =>
      (H place).explores_bind ((H place).explores_split limits (fun _ _ => trivial) hp) ?_) hps
    rintro ⟨_, _⟩ ⟨_, _⟩ ⟨hTaken, hOther⟩
    exact (H place).explores_bind
      (explores_executeAt _ yes (hTaken.imp fun _ _ => (H place).alike_fresh)) fun _ _ h =>
        (H place).explores_bind
          (explores_executeAt _ no (hOther.imp fun _ _ => (H place).alike_fresh)) fun _ _ h' =>
            (H place).explores_pure (List.rel_append h h')
  | place, .loop cond body, _, _, hps =>
    (H place).explores_iterate limits (fun _ _ => trivial) (fun h => explores_executeAt _ body h) _ hps

theorem explores_executeAllAt : ∀ (place : Place) (i : Nat) (ss : List Stmt) {ps : List (Path σ)}
    {qs : List (Path τ)}, List.Forall₂ (Alike Fresh) ps qs →
    Explores Filed (List.Forall₂ (Alike Fresh)) (executeAllAt frame limits left place i ss ps)
      (executeAll frame limits right ss qs)
  | place, _, [], _, _, hps => (H place).explores_pure hps
  | place, i, s :: rest, _, _, hps =>
    (H place).explores_bind (explores_executeAt _ s hps) fun _ _ h =>
      explores_executeAllAt place (i + 1) rest h

end

theorem exploreAt_alike :
    Filed (exploreAt frame limits left).reports (explore frame limits right).reports := by
  unfold exploreAt explore
  cases frame.method.body with
  | none => exact (H []).nil
  | some body =>
    have hStart : List.Forall₂ (Alike Fresh) [⟨0, ∅, (left []).start⟩] [⟨0, ∅, right.start⟩] :=
      .cons ⟨rfl, rfl, (H []).start⟩ .nil
    exact ((H []).explores_bind ((H []).explores_count _) (fun _ _ _ =>
      (H []).explores_bind (explores_executeAt H [] body hStart) fun _ _ hLive =>
        (H []).explores_bind ((H []).explores_forEach (fun _ _ => (H []).explores_endPath) hLive) fun _ _ _ =>
          (H []).explores_pure (V := fun _ _ => True) trivial) 1).2.2.2.2

end

/-- The calls are those that any check gets. -/
theorem map_placedCalls (frame : Frame) (limits : Limits) :
    (placedCalls frame limits).map (·.map Prod.snd) = shownCalls frame limits := by
  have hLockstep (place : Place) : Lockstep frame (fun _ => True) (.noting (Prod.mk place))
      PathCheck.silent.traced (fun noted t => noted.map Prod.snd = t.made)
      (fun noted t => noted.map Prod.snd = t.made)
      (fun notes ps => notes.map (·.map Prod.snd) = ps.map (·.state.made)) := {
    nil := rfl
    append := fun h h' => by rw [List.map_append, List.map_append, h, h']
    start := rfl
    fresh := id
    beforeEffect := fun n store e _ h => by simp [PathCheck.noting, PathCheck.traced, Traced.extend, h]
    afterSend := fun n store m r receiver args _ h => by
      simp [PathCheck.noting, PathCheck.traced, Traced.extend, h]
    assumed := fun cond truth _ h => by simp [PathCheck.noting, PathCheck.traced, Traced.extend, h]
    atEnd := fun n store h => by simp [PathCheck.noting, PathCheck.traced, Traced.extend, h] }
  exact exploreAt_alike hLockstep

end DelegateSafety
