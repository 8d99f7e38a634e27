import DelegateSafety.Proofs.Transition
import DelegateSafety.Sample.Units

/-! # Where merged states come from

A path notes its class and that it has begun in one go, but where paths come together the two are merged by
different rules: a merged state has begun if all the paths in it have, and knows a class if one of them does.
The notes agree exactly as long as paths are merged of which all have begun or none has
(`notes_agree_iff_begun_alike`).
-/
namespace DelegateSafety

/-- How a state has come about from the empty one, by changes, beginnings and merges. -/
inductive Provenance where
  | start
  | set (before : Provenance) (field : String) (c : Cleared)
  | begin (before : Provenance) (className : String)
  | meet (one other : Provenance)

namespace Provenance

def state : Provenance → DelegateState
  | start => .start
  | set before field c => before.state.set field c
  | begin before className => before.state.begin className
  | meet one other => one.state.meet other.state

/-- For each of the paths that have come together, whether it has begun. What begins after a merge begins for
all of them. -/
def begun : Provenance → List Bool
  | start => [false]
  | set before _ _ => before.begun
  | begin before _ => before.begun.map fun _ => true
  | meet one other => one.begun ++ other.begun

/-- Of the paths that have come together all have begun or none has. -/
def BegunAlike (p : Provenance) : Prop := ∀ one ∈ p.begun, ∀ other ∈ p.begun, one = other

instance (p : Provenance) : Decidable p.BegunAlike :=
  inferInstanceAs (Decidable (∀ one ∈ p.begun, ∀ other ∈ p.begun, one = other))

theorem begun_ne_nil (p : Provenance) : p.begun ≠ [] := by
  induction p with
  | start => exact List.cons_ne_nil _ _
  | set before field c ih => exact ih
  | begin before className ih => exact mt List.map_eq_nil_iff.mp ih
  | meet one other ihOne _ => exact List.append_ne_nil_of_left_ne_nil ihOne _

theorem isInitialized_state (p : Provenance) : p.state.isInitialized = true ↔ ∀ b ∈ p.begun, b = true := by
  induction p with
  | start => simp [state, begun, DelegateState.start]
  | set before field c ih => exact ih
  | begin before className ih => simp [state, begun, DelegateState.begin]
  | meet one other ihOne ihOther =>
    simp only [state, begun, DelegateState.meet, Bool.and_eq_true, ihOne, ihOther, List.forall_mem_append]

theorem isSome_currentClass_state (p : Provenance) :
    p.state.currentClass.isSome = true ↔ true ∈ p.begun := by
  induction p with
  | start => simp [state, begun, DelegateState.start]
  | set before field c ih => exact ih
  | begin before className ih =>
    simp [state, begun, DelegateState.begin, before.begun_ne_nil]
  | meet one other ihOne ihOther =>
    simp only [state, begun, DelegateState.meet, Option.isSome_or, Bool.or_eq_true, ihOne, ihOther,
      List.mem_append]

theorem BegunAlike.forall_of_mem {p : Provenance} (h : p.BegunAlike) (hBegun : true ∈ p.begun) :
    ∀ b ∈ p.begun, b = true :=
  fun b hb => h b hb true hBegun

theorem begunAlike_of_imp {p : Provenance} (h : true ∈ p.begun → ∀ b ∈ p.begun, b = true) :
    p.BegunAlike := by
  intro one hOne other hOther
  cases one with
  | true => exact (h hOne other hOther).symm
  | false =>
    cases other with
    | true => exact h hOther false hOne
    | false => rfl

/-- A state that has begun knows a class, and the converse holds exactly if all the paths in it have begun or
none has. Then a state that knows its class is never begun again. -/
theorem notes_agree_iff_begun_alike (p : Provenance) :
    (p.state.isInitialized = true → p.state.currentClass.isSome = true) ∧
      ((p.state.isInitialized = true ↔ p.state.currentClass.isSome = true) ↔ p.BegunAlike) ∧
      (p.BegunAlike → p.state.currentClass.isSome = true →
        ∀ facts site, openPath facts site p.state = p.state) := by
  rw [isInitialized_state, isSome_currentClass_state]
  have hKnown (hBegun : ∀ b ∈ p.begun, b = true) : true ∈ p.begun := by
    obtain ⟨b, hb⟩ := List.exists_mem_of_ne_nil p.begun p.begun_ne_nil
    exact hBegun b hb ▸ hb
  refine ⟨hKnown, ⟨fun h => begunAlike_of_imp h.mpr, fun h => ⟨hKnown, h.forall_of_mem⟩⟩, ?_⟩
  intro hAlike hClass facts site
  exact openPath_of_isInitialized (p.isInitialized_state.mpr (hAlike.forall_of_mem hClass))

end Provenance

namespace Sample

/-- `self` is stored in `init`, and `setUp` is set-up code. -/
def withSetUp : SourceUnit :=
  delegatePair [
    method "init" [.expr (setProperty (.field "_bar" .unknown) "delegate" (.self .unknown))],
    method "setUp" []]

/-- A path of `Foo` on which `self` has been stored again. -/
def storedAgain : Provenance := .set (.begin .start "Foo") "_bar" .nothing

/-- It comes together with two paths that have begun as one. -/
def mergedBegun : Provenance := .meet storedAgain (.begin (.meet .start .start) "Foo")

end Sample

open Sample Provenance in
theorem merged_path_stays_begun :
    mergedBegun.BegunAlike ∧
      (mergedBegun.state.isInitialized = true ↔ mergedBegun.state.currentClass.isSome = true) ∧
      mergedBegun.state.currentClass = some "Foo" ∧
      ∀ facts site, openPath facts site mergedBegun.state = mergedBegun.state := by
  obtain ⟨-, hIff, hStays⟩ := notes_agree_iff_begun_alike mergedBegun
  have hAlike : mergedBegun.BegunAlike := by decide
  exact ⟨hAlike, hIff.mpr hAlike, rfl, hStays hAlike rfl⟩

open Sample Provenance in
/-- Merged with a path that has not begun, it knows its class, but in set-up code the next call begins it once
more and takes everything as cleared. -/
theorem half_begun_path_is_begun_again :
    let merged := (Provenance.meet storedAgain .start).state
    let site : Site := ⟨fooFrame withSetUp 1, 0, ∅⟩
    merged.isInitialized = false ∧ merged.currentClass = some "Foo" ∧
      (merged.field "_bar").properties = ∅ ∧
      ((openPath (some (fooFacts withSetUp)) site merged).field "_bar").properties =
        .ofList ["delegate"] := by
  decide +kernel

end DelegateSafety
