import DelegateSafety.Proofs.Transition
import DelegateSafety.Sample.Units

/-! # Paths that come together

Where two paths come together only what both have cleared stays cleared. A field that one of them has no
entry for counts as one with nothing cleared, though the states differ; every transition gives the field
an entry on both sides, which is why the difference never shows afterwards (`foldl_apply_meet`).
-/
namespace DelegateSafety

/-! ## One field -/

namespace NameSet

variable {s t u : NameSet}

theorem inter_comm : s.inter t = t.inter s :=
  ext_mem fun name => by simp [and_comm]

theorem inter_assoc : (s.inter t).inter u = s.inter (t.inter u) :=
  ext_mem fun name => by simp [and_assoc]

theorem inter_self : s.inter s = s :=
  ext_mem fun name => by simp

theorem empty_inter : NameSet.inter ∅ s = ∅ :=
  ext_mem fun name => by simp

theorem insert_inter (name : String) : (s.inter t).insert name = (s.insert name).inter (t.insert name) :=
  ext_mem fun other => by simp [or_and_left]

theorem erase_inter (name : String) : (s.inter t).erase name = (s.erase name).inter (t.erase name) :=
  ext_mem fun other => by
    simp only [mem_erase, mem_inter]
    exact and_and_left

end NameSet

namespace Cleared

variable (c d e : Cleared)

theorem meet_comm : c.meet d = d.meet c := by
  simp only [meet, NameSet.inter_comm (s := c.properties), Bool.and_comm]

theorem meet_assoc : (c.meet d).meet e = c.meet (d.meet e) := by
  simp only [meet, NameSet.inter_assoc, Bool.and_assoc]

theorem meet_self : c.meet c = c := by
  simp only [meet, NameSet.inter_self, Bool.and_self]

theorem nothing_meet : nothing.meet d = nothing := by
  simp only [meet, nothing, NameSet.empty_inter, Bool.false_and]

theorem meet_nothing : c.meet nothing = nothing := by
  rw [meet_comm, nothing_meet]

end Cleared

theorem Transition.effect_meet (t : Transition) (c d : Cleared) :
    t.effect (c.meet d) = (t.effect c).meet (t.effect d) := by
  cases t with
  | clear field property =>
    simp only [effect, Cleared.clear, Cleared.meet, NameSet.insert_inter]
  | unclear field property =>
    simp only [effect, Cleared.unclear, Cleared.meet, NameSet.erase_inter]
  | clearTarget field | clearObserver field => rfl
  | clearAll field facts => exact (Cleared.meet_self _).symm

/-! ## All fields -/

namespace DelegateState

variable (a b c : DelegateState)

theorem ext_find? {a b : DelegateState} (hFields : ∀ name, a.fields.find? name = b.fields.find? name)
    (hInitialized : a.isInitialized = b.isInitialized) (hClass : a.currentClass = b.currentClass) :
    a = b := by
  obtain ⟨fields, initialized, className⟩ := a
  obtain ⟨fields', initialized', className'⟩ := b
  obtain rfl : fields = fields' := NameMap.ext_find? hFields
  obtain rfl : initialized = initialized' := hInitialized
  obtain rfl : className = className' := hClass
  rfl

theorem find?_meet (name : String) : (a.meet b).fields.find? name =
    (a.fields.find? name).bind fun mine => (b.fields.find? name).map mine.meet :=
  NameMap.find?_intersectWith _ _ _ name

/-- A field that is absent on one side counts as one with nothing cleared. -/
theorem field_meet (name : String) : (a.meet b).field name = (a.field name).meet (b.field name) := by
  simp only [field, find?_meet]
  cases a.fields.find? name with
  | none => exact (Cleared.nothing_meet _).symm
  | some mine =>
    cases b.fields.find? name with
    | none => exact (Cleared.meet_nothing _).symm
    | some theirs => rfl

theorem meet_comm {a b : DelegateState} (hClass : a.currentClass = b.currentClass) :
    a.meet b = b.meet a := by
  refine ext_find? (fun name => ?_) (Bool.and_comm _ _) ?_
  · rw [find?_meet, find?_meet]
    cases a.fields.find? name with
    | none => simp
    | some mine =>
      cases b.fields.find? name with
      | none => rfl
      | some theirs => exact congrArg some (mine.meet_comm theirs)
  · simp only [meet, hClass]

theorem meet_assoc : (a.meet b).meet c = a.meet (b.meet c) := by
  refine ext_find? (fun name => ?_) (Bool.and_assoc _ _ _) Option.or_assoc
  simp only [find?_meet]
  cases a.fields.find? name with
  | none => rfl
  | some mine =>
    cases b.fields.find? name with
    | none => rfl
    | some theirs =>
      cases c.fields.find? name with
      | none => rfl
      | some others => exact congrArg some (mine.meet_assoc theirs others)

theorem meet_self : a.meet a = a := by
  refine ext_find? (fun name => ?_) (Bool.and_self _) Option.or_self
  rw [find?_meet]
  cases a.fields.find? name with
  | none => rfl
  | some mine => exact congrArg some mine.meet_self

end DelegateState

variable {a b : DelegateState}

/-- A transition leaves an entry for its field in every state, so nothing shows any more of whether there
was one before. -/
theorem apply_meet (t : Transition) (a b : DelegateState) :
    Transition.apply (a.meet b) t = (Transition.apply a t).meet (Transition.apply b t) := by
  refine DelegateState.ext_find? (fun name => ?_) rfl rfl
  rw [DelegateState.find?_meet]
  simp only [Transition.apply, DelegateState.update, DelegateState.set, NameMap.find?_insert]
  by_cases h : name = t.field
  · simp only [h, if_true, Option.bind_some, Option.map_some, DelegateState.field_meet, t.effect_meet]
  · simp only [h, if_false, DelegateState.find?_meet]

theorem foldl_apply_meet (transitions : List Transition) (a b : DelegateState) :
    transitions.foldl Transition.apply (a.meet b) =
      (transitions.foldl Transition.apply a).meet (transitions.foldl Transition.apply b) := by
  induction transitions generalizing a b with
  | nil => rfl
  | cons t rest ih => rw [List.foldl_cons, apply_meet, ih, List.foldl_cons, List.foldl_cons]

/-! ## What is reported -/

theorem mem_leftovers_inter {dangerous cleared cleared' : NameSet} {property : String} :
    property ∈ leftovers dangerous (cleared.inter cleared') ↔
      property ∈ leftovers dangerous cleared ∨ property ∈ leftovers dangerous cleared' := by
  simp only [mem_leftovers, NameSet.mem_inter, Classical.not_and_iff_not_or_not, and_or_left]

theorem leftovers_inter (dangerous cleared cleared' : NameSet) :
    leftovers dangerous (cleared.inter cleared') = dangerous.toList.filter fun property =>
      property ∈ leftovers dangerous cleared ∨ property ∈ leftovers dangerous cleared' := by
  refine List.filter_congr fun property hMem => ?_
  have hBoth := @mem_leftovers_inter dangerous cleared cleared' property
  simp only [mem_leftovers, hMem, true_and] at hBoth ⊢
  exact decide_eq_decide.mpr hBoth

theorem mem_verifyField_meet {facts : ClassFacts} {site : Site} {field : String} {decl : Option String}
    {range : SourceRange} {d : Diagnostic} :
    d ∈ verifyField facts site (a.meet b) field decl range ↔
      d ∈ verifyField facts site a field decl range ∨ d ∈ verifyField facts site b field decl range := by
  unfold verifyField
  cases facts.field? field with
  | none => simp
  | some fieldFacts =>
    simp only [Option.elim_some, leftoverMessages, List.mem_map, DelegateState.field_meet, Cleared.meet,
      mem_leftovers_inter]
    constructor
    · rintro ⟨message, ⟨property, hLeft, rfl⟩, rfl⟩
      exact hLeft.imp (fun h => ⟨_, ⟨property, h, rfl⟩, rfl⟩) fun h => ⟨_, ⟨property, h, rfl⟩, rfl⟩
    · rintro (⟨message, ⟨property, hLeft, rfl⟩, rfl⟩ | ⟨message, ⟨property, hLeft, rfl⟩, rfl⟩)
      · exact ⟨_, ⟨property, .inl hLeft, rfl⟩, rfl⟩
      · exact ⟨_, ⟨property, .inr hLeft, rfl⟩, rfl⟩

/-- Merging the paths of a class, in whatever order, keeps what all have cleared and no more. The merged
path goes on as the merge of the two would, and on verification it answers for both. -/
theorem merging_is_exact (hClass : a.currentClass = b.currentClass) (c : DelegateState)
    (transitions : List Transition) (field : String) :
    let after (s : DelegateState) := transitions.foldl Transition.apply s
    let cleared (s : DelegateState) := (s.field field).properties
    (a.meet b = b.meet a ∧ (a.meet b).meet c = a.meet (b.meet c) ∧ a.meet a = a) ∧
      ((∀ property, property ∈ cleared (a.meet b) ↔ property ∈ cleared a ∧ property ∈ cleared b) ∧
        (((a.meet b).field field).target = true ↔
          (a.field field).target = true ∧ (b.field field).target = true) ∧
        (((a.meet b).field field).observer = true ↔
          (a.field field).observer = true ∧ (b.field field).observer = true)) ∧
      after (a.meet b) = (after a).meet (after b) ∧
      (∀ dangerous, leftovers dangerous (cleared (after (a.meet b))) =
        dangerous.toList.filter fun property =>
          property ∈ leftovers dangerous (cleared (after a)) ∨
            property ∈ leftovers dangerous (cleared (after b))) ∧
      ∀ facts site decl range d, d ∈ verifyField facts site (after (a.meet b)) field decl range ↔
        d ∈ verifyField facts site (after a) field decl range ∨
          d ∈ verifyField facts site (after b) field decl range := by
  intro after cleared
  have hAfter : after (a.meet b) = (after a).meet (after b) := foldl_apply_meet transitions a b
  refine ⟨⟨DelegateState.meet_comm hClass, a.meet_assoc b c, a.meet_self⟩, ⟨?_, ?_, ?_⟩, hAfter, ?_, ?_⟩
  · intro property
    simp only [cleared, DelegateState.field_meet, Cleared.meet, NameSet.mem_inter]
  · simp only [DelegateState.field_meet, Cleared.meet, Bool.and_eq_true]
  · simp only [DelegateState.field_meet, Cleared.meet, Bool.and_eq_true]
  · intro dangerous
    simp only [cleared, hAfter, DelegateState.field_meet, Cleared.meet, leftovers_inter]
  · intro facts site decl range d
    rw [hAfter, mem_verifyField_meet]

namespace Sample

/-- One path of a class has cleared the delegate of `_bar`, the other one that of `_sub`. -/
def clearedOnly (field : String) : DelegateState :=
  Transition.apply (DelegateState.start.begin "Foo") (.clear field "delegate")

/-- Both go on and clear another property of `_bar`. -/
def clearingOn : List Transition := [.unclear "_sub" "delegate", .clear "_bar" "dataSource"]

end Sample

open Sample in
theorem delegate_is_left_after_merge :
    (clearedOnly "_bar").currentClass = (clearedOnly "_sub").currentClass ∧
      (clearedOnly "_bar").meet (clearedOnly "_sub") = (clearedOnly "_sub").meet (clearedOnly "_bar") ∧
      leftovers (.ofList ["dataSource", "delegate"])
        ((clearingOn.foldl Transition.apply
          ((clearedOnly "_bar").meet (clearedOnly "_sub"))).field "_bar").properties = ["delegate"] := by
  obtain ⟨⟨hComm, -⟩, -, -, hLeft, -⟩ := merging_is_exact (a := clearedOnly "_bar")
    (b := clearedOnly "_sub") rfl .start clearingOn "_bar"
  refine ⟨rfl, hComm, ?_⟩
  rw [hLeft]
  decide +kernel

end DelegateSafety
