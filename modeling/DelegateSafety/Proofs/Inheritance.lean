import Mathlib.Data.List.Nodup
import DelegateSafety.Program.Lookup

/-! # Inherited members

What a class does not have itself it has from its superclass, whatever the graph of superclasses looks
like. The chain of a class need not go on as the chain of its superclass does: on a cycle the latter comes
back to the class. That class has been asked by then, and it is the last of the chain
(`lineageIn_superclass`), so the answer is the same.
-/
namespace DelegateSafety

/-! ## Chains of superclasses -/

section

variable {decls : List InterfaceDecl} {name : String} {d : InterfaceDecl}

theorem findInterface?_otherInterfaces (decls : List InterfaceDecl) (name other : String) :
    findInterface? (otherInterfaces decls name) other =
      if other = name then none else findInterface? decls other := by
  rw [findInterface?, otherInterfaces, ← List.filter_reverse, List.find?_filter]
  split
  · rename_i h
    subst h
    exact List.find?_eq_none.mpr fun d _ => by simp
  · rename_i h
    refine congrArg (List.find? · _) (funext fun d => ?_)
    by_cases hName : d.name = other
    · simp [hName, h]
    · simp [hName]

theorem otherInterfaces_comm (decls : List InterfaceDecl) (name other : String) :
    otherInterfaces (otherInterfaces decls name) other =
      otherInterfaces (otherInterfaces decls other) name := by
  simp only [otherInterfaces, List.filter_filter, Bool.and_comm]

theorem mem_of_mem_lineageIn {start : String} (h : d ∈ lineageIn decls start) : d ∈ decls := by
  induction decls, start using lineageIn.induct with
  | case1 decls start hNone =>
    rw [lineageIn_of_none hNone] at h
    cases h
  | case2 decls start first hSome ih =>
    rw [lineageIn_of_some hSome] at h
    rcases List.mem_cons.mp h with rfl | h
    · exact (findInterface?_mem hSome).1
    · split at h
      · cases h
      · exact List.mem_of_mem_filter (ih _ h)

theorem nodup_lineageIn (decls : List InterfaceDecl) (start : String) :
    ((lineageIn decls start).map (·.name)).Nodup := by
  induction decls, start using lineageIn.induct with
  | case1 decls start hNone =>
    rw [lineageIn_of_none hNone]
    exact List.nodup_nil
  | case2 decls start first hSome ih =>
    rw [lineageIn_of_some hSome, List.map_cons, (findInterface?_mem hSome).2]
    split
    · exact List.nodup_singleton _
    · refine List.nodup_cons.mpr ⟨fun hMem => ?_, ih _⟩
      obtain ⟨d, hLater, hName⟩ := List.mem_map.mp hMem
      have hKept := (List.mem_filter.mp (mem_of_mem_lineageIn hLater)).2
      simp [hName] at hKept

theorem length_lineageIn_le (decls : List InterfaceDecl) (start : String) :
    (lineageIn decls start).length ≤ decls.length := by
  induction decls, start using lineageIn.induct with
  | case1 decls start hNone =>
    rw [lineageIn_of_none hNone]
    exact Nat.zero_le _
  | case2 decls start first hSome ih =>
    have hFewer := length_otherInterfaces_lt hSome
    rw [lineageIn_of_some hSome, List.length_cons]
    split
    · exact Nat.lt_of_le_of_lt (Nat.zero_le _) hFewer
    · exact Nat.lt_of_le_of_lt (ih _) hFewer

/-- A class that nothing follows is at most the last of a chain. -/
theorem lineageIn_without (hSome : findInterface? decls name = some d)
    (hGone : ∀ parent, d.superclass = some parent → findInterface? decls parent = none)
    (start : String) : lineageIn decls start = lineageIn (otherInterfaces decls name) start ∨
      lineageIn decls start = lineageIn (otherInterfaces decls name) start ++ [d] := by
  induction decls, start using lineageIn.induct with
  | case1 decls start hNone =>
    left
    rw [lineageIn_of_none hNone, lineageIn_of_none]
    rw [findInterface?_otherInterfaces, hNone, ite_self]
  | case2 decls start first hFirst ih =>
    rw [lineageIn_of_some hFirst]
    by_cases hName : start = name
    · subst hName
      obtain rfl : d = first := Option.some.inj (hSome.symm.trans hFirst)
      have hOut : findInterface? (otherInterfaces decls start) start = none := by
        rw [findInterface?_otherInterfaces, if_pos rfl]
      right
      rw [lineageIn_of_none hOut]
      split
      · rfl
      · rename_i parent hParent
        rw [lineageIn_of_none]
        · rfl
        · rw [findInterface?_otherInterfaces, hGone parent hParent, ite_self]
    · have hKept : findInterface? (otherInterfaces decls name) start = some first := by
        rw [findInterface?_otherInterfaces, if_neg hName, hFirst]
      rw [lineageIn_of_some hKept]
      split
      · exact .inl rfl
      · rename_i parent _
        have hStill : findInterface? (otherInterfaces decls start) name = some d := by
          rw [findInterface?_otherInterfaces, if_neg (Ne.symm hName), hSome]
        have hStillGone : ∀ parent, d.superclass = some parent →
            findInterface? (otherInterfaces decls start) parent = none := by
          intro parent hParent
          rw [findInterface?_otherInterfaces, hGone parent hParent, ite_self]
        rw [otherInterfaces_comm decls name start]
        exact (ih parent hStill hStillGone).imp (congrArg _) fun h => by rw [h, List.cons_append]

/-- The chain of a superclass is the rest of the chain of the class, and on a cycle the class itself comes
after that. -/
theorem lineageIn_superclass (hSome : findInterface? decls name = some d) {parent : String}
    (hParent : d.superclass = some parent) :
    lineageIn decls parent = lineageIn (otherInterfaces decls name) parent ∨
      lineageIn decls parent = lineageIn (otherInterfaces decls name) parent ++ [d] := by
  cases hFirst : findInterface? decls parent with
  | none =>
    left
    rw [lineageIn_of_none hFirst, lineageIn_of_none]
    rw [findInterface?_otherInterfaces, hFirst, ite_self]
  | some first =>
    have hGone (other : String) : lineageIn (otherInterfaces decls other) other = [] :=
      lineageIn_of_none (by rw [findInterface?_otherInterfaces, if_pos rfl])
    by_cases hName : parent = name
    · subst hName
      right
      rw [lineageIn_of_some hSome, hParent, hGone, List.nil_append]
      exact congrArg _ (hGone parent)
    · have hKept : findInterface? (otherInterfaces decls name) parent = some first := by
        rw [findInterface?_otherInterfaces, if_neg hName, hFirst]
      rw [lineageIn_of_some hFirst, lineageIn_of_some hKept]
      split
      · exact .inl rfl
      · rename_i next _
        have hStill : findInterface? (otherInterfaces decls parent) name = some d := by
          rw [findInterface?_otherInterfaces, if_neg (Ne.symm hName), hSome]
        rw [otherInterfaces_comm decls name parent]
        refine (lineageIn_without hStill (fun other hOther => ?_) next).imp (congrArg _) fun h => ?_
        · obtain rfl : parent = other := Option.some.inj (hParent.symm.trans hOther)
          rw [findInterface?_otherInterfaces, if_pos rfl]
        · rw [h, List.cons_append]

end

/-! ## Lookups -/

namespace SourceUnit

variable (unit : SourceUnit)

/-- A class comes before what its superclass has, and a superclass that comes back to it asks it last. -/
inductive Continues (className : String) : Prop
  | root (hLineage : unit.lineage className = (unit.interface? className).toList)
    (hParent : unit.superclass? className = none) : Continues className
  | child {d : InterfaceDecl} {parent : String} {rest : List InterfaceDecl}
    (hInterface : unit.interface? className = some d) (hParent : d.superclass = some parent)
    (hLineage : unit.lineage className = d :: rest)
    (hAbove : unit.lineage parent = rest ∨ unit.lineage parent = rest ++ [d]) : Continues className

theorem continues (className : String) : unit.Continues className := by
  cases hSome : unit.interface? className with
  | none =>
    refine .root ?_ (by rw [superclass?, hSome]; rfl)
    rw [lineage, lineageIn_of_none hSome, hSome]
    rfl
  | some d =>
    cases hParent : d.superclass with
    | none =>
      refine .root ?_ (by rw [superclass?, hSome, Option.bind_some, hParent])
      rw [lineage, lineageIn_of_some hSome, hParent, hSome]
      rfl
    | some parent =>
      refine .child hSome hParent ?_ (lineageIn_superclass hSome hParent)
      rw [lineage, lineageIn_of_some hSome, hParent]

variable {unit} {className : String}

theorem superclass?_of_interface? {d : InterfaceDecl} (h : unit.interface? className = some d) :
    unit.superclass? className = d.superclass := by
  rw [superclass?, h, Option.bind_some]

theorem findSome?_lineage {α : Type} (own : InterfaceDecl → Option α) :
    (unit.lineage className).findSome? own = ((unit.interface? className).bind own).or
      ((unit.superclass? className).bind fun parent => (unit.lineage parent).findSome? own) := by
  cases unit.continues className with
  | root hLineage hParent =>
    rw [hLineage, hParent]
    cases unit.interface? className with
    | none => rfl
    | some d => simp
  | @child d parent rest hInterface hParent hLineage hAbove =>
    rw [hLineage, superclass?_of_interface? hInterface, hParent, hInterface]
    rcases hAbove with hAbove | hAbove
    · simp only [hAbove, Option.bind_some, List.findSome?_cons]
      cases own d <;> rfl
    · simp only [hAbove, Option.bind_some, List.findSome?_cons, List.findSome?_append]
      cases own d with
      | some a => rfl
      | none => simp

theorem any_lineage (own : InterfaceDecl → Bool) : (unit.lineage className).any own = true ↔
    (unit.interface? className).any own = true ∨
      ∃ parent, unit.superclass? className = some parent ∧ (unit.lineage parent).any own = true := by
  have hFound (l : List InterfaceDecl) : l.any own = (l.findSome? (Option.guard own)).isSome := by
    rw [List.isSome_findSome?]
    exact congrArg l.any (funext fun d => by cases h : own d <;> simp [Option.guard, h])
  rw [hFound, findSome?_lineage, Option.isSome_or, Bool.or_eq_true]
  refine or_congr ?_ ?_
  · cases unit.interface? className with
    | none => simp
    | some d => cases h : own d <;> simp [Option.guard, h]
  · cases unit.superclass? className with
    | none => simp
    | some parent => simp [hFound]

theorem findSome?_ancestry {α : Type} (own : String → Option α) :
    (unit.ancestry className).findSome? own = (own className).or
      ((unit.superclass? className).bind fun parent => (unit.ancestry parent).findSome? own) := by
  unfold ancestry
  cases unit.continues className with
  | root hLineage hParent =>
    have hNone : (unit.interface? className).toList.filterMap (·.superclass) = [] := by
      rw [superclass?] at hParent
      cases h : unit.interface? className with
      | none => rfl
      | some d => simpa [h] using hParent
    rw [hLineage, hParent, hNone]
    cases h : own className <;> simp [h]
  | @child d parent rest hInterface hParent hLineage hAbove =>
    have hHere : (unit.lineage className).filterMap (·.superclass) =
        parent :: rest.filterMap (·.superclass) := by
      rw [hLineage, List.filterMap_cons, hParent]
    rw [hHere, superclass?_of_interface? hInterface, hParent, Option.bind_some, List.findSome?_cons]
    cases own className with
    | some a => rfl
    | none =>
      rcases hAbove with hAbove | hAbove
      · rw [hAbove, Option.none_or]
      · -- The class has the same superclass again, which has been asked.
        have hAgain : [d].filterMap (·.superclass) = [parent] := by simp [hParent]
        rw [hAbove, List.filterMap_append, hAgain, ← List.cons_append, List.findSome?_append]
        cases h : own parent <;> simp [h]

variable (unit)

/-- A member of a class is its own, or else that of its superclass, on every graph of superclasses. No
chain passes a class twice. -/
theorem lookups_follow_inheritance (className name : String) :
    unit.findProperty? className name = ((unit.interface? className).bind (·.property? name)).or
        ((unit.superclass? className).bind (unit.findProperty? · name)) ∧
      unit.findPropertyBySetter? className name =
        ((unit.interface? className).bind (·.propertyBySetter? name)).or
          ((unit.superclass? className).bind (unit.findPropertyBySetter? · name)) ∧
      unit.findMethod? className name =
        ((unit.implementation? className).bind (·.instanceMethod? name)).or
          ((unit.superclass? className).bind (unit.findMethod? · name)) ∧
      (unit.declaresMethod className name = true ↔
        ((unit.interface? className).any (·.declares name) = true ∨
          ((unit.implementation? className).bind (·.instanceMethod? name)).isSome = true) ∨
        ∃ parent, unit.superclass? className = some parent ∧ unit.declaresMethod parent name = true) ∧
      ((unit.lineage className).map (·.name)).Nodup ∧
      (unit.ancestry className).length ≤ unit.interfaces.length + 1 := by
  have hMethod : unit.findMethod? className name =
      ((unit.implementation? className).bind (·.instanceMethod? name)).or
        ((unit.superclass? className).bind (unit.findMethod? · name)) := findSome?_ancestry _
  have hAbove : ((unit.superclass? className).bind (unit.findMethod? · name)).isSome = true ↔
      ∃ parent, unit.superclass? className = some parent ∧
        (unit.findMethod? parent name).isSome = true := by
    cases unit.superclass? className <;> simp
  refine ⟨findSome?_lineage _, findSome?_lineage _, hMethod, ?_, nodup_lineageIn _ _, ?_⟩
  · rw [declaresMethod, Bool.or_eq_true, any_lineage, hMethod, Option.isSome_or, Bool.or_eq_true, hAbove,
      or_or_or_comm]
    simp only [declaresMethod, Bool.or_eq_true, and_or_left, exists_or]
  · have hNames := List.length_filterMap_le (·.superclass) (unit.lineage className)
    rw [ancestry, List.length_cons]
    exact Nat.succ_le_succ (Nat.le_trans hNames (length_lineageIn_le _ _))

end SourceUnit

end DelegateSafety
