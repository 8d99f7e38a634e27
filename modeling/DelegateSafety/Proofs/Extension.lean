import Mathlib.Data.List.Find
import Mathlib.Data.List.Flatten
import DelegateSafety.Proofs.Isolation
import DelegateSafety.Proofs.Linting

/-! # Declaring more

A unit is extended by further methods and properties in its interfaces and by classes that it has not
declared. Chains of superclasses may get longer or turn into cycles, but no class leaves a chain and none
declares less (`declaresMethod_extends`), so what is called under a guard is never less known than before.
-/
namespace DelegateSafety

/-- The same interface with methods and properties appended. -/
structure InterfaceDecl.Extends (d d' : InterfaceDecl) : Prop where
  name : d'.name = d.name
  superclass : d'.superclass = d.superclass
  fields : d'.fields = d.fields
  range : d'.range = d.range
  properties : d.properties <+: d'.properties
  methods : d.methods <+: d'.methods

theorem InterfaceDecl.Extends.refl (d : InterfaceDecl) : d.Extends d :=
  ⟨rfl, rfl, rfl, rfl, List.prefix_rfl, List.prefix_rfl⟩

/-- Interfaces of declared classes are extended. Of other classes interfaces may be added, and likewise
implementations, but without code. -/
structure SourceUnit.Extends (unit unit' : SourceUnit) : Prop where
  path : unit'.path = unit.path
  lang : unit'.lang = unit.lang
  globals : unit'.globals = unit.globals
  interfaces : List.Forall₂ InterfaceDecl.Extends unit.interfaces
    (unit'.interfaces.filter fun d => (unit.interface? d.name).isSome)
  implementations :
    unit'.implementations.filter (fun d => (unit.implementation? d.name).isSome) = unit.implementations
  noCode : ∀ d ∈ unit'.implementations, unit.implementation? d.name = none → ∀ m ∈ d.methods, m.body = none

/-! ## Lookups -/

/-- What is found by a test that nothing new passes is found as before. -/
theorem find?_reverse_filter {α : Type} {as : List α} {isOld test : α → Bool}
    (h : ∀ a ∈ as, test a = true → isOld a = true) :
    (as.filter isOld).reverse.find? test = as.reverse.find? test := by
  rw [← List.filter_reverse, List.find?_filter]
  refine List.find?_congr fun a ha => ?_
  cases hTest : test a with
  | false => simp
  | true => simp [h a (List.mem_reverse.mp ha) hTest]

/-- Each class that is declared in the one list is declared in the other, with at least as much. -/
def KeepsDeclared (decls decls' : List InterfaceDecl) : Prop :=
  ∀ name d, findInterface? decls name = some d → ∃ d', findInterface? decls' name = some d' ∧ d.Extends d'

theorem InterfaceDecl.Extends.declares {d d' : InterfaceDecl} (h : d.Extends d') {selector : String}
    (hDeclares : d.declares selector = true) : d'.declares selector = true := by
  simp only [InterfaceDecl.declares, Bool.or_eq_true, List.any_eq_true] at hDeclares ⊢
  rcases hDeclares with ⟨m, hm, hSelector⟩ | ⟨p, hp, hName⟩
  · exact .inl ⟨m, h.methods.subset hm, hSelector⟩
  · exact .inr ⟨p, h.properties.subset hp, hName⟩

theorem KeepsDeclared.otherInterfaces {decls decls' : List InterfaceDecl} (h : KeepsDeclared decls decls')
    (name : String) : KeepsDeclared (otherInterfaces decls name) (otherInterfaces decls' name) := by
  intro other d hSome
  rw [findInterface?_otherInterfaces] at hSome ⊢
  split at hSome
  · cases hSome
  · rename_i hOther
    rw [if_neg hOther]
    exact h other d hSome

/-- No class leaves a chain. -/
theorem KeepsDeclared.exists_mem_lineageIn {decls decls' : List InterfaceDecl}
    (h : KeepsDeclared decls decls') {start : String} {d : InterfaceDecl}
    (hMem : d ∈ lineageIn decls start) : ∃ d' ∈ lineageIn decls' start, d.Extends d' := by
  induction decls, start using lineageIn.induct generalizing decls' with
  | case1 decls start hNone =>
    rw [lineageIn_of_none hNone] at hMem
    cases hMem
  | case2 decls start first hSome ih =>
    obtain ⟨first', hSome', hFirst⟩ := h start first hSome
    rw [lineageIn_of_some hSome] at hMem
    rw [lineageIn_of_some hSome', hFirst.superclass]
    rcases List.mem_cons.mp hMem with rfl | hMem
    · exact ⟨first', List.mem_cons_self, hFirst⟩
    · split at hMem
      · cases hMem
      · rename_i parent _
        obtain ⟨d', hd', hExtends⟩ := ih parent (h.otherInterfaces start) hMem
        exact ⟨d', List.mem_cons_of_mem _ hd', hExtends⟩

namespace SourceUnit.Extends

variable {unit unit' : SourceUnit} (h : unit.Extends unit')

include h

theorem keepsDeclared : KeepsDeclared unit.interfaces unit'.interfaces := by
  intro name d hSome
  have hOld : ∀ d' ∈ unit'.interfaces, (d'.name == name) = true →
      (unit.interface? d'.name).isSome = true := by
    intro d' _ hName
    rw [eq_of_beq hName, SourceUnit.interface?, hSome]
    rfl
  have hRel := find?_rel (List.rel_reverse h.interfaces) fun d d' (hExtends : d.Extends d') =>
    congrArg (· == name) hExtends.name.symm
  rw [find?_reverse_filter hOld] at hRel
  unfold findInterface? at hSome ⊢
  rw [hSome] at hRel
  cases hFound : unit'.interfaces.reverse.find? (·.name == name) with
  | none => rw [hFound] at hRel; cases hRel
  | some d' =>
    rw [hFound] at hRel
    cases hRel with
    | some hExtends => exact ⟨d', rfl, hExtends⟩

theorem implementation?_extends {name : String} {d : ImplementationDecl}
    (hSome : unit.implementation? name = some d) : unit'.implementation? name = some d := by
  have hOld : ∀ d' ∈ unit'.implementations, (d'.name == name) = true →
      (unit.implementation? d'.name).isSome = true := by
    intro d' _ hName
    rw [eq_of_beq hName, hSome]
    rfl
  rw [SourceUnit.implementation?, ← find?_reverse_filter hOld, h.implementations]
  exact hSome

theorem mem_ancestry {className name : String} (hName : name ∈ unit.ancestry className) :
    name ∈ unit'.ancestry className := by
  unfold ancestry at hName ⊢
  rcases List.mem_cons.mp hName with rfl | hName
  · exact List.mem_cons_self
  · obtain ⟨d, hd, hSuper⟩ := List.mem_filterMap.mp hName
    obtain ⟨d', hd', hExtends⟩ := h.keepsDeclared.exists_mem_lineageIn hd
    exact List.mem_cons_of_mem _ (List.mem_filterMap.mpr ⟨d', hd', hExtends.superclass.trans hSuper⟩)

theorem findMethod?_extends {className selector : String}
    (hSome : (unit.findMethod? className selector).isSome = true) :
    (unit'.findMethod? className selector).isSome = true := by
  rw [findMethod?, List.isSome_findSome?, List.any_eq_true] at hSome ⊢
  obtain ⟨name, hName, hMethod⟩ := hSome
  refine ⟨name, h.mem_ancestry hName, ?_⟩
  cases hDecl : unit.implementation? name with
  | none => rw [hDecl] at hMethod; cases hMethod
  | some d => rwa [h.implementation?_extends hDecl, ← hDecl]

/-- What a class is known to respond to it is known to respond to still. -/
theorem declaresMethod_extends {className selector : String}
    (hDeclares : unit.declaresMethod className selector = true) :
    unit'.declaresMethod className selector = true := by
  rw [declaresMethod, Bool.or_eq_true, List.any_eq_true] at hDeclares ⊢
  refine hDeclares.imp ?_ h.findMethod?_extends
  rintro ⟨d, hd, hSelector⟩
  obtain ⟨d', hd', hExtends⟩ := h.keepsDeclared.exists_mem_lineageIn hd
  exact ⟨d', hd', hExtends.declares hSelector⟩

end SourceUnit.Extends

/-! ## Guards -/

/-- A use is a send to the variable itself. -/
theorem varName?_of_firstUse? {receiver : String} {e : Expr} {m : Message Expr} {range : SourceRange}
    (h : firstUse? receiver e = some (m, range)) : m.target?.bind varName? = some receiver := by
  induction e using Expr.inductionOn with
  | step e ih =>
    cases e with
    | self _ | nil _ | int _ _ | var _ _ _ | field _ _ | selector _ _ | other _ _ => simp [firstUse?] at h
    | paren inner _ | cast _ inner _ | unary _ inner _ =>
      exact ih inner List.mem_cons_self (by simpa only [firstUse?] using h)
    | send m' range' =>
      simp only [firstUse?] at h
      split at h
      · rename_i hTarget
        cases h
        exact hTarget
      · cases h
    | binary _ lhs rhs _ | assign lhs rhs _ =>
      simp only [firstUse?, Option.or_eq_some_iff] at h
      rcases h with h | ⟨-, h⟩
      · exact ih lhs List.mem_cons_self h
      · exact ih rhs (List.mem_cons_of_mem _ List.mem_cons_self) h
    | call _ args _ =>
      simp only [firstUse?, firstUseIn?_eq_findSome?] at h
      obtain ⟨arg, hArg, hUse⟩ := List.exists_of_findSome?_eq_some h
      exact ih arg hArg hUse

theorem varName?_of_firstUseInStmt? {receiver : String} {s : Stmt} {m : Message Expr} {range : SourceRange}
    (h : firstUseInStmt? receiver s = some (m, range)) : m.target?.bind varName? = some receiver := by
  cases s with
  | expr e => exact varName?_of_firstUse? h
  | ret value | decl v =>
    obtain ⟨e, -, hUse⟩ := Option.bind_eq_some_iff.mp h
    exact varName?_of_firstUse? hUse
  | block _ | branch _ _ _ | loop _ _ => cases h

/-- The type of a variable is spelled out where it is used, be it by a cast. -/
theorem staticType?_of_varName? {e : Expr} {name : String} (h : varName? e = some name)
    (scope scope' : ClassScope) : scope.staticType? e = scope'.staticType? e := by
  induction e using Expr.inductionOn with
  | step e ih =>
    cases e with
    | paren inner _ =>
      simp only [ClassScope.staticType?]
      exact ih inner List.mem_cons_self h
    | cast type inner _ =>
      cases type with
      | object _ => rfl
      | id | scalar _ =>
        simp only [ClassScope.staticType?]
        exact ih inner List.mem_cons_self h
    | var _ _ _ => rfl
    | _ => cases h

section

variable {unit unit' : SourceUnit} (h : unit.Extends unit')

include h

theorem isDeclaredOnReceiver_extends {className receiver selector : String} {m : Message Expr}
    (hReceiver : m.target?.bind varName? = some receiver)
    (hDeclared : isDeclaredOnReceiver ⟨unit, className⟩ m selector = true) :
    isDeclaredOnReceiver ⟨unit', className⟩ m selector = true := by
  obtain ⟨target, hTarget, hName⟩ := Option.bind_eq_some_iff.mp hReceiver
  simp only [isDeclaredOnReceiver, hTarget, Option.bind_some] at hDeclared ⊢
  rw [staticType?_of_varName? hName ⟨unit', className⟩ ⟨unit, className⟩]
  obtain ⟨class', hClass, hDeclares⟩ := (Option.any_eq_true _ _).mp hDeclared
  exact (Option.any_eq_true _ _).mpr ⟨class', hClass, h.declaresMethod_extends hDeclares⟩

theorem suspiciousUse?_extends {className : String} {guard : SelectorGuard} {body : Stmt}
    {use : String × SourceRange} (hUse : suspiciousUse? ⟨unit', className⟩ guard body = some use) :
    suspiciousUse? ⟨unit, className⟩ guard body = some use := by
  unfold suspiciousUse? at hUse ⊢
  obtain ⟨⟨m, range⟩, hFound, hReported⟩ := Option.bind_eq_some_iff.mp hUse
  obtain ⟨s, -, hFirst⟩ := List.exists_of_findSome?_eq_some hFound
  rw [hFound, Option.bind_some]
  dsimp only at hReported ⊢
  split at hReported
  · cases hReported
  · rename_i hUnknown
    rw [Bool.or_eq_true, not_or] at hUnknown
    have hStill : isDeclaredOnReceiver ⟨unit, className⟩ m (effectiveSelector m) = false :=
      Bool.eq_false_iff.mpr
        (mt (isDeclaredOnReceiver_extends h (varName?_of_firstUseInStmt? hFirst)) hUnknown.2)
    rw [if_neg (by simpa [hStill] using hUnknown.1)]
    exact hReported

end

/-! ## Reports -/

section

variable {subject subject' : Subject} (h : subject.unit.Extends subject'.unit)

include h

theorem checkGuard_extends {code : CodeBody} {s : Stmt} {d : Diagnostic}
    (hReported : checkGuard subject' code s = some d) : checkGuard subject code s = some d := by
  cases s with
  | branch cond yes no =>
    simp only [checkGuard, h.path] at hReported ⊢
    obtain ⟨guard, hGuard, hMap⟩ := Option.bind_eq_some_iff.mp hReported
    obtain ⟨use, hUse, hSame⟩ := Option.map_eq_some_iff.mp hMap
    rw [hGuard, Option.bind_some, suspiciousUse?_extends h hUse]
    exact congrArg some hSame
  | expr _ | block _ | loop _ _ | ret _ | decl _ => cases hReported

theorem onMethod_extends (className : String) (m : MethodDecl) :
    (respondsToSelectorRule.onMethod subject' className m).Sublist
      (respondsToSelectorRule.onMethod subject className m) := by
  unfold LintRule.onMethod
  cases m.body with
  | none => exact List.nil_sublist _
  | some body =>
    refine (List.Sublist.refl _).append ?_
    simp only [respondsToSelectorRule, List.filterMap_eq_flatMap_toList]
    refine List.Sublist.flatMap_right _ fun s _ => ?_
    cases hReported : checkGuard subject' ⟨className, m, body⟩ s with
    | none => exact List.nil_sublist _
    | some d => rw [checkGuard_extends h hReported]

end

/-- What is declared in addition, be it in the middle of a chain of superclasses, leaves out reports at
most. -/
theorem declaring_more_only_suppresses {subject subject' : Subject}
    (h : subject.unit.Extends subject'.unit) :
    (respondsToSelectorRule.run subject').Sublist (respondsToSelectorRule.run subject) := by
  have hNew : ∀ d ∈ subject'.unit.implementations, (subject.unit.implementation? d.name).isSome = false →
      d.methods.flatMap (respondsToSelectorRule.onMethod subject' d.name) = [] := by
    intro d hd hUndeclared
    refine List.flatMap_eq_nil_iff.mpr fun m hm => ?_
    rw [LintRule.onMethod, h.noCode d hd (Option.isNone_iff_eq_none.mp (by simpa using hUndeclared)) m hm]
    rfl
  rw [LintRule.run_of_onDecl fun _ _ => rfl, LintRule.run_of_onDecl fun _ _ => rfl,
    ← flatMap_filter_of_nil hNew, h.implementations]
  exact List.Sublist.flatMap_right _ fun d _ =>
    List.Sublist.flatMap_right _ fun m _ => onMethod_extends h d.name m

namespace Sample

def askFirst (receiver : Expr) (selector : String) : Stmt :=
  .branch (send (.object receiver) "respondsToSelector:" [.selector "finish" .unknown])
    (.expr (send (.object receiver) selector [])) none

/-- Of two variables one is of a class that the unit declares. -/
def asksTwice : SourceUnit :=
  delegatePair [method "notify"
    [askFirst (.var "d" none .unknown) "finsh", askFirst (.var "b" (some (.object "SubBar")) .unknown) "reload"]]

/-- `Bar` answers one more message, and its superclass, which was not declared, closes a cycle. -/
def asksTwiceExtended : SourceUnit :=
  { asksTwice with
    interfaces := [{ barInterface with methods := [⟨"reload", .instanceMethod⟩] },
      ⟨"NSObject", some "SubBar", [], [], [], .unknown⟩, subBarInterface, fooInterface]
    implementations := ⟨"NSObject", [], [⟨"copy", .instanceMethod, [], none, false, .unknown⟩], .unknown⟩ ::
      asksTwice.implementations }

theorem asksTwice_extends : asksTwice.Extends asksTwiceExtended where
  path := rfl
  lang := rfl
  globals := rfl
  interfaces := by
    have hOld : asksTwiceExtended.interfaces.filter (fun d => (asksTwice.interface? d.name).isSome) =
        [{ barInterface with methods := [⟨"reload", .instanceMethod⟩] }, subBarInterface, fooInterface] := by
      decide +kernel
    rw [hOld]
    have hBar : barInterface.Extends { barInterface with methods := [⟨"reload", .instanceMethod⟩] } :=
      ⟨rfl, rfl, rfl, rfl, List.prefix_rfl, List.nil_prefix⟩
    exact .cons hBar (.cons (.refl _) (.cons (.refl _) .nil))
  implementations := rfl
  noCode := by
    intro d hd hNew m hm
    rcases List.mem_cons.mp hd with rfl | hd
    · obtain rfl := List.mem_singleton.mp hm
      rfl
    · obtain rfl := List.mem_singleton.mp hd
      cases hNew

end Sample

open Sample in
theorem declared_message_is_not_reported :
    asksTwice.Extends asksTwiceExtended ∧
      (respondsToSelectorRule.run (.ofUnit asksTwiceExtended none)).Sublist
        (respondsToSelectorRule.run (.ofUnit asksTwice none)) ∧
      (respondsToSelectorRule.run (.ofUnit asksTwiceExtended none)).length = 1 ∧
      (respondsToSelectorRule.run (.ofUnit asksTwice none)).length = 2 :=
  ⟨asksTwice_extends, declaring_more_only_suppresses asksTwice_extends, by decide +kernel, by decide +kernel⟩

end DelegateSafety
