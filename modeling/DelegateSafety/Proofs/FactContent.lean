import DelegateSafety.Proofs.Recording
import DelegateSafety.Sample.Units

/-! # What facts are about

An observation is made of a class exactly if a message that amounts to it is sent somewhere in a method
that may make it (`ImplementationDecl.Shows`). The facts of the class are the only ones that tell just that.
-/
namespace DelegateSafety

/-! ## Anywhere inside -/

/-- An expression is, or is a part at any depth of, another one. -/
inductive Expr.PartOf (part : Expr) : Expr → Prop where
  | here : PartOf part part
  | operand {e c : Expr} : c ∈ e.operands → PartOf part c → PartOf part e

/-- An expression stands in a statement or in one nested in it at any depth. -/
inductive Stmt.Mentions (part : Expr) : Stmt → Prop where
  | own {s : Stmt} {e : Expr} : e ∈ s.exprs → part.PartOf e → Mentions part s
  | nested {s c : Stmt} : c ∈ s.children → Mentions part c → Mentions part s

namespace Stmt

variable {P : Stmt → Prop}

mutual

/-- What passes from the statements nested directly in a statement to it holds of every statement. -/
theorem inductionOn (step : ∀ s, (∀ c ∈ s.children, P c) → P s) : ∀ s, P s
  | .expr _ | .ret _ | .decl _ => step _ nofun
  | .block body => step _ (inductionOnAll step body)
  | .branch _ yes none | .loop _ yes => step _ (List.forall_mem_cons.mpr ⟨inductionOn step yes, nofun⟩)
  | .branch _ yes (some no) =>
    step _ (List.forall_mem_cons.mpr
      ⟨inductionOn step yes, List.forall_mem_cons.mpr ⟨inductionOn step no, nofun⟩⟩)

theorem inductionOnAll (step : ∀ s, (∀ c ∈ s.children, P c) → P s) :
    ∀ ss : List Stmt, ∀ c ∈ ss, P c
  | [] => nofun
  | s :: rest => List.forall_mem_cons.mpr ⟨inductionOn step s, inductionOnAll step rest⟩

end

end Stmt

theorem Expr.mem_walk_iff {part e : Expr} : part ∈ e.walk ↔ part.PartOf e := by
  constructor
  · intro h
    induction e using Expr.inductionOn with
    | step e ih =>
      rw [walk_eq] at h
      rcases List.mem_cons.mp h with rfl | h
      · exact .here
      · obtain ⟨c, hc, hPart⟩ := List.mem_flatMap.mp h
        exact .operand hc (ih c hc hPart)
  · intro h
    induction h with
    | here =>
      rw [walk_eq]
      exact List.mem_cons_self
    | operand hc _ ih =>
      rw [walk_eq]
      exact List.mem_cons_of_mem _ (List.mem_flatMap.mpr ⟨_, hc, ih⟩)

theorem Stmt.mem_allExprs_eq {part : Expr} {s : Stmt} :
    part ∈ s.allExprs ↔ (∃ e ∈ s.exprs, part ∈ e.walk) ∨ ∃ c ∈ s.children, part ∈ c.allExprs := by
  simp only [allExprs]
  rw [walk_eq]
  simp only [List.flatMap_cons, List.mem_append, List.mem_flatMap]
  refine or_congr_right ?_
  constructor
  · rintro ⟨inner, ⟨c, hc, hInner⟩, hPart⟩
    exact ⟨c, hc, inner, hInner, hPart⟩
  · rintro ⟨c, hc, inner, hInner, hPart⟩
    exact ⟨inner, ⟨c, hc, hInner⟩, hPart⟩

/-- The walk through a statement comes by everything in it. -/
theorem Stmt.mem_allExprs_iff {part : Expr} {s : Stmt} : part ∈ s.allExprs ↔ s.Mentions part := by
  constructor
  · intro h
    induction s using Stmt.inductionOn with
    | step s ih =>
      rcases mem_allExprs_eq.mp h with ⟨e, he, hPart⟩ | ⟨c, hc, hPart⟩
      · exact .own he (Expr.mem_walk_iff.mp hPart)
      · exact .nested hc (ih c hc hPart)
  · intro h
    induction h with
    | own he hPart => exact mem_allExprs_eq.mpr (.inl ⟨_, he, Expr.mem_walk_iff.mpr hPart⟩)
    | nested hc _ ih => exact mem_allExprs_eq.mpr (.inr ⟨_, hc, ih⟩)

/-! ## What a class shows -/

/-- A send that hands `self` to the object in a field, other than by storing it into a property without
ownership. -/
structure HandsSelf (scope : ClassScope) (m : Message Expr) (field : String) : Prop where
  receiver : m.target?.bind scope.fieldOf? = some field
  passesSelf : m.passesSelf = true
  noSetter : scope.unsafeSetter? m = none

/-- A send that registers `self` with a shared object, which no field holds. -/
structure RegistersSelf (scope : ClassScope) (config : DelegateConfig) (m : Message Expr)
    (singleton : String) : Prop where
  receiver : m.target?.bind (singletonOf? config.singletonAccessors) = some singleton
  noField : m.target?.bind scope.fieldOf? = none
  passesSelf : m.passesSelf = true
  selector : beginsWith m.selector config.addObserver = true

/-- What a send tells of the class, when it is sent by the named method. -/
def Message.Shows (m : Message Expr) (scope : ClassScope) (config : DelegateConfig) (method : String) :
    Observation → Prop
  | .property field property => StoresSelf scope m field property
  | .target field => HandsSelf scope m field ∧ beginsWith m.selector config.addTarget = true
  | .observer field => HandsSelf scope m field ∧ beginsWith m.selector config.addObserver = true ∧
      beginsWith m.selector config.addTarget = false
  | .shared singleton selector => RegistersSelf scope config m singleton ∧ selector = method
  | .pseudoInit _ | .teardown => False

namespace ImplementationDecl

def Implements (decl : ImplementationDecl) (selector : String) : Prop :=
  ∃ method ∈ decl.methods, method.selector = selector

/-- A method of the class that is not set-up code sends a message, anywhere in its body. -/
def Sends (decl : ImplementationDecl) (config : DelegateConfig) (selector : String) (m : Message Expr) :
    Prop :=
  config.roleOf selector ≠ .pseudoInit ∧ ∃ method ∈ decl.methods, method.selector = selector ∧
    ∃ body r, method.body = some body ∧ body.Mentions (.send m r)

/-- What the methods of a class, taken together, tell of it. -/
def Shows (decl : ImplementationDecl) (scope : ClassScope) (config : DelegateConfig) : Observation → Prop
  | .pseudoInit selector => decl.Implements selector ∧
      (config.roleOf selector = .initializer ∨ config.roleOf selector = .pseudoInit)
  | .teardown => decl.Implements config.teardownMethod
  | o => ∃ selector m, decl.Sends config selector m ∧ m.Shows scope config selector o

end ImplementationDecl

section

variable {scope : ClassScope} {config : DelegateConfig} {o : Observation}

theorem observeSend_eq_some_iff {method : String} {m : Message Expr} :
    observeSend scope config method m = some o ↔ m.Shows scope config method o := by
  constructor
  · intro h
    obtain ⟨receiver, hReceiver, hSelf, hKind⟩ := observeSend_cases h
    rcases hKind with ⟨field, hField, hKind⟩ | ⟨hField, hObserver, singleton, hSingleton, rfl⟩
    · have hTarget : m.target?.bind scope.fieldOf? = some field := by rw [hReceiver]; exact hField
      rcases hKind with ⟨property, hSetter, rfl⟩ | ⟨hSetter, ⟨hSelector, rfl⟩ | ⟨hNot, hSelector, rfl⟩⟩
      · exact ⟨hTarget, hSelf, by rw [hSetter]; rfl⟩
      · exact ⟨⟨hTarget, hSelf, hSetter⟩, hSelector⟩
      · exact ⟨⟨hTarget, hSelf, hSetter⟩, hSelector, hNot⟩
    · refine ⟨⟨?_, ?_, hSelf, hObserver⟩, rfl⟩ <;> rw [hReceiver] <;> assumption
  · intro h
    cases o with
    | property field property => exact (observeSend_eq_property_iff method).mpr h
    | target field =>
      obtain ⟨h, hTarget⟩ := h
      obtain ⟨receiver, hReceiver, hField⟩ := Option.bind_eq_some_iff.mp h.receiver
      simp [observeSend, hReceiver, hField, h.passesSelf, h.noSetter, hTarget]
    | observer field =>
      obtain ⟨h, hObserver, hTarget⟩ := h
      obtain ⟨receiver, hReceiver, hField⟩ := Option.bind_eq_some_iff.mp h.receiver
      simp [observeSend, hReceiver, hField, h.passesSelf, h.noSetter, hObserver, hTarget]
    | shared singleton selector =>
      obtain ⟨h, rfl⟩ := h
      obtain ⟨receiver, hReceiver, hSingleton⟩ := Option.bind_eq_some_iff.mp h.receiver
      have hField : scope.fieldOf? receiver = none := by simpa [hReceiver] using h.noField
      simp [observeSend, hReceiver, hField, hSingleton, h.passesSelf, h.selector]
    | pseudoInit _ | teardown => cases h

theorem MethodDecl.mem_body_iff {method : MethodDecl} {e : Expr} :
    e ∈ method.body.elim [] Stmt.allExprs ↔ ∃ body, method.body = some body ∧ body.Mentions e := by
  cases method.body <;> simp [Stmt.mem_allExprs_iff]

theorem ImplementationDecl.exists_send_iff {decl : ImplementationDecl} :
    (∃ method ∈ decl.methods, config.roleOf method.selector ≠ .pseudoInit ∧
        ∃ m r, .send m r ∈ method.body.elim [] Stmt.allExprs ∧ m.Shows scope config method.selector o) ↔
      ∃ selector m, decl.Sends config selector m ∧ m.Shows scope config selector o := by
  simp only [MethodDecl.mem_body_iff]
  constructor
  · rintro ⟨method, hMethod, hRole, m, r, ⟨body, hBody, hMentions⟩, h⟩
    exact ⟨_, m, ⟨hRole, method, hMethod, rfl, body, r, hBody, hMentions⟩, h⟩
  · rintro ⟨_, m, ⟨hRole, method, hMethod, rfl, body, r, hBody, hMentions⟩, h⟩
    exact ⟨method, hMethod, hRole, m, r, ⟨body, hBody, hMentions⟩, h⟩

/-- What a scan of a class observes is what the class shows. -/
theorem mem_observations_iff {decl : ImplementationDecl} :
    o ∈ decl.methods.flatMap (observeMethod scope config) ↔ decl.Shows scope config o := by
  simp only [List.mem_flatMap, mem_observeMethod_iff, observeSend_eq_some_iff]
  cases o with
  | property _ _ | target _ | observer _ | shared _ _ =>
    simp only [reduceCtorEq, and_false, false_or]
    exact ImplementationDecl.exists_send_iff
  | pseudoInit selector =>
    simp only [reduceCtorEq, and_false, false_or, Observation.pseudoInit.injEq, Message.Shows,
      exists_false, or_false]
    constructor
    · rintro ⟨method, hMethod, hRole, rfl⟩
      refine ⟨⟨method, hMethod, rfl⟩, ?_⟩
      cases hKind : config.roleOf method.selector <;> simp_all
    · rintro ⟨⟨method, hMethod, rfl⟩, hRole⟩
      refine ⟨method, hMethod, ?_, rfl⟩
      rintro hRegular
      simp [hRegular] at hRole
  | teardown =>
    simp only [reduceCtorEq, and_false, or_false, and_true, Message.Shows, exists_false]
    exact Iff.rfl

/-! ## Facts -/

/-- The facts of a class tell what its methods show, and are alone in telling just that. They are the same
for another class that implements the same selectors and sends the same messages under them. -/
theorem facts_tell_what_methods_show (scope : ClassScope) (config : DelegateConfig)
    (decl : ImplementationDecl) :
    (∀ facts, classFacts scope config decl = facts ↔ facts.Tells (decl.Shows scope config)) ∧
      ∀ other : ImplementationDecl,
        (∀ selector, other.Implements selector ↔ decl.Implements selector) →
        (∀ selector m, other.Sends config selector m ↔ decl.Sends config selector m) →
        classFacts scope config other = classFacts scope config decl := by
  have hTells : ∀ decl, (classFacts scope config decl).Tells (decl.Shows scope config) := by
    intro decl
    have hShows : (· ∈ decl.methods.flatMap (observeMethod scope config)) = decl.Shows scope config :=
      funext fun _ => propext mem_observations_iff
    exact hShows ▸ ClassFacts.tells_ofObservations _
  refine ⟨fun facts => ⟨?_, (hTells decl).unique⟩, fun other hSelectors hSends => ?_⟩
  · rintro rfl
    exact hTells decl
  · have hShows : other.Shows scope config = decl.Shows scope config := by
      funext o
      cases o <;> simp only [ImplementationDecl.Shows, hSelectors, hSends]
    exact (hShows ▸ hTells other).unique (hTells decl)

end

namespace Sample

def becomeDelegate : Message Expr := ⟨.object (.field "_bar" .unknown), "setDelegate:", [.self .unknown]⟩

/-- A class that makes itself the delegate of its `Bar`, and has a number of methods for that. -/
def attaching (copies : Nat) : ImplementationDecl where
  name := "Foo"
  fields := []
  methods := List.replicate copies (method "attach" [.expr (.send becomeDelegate .unknown)])
  range := .unknown

end Sample

open Sample in
/-- Said twice it is still the same. -/
theorem attaching_twice_tells_nothing_new :
    let scope : ClassScope := ⟨delegatePair [], "Foo"⟩
    classFacts scope .default (attaching 2) = classFacts scope .default (attaching 1) ∧
      "delegate" ∈ ((classFacts scope .default (attaching 1)).signals "_bar").properties := by
  intro scope
  obtain ⟨hExact, hSame⟩ := facts_tell_what_methods_show scope .default (attaching 1)
  constructor
  · refine hSame (attaching 2) (fun selector => ?_) fun selector m => ?_ <;>
      simp [attaching, ImplementationDecl.Implements, ImplementationDecl.Sends, List.replicate]
  · refine (((hExact _).mp rfl).property "_bar" "delegate").mpr ⟨"attach", becomeDelegate, ?_, ?_⟩
    · refine ⟨by decide +kernel, _, List.mem_cons_self, rfl, _, .unknown, rfl, ?_⟩
      exact .nested List.mem_cons_self (.own List.mem_cons_self .here)
    · exact ⟨rfl, rfl, by decide +kernel⟩

end DelegateSafety
