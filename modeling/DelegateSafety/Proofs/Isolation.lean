import DelegateSafety.Proofs.DeclarationOrder
import DelegateSafety.Proofs.Inheritance

/-! # Implementations without a name

A scan rejects an implementation without a name and goes on as if it had not come to it. Its methods are
explored all the same, but no facts are known of their class, so nothing is found in them. Where nothing
else goes by the empty name, no lookup comes to such an implementation either, and a unit is reported as if
it were left out (`unnamed_implementations_are_isolated`).
-/
namespace DelegateSafety

/-- The unit without its implementations that have no name. -/
def SourceUnit.named (unit : SourceUnit) : SourceUnit :=
  { unit with implementations := unit.implementations.filter (·.name ≠ "") }

def Subject.named (subject : Subject) : Subject := { subject with unit := subject.unit.named }

def Frame.named (frame : Frame) : Frame := { frame with subject := frame.subject.named }

/-- The type that is spelled out in an expression. -/
def Expr.writtenType? : Expr → Option TypeRef
  | .var _ type _ => type
  | .cast type _ _ => some type
  | _ => none

/-- An expression that does not spell out a class without a name. -/
def Expr.NamesItsClass (e : Expr) : Prop := e.writtenType? ≠ some (.object "")

/-- No superclass and no type goes by the empty name. -/
structure SourceUnit.NamesItsClasses (unit : SourceUnit) : Prop where
  superclasses : ∀ d ∈ unit.interfaces, d.superclass ≠ some ""
  inheritedFields : ∀ d ∈ unit.interfaces, ∀ f ∈ d.fields, f.type ≠ .object ""
  properties : ∀ d ∈ unit.interfaces, ∀ p ∈ d.properties, p.type ≠ .object ""
  ownFields : ∀ d ∈ unit.implementations, ∀ f ∈ d.fields, f.type ≠ .object ""
  bodies : ∀ d ∈ unit.implementations, ∀ m ∈ d.methods, ∀ body ∈ m.body,
    Stmt.Within Expr.NamesItsClass body

/-! ## Lookups -/

theorem findSome?_congr_of_mem {α β : Type} {as : List α} {f g : α → Option β} (h : ∀ a ∈ as, f a = g a) :
    as.findSome? f = as.findSome? g := by
  induction as with
  | nil => rfl
  | cons a rest ih =>
    obtain ⟨hHere, hRest⟩ := List.forall_mem_cons.mp h
    rw [List.findSome?_cons, List.findSome?_cons, hHere, ih hRest]

namespace SourceUnit

variable {unit : SourceUnit} {name : String}

theorem implementation?_named (hName : name ≠ "") :
    unit.named.implementation? name = unit.implementation? name := by
  simp only [implementation?, named, ← List.filter_reverse, List.find?_filter]
  refine congrArg (List.find? · unit.implementations.reverse) (funext fun d => ?_)
  by_cases hSame : d.name = name <;> simp [hSame, hName]

theorem findField?_named (hName : name ≠ "") (field : String) :
    unit.named.findField? name field = unit.findField? name field := by
  rw [findField?, findField?, implementation?_named hName]
  rfl

variable (h : unit.NamesItsClasses)

include h

theorem ne_empty_of_mem_ancestry (hName : name ≠ "") : ∀ ancestor ∈ unit.ancestry name, ancestor ≠ "" := by
  refine List.forall_mem_cons.mpr ⟨hName, fun ancestor hAncestor hEmpty => ?_⟩
  obtain ⟨d, hd, hSuper⟩ := List.mem_filterMap.mp hAncestor
  exact h.superclasses d (mem_of_mem_lineageIn hd) (hEmpty ▸ hSuper)

theorem findMethod?_named (hName : name ≠ "") (selector : String) :
    unit.named.findMethod? name selector = unit.findMethod? name selector :=
  findSome?_congr_of_mem fun ancestor hAncestor => by
    rw [implementation?_named (ne_empty_of_mem_ancestry h hName ancestor hAncestor)]

theorem superclass?_ne_empty : unit.superclass? name ≠ some "" := by
  intro hSuper
  obtain ⟨d, hd, hEmpty⟩ := Option.bind_eq_some_iff.mp hSuper
  exact h.superclasses d (findInterface?_mem hd).1 hEmpty

theorem type_ne_of_findProperty? {property : String} {p : PropertyDecl}
    (hProperty : unit.findProperty? name property = some p) : p.type ≠ .object "" := by
  obtain ⟨d, hd, hp⟩ := List.exists_of_findSome?_eq_some hProperty
  exact h.properties d (mem_of_mem_lineageIn hd) p (List.mem_of_find?_eq_some hp)

theorem type_ne_of_findField? {field : String} {f : FieldDecl}
    (hField : unit.findField? name field = some f) : f.type ≠ .object "" := by
  rcases Option.or_eq_some_iff.mp hField with hOwn | ⟨-, hInherited⟩
  · obtain ⟨d, hd, hf⟩ := Option.bind_eq_some_iff.mp hOwn
    have hMem := List.mem_reverse.mp (List.mem_of_find?_eq_some hd)
    exact h.ownFields d hMem f (List.mem_of_find?_eq_some hf)
  · obtain ⟨d, hd, hf⟩ := List.exists_of_findSome?_eq_some hInherited
    exact h.inheritedFields d (mem_of_mem_lineageIn hd) f (List.mem_of_find?_eq_some hf)

end SourceUnit

/-! ## Types -/

section

variable {unit : SourceUnit} {className : String} (hClass : className ≠ "")

include hClass

theorem resembles_named : ClassScope.Resembles ⟨unit, className⟩ ⟨unit.named, className⟩ where
  className := rfl
  lineage := rfl
  field? := funext fun field => (SourceUnit.findField?_named hClass field).symm

variable (h : unit.NamesItsClasses)

include h

theorem staticType?_ne_empty {e : Expr} (he : e.Within Expr.NamesItsClass) :
    ClassScope.staticType? ⟨unit, className⟩ e ≠ some (.object "") := by
  induction e using Expr.inductionOn with
  | step e ih =>
    obtain ⟨hHere, hParts⟩ := Expr.within_iff.mp he
    cases e with
    | self r => simpa [ClassScope.staticType?] using hClass
    | nil _ | int _ _ | selector _ _ | assign _ _ _ | binary _ _ _ _ | unary _ _ _ | call _ _ _
    | other _ _ => simp [ClassScope.staticType?]
    | var name type r => exact hHere
    | field name r =>
      intro hType
      obtain ⟨f, hf, hEmpty⟩ := Option.map_eq_some_iff.mp hType
      exact SourceUnit.type_ne_of_findField? h hf hEmpty
    | send m r =>
      intro hType
      rw [ClassScope.staticType?_send] at hType
      obtain ⟨p, hp, hEmpty⟩ := Option.map_eq_some_iff.mp hType
      rw [ClassScope.getter?] at hp
      split at hp
      · obtain ⟨_, -, hProperty⟩ := Option.bind_eq_some_iff.mp hp
        exact SourceUnit.type_ne_of_findProperty? h hProperty hEmpty
      · cases hp
    | paren inner r => exact ih inner List.mem_cons_self (hParts inner List.mem_cons_self)
    | cast type inner r =>
      have hInner := ih inner List.mem_cons_self (hParts inner List.mem_cons_self)
      cases type with
      | object name => exact hHere
      | id | scalar _ => exact hInner

theorem receiverClass?_ne_empty {m : Message Expr} {r : SourceRange}
    (hSend : (Expr.send m r).Within Expr.NamesItsClass) :
    ClassScope.receiverClass? ⟨unit, className⟩ m.receiver ≠ some "" := by
  obtain ⟨receiver, selector, args⟩ := m
  cases receiver with
  | object target =>
    have hTarget := (Expr.within_iff.mp hSend).2 target List.mem_cons_self
    intro hReceiver
    obtain ⟨type, hType, hName⟩ := Option.bind_eq_some_iff.mp hReceiver
    cases type with
    | object name =>
      obtain rfl : name = "" := Option.some.inj hName
      exact staticType?_ne_empty hClass h hTarget hType
    | id | scalar _ => cases hName
  | named _ => simp [ClassScope.receiverClass?]
  | super => exact SourceUnit.superclass?_ne_empty h

theorem sent_named {m m' : Message Expr} {r : SourceRange} (hSend : (Expr.send m r).Within Expr.NamesItsClass)
    (hAlike : m.Alike ⟨unit, className⟩ ⟨unit.named, className⟩ m') :
    m.AlikeSent ⟨unit, className⟩ ⟨unit.named, className⟩ m' where
  toAlike := hAlike
  definition? := by
    have hReceiver := receiverClass?_ne_empty hClass h hSend
    simp only [ClassScope.definition?, ← hAlike.receiverClass? (resembles_named hClass), ← hAlike.selector]
    cases hName : ClassScope.receiverClass? ⟨unit, className⟩ m.receiver with
    | none => rfl
    | some name =>
      rw [Option.bind_some, Option.bind_some, SourceUnit.findMethod?_named h fun hEmpty => ?_]
      exact hReceiver (hEmpty ▸ hName)

end

/-! ## Methods -/

theorem rel_self_of_mem {α : Type} {R : α → α → Prop} {a? : Option α} (h : ∀ a ∈ a?, R a a) :
    Option.Rel R a? a? := by
  cases a? with
  | none => exact .none
  | some a => exact .some (h a rfl)

namespace Stmt

variable {inside : Expr → Prop} {R : Expr → Expr → Prop}

mutual

theorem related_within (h : ∀ e, e.Within inside → R e e) : ∀ s : Stmt, s.Within inside → s.Related R s
  | .expr e, hs => .expr (h e ((within_iff.mp hs).1 e List.mem_cons_self))
  | .block body, hs => .block (relatedAll_within h body (within_iff.mp hs).2)
  | .branch cond yes none, hs =>
    .branch (h cond ((within_iff.mp hs).1 cond List.mem_cons_self))
      (related_within h yes ((within_iff.mp hs).2 yes List.mem_cons_self))
  | .branch cond yes (some no), hs =>
    .branchElse (h cond ((within_iff.mp hs).1 cond List.mem_cons_self))
      (related_within h yes ((within_iff.mp hs).2 yes List.mem_cons_self))
      (related_within h no ((within_iff.mp hs).2 no (List.mem_cons_of_mem _ List.mem_cons_self)))
  | .loop cond body, hs =>
    .loop (h cond ((within_iff.mp hs).1 cond List.mem_cons_self))
      (related_within h body ((within_iff.mp hs).2 body List.mem_cons_self))
  | .ret _, hs => .ret (rel_self_of_mem fun e he => h e ((within_iff.mp hs).1 e (Option.mem_toList.mpr he)))
  | .decl _, hs => .decl (rel_self_of_mem fun e he => h e ((within_iff.mp hs).1 e (Option.mem_toList.mpr he)))

theorem relatedAll_within (h : ∀ e, e.Within inside → R e e) :
    ∀ ss : List Stmt, (∀ s ∈ ss, s.Within inside) → RelatedAll R ss ss
  | [], _ => .nil
  | s :: rest, hs => .cons (related_within h s (List.forall_mem_cons.mp hs).1)
    (relatedAll_within h rest (List.forall_mem_cons.mp hs).2)

end

end Stmt

section

variable {config : DelegateConfig} {known : FactsByClass} {frame : Frame}

theorem Frame.resembles_named (hClass : frame.className ≠ "") : frame.Resembles frame.named :=
  ⟨DelegateSafety.resembles_named hClass, rfl, rfl, rfl, rfl⟩

variable (h : frame.subject.unit.NamesItsClasses) (hClass : frame.className ≠ "")

include h hClass

theorem Expr.exchangeable_named {e : Expr} (he : e.Within NamesItsClass) :
    e.Exchangeable config known frame frame.named e := by
  induction e using inductionOn with
  | step e ih =>
    have hParts := (within_iff.mp he).2
    have hAll := Exchangeable.of_operands (Frame.resembles_named hClass)
      (List.forall₂_same.mpr fun c hc => ih c hc (hParts c hc)) fun m r m' hSend hAlike =>
        sent_named hClass h (hSend ▸ he) hAlike
    rwa [withOperands_operands] at hAll

/-- A method of a class with a name is explored as if the others were not there. -/
theorem explore_named (hBody : ∀ body ∈ frame.method.body, Stmt.Within Expr.NamesItsClass body)
    (limits : Limits) :
    (explore frame limits (delegatePaths config known)).stats =
        (explore frame.named limits (delegatePaths config known)).stats ∧
      (explore frame limits (delegatePaths config known)).reports =
        (explore frame.named limits (delegatePaths config known)).reports := by
  refine explore_exchangeable (Frame.resembles_named hClass) (rel_self_of_mem fun body hSome => ?_) limits
  exact Stmt.related_within (fun e he => Expr.exchangeable_named h hClass he) body (hBody body hSome)

end

/-- Of a class without facts nothing is reported. -/
theorem reports_explore_of_unknown {config : DelegateConfig} {known : FactsByClass} {frame : Frame}
    (hUnknown : known.find? frame.className = none) (limits : Limits) :
    (explore frame limits (delegatePaths config known)).reports = [] := by
  rw [reports_explore, List.flatMap_eq_nil_iff]
  intro made hMade
  obtain ⟨hHistory, before, call, rfl⟩ := exists_concat_of_mem_shownCalls hMade
  rcases filed_cases known hHistory with hNothing | ⟨_, facts, -, -, hKnown, -⟩
  · exact hNothing config
  · rw [hUnknown] at hKnown
    cases hKnown

/-! ## Scans -/

section

variable {config : DelegateConfig} {subject : Subject}

theorem scanClass_fails_iff {known : FactsByClass} {d : ImplementationDecl} :
    (∃ error, scanClass config subject known d = .error error) ↔ d.name = "" := by
  rw [scanClass]
  split_ifs with hName hKnown <;> simp [hName]

theorem scanOne_unnamed {d : ImplementationDecl} (hName : d.name = "") (known : FactsByClass) :
    (danglingDelegateCheck config).scanOne subject known d = (known, []) := by
  simp [UnitCheck.scanOne, danglingDelegateCheck, scanClass, hName]

theorem scanOne_named {d : ImplementationDecl} (hName : d.name ≠ "") (known : FactsByClass) :
    (danglingDelegateCheck config).scanOne subject known d =
      (danglingDelegateCheck config).scanOne subject.named known d := by
  have hScope : ClassScope.Resembles ⟨subject.unit, d.name⟩ ⟨subject.named.unit, d.name⟩ :=
    resembles_named hName
  have hFacts : classFacts ⟨subject.unit, d.name⟩ config d =
      classFacts ⟨subject.named.unit, d.name⟩ config d := by
    rw [classFacts, classFacts, observeMethod_resembles hScope]
  have hScan := scanClass_eq hScope rfl rfl rfl hFacts known
  simp only [UnitCheck.scanOne, danglingDelegateCheck, hScan]

/-- Implementations without a name leave no trace in a scan. -/
theorem scanAll_named (known : FactsByClass) (decls : List ImplementationDecl) :
    (danglingDelegateCheck config).scanAll subject known decls =
      (danglingDelegateCheck config).scanAll subject.named known (decls.filter (·.name ≠ "")) := by
  induction decls generalizing known with
  | nil => rfl
  | cons d rest ih =>
    by_cases hName : d.name = ""
    · rw [List.filter_cons_of_neg (by simpa using hName), ← ih, UnitCheck.scanAll, scanOne_unnamed hName]
      rfl
    · rw [List.filter_cons_of_pos (by simpa using hName), UnitCheck.scanAll, UnitCheck.scanAll,
        scanOne_named hName, ih]

theorem scannedFacts_named : scannedFacts config subject.named = scannedFacts config subject :=
  (congrArg Prod.fst (scanAll_named ∅ subject.unit.implementations)).symm

end

/-! ## Runs -/

theorem frames_named (subject : Subject) :
    UnitCheck.frames subject.named =
      ((UnitCheck.frames subject).filter (·.className ≠ "")).map Frame.named := by
  have hDecls (decls : List ImplementationDecl) :
      (decls.filter (·.name ≠ "")).flatMap (fun d => (d.methods.filter (·.body.isSome)).map fun method =>
          (⟨subject.named, d.name, method⟩ : Frame)) =
        ((decls.flatMap fun d => (d.methods.filter (·.body.isSome)).map fun method =>
          (⟨subject, d.name, method⟩ : Frame)).filter (·.className ≠ "")).map Frame.named := by
    induction decls with
    | nil => rfl
    | cons d rest ih =>
      rw [List.flatMap_cons, List.filter_append, List.map_append, ← ih, List.filter_map]
      by_cases hName : d.name = ""
      · simp [hName, Function.comp_def]
      · simp [hName, Function.comp_def, Frame.named]
  exact hDecls subject.unit.implementations

theorem foldl_stats_append (all all' : List Stats) :
    (all ++ all').foldl (· + ·) 0 = all.foldl (· + ·) 0 + all'.foldl (· + ·) 0 := by
  have hAssoc : Std.Associative (α := Stats) (· + ·) := ⟨Stats.add_assoc⟩
  rw [List.foldl_append, ← Stats.add_zero (all.foldl _ 0), List.foldl_assoc]
  rfl

/-- What is added up over some frames is added up over those with a class name and those without. -/
theorem foldl_stats_frames (frames : List Frame) (f : Frame → Stats) :
    (frames.map f).foldl (· + ·) 0 =
      ((frames.filter (·.className ≠ "")).map f).foldl (· + ·) 0 +
        ((frames.filter (·.className = "")).map f).foldl (· + ·) 0 := by
  have hPerm := (List.filter_append_perm (fun frame : Frame => decide (frame.className ≠ "")) frames).map f
  rw [← foldl_stats_perm hPerm, List.map_append, foldl_stats_append]
  simp

theorem flatMap_filter_of_nil {α β : Type} {p : α → Bool} {f : α → List β} {as : List α}
    (h : ∀ a ∈ as, p a = false → f a = []) : (as.filter p).flatMap f = as.flatMap f := by
  induction as with
  | nil => rfl
  | cons a rest ih =>
    obtain ⟨hHere, hRest⟩ := List.forall_mem_cons.mp h
    rw [List.flatMap_cons, ← ih hRest]
    cases hp : p a with
    | true => rw [List.filter_cons_of_pos hp, List.flatMap_cons]
    | false => rw [List.filter_cons_of_neg (Bool.not_eq_true _ ▸ hp), hHere hp, List.nil_append]

section

variable {config : DelegateConfig} {subject : Subject} {frame : Frame} (limits : Limits)

theorem reports_of_unnamed (hFrame : frame.className = "") :
    (explore frame limits (delegatePaths config (scannedFacts config subject))).reports = [] := by
  refine reports_explore_of_unknown ?_ limits
  rw [hFrame, scannedFacts, find?_scanAll_empty]
  rfl

variable (h : subject.unit.NamesItsClasses)

include h

theorem explore_mem_frames (hFrame : frame ∈ (UnitCheck.frames subject).filter (·.className ≠ "")) :
    let paths := delegatePaths config (scannedFacts config subject)
    (explore frame limits paths).stats = (explore frame.named limits paths).stats ∧
      (explore frame limits paths).reports = (explore frame.named limits paths).reports := by
  obtain ⟨hMem, hClass⟩ := List.mem_filter.mp hFrame
  obtain ⟨d, hd, method, hMethod, rfl⟩ := exists_of_mem_frames hMem
  exact explore_named h (by simpa using hClass) (h.bodies d hd method hMethod) limits

theorem stats_named :
    let explored (frame : Frame) := explore frame limits (delegatePaths config (scannedFacts config subject))
    ((danglingDelegateCheck config).run subject limits).stats =
      ((danglingDelegateCheck config).run subject.named limits).stats +
        (((UnitCheck.frames subject).filter (·.className = "")).map fun frame =>
          (explored frame).stats).foldl (· + ·) 0 := by
  intro explored
  have hNamed := List.map_congr_left fun frame hFrame =>
    (@explore_mem_frames config _ frame limits h hFrame).1
  rw [run_eq, run_eq, scannedFacts_named, frames_named, List.map_map, foldl_stats_frames, hNamed]
  rfl

theorem reports_named :
    ((danglingDelegateCheck config).run subject limits).reports =
      ((danglingDelegateCheck config).run subject.named limits).reports := by
  have hUnnamed : ∀ frame ∈ UnitCheck.frames subject, decide (frame.className ≠ "") = false →
      (explore frame limits (delegatePaths config (scannedFacts config subject))).reports = [] :=
    fun frame _ hFrame => reports_of_unnamed limits (by simpa using hFrame)
  have hNamed := List.flatMap_congr fun frame hFrame =>
    (@explore_mem_frames config _ frame limits h hFrame).2
  simp only [run_eq, scannedFacts_named, frames_named, List.flatMap_map]
  rw [scanAll_named, ← flatMap_filter_of_nil hUnnamed, hNamed]
  rfl

end

/-- Implementations without a name fail their scan, and no others do. A scan that fails leaves what is known
as it was and reports nothing. For the rest of the unit they are not there, and what they add to the
statistics is what their own methods count. -/
theorem unnamed_implementations_are_isolated (config : DelegateConfig) (settings : AnalysisSettings)
    {unit : SourceUnit} (h : unit.NamesItsClasses) :
    let check := danglingDelegateCheck config
    let subject := Subject.ofUnit unit settings.autoReleaseFields
    let run (unit : SourceUnit) := check.run (.ofUnit unit settings.autoReleaseFields) settings.limits
    let explored (frame : Frame) :=
      explore frame settings.limits (delegatePaths config (scannedFacts config subject))
    let unnamed := (UnitCheck.frames subject).filter (·.className = "")
    (run unit).reports = (run unit.named).reports ∧
      (run unit).stats =
        (run unit.named).stats + (unnamed.map fun frame => (explored frame).stats).foldl (· + ·) 0 ∧
      ∀ (known : FactsByClass) (d : ImplementationDecl),
        ((∃ error, check.scan subject known d = .error error) ↔ d.name = "") ∧
          ∀ error, check.scan subject known d = .error error →
            check.scanOne subject known d = (known, []) := by
  intro check subject run explored unnamed
  refine ⟨reports_named settings.limits h, stats_named settings.limits h, fun known d => ?_⟩
  have hFails : (∃ error, check.scan subject known d = .error error) ↔ d.name = "" := scanClass_fails_iff
  exact ⟨hFails, fun error hError => scanOne_unnamed (hFails.mp ⟨error, hError⟩) known⟩

namespace Sample

/-- `Foo` stands twice in the unit, first without its name. -/
def unnamedAndNamed : SourceUnit :=
  { droppedAndReplaced with
    implementations := droppedAndReplaced.implementations.flatMap fun d => [{ d with name := "" }, d] }

theorem namesItsClasses_unnamedAndNamed : unnamedAndNamed.NamesItsClasses where
  superclasses := by decide +kernel
  inheritedFields := by decide +kernel
  properties := by decide +kernel
  ownFields := by decide +kernel
  bodies := by
    simp only [Stmt.Within, Expr.NamesItsClass]
    decide +kernel

end Sample

open Sample in
/-- The methods that stand there twice are explored twice and reported once. -/
theorem unnamed_double_is_not_reported :
    let run (unit : SourceUnit) :=
      (danglingDelegateCheck .default).run (.ofUnit unit none) AnalysisSettings.default.limits
    unnamedAndNamed.NamesItsClasses ∧ unnamedAndNamed.named = droppedAndReplaced ∧
      (run droppedAndReplaced).reports ≠ [] ∧
      (run unnamedAndNamed).reports = (run droppedAndReplaced).reports ∧
      (run unnamedAndNamed).stats = (run droppedAndReplaced).stats + (run droppedAndReplaced).stats := by
  have hIsolated := unnamed_implementations_are_isolated .default .default namesItsClasses_unnamedAndNamed
  exact ⟨namesItsClasses_unnamedAndNamed, rfl, by decide +kernel, hIsolated.1, by decide +kernel⟩

end DelegateSafety
