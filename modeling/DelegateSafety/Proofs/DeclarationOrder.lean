import Mathlib.Data.List.Nodup
import Mathlib.Data.List.Perm.Basic
import DelegateSafety.Proofs.Correspondence
import DelegateSafety.Proofs.Origin
import DelegateSafety.Sample.Units

/-! # The order of declarations

Where no two declarations of a kind have the same name, every lookup finds the same in whatever order they
stand, and the facts of a class do not depend on the order in which its methods are observed. Units that
differ only in this order therefore have the same facts and statistics, and the same reports in another
order.
-/
namespace DelegateSafety

/-! ## Reordering -/

/-- The same implementation with its methods in another order. -/
structure ImplementationDecl.Reordered (d d' : ImplementationDecl) : Prop where
  name : d.name = d'.name
  fields : d.fields = d'.fields
  range : d.range = d'.range
  methods : d.methods.Perm d'.methods

/-- The same unit with its interfaces, its implementations and their methods in another order. -/
structure SourceUnit.Reordered (unit unit' : SourceUnit) : Prop where
  path : unit.path = unit'.path
  lang : unit.lang = unit'.lang
  globals : unit.globals = unit'.globals
  interfaces : unit.interfaces.Perm unit'.interfaces
  implementations : ∃ decls, List.Forall₂ ImplementationDecl.Reordered unit.implementations decls ∧
    decls.Perm unit'.implementations

/-- No two declarations of the same. -/
structure SourceUnit.Distinct (unit : SourceUnit) : Prop where
  interfaces : (unit.interfaces.map (·.name)).Nodup
  implementations : (unit.implementations.map (·.name)).Nodup
  methods : ∀ d ∈ unit.implementations, (d.methods.map fun m => (m.kind, m.selector)).Nodup

/-! ## Lookups -/

theorem find?_perm {α : Type} {c : α → Bool} {as bs : List α} (h : as.Perm bs)
    (hOnly : ∀ a ∈ as, ∀ b ∈ as, c a = true → c b = true → a = b) : as.find? c = bs.find? c := by
  induction h with
  | nil => rfl
  | cons a _ ih =>
    have hRest := ih fun b hb d hd => hOnly b (List.mem_cons_of_mem _ hb) d (List.mem_cons_of_mem _ hd)
    rw [List.find?_cons, List.find?_cons, hRest]
  | swap a b rest =>
    have hSame := hOnly a (List.mem_cons_of_mem _ List.mem_cons_self) b List.mem_cons_self
    rw [List.find?_cons, List.find?_cons, List.find?_cons, List.find?_cons]
    cases ha : c a <;> cases hb : c b <;> simp [ha, hb] at hSame ⊢
    exact hSame.symm
  | trans h _ ih ih' =>
    exact (ih hOnly).trans (ih' fun a ha b hb =>
      hOnly a (h.mem_iff.mpr ha) b (h.mem_iff.mpr hb))

/-- Where all keys differ the order does not matter to a lookup. -/
theorem find?_perm_of_nodup {α β : Type} [DecidableEq β] {f : α → β} {as bs : List α} (h : as.Perm bs)
    (hNodup : (as.map f).Nodup) (key : β) : as.find? (f · == key) = bs.find? (f · == key) := by
  refine find?_perm h fun a ha b hb hKey hKey' => ?_
  exact List.inj_on_of_nodup_map hNodup ha hb ((eq_of_beq hKey).trans (eq_of_beq hKey').symm)

theorem findInterface?_perm {decls decls' : List InterfaceDecl} (h : decls.Perm decls')
    (hNodup : (decls.map (·.name)).Nodup) (name : String) :
    findInterface? decls name = findInterface? decls' name := by
  refine find?_perm_of_nodup ((List.reverse_perm _).trans (h.trans (List.reverse_perm _).symm)) ?_ name
  rwa [List.map_reverse, List.nodup_reverse]

theorem lineageIn_perm {decls decls' : List InterfaceDecl} (h : decls.Perm decls')
    (hNodup : (decls.map (·.name)).Nodup) (name : String) :
    lineageIn decls name = lineageIn decls' name := by
  induction decls, name using lineageIn.induct generalizing decls' with
  | case1 decls name hNone =>
    rw [lineageIn_of_none hNone, lineageIn_of_none (findInterface?_perm h hNodup name ▸ hNone)]
  | case2 decls name d hSome ih =>
    rw [lineageIn_of_some hSome, lineageIn_of_some (findInterface?_perm h hNodup name ▸ hSome)]
    congr 1
    cases hParent : d.superclass with
    | none => rfl
    | some parent => exact ih parent (h.filter _) (hNodup.sublist (List.filter_sublist.map _))

namespace SourceUnit

variable {unit unit' : SourceUnit} (hDistinct : unit.Distinct) (h : unit.Reordered unit')

include hDistinct h

theorem lineage_reordered : unit.lineage = unit'.lineage :=
  funext fun name => lineageIn_perm h.interfaces hDistinct.interfaces name

omit hDistinct in
theorem perm_names : (unit.implementations.map (·.name)).Perm (unit'.implementations.map (·.name)) := by
  obtain ⟨decls, hDecls, hPerm⟩ := h.implementations
  rw [map_eq_of_rel hDecls fun _ _ hDecl => hDecl.name]
  exact hPerm.map _

/-- Implementations found by their names correspond. -/
theorem find?_reordered (name : String) :
    Option.Rel (fun d d' => d ∈ unit.implementations ∧ d.Reordered d')
      (unit.implementations.find? (·.name == name)) (unit'.implementations.find? (·.name == name)) := by
  have hNodup := (perm_names h).nodup_iff.mp hDistinct.implementations
  obtain ⟨decls, hDecls, hPerm⟩ := h.implementations
  rw [find?_perm_of_nodup hPerm.symm hNodup]
  refine find?_rel ((List.forall₂_and_left _ _).mpr ⟨fun _ hMem => hMem, hDecls⟩) fun d d' hDecl => ?_
  rw [hDecl.2.name]

omit hDistinct h in
theorem implementation?_eq (hNodup : (unit.implementations.map (·.name)).Nodup) (name : String) :
    unit.implementation? name = unit.implementations.find? (·.name == name) :=
  (find?_perm_of_nodup (List.reverse_perm _).symm hNodup name).symm

theorem implementation?_reordered (name : String) :
    Option.Rel (fun d d' => d ∈ unit.implementations ∧ d.Reordered d') (unit.implementation? name)
      (unit'.implementation? name) := by
  rw [implementation?_eq hDistinct.implementations,
    implementation?_eq ((perm_names h).nodup_iff.mp hDistinct.implementations)]
  exact find?_reordered hDistinct h name

theorem findField?_reordered : unit.findField? = unit'.findField? := by
  funext className field
  rw [findField?, findField?, lineage_reordered hDistinct h]
  congr 1
  refine bind_eq_of_rel (implementation?_reordered hDistinct h className) fun d d' hDecl => ?_
  rw [ImplementationDecl.field?, ImplementationDecl.field?, hDecl.2.fields]

theorem findMethod?_reordered : unit.findMethod? = unit'.findMethod? := by
  funext className selector
  rw [findMethod?, findMethod?, ancestry, ancestry, lineage_reordered hDistinct h]
  refine congrArg (List.findSome? · _) (funext fun name => ?_)
  refine bind_eq_of_rel (implementation?_reordered hDistinct h name) fun d d' hDecl => ?_
  refine find?_perm hDecl.2.methods fun m hm m' hm' hFits hFits' => ?_
  refine List.inj_on_of_nodup_map (hDistinct.methods d hDecl.1) hm hm' ?_
  simp only [MethodDecl.isInstanceMethod, Bool.and_eq_true, beq_iff_eq] at hFits hFits'
  rw [hFits.1, hFits.2, hFits'.1, hFits'.2]

theorem sameDeclarations_reordered : unit.SameDeclarations unit' where
  path := h.path
  lineage := lineage_reordered hDistinct h
  findField? := findField?_reordered hDistinct h
  findMethod? _ _ := by rw [findMethod?_reordered hDistinct h]

end SourceUnit

/-! ## Facts -/

/-- The methods of a class tell the same in whatever order they stand. -/
theorem classFacts_reordered {scope scope' : ClassScope} (hScope : scope.Matches scope')
    (config : DelegateConfig) {d d' : ImplementationDecl} (h : d.Reordered d') :
    classFacts scope config d = classFacts scope' config d' := by
  rw [classFacts, classFacts, observeMethod_resembles hScope.resembles]
  exact ClassFacts.ofObservations_eq_of_mem_iff fun o => (h.methods.flatMap_right _).mem_iff

/-! ## Runs -/

theorem flatMap_perm_of_rel {α β γ : Type} {R : α → β → Prop} {as : List α} {bs : List β}
    {f : α → List γ} {g : β → List γ} (h : List.Forall₂ R as bs)
    (hPerm : ∀ a b, R a b → (f a).Perm (g b)) : (as.flatMap f).Perm (bs.flatMap g) := by
  rw [List.flatMap_def, List.flatMap_def]
  refine List.Perm.flatten_congr ?_
  rw [List.forall₂_map_left_iff, List.forall₂_map_right_iff]
  exact h.imp hPerm

section

variable {config : DelegateConfig} {subject subject' : Subject} (hDistinct : subject.unit.Distinct)
  (h : subject.unit.Reordered subject'.unit) (hLang : subject.lang = subject'.lang)

include hDistinct h

theorem classFacts_eq_of_reordered {d d' : ImplementationDecl} (hDecl : d.Reordered d') (name : String) :
    classFacts ⟨subject.unit, name⟩ config d = classFacts ⟨subject'.unit, name⟩ config d' := by
  have hScope : ClassScope.Matches ⟨subject.unit, name⟩ ⟨subject'.unit, name⟩ :=
    ⟨rfl, SourceUnit.sameDeclarations_reordered hDistinct h⟩
  exact classFacts_reordered hScope config hDecl

theorem scannedFacts_reordered : scannedFacts config subject = scannedFacts config subject' := by
  refine NameMap.ext_find? fun name => Option.ext fun facts => ?_
  rw [find?_scannedFacts_eq_some_iff, find?_scannedFacts_eq_some_iff]
  refine and_congr_right fun _ => ?_
  have hFacts := fun d d' hDecl => @classFacts_eq_of_reordered config _ _ hDistinct h d d' hDecl name
  have hFirst := SourceUnit.find?_reordered hDistinct h name
  generalize subject.unit.implementations.find? (·.name == name) = first,
    subject'.unit.implementations.find? (·.name == name) = first' at hFirst
  cases hFirst with
  | none => simp
  | some hDecl => simp [hFacts _ _ hDecl.2]

/-- What is gathered from matching methods is the same but for the order. -/
theorem flatMap_frames_perm (hLang : subject.lang = subject'.lang) {α : Type} {f : Frame → List α}
    (hf : ∀ frame frame', frame.Matches frame' → frame.method = frame'.method → f frame = f frame') :
    ((UnitCheck.frames subject).flatMap f).Perm ((UnitCheck.frames subject').flatMap f) := by
  have hUnit := SourceUnit.sameDeclarations_reordered hDistinct h
  obtain ⟨decls, hDecls, hPerm⟩ := h.implementations
  simp only [UnitCheck.frames, List.flatMap_assoc, List.flatMap_map]
  refine (flatMap_perm_of_rel hDecls fun d d' hDecl => ?_).trans (hPerm.flatMap_right _)
  have hSame : (fun method => f ⟨subject, d.name, method⟩) = fun method => f ⟨subject', d'.name, method⟩ :=
    funext fun method => hf _ _ ⟨⟨hDecl.name, hUnit⟩, hLang, rfl, rfl⟩ rfl
  rw [hSame]
  exact (hDecl.methods.filter _).flatMap_right _

theorem scanAll_reordered (hLang : subject.lang = subject'.lang) :
    (((danglingDelegateCheck config).scanAll subject ∅ subject.unit.implementations).2).Perm
      ((danglingDelegateCheck config).scanAll subject' ∅ subject'.unit.implementations).2 := by
  have hUnit := SourceUnit.sameDeclarations_reordered hDistinct h
  have hFacts := fun d d' hDecl => @classFacts_eq_of_reordered config _ _ hDistinct h d d' hDecl
  have hNodup := (SourceUnit.perm_names h).nodup_iff.mp hDistinct.implementations
  rw [snd_scanAll_distinct hDistinct.implementations fun _ _ => rfl,
    snd_scanAll_distinct hNodup fun _ _ => rfl]
  obtain ⟨decls, hDecls, hPerm⟩ := h.implementations
  refine (flatMap_perm_of_rel hDecls fun d d' hDecl => ?_).trans (hPerm.flatMap_right _)
  have hScope : ClassScope.Matches ⟨subject.unit, d.name⟩ ⟨subject'.unit, d'.name⟩ := ⟨hDecl.name, hUnit⟩
  rw [hFacts d d' hDecl, checkImplicitTeardown_eq_of_resembles hScope.resembles hUnit.path hLang hDecl.range,
    hDecl.name]

end

theorem foldl_stats_perm {all all' : List Stats} (h : all.Perm all') :
    all.foldl (· + ·) 0 = all'.foldl (· + ·) 0 := by
  refine h.foldl_eq' (fun a _ b _ c => ?_) 0
  simp only [Stats.add_def, Nat.add_right_comm]

/-- The order of declarations changes neither facts nor statistics, and of the reports the order only. -/
theorem declaration_order_is_irrelevant (config : DelegateConfig) (settings : AnalysisSettings)
    {unit unit' : SourceUnit} (hDistinct : unit.Distinct) (h : unit.Reordered unit') :
    let run (unit : SourceUnit) :=
      (danglingDelegateCheck config).run (.ofUnit unit settings.autoReleaseFields) settings.limits
    scannedFacts config (.ofUnit unit settings.autoReleaseFields) =
        scannedFacts config (.ofUnit unit' settings.autoReleaseFields) ∧
      (run unit).reports.Perm (run unit').reports ∧ (run unit).stats = (run unit').stats := by
  intro run
  have hLang := Subject.lang_ofUnit_congr h.lang settings.autoReleaseFields
  have hFacts : scannedFacts config (.ofUnit unit settings.autoReleaseFields) =
      scannedFacts config (.ofUnit unit' settings.autoReleaseFields) := scannedFacts_reordered hDistinct h
  have hExplore := fun frame frame' hFrame hMethod =>
    @explore_matches config (scannedFacts config (.ofUnit unit' settings.autoReleaseFields)) frame
      frame' hFrame hMethod settings.limits
  refine ⟨hFacts, ?_, ?_⟩
  · simp only [run, run_eq, hFacts]
    refine (scanAll_reordered hDistinct h hLang).append (flatMap_frames_perm hDistinct h hLang ?_)
    exact fun frame frame' hFrame hMethod => (hExplore frame frame' hFrame hMethod).2
  · simp only [run, run_eq, hFacts]
    refine foldl_stats_perm ?_
    rw [List.map_eq_flatMap, List.map_eq_flatMap]
    refine flatMap_frames_perm hDistinct h hLang fun frame frame' hFrame hMethod => ?_
    rw [(hExplore frame frame' hFrame hMethod).1]

namespace Sample

def backToFront (unit : SourceUnit) : SourceUnit :=
  { unit with
    interfaces := unit.interfaces.reverse
    implementations :=
      (unit.implementations.map fun d => { d with methods := d.methods.reverse }).reverse }

theorem reordered_backToFront (unit : SourceUnit) : unit.Reordered (backToFront unit) where
  path := rfl
  lang := rfl
  globals := rfl
  interfaces := (List.reverse_perm _).symm
  implementations := by
    refine ⟨_, ?_, (List.reverse_perm _).symm⟩
    rw [List.forall₂_map_right_iff]
    exact List.forall₂_same.mpr fun d _ => ⟨rfl, rfl, rfl, (List.reverse_perm _).symm⟩

/-- `self` is stored in `init`, and two methods let the field go. -/
def droppedAndReplaced : SourceUnit :=
  let bar : Expr := .field "_bar" .unknown
  delegatePair [
    method "init" [.expr (setProperty bar "delegate" (.self .unknown))],
    method "drop" [.expr (.assign bar (.nil .unknown) .unknown)],
    method "replace" [.expr (.assign bar (.var "other" none .unknown) .unknown)]]

theorem distinct_droppedAndReplaced : droppedAndReplaced.Distinct where
  interfaces := by decide +kernel
  implementations := by decide +kernel
  methods := by decide +kernel

end Sample

open Sample in
/-- Back to front the unit is reported in another order. -/
theorem reports_back_to_front :
    let run (unit : SourceUnit) :=
      (danglingDelegateCheck .default).run (.ofUnit unit none) AnalysisSettings.default.limits
    droppedAndReplaced.Distinct ∧ droppedAndReplaced.Reordered (backToFront droppedAndReplaced) ∧
      (run droppedAndReplaced).reports ≠ (run (backToFront droppedAndReplaced)).reports ∧
      (run droppedAndReplaced).reports.Perm (run (backToFront droppedAndReplaced)).reports := by
  have hOrder := declaration_order_is_irrelevant .default .default distinct_droppedAndReplaced
    (reordered_backToFront droppedAndReplaced)
  exact ⟨distinct_droppedAndReplaced, reordered_backToFront _, by decide +kernel, hOrder.2.1⟩

end DelegateSafety
