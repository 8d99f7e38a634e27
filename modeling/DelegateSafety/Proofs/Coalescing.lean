import Mathlib.Algebra.GroupWithZero.Nat
import Mathlib.Data.List.Induction
import DelegateSafety.Proofs.Attribution

/-! # Which reports are kept

Reports are told apart by a key that leaves out title, category and file. As a checker has one kind of
report and a run one file, that amounts to all but the path (`coalescingKey_eq_iff`). A run thus keeps the
first report of each class, and as the checker is part of the key, no checker has a say in what is kept of
another's reports (`ofReports_flatMap`).
-/
namespace DelegateSafety

namespace Collection

variable {raw : List Diagnostic}

theorem ofReports_concat (raw : List Diagnostic) (d : Diagnostic) :
    ofReports (raw ++ [d]) =
      if ∃ e ∈ (ofReports raw).kept, e.coalescingKey = d.coalescingKey then
        ⟨(ofReports raw).kept, (ofReports raw).duplicates + 1⟩
      else ⟨(ofReports raw).kept ++ [d], (ofReports raw).duplicates⟩ := by
  rw [ofReports_append_singleton, add]
  exact if_congr (by simp) rfl rfl

theorem exists_kept_iff (raw : List Diagnostic) (key : String × SourceRange × String × ReportContext) :
    (∃ e ∈ (ofReports raw).kept, e.coalescingKey = key) ↔ ∃ e ∈ raw, e.coalescingKey = key := by
  induction raw using List.reverseRecOn with
  | nil => simp [empty]
  | append_singleton raw d ih =>
    have hLast : (∃ e ∈ raw ++ [d], e.coalescingKey = key) ↔
        (∃ e ∈ (ofReports raw).kept, e.coalescingKey = key) ∨ d.coalescingKey = key := by
      rw [ih]
      simp [or_and_right, exists_or]
    rw [ofReports_concat, hLast]
    split
    · rename_i hSeen
      refine (or_iff_left_of_imp ?_).symm
      rintro rfl
      exact hSeen
    · simp [or_and_right, exists_or]

theorem kept_sublist (raw : List Diagnostic) : (ofReports raw).kept.Sublist raw := by
  induction raw using List.reverseRecOn with
  | nil => exact List.Sublist.refl []
  | append_singleton raw d ih =>
    rw [ofReports_concat]
    split
    · exact ih.trans (List.sublist_append_left raw [d])
    · exact ih.append (List.Sublist.refl [d])

theorem ofReports_append {these those : List Diagnostic}
    (hApart : ∀ d ∈ these, ∀ e ∈ those, d.coalescingKey ≠ e.coalescingKey) :
    ofReports (these ++ those) =
      ⟨(ofReports these).kept ++ (ofReports those).kept,
        (ofReports these).duplicates + (ofReports those).duplicates⟩ := by
  induction those using List.reverseRecOn with
  | nil => simp [empty]
  | append_singleton those d ih =>
    have hBefore := ih fun e he f hf => hApart e he f (List.mem_append_left _ hf)
    have hHere : (∃ e ∈ (ofReports (these ++ those)).kept, e.coalescingKey = d.coalescingKey) ↔
        ∃ e ∈ (ofReports those).kept, e.coalescingKey = d.coalescingKey := by
      rw [exists_kept_iff, exists_kept_iff]
      constructor
      · rintro ⟨e, he, hEq⟩
        rcases List.mem_append.mp he with he | he
        · exact absurd hEq (hApart e he d (List.mem_append_right _ List.mem_cons_self))
        · exact ⟨e, he, hEq⟩
      · rintro ⟨e, he, hEq⟩
        exact ⟨e, List.mem_append_right _ he, hEq⟩
    rw [← List.append_assoc, ofReports_concat, ofReports_concat]
    by_cases hSeen : ∃ e ∈ (ofReports those).kept, e.coalescingKey = d.coalescingKey
    · rw [if_pos hSeen, if_pos (hHere.mpr hSeen), hBefore, Nat.add_assoc]
    · rw [if_neg hSeen, if_neg (mt hHere.mp hSeen), hBefore, List.append_assoc]

theorem filter_checker_flatMap {checkers : List String} {reports : String → List Diagnostic}
    (hReports : ∀ checker ∈ checkers, ∀ d ∈ reports checker, d.checker = checker)
    (p : String → Bool) :
    (checkers.flatMap reports).filter (p ·.checker) = (checkers.filter p).flatMap reports := by
  induction checkers with
  | nil => rfl
  | cons first rest ih =>
    obtain ⟨hThese, hThose⟩ := List.forall_mem_cons.mp hReports
    rw [List.flatMap_cons, List.filter_append, ih hThose, List.filter_cons]
    split
    · rename_i hFirst
      rw [List.flatMap_cons, List.filter_eq_self.mpr fun d hd => by rw [hThese d hd, hFirst]]
    · rename_i hFirst
      rw [List.filter_eq_nil_iff.mpr fun d hd => by rw [hThese d hd]; exact hFirst, List.nil_append]

/-- What checkers report is collected checker by checker. -/
theorem ofReports_flatMap {checkers : List String} {reports : String → List Diagnostic}
    (hDistinct : checkers.Nodup)
    (hReports : ∀ checker ∈ checkers, ∀ d ∈ reports checker, d.checker = checker) :
    ofReports (checkers.flatMap reports) =
      ⟨checkers.flatMap fun checker => (ofReports (reports checker)).kept,
        (checkers.map fun checker => (ofReports (reports checker)).duplicates).sum⟩ := by
  induction checkers with
  | nil => rfl
  | cons first rest ih =>
    obtain ⟨hFirst, hRest⟩ := List.nodup_cons.mp hDistinct
    obtain ⟨hThese, hThose⟩ := List.forall_mem_cons.mp hReports
    have hApart : ∀ d ∈ reports first, ∀ e ∈ rest.flatMap reports,
        d.coalescingKey ≠ e.coalescingKey := by
      intro d hd e he hEq
      obtain ⟨other, hOther, he⟩ := List.mem_flatMap.mp he
      have hSame : d.checker = e.checker := congrArg Prod.fst hEq
      rw [hThese d hd, hThose other hOther e he] at hSame
      exact hFirst (hSame ▸ hOther)
    rw [List.flatMap_cons, ofReports_append hApart, ih hRest hThose, List.flatMap_cons, List.map_cons,
      List.sum_cons]

end Collection

/-! ## All checkers -/

namespace AnalyzerConfig

section

variable {config : AnalyzerConfig} {unit : SourceUnit}

theorem nodup_names (s : CheckerSelection) : s.names.Nodup :=
  nodup_checkerNames.filter _

theorem checker_mem_reportsOf {checker : String} (hChecker : checker ∈ checkerNames) {d : Diagnostic}
    (hd : d ∈ config.reportsOf unit checker) : d.checker = checker :=
  (reported_mem_reportsOf hChecker hd).checker

theorem ofReports_rawReports : Collection.ofReports (config.rawReports unit) =
    ⟨config.checkerSelection.names.flatMap fun checker =>
        (Collection.ofReports (config.reportsOf unit checker)).kept,
      (config.checkerSelection.names.map fun checker =>
        (Collection.ofReports (config.reportsOf unit checker)).duplicates).sum⟩ := by
  rw [rawReports_eq]
  exact Collection.ofReports_flatMap (nodup_names _) fun checker hChecker d hd =>
    checker_mem_reportsOf (mem_names.mp hChecker).1 hd

end

theorem names_only {checker : String} (h : checker ∈ checkerNames) :
    CheckerSelection.names ⟨[checker], []⟩ = [checker] := by
  revert checker
  decide

/-- What is kept of the enabled checkers' reports, what is counted and what is explored, compared with a
run of all checkers and with runs of one checker each. -/
theorem checkers_do_not_interfere (config : AnalyzerConfig) (unit : SourceUnit) :
    let enabled := config.checkerSelection.names
    let all := { config with checkers := some ⟨[], []⟩ }
    let only (checker : String) := { config with checkers := some ⟨[checker], []⟩ }
    all.checkerSelection.names = checkerNames ∧
    (config.analyze unit).diagnostics =
      (all.analyze unit).diagnostics.filter (·.checker ∈ enabled) ∧
    (config.analyze unit).duplicates =
      (enabled.map fun checker => ((only checker).analyze unit).duplicates).sum ∧
    (config.analyze unit).exploration =
      if danglingDelegateName ∈ enabled then (all.analyze unit).exploration else 0 := by
  intro enabled all only
  have hAll : all.checkerSelection.names = checkerNames := rfl
  let kept (checker : String) := (Collection.ofReports (config.reportsOf unit checker)).kept
  have hKept : ∀ checker ∈ checkerNames, ∀ d ∈ kept checker, d.checker = checker :=
    fun checker hChecker d hd =>
      checker_mem_reportsOf hChecker ((Collection.kept_sublist _).subset hd)
  refine ⟨hAll, ?_, ?_, ?_⟩
  · have hEnabled : (config.analyze unit).diagnostics = enabled.flatMap kept :=
      congrArg Collection.kept ofReports_rawReports
    have hEvery : (all.analyze unit).diagnostics = checkerNames.flatMap kept :=
      congrArg Collection.kept ofReports_rawReports
    have hFilter : checkerNames.filter (· ∈ enabled) = enabled := by
      refine List.filter_congr fun checker hChecker => ?_
      rw [Bool.eq_iff_iff, decide_eq_true_iff, mem_names, and_iff_right hChecker]
    rw [hEnabled, hEvery, Collection.filter_checker_flatMap hKept (· ∈ enabled), hFilter]
  · have hOnly : ∀ checker ∈ enabled, ((only checker).analyze unit).duplicates =
        (Collection.ofReports (config.reportsOf unit checker)).duplicates := by
      intro checker hChecker
      have hRaw : (only checker).rawReports unit = config.reportsOf unit checker := by
        rw [rawReports_eq]
        change (CheckerSelection.names ⟨[checker], []⟩).flatMap _ = _
        rw [names_only (mem_names.mp hChecker).1, List.flatMap_singleton]
        rfl
      exact congrArg (fun raw => (Collection.ofReports raw).duplicates) hRaw
    rw [List.map_congr_left hOnly]
    exact congrArg Collection.duplicates ofReports_rawReports
  · have hMem : danglingDelegateName ∈ enabled ↔
        config.checkerSelection.isEnabled danglingDelegateName = true :=
      mem_names.trans (and_iff_right List.mem_cons_self)
    rw [if_congr hMem rfl rfl]
    change (config.exploreIfEnabled unit).stats = _
    rw [exploreIfEnabled]
    split <;> rfl

end AnalyzerConfig

end DelegateSafety
