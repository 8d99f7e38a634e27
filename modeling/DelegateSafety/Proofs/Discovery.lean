import DelegateSafety.Config.Load

/-! # Which configuration is found

A file that is no good counts as none: the search goes past it (`firstGood_append`), and only where nothing
good lies farther up does the nearest file decide (`nearest_file_decides`).
-/
namespace DelegateSafety.AnalyzerConfig

section

variable {parse : String → Except Error AnalyzerConfig}

def Rejects (parse : String → Except Error AnalyzerConfig) (text : Option String) : Prop :=
  ∀ t, text = some t → ∃ e, parse t = .error e

theorem rejects_none : Rejects parse none := nofun

theorem rejects_some {text : String} {e : Error} (h : parse text = .error e) :
    Rejects parse (some text) := by
  rintro _ ⟨rfl⟩
  exact ⟨e, h⟩

theorem firstGood_of_ok {text : String} {config : AnalyzerConfig} (h : parse text = .ok config)
    (rest : List (Option String)) : firstGood parse (some text :: rest) = config := by
  rw [firstGood_cons, Option.bind_some, h]
  rfl

theorem firstGood_of_rejects {text : Option String} (h : Rejects parse text)
    (rest : List (Option String)) : firstGood parse (text :: rest) = firstGood parse rest := by
  rw [firstGood_cons]
  cases text with
  | none => rfl
  | some t =>
    obtain ⟨e, hError⟩ := h t rfl
    rw [Option.bind_some, hError]
    rfl

/-- Texts that are rejected make no difference to what comes after them. -/
theorem firstGood_append {texts : List (Option String)} (h : ∀ text ∈ texts, Rejects parse text)
    (rest : List (Option String)) : firstGood parse (texts ++ rest) = firstGood parse rest := by
  induction texts with
  | nil => rfl
  | cons text others ih =>
    rw [List.cons_append, firstGood_of_rejects (h text List.mem_cons_self),
      ih fun other hOther => h other (List.mem_cons_of_mem _ hOther)]

theorem firstGood_eq_default {texts : List (Option String)}
    (h : ∀ text ∈ texts, Rejects parse text) : firstGood parse texts = default := by
  have hAll := firstGood_append h []
  rwa [List.append_nil] at hAll

end

/-- The text of the configuration file in a directory. -/
def fileIn (read? : String → Option String) (directory : String) : Option String :=
  read? (FilePath.inside directory configFileName)

theorem discover_eq (parse : String → Except Error AnalyzerConfig) (read? : String → Option String)
    (start : String) : discover parse read? start =
      firstGood parse ((FilePath.ancestors searchDepth start).map (fileIn read?)) := by
  rw [discover, candidates, List.map_map]
  rfl

/-- The nearest directory with a file decides if the file is good. If it is not, the directories above
decide among themselves, and the default is used if they have no good file either. -/
theorem nearest_file_decides (parse : String → Except Error AnalyzerConfig)
    (read? : String → Option String) (start : String) :
    let directories := FilePath.ancestors searchDepth start
    let found := discover parse read? start
    directories.length ≤ searchDepth ∧
      ((∀ directory ∈ directories, fileIn read? directory = none) → found = default) ∧
      ∀ nearer directory farther text, directories = nearer ++ directory :: farther →
        (∀ other ∈ nearer, fileIn read? other = none) → fileIn read? directory = some text →
        (∀ config, parse text = .ok config → found = config) ∧
          ∀ e, parse text = .error e → found = firstGood parse (farther.map (fileIn read?)) ∧
            ((∀ other ∈ farther, Rejects parse (fileIn read? other)) → found = default) := by
  intro directories found
  refine ⟨FilePath.length_ancestors_le _ _, fun hNone => ?_, ?_⟩
  · refine (discover_eq parse read? start).trans (firstGood_eq_default fun text hText => ?_)
    obtain ⟨directory, hDirectory, rfl⟩ := List.mem_map.mp hText
    exact hNone directory hDirectory ▸ rejects_none
  · intro nearer directory farther text hDirectories hNearer hText
    have hFound : found = firstGood parse (some text :: farther.map (fileIn read?)) := by
      have hEmpty : ∀ other ∈ nearer.map (fileIn read?), Rejects parse other := by
        intro other hOther
        obtain ⟨above, hAbove, rfl⟩ := List.mem_map.mp hOther
        exact hNearer above hAbove ▸ rejects_none
      calc found = firstGood parse (directories.map (fileIn read?)) := discover_eq parse read? start
        _ = firstGood parse
            (nearer.map (fileIn read?) ++ fileIn read? directory :: farther.map (fileIn read?)) := by
          rw [hDirectories, List.map_append, List.map_cons]
        _ = firstGood parse (some text :: farther.map (fileIn read?)) := by
          rw [firstGood_append hEmpty, hText]
    refine ⟨fun config hGood => hFound.trans (firstGood_of_ok hGood _), fun e hBad => ?_⟩
    have hAbove : found = firstGood parse (farther.map (fileIn read?)) :=
      hFound.trans (firstGood_of_rejects (rejects_some hBad) _)
    refine ⟨hAbove, fun hFarther => hAbove.trans (firstGood_eq_default fun other hOther => ?_)⟩
    obtain ⟨above, hMem, rfl⟩ := List.mem_map.mp hOther
    exact hFarther above hMem

/-! ## Two files -/

/-- A text that is refused: no path at all may be explored. -/
def noPaths : String := "[analysis]\nmax_paths_per_method = 0\n"

def fiveRounds : String := "[analysis]\nmax_loop_unroll = 5\n"

theorem parse_noPaths : ∃ e, AnalyzerConfig.parse noPaths = .error e := by
  have hNone : (AnalyzerConfig.parse noPaths).toOption = none := by decide +kernel
  cases h : AnalyzerConfig.parse noPaths with
  | error e => exact ⟨e, rfl⟩
  | ok config =>
    rw [h] at hNone
    cases hNone

theorem parse_fiveRounds : AnalyzerConfig.parse fiveRounds = .ok ⟨some ⟨512, 5, none⟩, none, none⟩ := by
  have hSome : (AnalyzerConfig.parse fiveRounds).toOption = some ⟨some ⟨512, 5, none⟩, none, none⟩ := by
    decide +kernel
  cases h : AnalyzerConfig.parse fiveRounds with
  | error e =>
    rw [h] at hSome
    cases hSome
  | ok config =>
    rw [h] at hSome
    exact congrArg _ (Option.some.inj hSome)

/-- Two files in which a configuration is looked for from `/a/b`. -/
def twoFiles (inner outer : String) (path : String) : Option String :=
  if path = "/a/b/.delegatecheck.toml" then some inner
  else if path = "/a/.delegatecheck.toml" then some outer
  else none

theorem ancestors_inner : FilePath.ancestors searchDepth "/a/b" = ["/a/b", "/a", "/"] := by
  decide +kernel

/-- A good file hides the bad one above it. -/
theorem good_file_in_front_of_a_bad_one :
    fileIn (twoFiles fiveRounds noPaths) "/a/b" = some fiveRounds ∧
      discover AnalyzerConfig.parse (twoFiles fiveRounds noPaths) "/a/b" =
        ⟨some ⟨512, 5, none⟩, none, none⟩ := by
  have hHere : fileIn (twoFiles fiveRounds noPaths) "/a/b" = some fiveRounds := by decide +kernel
  refine ⟨hHere, ?_⟩
  obtain ⟨-, -, hNearest⟩ := nearest_file_decides AnalyzerConfig.parse (twoFiles fiveRounds noPaths) "/a/b"
  exact (hNearest [] "/a/b" ["/a", "/"] fiveRounds ancestors_inner nofun hHere).1 _ parse_fiveRounds

/-- Behind a bad file the one above it decides, and not the default. -/
theorem bad_file_is_passed_over :
    fileIn (twoFiles noPaths fiveRounds) "/a/b" = some noPaths ∧
      (∃ e, AnalyzerConfig.parse noPaths = .error e) ∧
      discover AnalyzerConfig.parse (twoFiles noPaths fiveRounds) "/a/b" =
        ⟨some ⟨512, 5, none⟩, none, none⟩ ∧
      discover AnalyzerConfig.parse (twoFiles noPaths fiveRounds) "/a/b" ≠ default := by
  have hFound : discover AnalyzerConfig.parse (twoFiles noPaths fiveRounds) "/a/b" =
      ⟨some ⟨512, 5, none⟩, none, none⟩ := by
    decide +kernel
  refine ⟨by decide +kernel, parse_noPaths, hFound, ?_⟩
  rw [hFound]
  decide

end DelegateSafety.AnalyzerConfig
