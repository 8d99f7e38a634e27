import DelegateSafety.Config.Basic
import DelegateSafety.Json.Fields
import DelegateSafety.Text.Digits

/-! # Configurations as structured data

A section that is left out stays so; a key that is left out of a section has its default. What
stands in an array behind the last key does not count, whereas the value of an unknown key has to
have a meaning.
-/
namespace DelegateSafety

open Json

/-- The values of a section's keys. -/
def settings? (keys : List String) : Json → Option (List (Option Json))
  | .array items => fields? keys (.array (items.take keys.length))
  | .object members =>
    if members.all fun (key, value) => keys.contains key || value.isReadable then
      fields? keys (.object members)
    else none
  | _ => none

/-- A number that a machine word holds. -/
def count? (j : Json) : Option Nat := (nat? j).filter (· < wordSize 64)

namespace AnalysisSettings

def ofJson? (j : Json) : Option AnalysisSettings := do
  let [maxPaths, maxLoopUnroll, autoRelease] ←
    settings? ["max_paths_per_method", "max_loop_unroll", "auto_release_fields"] j | none
  some {
    maxPaths := ← orElse default.maxPaths count? maxPaths
    maxLoopUnroll := ← orElse default.maxLoopUnroll count? maxLoopUnroll
    autoReleaseFields := ← orElse none (nullable bool?) autoRelease }

def toJson (s : AnalysisSettings) : Json :=
  .object [("max_paths_per_method", .ofNat s.maxPaths), ("max_loop_unroll", .ofNat s.maxLoopUnroll),
    ("auto_release_fields", .ofOption .bool s.autoReleaseFields)]

end AnalysisSettings

/-- A list of names. -/
def strings? : Json → Option (List String)
  | .array items => items.mapM string?
  | _ => none

namespace CheckerSelection

def ofJson? (j : Json) : Option CheckerSelection := do
  let [enabled, disabled] ← settings? ["enabled", "disabled"] j | none
  some ⟨← orElse [] strings? enabled, ← orElse [] strings? disabled⟩

def toJson (s : CheckerSelection) : Json :=
  .object [("enabled", .ofStrings s.enabled), ("disabled", .ofStrings s.disabled)]

end CheckerSelection

namespace SingletonAccessor

def ofJson? (j : Json) : Option SingletonAccessor := do
  let [className, selector] ← settings? ["class", "selector"] j | none
  some ⟨← required string? className, ← required string? selector⟩

def toJson (a : SingletonAccessor) : Json :=
  .object [("class", .string a.className), ("selector", .string a.selector)]

end SingletonAccessor

namespace DelegateConfig

def keys : List String :=
  ["pseudo_init_prefixes", "teardown_method", "release_selectors", "add_target_prefix",
    "remove_target_prefix", "add_observer_prefix", "remove_observer_prefix", "singleton_accessors",
    "assume_safe_branch", "suppress_if_statically_null"]

def accessors? : Json → Option (List SingletonAccessor)
  | .array items => items.mapM SingletonAccessor.ofJson?
  | _ => none

def ofJson? (j : Json) : Option DelegateConfig := do
  let [pseudoInit, teardown, release, addTarget, removeTarget, addObserver, removeObserver,
    accessors, assumeSafe, suppress] ← settings? keys j | none
  some {
    pseudoInitNames := ← orElse default.pseudoInitNames strings? pseudoInit
    teardownMethod := ← orElse default.teardownMethod string? teardown
    releaseSelectors := ← orElse default.releaseSelectors strings? release
    addTarget := ← orElse default.addTarget string? addTarget
    removeTarget := ← orElse default.removeTarget string? removeTarget
    addObserver := ← orElse default.addObserver string? addObserver
    removeObserver := ← orElse default.removeObserver string? removeObserver
    singletonAccessors := ← orElse default.singletonAccessors accessors? accessors
    assumeSafeBranch := ← orElse default.assumeSafeBranch bool? assumeSafe
    suppressIfNull := ← orElse default.suppressIfNull bool? suppress }

def toJson (c : DelegateConfig) : Json :=
  .object (keys.zip [.ofStrings c.pseudoInitNames, .string c.teardownMethod,
    .ofStrings c.releaseSelectors, .string c.addTarget, .string c.removeTarget,
    .string c.addObserver, .string c.removeObserver,
    .array (c.singletonAccessors.map (·.toJson)), .bool c.assumeSafeBranch,
    .bool c.suppressIfNull])

end DelegateConfig

namespace AnalyzerConfig

def ofJson? (j : Json) : Option AnalyzerConfig := do
  let [analysis, checkers, delegate] ← settings? ["analysis", "checkers", "dangling_delegate"] j
    | none
  some {
    analysis := ← orElse none (nullable AnalysisSettings.ofJson?) analysis
    checkers := ← orElse none (nullable CheckerSelection.ofJson?) checkers
    delegate := ← orElse none (nullable DelegateConfig.ofJson?) delegate }

def toJson (c : AnalyzerConfig) : Json :=
  .object [("analysis", .ofOption (·.toJson) c.analysis),
    ("checkers", .ofOption (·.toJson) c.checkers),
    ("dangling_delegate", .ofOption (·.toJson) c.delegate)]

end AnalyzerConfig

end DelegateSafety
