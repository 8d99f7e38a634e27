import DelegateSafety.Command.Basic
import DelegateSafety.Config.Load
import DelegateSafety.Files.Path

/-! # Writing a configuration file -/
namespace DelegateSafety

/-- A configuration file that states the defaults. -/
def defaultConfigText : String := "\n".intercalate [
  "# delegatecheck configuration",
  "",
  "[analysis]",
  "# Paths explored per method before the rest are abandoned",
  "max_paths_per_method = 512",
  "# Times a loop body is entered along one path",
  "max_loop_unroll = 2",
  "# Uncomment to override the language options recorded in each translation unit",
  "# auto_release_fields = true",
  "",
  "[checkers]",
  "# When non-empty, only these checkers run",
  "enabled = []",
  "disabled = []",
  "",
  "[dangling_delegate]",
  "teardown_method = \"dealloc\"",
  "pseudo_init_prefixes = [\"setup\", \"_setup\", \"load\", \"_load\", \"viewdidload\", " ++
    "\"_viewdidload\"]",
  "release_selectors = [\"release\", \"autorelease\"]",
  "add_target_prefix = \"addTarget:\"",
  "remove_target_prefix = \"removeTarget:\"",
  "add_observer_prefix = \"addObserver:\"",
  "remove_observer_prefix = \"removeObserver:\"",
  "# Trust run-time comparisons guarding a branch as proof of safety",
  "assume_safe_branch = true",
  "# Skip verification when the discarded value is known to be null",
  "suppress_if_statically_null = true",
  "",
  "[[dangling_delegate.singleton_accessors]]",
  "class = \"NSNotificationCenter\"",
  "selector = \"defaultCenter\"",
  ""]

variable {m : Type → Type} [Monad m]

/-- Writes the file into a directory and returns its path. -/
def writeDefaultConfig (host : Host m) (directory : String) (force : Bool) :
    ExceptT CommandError m String := do
  let path := FilePath.inside directory configFileName
  if (← host.isPresent path) && !force then throw .configExists
  else if ← host.write path defaultConfigText then return path
  else throw (.configNotWritten path)

def initConfig (host : Host m) (force : Bool) : ExceptT CommandError m Unit := do
  let path ← writeDefaultConfig host "." force
  host.print ("Created " ++ path ++ " configuration file\n")

end DelegateSafety
