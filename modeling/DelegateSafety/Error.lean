/-! # Errors -/
namespace DelegateSafety

inductive Error where
  | fileSystem (message : String)
  | input (path message : String)
  | configuration (message : String)
  | validation (message : String)
  /-- Whoever drives a check broke a promise to it. -/
  | hostContract (message : String)
  | inContext (context : String) (cause : Error)
  deriving DecidableEq

namespace Error

def message : Error → String
  | fileSystem m => "File system error: " ++ m
  | input path m => "Invalid input " ++ path ++ ": " ++ m
  | configuration m => "Configuration error: " ++ m
  | validation m => "Validation error: " ++ m
  | hostContract m => "Host contract violation: " ++ m
  | inContext context cause => context ++ ": " ++ cause.message

end Error

end DelegateSafety
