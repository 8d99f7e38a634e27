import DelegateSafety.Command.Run

/-! # The program -/
open DelegateSafety

def systemHost (colors : Bool) : Host IO where
  currentDirectory := return (← IO.currentDir).toString
  read? path := do
    try return some (← IO.FS.readFile path) catch _ => return none
  isPresent path := do
    try (← IO.FS.realPath path).pathExists catch _ => return false
  write path text := do
    try IO.FS.writeFile path text; return true catch _ => return false
  print text := do (← IO.getStdout).putStr text
  colors

def main (args : List String) : IO UInt32 := do
  let colors := (← (← IO.getStdout).isTty) && (← IO.getEnv "NO_COLOR").isNone
  let outcome ← runLine (systemHost colors) args
  match outcome with
  | .done => pure ()
  | .misused _ => IO.eprint helpText
  | .failed e =>
    IO.eprintln ("Error: " ++ e.message)
    if let some cause := e.cause? then IO.eprintln ("\nCaused by:\n    " ++ cause.message)
  return UInt32.ofNat outcome.status
