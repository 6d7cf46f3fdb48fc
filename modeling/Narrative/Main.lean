import Narrative.Command.Run

/-!
The command line program: reads the files that a command needs, runs it, and carries out what it
gives.
-/

set_option autoImplicit false

namespace Narrative

/-- The error with a number of the operating system, if the number tells it. Some accesses give
the number negated. -/
def FileError.ofNumber? (number : UInt32) : Option FileError :=
  let size := min number (0 - number)
  if size = 2 then some .missing
  else if size = 20 then some .notDirectory
  else if size = 21 then some .isDirectory
  else if size = 36 then some .tooLong
  else none

/-- The reason behind a failed access to a file. -/
def FileError.ofIO (error : IO.Error) : FileError :=
  let number := match error with
    | .noFileOrDirectory _ number _ => number
    | .inappropriateType _ number _ => number
    | .invalidArgument _ number _ => number
    | _ => 0
  (ofNumber? number).getD (.other (toString error))

def readText (path : String) : IO (Except FileError String) := do
  try
    let bytes ← IO.FS.readBinFile path
    match String.fromUTF8? bytes with
    | some text => return .ok text
    | none => return .error .notText
  catch error => return .error (.ofIO error)

def writeText (path text : String) : IO (Except FileError Unit) := do
  try
    IO.FS.writeFile path text
    return .ok ()
  catch error => return .error (.ofIO error)

def viewOf (texts : List (String × Except FileError String)) : FileView := fun path =>
  match texts.find? (fun entry => entry.1 == path) with
  | some entry => entry.2
  | none => .error .missing

/-- Runs a command and writes what it wants saved. -/
def perform (action : Action) : IO Outcome := do
  let texts ← action.paths.mapM (fun path => do return (path, ← readText path))
  let outcome := action.run (viewOf texts)
  match outcome.save with
  | none => return outcome
  | some (path, text) => return outcome.afterSaving path (← writeText path text)

/-- Prints how a command ends, the output before the messages. -/
def announce (outcome : Outcome) : IO UInt32 := do
  IO.print outcome.output
  for line in outcome.messages do
    IO.eprintln line
  return UInt32.ofNat outcome.code

end Narrative

def main (words : List String) : IO UInt32 := do
  match Narrative.Request.ofWords? words with
  | some (.perform action) => Narrative.announce (← Narrative.perform action)
  | some (.version subcommand) => Narrative.announce (.version subcommand)
  | none => Narrative.announce .misuse
