import Schematic.Command.Run

namespace Schematic.Program

/-- The words for a text that is not JSON of the right form. -/
def malformedText : String := "malformed document"

/-- The number of a system error, which some calls give with its sign changed. -/
def errorNumber (code : UInt32) : UInt32 :=
  if code < 0x80000000 then code else 0 - code

def fileFault (e : IO.Error) : FileFault :=
  match e with
  | .noFileOrDirectory .. => .notFound
  | .inappropriateType _ code _ | .invalidArgument _ code _ =>
    match errorNumber code with
    | 20 => .notADirectory
    | 21 => .isDirectory
    | 36 => .nameTooLong
    | _ => .other (toString e)
  | e => .other (toString e)

/-- Reads a file as text. -/
def readText (path : String) : IO (Except FileFault String) := do
  try
    return textOf (← IO.FS.readBinFile path)
  catch e =>
    return .error (fileFault e)

/-- Reads the standard input as text. -/
def readStdin : IO (Except FileFault String) := do
  try
    return textOf (← (← IO.getStdin).readBinToEnd)
  catch e =>
    return .error (fileFault e)

/-- Tells a failure and gives its code. -/
def report (failure : Command.Failure) : IO UInt32 := do
  IO.eprintln (Command.programName ++ ": " ++ failure.message malformedText)
  return failure.code.toUInt32

def runCommand (c : Command) : IO UInt32 := do
  let library ← match c.library with
    | some path => readText path
    | none => pure (.error .notFound)
  let source ← if Command.readsStdin c.source then readStdin else readText c.source
  match c.evaluate (fun _ => library) source with
  | .error failure => report failure
  | .ok output =>
    match c.output with
    | none => IO.print output.text
    | some path =>
      try
        IO.FS.writeFile path output.text
      catch e =>
        return ← report (.file path (fileFault e))
    return output.code.toUInt32

end Schematic.Program

open Schematic in
def main (arguments : List String) : IO UInt32 :=
  match Command.parse arguments with
  | .misuse => do
    IO.eprintln "usage: nwc [OPTIONS] <SOURCE>"
    return 2
  | .version => do
    IO.print Command.versionText
    return 0
  | .run c => Program.runCommand c
