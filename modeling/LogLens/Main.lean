/-
The program: reads the arguments, the environment, the clock and the files, and prints the answer.
-/
import LogLens.Cli.Arguments
import LogLens.Cli.Run
import Std.Time.DateTime.Timestamp

namespace LogLens
namespace Cli

def readError : IO.Error → ReadError
  | .noFileOrDirectory .. => .notFound
  | .permissionDenied .. => .denied
  | .inappropriateType _ 20 _ => .notADirectory
  | .inappropriateType _ 21 _ => .isADirectory
  | e => .other (toString e)

def readFile (path : String) : IO (Except ReadError (List UInt8)) := do
  match ← (IO.FS.readBinFile path).toBaseIO with
  | .ok bytes => return .ok bytes.toList
  | .error e => return .error (readError e)

/-- Reads files; what was not read is taken for missing. -/
def readFiles (paths : List String) : IO (String → Except ReadError (List UInt8)) := do
  let contents ← paths.mapM fun path => return (path, ← readFile path)
  return fun path =>
    match contents.find? (·.1 == path) with
    | some (_, content) => content
    | none => .error .notFound

/-- The time of the system clock. -/
def currentTime : IO Instant := do
  let nanos := (← Std.Time.Timestamp.now).toNanosecondsSinceUnixEpoch.val
  return (Instant.of? (nanos / nanosPerSecond) (nanos % nanosPerSecond).toNat).getD .latest

def randomSeed : IO Nat := do
  return (← IO.getRandomBytes 16).toList.foldl (fun n b => 256 * n + b.toNat) 0

/-- Carries out a command and prints its answer. -/
def runInvocation (i : Invocation) : IO UInt32 := do
  for note in notes i do
    IO.eprintln note
  let terminal ← (← IO.getStdout).isTty
  let surroundings : Surroundings := {
    read := ← readFiles (i.settings.config.toList ++ i.command.files)
    now := ← currentTime
    ids := Ingest.supplyFrom (← randomSeed)
    terminal }
  let begun ← IO.monoNanosNow
  match answer surroundings i with
  | .ok a =>
    let ended ← IO.monoNanosNow
    IO.print (a.output i.settings terminal (ended - begun))
    return 0
  | .error e =>
    IO.eprintln ("Error: " ++ e.message)
    if let some cause := e.cause? then
      IO.eprintln ("\nCaused by:\n    " ++ cause)
    return 1

end Cli
end LogLens

open LogLens.Cli in
def main (arguments : List String) : IO UInt32 := do
  match readArguments arguments (← IO.getEnv configVariable) with
  | .ok (.run i) => runInvocation i
  | .ok .version =>
    IO.print versionText
    return 0
  | .ok (.help about) =>
    IO.print (usageText about)
    return 0
  | .error e =>
    IO.eprintln ("error: " ++ e.message ++ "\n\nFor more information, try '--help'.")
    return 2
