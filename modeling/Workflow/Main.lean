import Std.Time.DateTime.Timestamp
import Workflow.CommandLine.Run

/-! The program: it reads the environment, the arguments and the files that a command names, runs
the command, and writes what comes of it. -/

namespace Workflow

def readEnvironment (names : List String) : IO Environment := do
  let values ← names.mapM fun name => do
    return (← IO.getEnv name).map fun value => (name, value)
  return values.filterMap id

def readContent (path : String) : IO (String × Except String ByteArray) := do
  try
    return (path, .ok (← IO.FS.readBinFile path))
  catch error =>
    match error with
    | .noFileOrDirectory .. => return (path, .error ConnectionFault.missingFile)
    | error => return (path, .error error.toString)

def paths (environment : Environment) (arguments : List String) : List String :=
  let ofDirectory := ((EngineSettings.ofEnvironment environment).toOption.bind
    (·.directoryFile)).toList
  match Invocation.ofArguments arguments with
  | .run command => command.paths ++ ofDirectory
  | _ => []

def readClock : IO Timestamp := do
  let now ← Std.Time.Timestamp.now
  return (Timestamp.make? now.toSecondsSinceUnixEpoch.val 0).getD .epoch

end Workflow

open Workflow

def main (arguments : List String) : IO UInt32 := do
  let environment ← readEnvironment (EngineSettings.family.names ++ DatabaseSettings.family.names)
  let surroundings : Surroundings :=
    { environment
      files := ← (paths environment arguments).mapM readContent
      account := (← IO.getEnv "USER").getD "root"
      clock := ← readClock
      nextId := (Uuid.ofRandom (BitVec.ofNat 128 (Text.ofDigits 256
        ((← IO.getRandomBytes 16).toList.map UInt8.toNat)))).number.toNat }
  let (outcome, _) := surroundings.run arguments
  outcome.output.forM IO.println
  outcome.errors.forM IO.eprintln
  return outcome.code.toUInt32
