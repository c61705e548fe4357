import CFrontEnd.Command.Run

/-!
The program. It reads the input file and hands everything else to the pure commands. It cannot start
tools itself, so only preprocessed input goes through.
-/

namespace CFrontEnd

/-- The state of the file under a path. -/
def readState (path : String) : IO FileState := do
  try
    let bytes ← IO.FS.readBinFile path
    return .readable (bytes.toList.map UInt8.toNat)
  catch problem =>
    match problem with
    | .noFileOrDirectory .. => return .missing
    | other => return .unreadable (toString other)

end CFrontEnd

open CFrontEnd

def main (arguments : List String) : IO UInt32 := do
  let state ←
    match Command.ofArguments arguments with
    | .ok command => readState command.path
    | .error _ => pure .missing
  let host : Host :=
    { read := fun _ => state
      call := fun _ => .notStarted "Operation not supported (os error 95)"
      preprocessor? := ← IO.getEnv "QUILLCC_CPP" }
  let outcome := Command.runArguments host arguments
  IO.print outcome.output
  IO.eprint outcome.errors
  return outcome.code.toUInt32
