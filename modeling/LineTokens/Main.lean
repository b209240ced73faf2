import LineTokens.Command.Action

/-!
The command line. Standard input is read only when the outcome needs it.
-/

namespace LineTokens

/-- Reads chunks up to the first one with a newline, or to the end. -/
partial def readChunks (stream : IO.FS.Stream) (read : Array (List UInt8)) :
    IO (Array (List UInt8)) := do
  let chunk := (← stream.read (USize.ofNat chunkSize)).toList
  if chunk.isEmpty || chunk.contains 0x0a then return read.push chunk
  readChunks stream (read.push chunk)

/-- Standard input up to its first newline at least. What comes behind the chunk
with the newline is not read by a split either. -/
def standardInput : IO StandardInput := do
  try
    return .chunks (← readChunks (← IO.getStdin) #[]).toList
  catch e =>
    return .failing (.broken (toString e))

/-- Runs the program, prints its outcome and gives the exit code. -/
def runAndPrint (arguments : List String) : IO UInt32 := do
  let input ← match Action.ofArguments arguments with
    | .ok (.split none _) => standardInput
    | _ => pure (.chunks [])
  let outcome := runProgram .plain arguments input
  (← IO.getStdout).putStr outcome.stdout
  (← IO.getStderr).putStr outcome.stderr
  match outcome.ending with
  | .exit code => return UInt32.ofNat code
  | .failed _ => return 1

end LineTokens

def main (arguments : List String) : IO UInt32 :=
  LineTokens.runAndPrint arguments
