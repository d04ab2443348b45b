import ThreeRegister.CommandLine.Command

namespace ThreeRegister

namespace CommandLine

def toBytes (s : Text) : ByteArray :=
  ⟨s.toArray⟩

def ofBytes (bytes : ByteArray) : Text :=
  bytes.data.toList

partial def readRest (stream : IO.FS.Stream) (sofar : ByteArray) : IO ByteArray := do
  let chunk ← stream.read 65536
  if chunk.isEmpty then return sofar else readRest stream (sofar ++ chunk)

def ReadError.ofSystem : IO.Error → ReadError
  | .noFileOrDirectory .. => .missing
  -- The file is named if it was met on the way there, and not if it was met on reading.
  | .inappropriateType none .. => .isDirectory
  | .inappropriateType (some _) .. => .notDirectory
  | .invalidArgument _ _ "name too long" => .nameTooLong
  | .permissionDenied .. => .other (utf8 "permission denied")
  | e => .other (utf8 (toString e))

def readSource (path : Text) : IO (Except ReadError Text) := do
  if path = standardInput then
    return .ok (ofBytes (← readRest (← IO.getStdin) .empty))
  try
    let bytes ← IO.FS.readBinFile (String.fromUTF8? (toBytes path) |>.getD "")
    return .ok (ofBytes bytes)
  catch e =>
    return .error (.ofSystem e)

def variableOf (name : String) : IO Environment := do
  return ((← IO.getEnv name).map fun value => (utf8 name, utf8 value)).toList

end CommandLine

end ThreeRegister

open ThreeRegister.CommandLine in
def main (arguments : List String) : IO UInt32 := do
  let env := (← variableOf "TAC3_ALLOCATOR") ++ (← variableOf "TAC3_VALIDATE")
  let outcome ← match plan (.ofEnvironment env) (arguments.map ThreeRegister.utf8) with
    | .settled o => pure o
    | .read r => pure (r.complete (← readSource r.path))
  (← IO.getStdout).write (toBytes outcome.stdout)
  (← IO.getStderr).write (toBytes outcome.stderr)
  return outcome.exit.toUInt32
