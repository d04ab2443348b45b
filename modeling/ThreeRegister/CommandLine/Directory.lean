import ThreeRegister.Text

/-!
Reading a source by its path, and a directory held in memory to read from. A path is followed step by step from the
directory: every step but the last must lead to a directory, and so must the last when a slash ends the path.
-/

namespace ThreeRegister

namespace CommandLine

inductive ReadError where
  | missing
  | notDirectory
  | isDirectory
  | nameTooLong
  | other (reason : Text)
  deriving DecidableEq

def ReadError.message (path : Text) : ReadError → Text
  | .missing => utf8 "open " ++ path ++ utf8 ": no such file or directory"
  | .notDirectory => utf8 "open " ++ path ++ utf8 ": not a directory"
  | .isDirectory => utf8 "read " ++ path ++ utf8 ": is a directory"
  | .nameTooLong => utf8 "open " ++ path ++ utf8 ": file name too long"
  | .other reason => utf8 "open " ++ path ++ utf8 ": " ++ reason

inductive Node where
  | file (content : Text)
  | directory
  deriving DecidableEq

/-- What is known of a directory tree: nodes by the steps that lead to them. The directories on the way to a node are
there too. -/
structure Directory where
  nodes : List (List Text × Node)

namespace Directory

def slash : UInt8 := 0x2f

def stepLimit : Nat := 255

def pathLimit : Nat := 4095

def steps (path : Text) : List Text :=
  (path.splitOn slash).filter fun s => !s.isEmpty && s ≠ utf8 "."

def ofFiles (files : List (Text × Text)) : Directory where
  -- A later one of the same path replaces an earlier one.
  nodes := files.reverse.map fun f =>
    (steps f.1, if f.1.getLast? = some slash then .directory else .file f.2)

def node? (d : Directory) (place : List Text) : Option Node :=
  if place.isEmpty then some .directory
  else match d.nodes.find? fun n => n.1 = place with
    | some n => some n.2
    | none => if d.nodes.any fun n => place.isPrefixOf n.1 then some .directory else none

def follow (d : Directory) (place : Option (List Text)) : List Text → Except ReadError (Option (List Text))
  | [] => .ok place
  | step :: rest =>
    match place with
    | none =>
      if step = utf8 ".." then follow d none rest
      else .error (if stepLimit < step.length then .nameTooLong else .missing)
    | some here =>
      match d.node? here with
      | none => .error .missing
      | some (.file _) => .error .notDirectory
      | some .directory =>
        if stepLimit < step.length then .error .nameTooLong
        else if step ≠ utf8 ".." then follow d (some (here ++ [step])) rest
        else if here.isEmpty then follow d none rest
        else follow d (some here.dropLast) rest

def endsInDirectory (path : Text) : Bool :=
  match (path.splitOn slash).getLast? with
  | some last => last.isEmpty || last = utf8 "."
  | none => false

def read (d : Directory) (path : Text) : Except ReadError Text := do
  if path.isEmpty then throw .missing
  if pathLimit < path.length then throw .nameTooLong
  let start := if path.startsWith slash then none else some []
  match ← follow d start (steps path) with
  | none => throw .isDirectory
  | some place =>
    match d.node? place with
    | none => throw .missing
    | some .directory => throw .isDirectory
    | some (.file content) => if endsInDirectory path then throw .notDirectory else return content

end Directory

end CommandLine

end ThreeRegister
