import TreeFormat.Command.Run

/-!
# The command

Reads what the arguments name, runs the command on it and passes on what it
says.
-/

open TreeFormat.Command

/-- The reading fault that a failed system call amounts to.  Reading a directory
fails with error 21, opening a file with a name that is too long with error 36,
which comes negated. -/
def readFaultOf : IO.Error → ReadFault
  | .noFileOrDirectory .. => .notFound
  | .invalidArgument _ 4294967260 _ => .nameTooLong
  | .inappropriateType _ 21 _ => .isDirectory
  | .inappropriateType .. => .notDirectory
  | .permissionDenied .. => .denied
  | fault => .other (toString fault)

/-- Reads a file. -/
def readFile (name : String) : IO (Except ReadFault String) := do
  try
    return decodeText (← IO.FS.readBinFile name)
  catch fault =>
    return .error (readFaultOf fault)

/-- Reads the standard input to its end. -/
def readStdin : IO (Except ReadFault String) := do
  return decodeText (← (← IO.getStdin).readBinToEnd)

/-- Runs the command. -/
def main (arguments : List String) : IO UInt32 := do
  let outcome ←
    match Options.parse arguments with
    | .error stop => pure stop.outcome
    | .ok options =>
      match options.file with
      | some name =>
        let content ← readFile name
        pure (execute options (fun _ => content) (.ok ""))
      | none => pure (execute options (fun _ => .error .notFound) (← readStdin))
  IO.eprint outcome.stderr
  IO.print outcome.stdout
  return outcome.code.toUInt32
