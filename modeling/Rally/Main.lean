import Rally.Command.Run
/-!
# The program

The program hands its words to the command and prints what the command leaves behind. The rules for
log lines come from the environment, and styles are shown unless the environment forbids them.
-/

namespace Rally

/-- A file error that stands for one of the system. -/
def FileError.ofSystem : IO.Error → FileError
  | .noFileOrDirectory .. => .missing
  | .inappropriateType .. => .isDirectory
  | _ => .missing

/-- Reads the file that holds the topology, if the words name one. -/
def readTopology (words : List String) : IO (Except FileError ByteArray) := do
  match CommandOptions.parse words with
  | .ok { topology := some path, .. } =>
    try
      return .ok (← IO.FS.readBinFile path)
    catch problem => return .error (FileError.ofSystem problem)
  | _ => return .error .missing

/-- More steps than any run takes. -/
def enoughFuel : Nat := 1000000000000000000

end Rally

/-- Runs the command. -/
def main (words : List String) : IO UInt32 := do
  let rules := (← IO.getEnv "RUST_LOG").getD ""
  let ansi := ((← IO.getEnv "NO_COLOR").getD "").isEmpty
  let octets ← Rally.readTopology words
  match Rally.Command.run Rally.enoughFuel (fun _ => octets) rules ansi words with
  | some result =>
    IO.print result.stdout
    IO.eprint result.stderr
    return UInt32.ofNat result.exit
  | none => return 1
