import SourceTexture.CommandLine.Run

/-!
# The program

The command line on a real system. Everything that is decided is decided by
`runProgram`; here its four operations are carried out, and the exit code is
handed over.

## Main definitions

* `errorNumber`: The number of a system error.
* `SystemError.ofFault`: What the system reported, as an error of the program.
* `main`: The program.
-/

namespace SourceTexture

/-- The number of a system error, which some calls report as a negative one. -/
def errorNumber (code : UInt32) : Nat :=
  min code.toNat (UInt32.size - code.toNat)

/-- What the system reported, as an error of the program. -/
def SystemError.ofFault : IO.Error → SystemError
  | .noFileOrDirectory .. => .notFound
  | .inappropriateType _ code _ => if errorNumber code = 21 then .isDirectory else .notDirectory
  | .permissionDenied _ code details => .other details (errorNumber code)
  | .resourceExhausted _ code details => .other details (errorNumber code)
  | .invalidArgument _ code details => .other details (errorNumber code)
  | .resourceBusy code details => .other details (errorNumber code)
  | .hardwareFault code details => .other details (errorNumber code)
  | e => .other (toString e) 0

instance : Host IO where
  read path := do
    try
      return .ok (← IO.FS.readBinFile path).toList
    catch e =>
      return .error (.ofFault e)
  write path image := do
    try
      IO.FS.writeBinFile path image.toPng
      return .ok ()
    catch e =>
      return .error (.ofFault e)
  say := IO.println
  note := IO.eprint

end SourceTexture

open SourceTexture in
/-- The program. How much it tells about its work is set in the environment;
    anything but the name of a threshold counts as not set. -/
def main (args : List String) : IO UInt32 := do
  let name ← IO.getEnv "RUST_LOG"
  let exit ← runProgram ((name.bind Threshold.ofName?).getD .standard) args
  return exit.code.toUInt32
