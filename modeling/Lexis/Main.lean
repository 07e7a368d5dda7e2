import Lexis.CommandLine.Report

/-!
# The command

Reads the file that the arguments name and writes the report.
-/

set_option autoImplicit false

namespace Lexis.CommandLine

/-- The text of a failure of the operating system. -/
def systemText (text : String) (code : UInt32) : String :=
  text ++ " (os error " ++ Nat.repr code.toNat ++ ")"

/-- A failure of the operating system. -/
def ofSystemError (error : IO.Error) : IoError :=
  match error with
  | .noFileOrDirectory _ code text => ⟨.notFound, systemText text code⟩
  | .permissionDenied _ code text => ⟨.permissionDenied, systemText text code⟩
  | .inappropriateType _ code text => ⟨.isADirectory, systemText text code⟩
  | .interrupted _ code text => ⟨.interrupted, systemText text code⟩
  | error => ⟨.other, toString error⟩

/-- What `path` leads to. -/
def entryAt (path : String) : IO FileEntry := do
  match ← (IO.FS.Handle.mk path .read).toBaseIO with
  | .error error => return .unopenable (ofSystemError error)
  | .ok handle =>
    match ← handle.readBinToEnd.toBaseIO with
    | .error error => return .unreadable (ofSystemError error)
    | .ok bytes => return .file bytes.toList

end Lexis.CommandLine

open Lexis.CommandLine in
def main (arguments : List String) : IO UInt32 := do
  let setting ← IO.getEnv "RUST_LOG"
  let entry ←
    match parseArguments arguments with
    | .ok (.scan options) => entryAt options.file
    | _ => pure .missing
  let answer := report arguments setting fun _ => entry
  for line in answer.log do
    IO.eprintln line
  IO.print answer.stdout
  IO.eprint answer.stderr
  return answer.exit.toUInt32
