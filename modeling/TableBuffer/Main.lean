import TableBuffer.Inspect.Run
import TableBuffer.Inspect.SystemError

/-!
# The program

Looks up the path that the arguments name, and prints what the run says.
-/

namespace TableBuffer.Inspect

/-- The number of a failed system call, which may come as its negative in 32 bits. -/
def callNumber (code : UInt32) : Nat :=
  if code.toNat < 0x80000000 then code.toNat else 0x100000000 - code.toNat

/-- The words for a failed system call. -/
def callReason (e : IO.Error) : String :=
  match e with
  | .noFileOrDirectory _ code _ => systemError (callNumber code)
  | .inappropriateType _ code _ => systemError (callNumber code)
  | .permissionDenied _ code _ => systemError (callNumber code)
  | .invalidArgument _ code _ => systemError (callNumber code)
  | .otherError code _ => systemError (callNumber code)
  | e => toString e

/-- Looks up a path from the working directory. -/
def probe (path : String) : IO FileAccess := do
  if path.isEmpty then return .unavailable (systemError 2)
  let entry : IO.FS.DirEntry := ⟨path, ""⟩
  try
    let metadata ← entry.root.metadata
    if metadata.type == .file then
      try
        let bytes ← IO.FS.readBinFile path
        return .regular bytes.toList
      catch e => return .unreadable (callReason e)
    else return .irregular
  catch e => return .unavailable (callReason e)

end TableBuffer.Inspect

open TableBuffer Inspect in
def main (args : List String) : IO UInt32 := do
  let access ← match Command.ofArgs? args with
    | some (.inspect _ path) => probe path
    | _ => pure .irregular
  let transcript := run .little (fun _ => access) args
  IO.print transcript.stdout
  IO.eprint transcript.stderr
  return UInt32.ofNat transcript.exit
