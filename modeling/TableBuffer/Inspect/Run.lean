import TableBuffer.Inspect.CommandLine
import TableBuffer.Inspect.Summary
import TableBuffer.Text.ControlSequence
import TableBuffer.Text.Quoted

/-!
# Running a command

What a command prints and how it ends, as a function of its arguments and of what its path leads to.
A failure is reported with its causes, the nearest first. The log is written before it, without the
sequences that steer a terminal; a report is written as it is.
-/

namespace TableBuffer.Inspect

/-- What there is at a path. -/
inductive FileAccess
  /-- Nothing can be learned about it. -/
  | unavailable (reason : String)
  /-- Something other than a file of bytes. -/
  | irregular
  | unreadable (reason : String)
  | regular (bytes : List UInt8)
  deriving DecidableEq, Repr

/-- The texts a run prints and its exit code. -/
structure Transcript where
  exit : Nat
  stdout : String
  stderr : String
  deriving DecidableEq, Repr

/-- A failure in words, and its causes. -/
structure Report where
  text : String
  causes : List String
  deriving DecidableEq, Repr

/-- A number right-aligned in five columns. -/
def causeNumber (n : Nat) : String :=
  let digits := (toString n).toList
  String.ofList (List.replicate (5 - digits.length) ' ' ++ digits)

/-- Every line of a text with its end. -/
def endLines (lines : List String) : String := String.join (lines.map (· ++ "\n"))

/-- The report in lines. Several causes are numbered, a single one is not. -/
def Report.lines (r : Report) : List String :=
  ("Error: " ++ r.text) ::
    match r.causes with
    | [] => []
    | [cause] => ["", "Caused by:", "    " ++ cause]
    | causes =>
      ["", "Caused by:"] ++ causes.zipIdx.map fun (cause, n) => causeNumber n ++ ": " ++ cause

/-- The identifier that an argument gives. -/
def parseIdentifier (s : String) : Except Report Identifier :=
  match Identifier.ofBytes? s.toUTF8.toList with
  | some identifier => .ok identifier
  | none =>
    .error ⟨"File identifier must be exactly 4 bytes: " ++ quoted s,
      ["could not convert slice to array"]⟩

/-- The name under which log lines are written. -/
def logTarget : String := "vellum_cmd::commands::inspect"

/-- A log record. All its lines but the first are indented. The end of the last one is lost when it falls
into a sequence that is left out. -/
def logRecord (level message : String) : String :=
  let indented := String.intercalate "\n    " (message.splitOn "\n")
  withoutControls ("[" ++ level ++ " " ++ logTarget ++ "] " ++ indented ++ "\n")

/-- The log record about a file that was read, from the second step of verbosity on. -/
def readLog (verbosity : Nat) (path : String) (size : Nat) : String :=
  if 2 ≤ verbosity then
    logRecord "DEBUG" ("read " ++ toString size ++ " bytes from " ++ path)
  else ""

def mismatchLog : String := logRecord "WARN " "file identifier does not match the expected one"

/-- How the failure to find a root is reported. A fault has no text of its own. -/
def inspectFailure (path : String) (sizePrefixed : Bool) (failure : Failure) : Report :=
  let context := if sizePrefixed then "Invalid size-prefixed buffer" else "Invalid buffer"
  match failure with
  | .error e => ⟨"Failed to inspect " ++ path, [context, e.message]⟩
  | .fault => ⟨"Failed to inspect " ++ path, [context]⟩

/-- The bytes that a path leads to. -/
def FileAccess.bytes (access : FileAccess) (path : String) : Except Report (List UInt8) :=
  match access with
  | .unavailable reason => .error ⟨"Cannot access " ++ path, [reason]⟩
  | .irregular => .error ⟨"Not a regular file: " ++ path, []⟩
  | .unreadable reason => .error ⟨"Failed to read " ++ path, [reason]⟩
  | .regular bytes => .ok bytes

/-- The identifier that a request expects. -/
def Request.expected (r : Request) : Except Report (Option Identifier) :=
  match r.identifier with
  | none => .ok none
  | some s => (parseIdentifier s).map some

/-- Whether a path leads to no file, which is found out before the identifier is looked at. -/
def FileAccess.isFile : FileAccess → Bool
  | unavailable _ => false
  | irregular => false
  | unreadable _ => true
  | regular _ => true

/-- The expected identifier and the bytes to inspect. -/
def Request.load (r : Request) (access : FileAccess) (path : String) :
    Except Report (Option Identifier × List UInt8) := do
  if !access.isFile then
    let _ ← access.bytes path
  let expected ← r.expected
  let bytes ← access.bytes path
  return (expected, bytes)

def failed (log : String) (report : Report) : Transcript := ⟨1, "", log ++ endLines report.lines⟩

def inspect (order : ByteOrder) (r : Request) (access : FileAccess) (path : String) : Transcript :=
  match r.load access path with
  | .error report => failed "" report
  | .ok (expected, bytes) =>
    let log := readLog r.verbosity path bytes.length
    match Summary.ofImage (.ofList order bytes) expected r.sizePrefixed (1 ≤ r.verbosity) with
    | .error failure => failed log (inspectFailure path r.sizePrefixed failure)
    | .ok summary =>
      let warning := if summary.identifierMatches = some false then mismatchLog else ""
      ⟨0, endLines [summary.toJson.pretty], log ++ warning⟩

def versionText : String := "vellum-cmd 0.1.0"

def usageText : String :=
  "Usage: vellum-cmd inspect [-v|--verbose]... [--ident <IDENT>] [--size-prefixed] <PATH>"

/-- The run of a program with some arguments, where `access` says what a path leads to. -/
def run (order : ByteOrder) (access : String → FileAccess) (args : List String) : Transcript :=
  match Command.ofArgs? args with
  | none => ⟨2, "", endLines [usageText]⟩
  | some .help => ⟨0, endLines [usageText], ""⟩
  | some .version => ⟨0, endLines [versionText], ""⟩
  | some (.inspect r path) => inspect order r (access path) path

end TableBuffer.Inspect
