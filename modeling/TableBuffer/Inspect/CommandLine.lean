/-!
# The command line

`inspect` takes a path and options in any order. An option is written out or, where it has a letter,
in a cluster of letters. What stands after `--` is no option. Options other than the repeatable
`verbose` are given once.
-/

namespace TableBuffer.Inspect

/-- What the arguments of `inspect` ask for, as far as they are read. -/
structure Request where
  /-- How often more words were asked for. -/
  verbosity : Nat := 0
  identifier : Option String := none
  sizePrefixed : Bool := false
  path : Option String := none
  deriving DecidableEq, Repr

inductive Command
  | version
  | help
  | inspect (request : Request) (path : String)
  deriving DecidableEq, Repr

/-- Whether an argument is written like an option: a lone hyphen is not. -/
def looksLikeOption (arg : String) : Bool :=
  match arg.toList with
  | '-' :: _ :: _ => true
  | _ => false

/-- Gives the request its path, unless it has one. -/
def Request.withPath? (r : Request) (path : String) : Option Request :=
  if r.path.isNone then some { r with path := some path } else none

/-- Gives the request the identifier to expect, unless it has one. -/
def Request.withIdentifier? (r : Request) (identifier : String) : Option Request :=
  if r.identifier.isNone then some { r with identifier := some identifier } else none

/-- Reads a cluster of letters. None if one has no meaning; a call for help ends the reading. -/
def readLetters? (r : Request) : List Char → Option (Request ⊕ Command)
  | [] => some (.inl r)
  | 'v' :: rest => readLetters? { r with verbosity := r.verbosity + 1 } rest
  | 'h' :: _ => some (.inr .help)
  | _ => none

/-- The name of a long option and the value attached to it by an equals sign. -/
def splitLong (cs : List Char) : String × Option String :=
  match cs.dropWhile (· != '=') with
  | [] => (String.ofList cs, none)
  | _ :: value => (String.ofList (cs.takeWhile (· != '=')), some (String.ofList value))

/-- Reads arguments that are no options. -/
def readPaths? (r : Request) : List String → Option Request
  | [] => some r
  | arg :: rest => (r.withPath? arg).bind fun r => readPaths? r rest

/-- Reads the arguments of `inspect`. None is a usage error. -/
def readRequest? (r : Request) : List String → Option Command
  | [] => r.path.map (.inspect r)
  | arg :: rest =>
    match arg.toList with
    | ['-', '-'] => (readPaths? r rest).bind fun r => r.path.map (.inspect r)
    | '-' :: '-' :: long =>
      match splitLong long with
      | ("verbose", none) => readRequest? { r with verbosity := r.verbosity + 1 } rest
      | ("help", none) => some .help
      | ("size-prefixed", none) =>
        if r.sizePrefixed then none else readRequest? { r with sizePrefixed := true } rest
      | ("ident", some value) => (r.withIdentifier? value).bind fun r => readRequest? r rest
      | ("ident", none) =>
        match rest with
        | value :: rest =>
          if looksLikeOption value then none
          else (r.withIdentifier? value).bind fun r => readRequest? r rest
        | [] => none
      | _ => none
    | '-' :: letter :: letters =>
      match readLetters? r (letter :: letters) with
      | some (.inl r) => readRequest? r rest
      | some (.inr command) => some command
      | none => none
    | _ => (r.withPath? arg).bind fun r => readRequest? r rest

/-- The command that arguments stand for. None is a usage error. -/
def Command.ofArgs? : List String → Option Command
  | "inspect" :: rest => readRequest? {} rest
  | ["help"] => some .help
  | ["help", "inspect"] => some .help
  | ["help", "help"] => some .help
  | first :: _ =>
    match first.toList with
    | ['-', '-', 'v', 'e', 'r', 's', 'i', 'o', 'n'] => some .version
    | ['-', '-', 'h', 'e', 'l', 'p'] => some .help
    | '-' :: 'V' :: _ => some .version
    | '-' :: 'h' :: _ => some .help
    | _ => none
  | [] => none

end TableBuffer.Inspect
