import TableBuffer.Align
import TableBuffer.Options
import TableBuffer.Text.Json

/-!
# Options as JSON

Options are written as an object with all four members. They are read from an object with some of
them, or from an array of the first few values in the order written; what is left out keeps its
standard value. Members of other names are passed over.
-/

namespace TableBuffer.Options

/-- The options a text may set, in the order in which they are written. -/
inductive Key
  | initialCapacity
  | maxSize
  | forceDefaults
  | dedupVTables
  deriving DecidableEq, Repr

def Key.name : Key → String
  | initialCapacity => "initial_capacity"
  | maxSize => "max_size"
  | forceDefaults => "force_defaults"
  | dedupVTables => "dedup_vtables"

def Key.all : List Key := [.initialCapacity, .maxSize, .forceDefaults, .dedupVTables]

/-- Sets one option. None if the value is not of its type. -/
def set? (o : Options) : Key → Json → Option Options
  | .initialCapacity, .natural n => if n < wordLimit then some { o with initialCapacity := n } else none
  | .maxSize, .natural n => if n < wordLimit then some { o with maxSize := n } else none
  | .forceDefaults, .bool b => some { o with forceDefaults := b }
  | .dedupVTables, .bool b => some { o with dedupVTables := b }
  | _, _ => none

/-- Sets the options that members name. None if one is named twice, as `seen` tells, or ill-typed. -/
def ofMembers? (o : Options) (seen : List Key) : List (Option String × Json) → Option Options
  | [] => some o
  | (none, _) :: _ => none
  | (some name, v) :: rest =>
    match Key.all.find? (·.name == name) with
    | none => ofMembers? o seen rest
    | some key => if key ∈ seen then none else (o.set? key v).bind fun o => ofMembers? o (key :: seen) rest

/-- Sets the first options from values in order. None if there are more values than options. -/
def ofItems? (o : Options) : List Key → List Json → Option Options
  | _, [] => some o
  | [], _ :: _ => none
  | key :: keys, v :: rest => (o.set? key v).bind fun o => ofItems? o keys rest

def ofJson? : Json → Option Options
  | .object members => ofMembers? standard [] members
  | .array items => ofItems? standard Key.all items
  | _ => none

def ofJsonText? (s : String) : Option Options := (Json.ofText? s).bind ofJson?

def toJson (o : Options) : Json :=
  .object [
    (some Key.initialCapacity.name, .natural o.initialCapacity),
    (some Key.maxSize.name, .natural o.maxSize),
    (some Key.forceDefaults.name, .bool o.forceDefaults),
    (some Key.dedupVTables.name, .bool o.dedupVTables)]

def jsonText (o : Options) : String := o.toJson.compact

/-- What is written is read back, as long as the sizes are machine words. -/
theorem ofJson?_toJson {o : Options} (hc : o.initialCapacity < wordLimit) (hm : o.maxSize < wordLimit) :
    ofJson? o.toJson = some o := by
  simp [ofJson?, toJson, ofMembers?, Key.all, Key.name, set?, hc, hm]

end TableBuffer.Options
