/-!
# System errors

The words for what the system reports when a path is looked up, by the number it gives each error.
-/

namespace TableBuffer.Inspect

def systemErrors : List (Nat × String) :=
  [(1, "Operation not permitted"), (2, "No such file or directory"), (5, "Input/output error"),
   (13, "Permission denied"), (20, "Not a directory"), (21, "Is a directory"), (36, "File name too long"),
   (40, "Too many levels of symbolic links")]

/-- The report of an error: its words, and its number in brackets. -/
def systemError (number : Nat) : String :=
  (systemErrors.lookup number).getD ("Unknown error " ++ toString number)
    ++ " (os error " ++ toString number ++ ")"

end TableBuffer.Inspect
