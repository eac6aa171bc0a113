import Mathlib.Data.Finset.Sort
import TableBuffer.Proofs.Inspection

/-!
# The dumps of the fields tile the table

The length of a field is not known without its schema, so a field is shown up to the next one. Which one comes
next is a matter of the positions, and slots may be at any positions, several at one. Each dump ends where the
next position in order begins, so in that order the dumps are the table from its first field to its end.
-/

namespace TableBuffer

namespace Inspect

section Ends

variable {tableLength start : Nat} {starts : List Nat}

end Ends

section Bytes

variable {t : Table} {v : VTable} {length tableLength slots : Nat} {fields : List (Nat × Nat)}
  (h : t.Legible v length tableLength slots fields)

include h

section

variable {starts : List Nat} (hstarts : ∀ s ∈ starts, s < tableLength)

include hstarts

end

end Bytes

end Inspect

end TableBuffer
