import TableBuffer.Builder.Call
import TableBuffer.Inspect.Directory
import TableBuffer.Main
import TableBuffer.Mutation
import TableBuffer.Options.Json
import TableBuffer.Union
import TableBuffer.Vector.Cursor
import TableBuffer.Proofs.Distance
import TableBuffer.Proofs.Fields
import TableBuffer.Proofs.Closing
import TableBuffer.Proofs.Growth
import TableBuffer.Proofs.Refusal
import TableBuffer.Proofs.Finished
import TableBuffer.Proofs.ItemReading
import TableBuffer.Proofs.OpenTable
import TableBuffer.Proofs.RoundTrip
import TableBuffer.Proofs.Sharing
import TableBuffer.Proofs.Unions
import TableBuffer.Proofs.Alike
import TableBuffer.Proofs.AlikeCalls
import TableBuffer.Proofs.Answers
import TableBuffer.Proofs.Framing
import TableBuffer.Proofs.Alignment
import TableBuffer.Proofs.MirrorReading
import TableBuffer.Proofs.Isolation
import TableBuffer.Proofs.Access
import TableBuffer.Proofs.RootChecks
import TableBuffer.Proofs.Inspection
import TableBuffer.Proofs.Sealed
import TableBuffer.Proofs.ReadingBack
import TableBuffer.Proofs.Room
import TableBuffer.Proofs.VectorSizes
import TableBuffer.Proofs.Assembly
import TableBuffer.Proofs.References
import TableBuffer.Proofs.Shapes
import TableBuffer.Proofs.WordAlignment
import TableBuffer.Proofs.Descent
import TableBuffer.Proofs.Nesting
import TableBuffer.Proofs.Exactness
import TableBuffer.Proofs.Requiring
import TableBuffer.Proofs.Traversal
import TableBuffer.Proofs.FieldDumps
import TableBuffer.Proofs.LimitCalls
import TableBuffer.Proofs.FrontList
import TableBuffer.Proofs.Masks
