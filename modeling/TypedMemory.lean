import TypedMemory.Binary.Decimal
import TypedMemory.Buffer.Builder
import TypedMemory.Catalog
import TypedMemory.Command.Run
import TypedMemory.Inspect
import TypedMemory.Listing
import TypedMemory.Main
import TypedMemory.Port.CString
import TypedMemory.Port.Restricted
import TypedMemory.Saved
import TypedMemory.Value.Text
import TypedMemory.View.Access
import TypedMemory.Proofs.Results
import TypedMemory.Proofs.Access
import TypedMemory.Proofs.Bytes
import TypedMemory.Proofs.Rounding
import TypedMemory.Proofs.Integer
import TypedMemory.Proofs.Port
import TypedMemory.Proofs.Buffer
import TypedMemory.Proofs.Buffer.Word
import TypedMemory.Proofs.Buffer.Effects
import TypedMemory.Proofs.Text.Utf8
import TypedMemory.Proofs.Layout.Measure
import TypedMemory.Proofs.Layout.Placement
import TypedMemory.Proofs.Layout.Resolve
import TypedMemory.Proofs.Layout.Recall
import TypedMemory.Proofs.Schema
import TypedMemory.Proofs.Layout.Growth
import TypedMemory.Proofs.Schema.Bases
import TypedMemory.Proofs.Catalog
import TypedMemory.Proofs.Layout.Struct
import TypedMemory.Proofs.StringObject.Content
import TypedMemory.Proofs.StringObject.Layouts
import TypedMemory.Proofs.StringObject.Short
import TypedMemory.Proofs.StringObject.Short.Written
import TypedMemory.Proofs.StringObject.Short.RoundTrip
import TypedMemory.Proofs.StringObject.Counted
import TypedMemory.Proofs.Buffer.Growth
import TypedMemory.Proofs.StringObject.Slots
import TypedMemory.Proofs.StringObject.History
import TypedMemory.Proofs.StringObject.Failure
import TypedMemory.Proofs.StringObject.Short.Failure
import TypedMemory.Proofs.StringObject.Counted.Failure
import TypedMemory.Proofs.StringObject.FailedWrite
import TypedMemory.Proofs.Layout.Embedding
import TypedMemory.Proofs.Layout.Faults
import TypedMemory.Proofs.Layout.Needs
import TypedMemory.Proofs.Layout.Outcome
import TypedMemory.Proofs.Value.Scalar
import TypedMemory.Proofs.Home
import TypedMemory.Proofs.Value.Slot
import TypedMemory.Proofs.Layout.Order
import TypedMemory.Proofs.View.Record
import TypedMemory.Proofs.View.Members
import TypedMemory.Proofs.View.Stores
import TypedMemory.Proofs.Buffer.History
import TypedMemory.Proofs.Schema.Members
import TypedMemory.Proofs.Layout.Members
import TypedMemory.Proofs.Layout.Alignment
import TypedMemory.Proofs.Layout.Derived
import TypedMemory.Proofs.Layout.Paths
import TypedMemory.Proofs.View.Leaves
import TypedMemory.Proofs.View.Navigation
import TypedMemory.Proofs.Layout.Platforms
import TypedMemory.Proofs.StringObject.Counted.RoundTrip
import TypedMemory.Proofs.StringObject.Requests
import TypedMemory.Proofs.Value.Accessors
import TypedMemory.Proofs.Value.Integers
import TypedMemory.Proofs.Layout.Origin
import TypedMemory.Proofs.Buffer.Faults
import TypedMemory.Proofs.StringObject.Reading
import TypedMemory.Proofs.Layout.Extent
import TypedMemory.Proofs.View.Pointer
import TypedMemory.Proofs.View.Assignment
import TypedMemory.Proofs.View.WriteBack
import TypedMemory.Proofs.View.Vector
import TypedMemory.Proofs.View.Image
import TypedMemory.Proofs.View.Strides
import TypedMemory.Proofs.Port.CString
import TypedMemory.Proofs.Schema.Inherited
import TypedMemory.Proofs.Schema.Declared
import TypedMemory.Proofs.Buffer.Builder
import TypedMemory.Proofs.Buffer.Alignment
import TypedMemory.Proofs.View.Malformed
import TypedMemory.Proofs.View.ShortReads
import TypedMemory.Proofs.Numeral
import TypedMemory.Proofs.Text.Parts
import TypedMemory.Proofs.Text.Hex
import TypedMemory.Proofs.Platform
import TypedMemory.Proofs.Hexdump
import TypedMemory.Proofs.Listing
