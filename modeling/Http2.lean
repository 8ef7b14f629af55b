import Http2.Attempt
import Http2.Bounds
import Http2.Error
import Http2.ErrorCode
import Http2.Frame
import Http2.Frame.Builder
import Http2.Frame.Edit
import Http2.Frame.Header
import Http2.Frame.Payload
import Http2.Frame.Raw
import Http2.Frame.Walk
import Http2.FrameType
import Http2.HeaderBlock
import Http2.HeaderBlock.Builder
import Http2.HeaderBlock.Fields
import Http2.HeaderMap
import Http2.Hpack.Decoder
import Http2.Hpack.Encoder
import Http2.Hpack.Field
import Http2.Hpack.Huffman
import Http2.Hpack.Integer
import Http2.Hpack.Literal
import Http2.Hpack.Representation
import Http2.Hpack.Table
import Http2.Octets.BigEndian
import Http2.Octets.Buffer
import Http2.Octets.Hex
import Http2.Octets.Span
import Http2.Priority
import Http2.Proofs.Calls
import Http2.Proofs.Frame.Accessors
import Http2.Proofs.Frame.Agreement
import Http2.Proofs.Frame.Alike
import Http2.Proofs.Frame.Building
import Http2.Proofs.Frame.Built
import Http2.Proofs.Frame.Canonical
import Http2.Proofs.Frame.Chunking
import Http2.Proofs.Frame.Complaint
import Http2.Proofs.Frame.Containment
import Http2.Proofs.Frame.Draft
import Http2.Proofs.Frame.Editing
import Http2.Proofs.Frame.Fitting
import Http2.Proofs.Frame.Header
import Http2.Proofs.Frame.Ignored
import Http2.Proofs.Frame.Locality
import Http2.Proofs.Frame.Nesting
import Http2.Proofs.Frame.Partition
import Http2.Proofs.Frame.Parts
import Http2.Proofs.Frame.ReadBack
import Http2.Proofs.Frame.Reading
import Http2.Proofs.Frame.Rearranged
import Http2.Proofs.Frame.Refusal
import Http2.Proofs.Frame.Relocation
import Http2.Proofs.Frame.Replay
import Http2.Proofs.Frame.Requested
import Http2.Proofs.Frame.Room
import Http2.Proofs.Frame.Soundness
import Http2.Proofs.Frame.Spelling
import Http2.Proofs.Frame.Stepwise
import Http2.Proofs.Frame.Stream
import Http2.Proofs.Frame.Tiling
import Http2.Proofs.Frame.Truncation
import Http2.Proofs.Frame.Verdict
import Http2.Proofs.Frame.Walk
import Http2.Proofs.HeaderBlock.Building
import Http2.Proofs.HeaderBlock.Correspondence
import Http2.Proofs.HeaderBlock.Decoding
import Http2.Proofs.HeaderBlock.Exchange
import Http2.Proofs.HeaderBlock.Halting
import Http2.Proofs.HeaderBlock.Pausing
import Http2.Proofs.HeaderBlock.Splitting
import Http2.Proofs.HeaderBlock.Steps
import Http2.Proofs.Hpack.Decoding
import Http2.Proofs.Hpack.Grammar
import Http2.Proofs.Hpack.Integer
import Http2.Proofs.Hpack.Literal
import Http2.Proofs.Hpack.Representation
import Http2.Proofs.Octets.Access
import Http2.Proofs.Octets.Agreement
import Http2.Proofs.Octets.BigEndian
import Http2.Proofs.Octets.Pieces
import Http2.Proofs.Octets.Writing
import Http2.Proofs.Settings.Announcement
import Http2.Proofs.Settings.Parameters
import Http2.Proofs.Settings.Reading
import Http2.Proofs.Settings.Update
import Http2.Settings.Parameter
import Http2.Settings.Record
