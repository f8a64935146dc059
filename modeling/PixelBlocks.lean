import PixelBlocks.Batch
import PixelBlocks.Bits.Backward
import PixelBlocks.Bits.Sink
import PixelBlocks.Bits.Source
import PixelBlocks.Bytes
import PixelBlocks.Chunk
import PixelBlocks.Chunk.Header
import PixelBlocks.Chunk.Parameters
import PixelBlocks.Coders
import PixelBlocks.Coders.Standard
import PixelBlocks.Command.Arguments
import PixelBlocks.Command.Files
import PixelBlocks.Command.Quoted
import PixelBlocks.Command.Run
import PixelBlocks.Command.Texts
import PixelBlocks.Deep
import PixelBlocks.Deep.Envelope
import PixelBlocks.Deep.Offsets
import PixelBlocks.Defaults
import PixelBlocks.Fault
import PixelBlocks.Flat
import PixelBlocks.Geometry.FloorDivision
import PixelBlocks.Geometry.Pair
import PixelBlocks.Geometry.Rectangle
import PixelBlocks.Layer
import PixelBlocks.Layer.Channel
import PixelBlocks.Layer.Name
import PixelBlocks.Layer.SampleType
import PixelBlocks.Main
import PixelBlocks.Method
import PixelBlocks.Method.Catalogue
import PixelBlocks.Quality
import PixelBlocks.Repeats
import PixelBlocks.Report
import PixelBlocks.Scalar
import PixelBlocks.Scalar.Stream
import PixelBlocks.Schedule
import PixelBlocks.Session
import PixelBlocks.Single
import PixelBlocks.Single.Decimal
import PixelBlocks.Stage
import PixelBlocks.Transform.Differences
import PixelBlocks.Transform.Planes
import PixelBlocks.Transform.Preparation
import PixelBlocks.Transform.Rounding
import PixelBlocks.Transform.RunLength
import PixelBlocks.Transform.Separation
import PixelBlocks.Transform.Shuffle
import PixelBlocks.Transform.Truncation
import PixelBlocks.Zlib.Alphabet
import PixelBlocks.Zlib.CanonicalCode
import PixelBlocks.Zlib.Checksum
import PixelBlocks.Zlib.Deflate
import PixelBlocks.Zlib.Inflate
import PixelBlocks.Zstd.Block
import PixelBlocks.Zstd.Checksum
import PixelBlocks.Zstd.Compress
import PixelBlocks.Zstd.Frame
import PixelBlocks.Zstd.LiteralCode
import PixelBlocks.Zstd.SequenceCode
import PixelBlocks.Zstd.StateTable
import PixelBlocks.Proofs.Outcome
import PixelBlocks.Proofs.Schedule
import PixelBlocks.Proofs.Buffers
import PixelBlocks.Proofs.Transform.Preparation
import PixelBlocks.Proofs.Transform.RunLength
import PixelBlocks.Proofs.Rows
import PixelBlocks.Proofs.Transform.Shuffle
import PixelBlocks.Proofs.Transform.Rounding
import PixelBlocks.Proofs.Transform.Truncation
import PixelBlocks.Proofs.Scalar
import PixelBlocks.Proofs.Transform.Planes
import PixelBlocks.Proofs.Transform.Segments
import PixelBlocks.Proofs.Chunk.Header
import PixelBlocks.Proofs.Chunk
import PixelBlocks.Proofs.Chunk.RoundTrip
import PixelBlocks.Proofs.Flat
import PixelBlocks.Proofs.Flat.Forms
import PixelBlocks.Proofs.Flat.RoundTrip
import PixelBlocks.Proofs.Coders
import PixelBlocks.Proofs.Corruption
import PixelBlocks.Proofs.Deep.Envelope
import PixelBlocks.Proofs.Deep
import PixelBlocks.Proofs.Deep.Channels
import PixelBlocks.Proofs.Deep.RoundTrip
import PixelBlocks.Proofs.Deep.Corruption
import PixelBlocks.Proofs.Checked
import PixelBlocks.Proofs.Geometry.FloorDivision
import PixelBlocks.Proofs.Geometry.Rectangle
import PixelBlocks.Proofs.Layer.Sampling
import PixelBlocks.Proofs.Flat.Places
import PixelBlocks.Proofs.Decoders
import PixelBlocks.Proofs.Layer.ByteSize
import PixelBlocks.Proofs.Flat.Corruption
import PixelBlocks.Proofs.Command.Blocks
import PixelBlocks.Proofs.Command.Tiling
import PixelBlocks.Proofs.Session
import PixelBlocks.Proofs.Stage
import PixelBlocks.Proofs.Interleaving
import PixelBlocks.Proofs.Batch
import PixelBlocks.Proofs.Command.RoundTrip
import PixelBlocks.Proofs.Chunk.Canonical
import PixelBlocks.Proofs.Deep.Decodability
import PixelBlocks.Proofs.Transform.Packets
import PixelBlocks.Proofs.Encoders
import PixelBlocks.Proofs.Settings.Sessions
import PixelBlocks.Proofs.Transform.PlaneInverse
import PixelBlocks.Proofs.Transform.Grammar
import PixelBlocks.Proofs.Flat.Planes
import PixelBlocks.Proofs.Single
import PixelBlocks.Proofs.Transform.RoundingError
import PixelBlocks.Proofs.Transform.TruncationError
import PixelBlocks.Proofs.Chunk.Acceptance
import PixelBlocks.Proofs.Deep.Offsets
import PixelBlocks.Proofs.Deep.Tables
import PixelBlocks.Proofs.Layer.Geometry
import PixelBlocks.Proofs.Layer.Factors
import PixelBlocks.Proofs.Geometry.Multiples
import PixelBlocks.Proofs.Layer.Samples
import PixelBlocks.Proofs.Layer.Pixels
import PixelBlocks.Proofs.Layer.Resolution
import PixelBlocks.Proofs.Flat.LargestBlock
import PixelBlocks.Proofs.Flat.Acceptance
import PixelBlocks.Proofs.Layer.FarRows
import PixelBlocks.Proofs.Chunk.Narrowing
import PixelBlocks.Proofs.Deep.Ranges
import PixelBlocks.Proofs.Deep.ByteMethods
import PixelBlocks.Proofs.Transform.Reversible
import PixelBlocks.Proofs.Transform.ShuffleLayout
import PixelBlocks.Proofs.Scalar.Streams
