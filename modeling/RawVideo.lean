import RawVideo.Conversion.Basic
import RawVideo.Conversion.Bounce
import RawVideo.Conversion.Converter
import RawVideo.Digest.Adler32.Basic
import RawVideo.Digest.Adler32.Vector
import RawVideo.Digest.Blocks
import RawVideo.Digest.Context
import RawVideo.Digest.Frame
import RawVideo.Digest.Kernel
import RawVideo.Digest.Md5
import RawVideo.Digest.Record
import RawVideo.Error
import RawVideo.Fault
import RawVideo.Image.Basic
import RawVideo.Image.Layout
import RawVideo.Image.Parts
import RawVideo.Memory.Basic
import RawVideo.Memory.Copy
import RawVideo.Memory.Number
import RawVideo.Pixel.Component
import RawVideo.Pixel.Format
import RawVideo.Pixel.Named
import RawVideo.Pixel.PerPlane
import RawVideo.Pixel.Wire
import RawVideo.Proofs.Conversion.Agreement
import RawVideo.Proofs.Conversion.Bounced
import RawVideo.Proofs.Conversion.Confined
import RawVideo.Proofs.Conversion.Content
import RawVideo.Proofs.Conversion.Direct
import RawVideo.Proofs.Conversion.Errors
import RawVideo.Proofs.Conversion.Fields
import RawVideo.Proofs.Conversion.Lines
import RawVideo.Proofs.Digest.Adler32.Deferred
import RawVideo.Proofs.Digest.Adler32.Lanes
import RawVideo.Proofs.Digest.Adler32.Sums
import RawVideo.Proofs.Digest.Calls
import RawVideo.Proofs.Digest.Frames
import RawVideo.Proofs.Digest.Interleaved
import RawVideo.Proofs.Digest.Md5
import RawVideo.Proofs.Digest.Neutral
import RawVideo.Proofs.Digest.Padding
import RawVideo.Proofs.Image.Padded
import RawVideo.Proofs.Image.Planes
import RawVideo.Proofs.Image.Tiled
import RawVideo.Proofs.Memory.Painted
import RawVideo.Proofs.Memory.Tiling
import RawVideo.Proofs.Memory.Vectors
import RawVideo.Proofs.Outcome
import RawVideo.Proofs.Pixel.Registry
import RawVideo.Proofs.Pixel.Size
import RawVideo.Proofs.Quality.Comparison
import RawVideo.Proofs.Quality.Pairs
import RawVideo.Proofs.Ratio
import RawVideo.Proofs.Ratio.Order
import RawVideo.Proofs.Stream.Canonical
import RawVideo.Proofs.Stream.Capacity
import RawVideo.Proofs.Stream.Cut
import RawVideo.Proofs.Stream.Emitted
import RawVideo.Proofs.Stream.Failed
import RawVideo.Proofs.Stream.Grammar
import RawVideo.Proofs.Stream.Header
import RawVideo.Proofs.Stream.Kept
import RawVideo.Proofs.Stream.Opening
import RawVideo.Proofs.Stream.Payload
import RawVideo.Proofs.Stream.Progress
import RawVideo.Proofs.Stream.Read
import RawVideo.Proofs.Stream.Relay
import RawVideo.Proofs.Stream.RoundTrip
import RawVideo.Proofs.Stream.Tokens
import RawVideo.Proofs.Stream.Written
import RawVideo.Proofs.Text.Ascii
import RawVideo.Proofs.Text.Numeral
import RawVideo.Proofs.Text.Utf8
import RawVideo.Proofs.View.Accepted
import RawVideo.Proofs.View.Aliased
import RawVideo.Proofs.View.Covered
import RawVideo.Proofs.View.Derived
import RawVideo.Proofs.View.External
import RawVideo.Proofs.View.Origin
import RawVideo.Proofs.View.Path
import RawVideo.Proofs.View.Reachable
import RawVideo.Proofs.View.Separate
import RawVideo.Proofs.View.Store
import RawVideo.Quality.Error
import RawVideo.Quality.Metric
import RawVideo.Quality.Psnr
import RawVideo.Ratio
import RawVideo.Stream.Colorspace
import RawVideo.Stream.Frame
import RawVideo.Stream.Header
import RawVideo.Stream.Reader
import RawVideo.Stream.Sink
import RawVideo.Stream.Writer
import RawVideo.Text.Blank
import RawVideo.Text.Decimal
import RawVideo.Text.Hex
import RawVideo.Text.Invisible
import RawVideo.Text.Quoted
import RawVideo.Text.Utf8
import RawVideo.View.Basic
import RawVideo.View.Derive
import RawVideo.View.InPlace
import RawVideo.View.Region
import RawVideo.View.Sample
