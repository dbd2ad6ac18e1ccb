import RawVideo.Digest.Kernel
import RawVideo.Quality.Error
import RawVideo.View.Region

/-!
# Errors

Every error that an operation reports to its caller, by cause.  A cause belongs
to one kind, and the text of an error opens with the words of its kind.
-/

namespace RawVideo

/-- What a stream, a sink or a file failed to do. -/
inductive Transport where
  /-- The stream ends inside a frame. -/
  | endOfStream
  /-- The sink takes no more bytes. -/
  | sinkFull
  /-- The stream ends inside a line. -/
  | unterminatedLine
  /-- There is no such file. -/
  | noSuchFile
  deriving DecidableEq, Repr

/-- The text of a transport failure. -/
def Transport.message : Transport -> String
  | .endOfStream => "failed to fill whole buffer"
  | .sinkFull => "failed to write whole buffer"
  | .unterminatedLine => "line is not newline-terminated"
  | .noSuchFile => "No such file or directory (os error 2)"

/-- How the components of a format contradict each other. -/
inductive Contradiction where
  /-- Components on one plane disagree on its pitch. -/
  | pitches
  /-- Components on one plane disagree on its rows. -/
  | heights
  /-- Components on one plane disagree on their distance. -/
  | strides
  /-- A plane has no component. -/
  | emptyPlane
  deriving DecidableEq, Repr

def Contradiction.message : Contradiction -> String
  | .pitches => "components sharing a plane disagree on pitch"
  | .heights => "components sharing a plane disagree on height"
  | .strides => "components sharing a plane disagree on pixel stride"
  | .emptyPlane => "plane has no components"

/-- Why an operation has no result. -/
inductive Error where
  /-- An image without columns or rows. -/
  | emptyImage (width height : Nat)
  /-- Fewer planes or pitches than the format has. -/
  | missingPlanes (format : Format) (given : Nat)
  /-- A pitch below the bytes of a row. -/
  | shortPitch (plane pitch row : Nat)
  /-- A plane that ends before its last row. -/
  | shortPlane (needed available : Nat)
  /-- A field of an image with fewer than two rows. -/
  | fieldWithoutRows (field : Field) (width height : Nat)
  /-- A field whose rows the planes do not hold. -/
  | fieldBeyondPlanes (field : Field) (width height : Nat) (format : Format) (cause : Error)
  /-- A rectangle without columns or rows. -/
  | emptyRect
  /-- A rectangle that leaves the image. -/
  | rectBeyondImage (rect : Rect) (width height : Nat)
  /-- A rectangle that starts between two chroma samples. -/
  | rectOffGrid (x y : Nat) (format : Format)
  /-- A format whose components contradict each other. -/
  | contradiction (format : Format) (reason : Contradiction)
  /-- An image whose size does not fit a machine word. -/
  | sizeOverflow (width height : Nat) (format : Format)
  /-- An image that no allocation can hold. -/
  | allocation (size width height : Nat) (format : Format)
  | unknownFormat (name : String)
  | unknownAlgorithm (name : String)
  /-- A kernel that the processor cannot run. -/
  | unavailableKernel (kernel : Kernel)
  /-- Frames of this format have no digest. -/
  | withoutDigest (format : Format)
  /-- No conversion leads from one format to the other. -/
  | noConversion (source target : Format)
  | ratioWithoutColon (text : String)
  /-- A ratio whose first term is no number. -/
  | ratioNumerator (text : String)
  /-- A ratio whose second term is no number. -/
  | ratioDenominator (text : String)
  /-- A stream without columns or rows. -/
  | emptyStream (width height : Nat)
  /-- A format that a stream cannot carry. -/
  | withoutColorspace (format : Format)
  /-- A frame of another size than the stream. -/
  | frameSize (width height streamWidth streamHeight : Nat)
  /-- A frame whose components differ from those of the stream. -/
  | frameFormat (image stream : Format)
  /-- A stream that opens with other words. -/
  | signature (token : String)
  /-- A header without a required tag. -/
  | missingTag (tag : Char)
  /-- A header tag with a bad value. -/
  | badTag (tag : Char) (value : String)
  /-- A colorspace that has no format. -/
  | unknownColorspace (token : String)
  /-- A frame that opens with other words. -/
  | frameMarker (line : String)
  /-- A line of more than `limit` bytes. -/
  | longLine (limit : Nat)
  /-- A frame of more than `limit` bytes. -/
  | largeFrame (size limit : Nat)
  /-- A stream, sink or file that failed. -/
  | transport (failure : Transport)
  /-- A comparison that failed. -/
  | comparison (cause : ComparisonError)
  deriving DecidableEq, Repr

/-- The kinds of errors. -/
inductive ErrorKind where
  | invalidParameter
  | invalidFormat
  | unsupported
  | unsupportedConversion
  | resourceExhausted
  | bufferTooSmall
  | io
  | invalidSignature
  | missingParameter
  | invalidTag
  | unsupportedColorspace
  | invalidFrameMarker
  | headerTooLong
  | frameTooLarge
  deriving DecidableEq, Repr

namespace ComparisonError

/-- The kind of a comparison error among all errors. -/
def kind : ComparisonError -> ErrorKind
  | .sizes .. => .invalidParameter
  | _ => .unsupported

end ComparisonError

namespace Error

def kind : Error -> ErrorKind
  | .emptyImage .. | .missingPlanes .. | .shortPitch .. | .fieldWithoutRows ..
  | .fieldBeyondPlanes .. | .emptyRect | .rectBeyondImage .. | .rectOffGrid ..
  | .ratioWithoutColon .. | .ratioNumerator .. | .ratioDenominator .. | .emptyStream ..
  | .frameSize .. | .frameFormat .. => .invalidParameter
  | .shortPlane .. => .bufferTooSmall
  | .contradiction .. => .invalidFormat
  | .sizeOverflow .. | .allocation .. => .resourceExhausted
  | .unknownFormat .. | .unknownAlgorithm .. | .unavailableKernel .. | .withoutDigest ..
  | .withoutColorspace .. => .unsupported
  | .noConversion .. => .unsupportedConversion
  | .signature .. => .invalidSignature
  | .missingTag .. => .missingParameter
  | .badTag .. => .invalidTag
  | .unknownColorspace .. => .unsupportedColorspace
  | .frameMarker .. => .invalidFrameMarker
  | .longLine .. => .headerTooLong
  | .largeFrame .. => .frameTooLarge
  | .transport .. => .io
  | .comparison cause => cause.kind

/-- The words that open the text of an error of a kind. -/
def heading : ErrorKind -> String
  | .invalidParameter => "Invalid parameter: "
  | .invalidFormat => "Invalid format "
  | .unsupported => "Unsupported: "
  | .unsupportedConversion => "Unsupported conversion "
  | .resourceExhausted => "Resource exhausted: "
  | .bufferTooSmall => "Buffer too small: "
  | .io => "I/O error: "
  | .invalidSignature => "Container error: Invalid signature: "
  | .missingParameter => "Container error: Missing required header parameter: "
  | .invalidTag => "Container error: Invalid header parameter "
  | .unsupportedColorspace => "Container error: Unsupported colorspace: "
  | .invalidFrameMarker => "Container error: Invalid frame marker: "
  | .headerTooLong => "Container error: Header exceeds "
  | .frameTooLarge => "Container error: Frame of "

mutual

def message (error : Error) : String :=
  heading error.kind ++ error.detail

/-- The text of an error behind the words of its kind. -/
def detail : Error -> String
  | .emptyImage width height =>
      s!"image dimensions must be non-zero, got {width}x{height}"
  | .missingPlanes format given =>
      s!"{format.name} needs {format.planeCount} planes, got {given}"
  | .shortPitch plane pitch row =>
      s!"plane {plane} pitch {pitch} is shorter than a row ({row} bytes)"
  | .shortPlane needed available => s!"need {needed} bytes, have {available}"
  | .fieldWithoutRows field width height =>
      s!"{field.name} field of a {width}x{height} image has no rows"
  | .fieldBeyondPlanes field width height format cause =>
      s!"{field.name} field of {width}x{height} {format.name} exceeds the parent planes: " ++
        cause.message
  | .emptyRect => "subimage rectangle is empty"
  | .rectBeyondImage rect width height =>
      s!"subimage {rect.describe} exceeds {width}x{height}"
  | .rectOffGrid x y format =>
      s!"subimage origin ({x}, {y}) is not aligned to the {format.name} chroma grid"
  | .contradiction format reason => s!"{format.name}: {reason.message}"
  | .sizeOverflow width height format => s!"{width}x{height} {format.name} overflows"
  | .allocation size width height format =>
      s!"{size} bytes for {width}x{height} {format.name}: " ++
        "memory allocation failed because the computed capacity exceeded the " ++
        "collection's maximum"
  | .unknownFormat name => "unknown video format " ++ Quoted.quote name
  | .unknownAlgorithm name => "unknown hash type " ++ Quoted.quote name
  | .unavailableKernel kernel => s!"{kernel.name} strategy is not available on this CPU"
  | .withoutDigest format => s!"unsupported image format ({format.name})"
  | .noConversion source target => s!"({source.name} -> {target.name})"
  | .ratioWithoutColon text => "expected num:den, got " ++ Quoted.quote text
  | .ratioNumerator text => "invalid numerator in " ++ Quoted.quote text
  | .ratioDenominator text => "invalid denominator in " ++ Quoted.quote text
  | .emptyStream width height =>
      s!"stream dimensions must be non-zero, got {width}x{height}"
  | .withoutColorspace format => s!"{format.name} cannot be stored in a Y4M stream"
  | .frameSize width height streamWidth streamHeight =>
      s!"frame is {width}x{height}, stream is {streamWidth}x{streamHeight}"
  | .frameFormat image stream =>
      s!"{image.name} frames are not compatible with {stream.name} stream data"
  | .signature token => token
  | .missingTag tag => tag.toString
  | .badTag tag value => tag.toString ++ ": " ++ Quoted.quote value
  | .unknownColorspace token => token
  | .frameMarker line => Quoted.quote line
  | .longLine limit => s!"{limit} bytes"
  | .largeFrame size limit => s!"{size} bytes exceeds the {limit} byte limit"
  | .transport failure => failure.message
  | .comparison cause => cause.message

end

end Error
end RawVideo
