import RawVideo.Conversion.Bounce

/-!
# Converters

A converter keeps its bounce buffer from one conversion to the next.  Converting
fields converts the views of those fields, the top one first; an error in the
second field leaves the first one converted.
-/

namespace RawVideo

/-- The vector features to use and the bounce buffer. -/
structure Converter where
  features : Features
  cache : Memory

namespace Converter

/-- A converter without a buffer. -/
def new (features : Features) : Converter := ⟨features, #[]⟩

/-- A converter at work on the memory of a target. -/
structure Job where
  converter : Converter
  target : Memory

def bounceJob (target source : View) (origin : Memory) : Job -> Checked Job
  | ⟨⟨features, cache⟩, memory⟩ => do
      let work <- Conversion.bounce features target source origin ⟨cache, memory⟩
      return ⟨⟨features, work.cache⟩, work.target⟩

/-- Copy a picture directly. -/
def copyJob (target source : View) (origin : Memory) : Job -> Checked Job
  | ⟨converter, memory⟩ => do
      return ⟨converter, <- Conversion.copyDirectly target source origin memory⟩

def convertFrame (uncached : Bool) (target source : View) (origin : Memory) :
    Action Error Job Unit :=
  if !Conversion.isSupported source.format target.format then
    throw (.noConversion source.format target.format)
  else if uncached && Conversion.isBounced source.format target.format then
    Action.update (bounceJob target source origin)
  else Action.update (copyJob target source origin)

def convertField (uncached : Bool) (target source : View) (origin : Memory) (field : Field) :
    Action Error Job Unit := do
  let part <- Action.ofAttempt (source.field field)
  let into <- Action.ofAttempt (target.field field)
  convertFrame uncached into part origin

/-- Convert a picture, or the fields of it that the flags name. -/
def convert (flags : ConversionFlags) (target : View) (source : Picture) :
    Action Error Job Unit :=
  if target.width ≠ source.view.width ∨ target.height ≠ source.view.height then
    fun _ => .error .sizesDiffer
  else if target.format.chroma ≠ source.view.format.chroma then
    fun _ => .error .familiesDiffer
  else
    match flags.fields with
    | [] => convertFrame flags.uncached target source.view source.memory
    | fields => fields.forM (convertField flags.uncached target source.view source.memory)

end Converter
end RawVideo
