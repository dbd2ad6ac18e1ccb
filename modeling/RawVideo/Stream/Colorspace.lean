import RawVideo.Pixel.Format
import RawVideo.Text.Decimal

/-!
# Colorspace tokens

A stream names the layout of its frames by a token: a chroma family, and behind a
`p` the bit depth where it is not eight.  The token of 8-bit 4:2:0 may end in a
chroma siting, which is ignored.

Writing a depth above eight appends a comment tag that repeats the token in
another spelling.
-/

namespace RawVideo
namespace Colorspace

def planar? (family : List Char) (depth : Nat) : Option Format :=
  match String.ofList family, depth with
  | "420", 8 => some .i420
  | "420", 10 => some .i420p10
  | "420", 12 => some .i420p12
  | "420", 16 => some .i420p16
  | "422", 8 => some .i422
  | "422", 10 => some .i422p10
  | "422", 12 => some .i422p12
  | "422", 16 => some .i422p16
  | "444", 8 => some .i444
  | "444", 10 => some .i444p10
  | "444", 12 => some .i444p12
  | "444", 16 => some .i444p16
  | _, _ => none

/-- The 8-bit 4:2:0 tokens that name a chroma siting. -/
def sited : List String :=
  ["420jpeg", "420paldv", "420mpeg2"]

/-- A token without its chroma siting. -/
def unsited (token : List Char) : List Char :=
  if sited.contains (String.ofList token) then "420".toList else token

/-- The depth behind the first `p` of a token, eight without one. -/
def splitDepth (token : List Char) : List Char × Option Nat :=
  match token.span (· != 'p') with
  | (family, []) => (family, some 8)
  | (family, _ :: digits) => (family, Decimal.parse? 256 digits)

/-- The format that frames with a colorspace token are read into. -/
def format? (token : List Char) : Option Format :=
  match String.ofList (unsited token) with
  | "mono" => some .y800
  | "444alpha" => some .ayuv
  | _ =>
      match splitDepth (unsited token) with
      | (family, some depth) => planar? family depth
      | (_, none) => none

/-- The word for the chroma family of a YUV format. -/
def family? (format : Format) : Option String :=
  match format.chroma with
  | .yuv400 => some "mono"
  | .yuv420 => some "420"
  | .yuv422 => some "422"
  | .yuv444 => some (if format.hasAlpha then "444alpha" else "444")
  | .rgb => none

/-- Check whether a chroma family has formats of more than eight bits. -/
def isDeep (family : String) : Bool :=
  family == "420" || family == "422" || family == "444"

/-- The token of a format, none where a stream cannot carry it. -/
def token? (format : Format) : Option String :=
  if !format.isYuv then none
  else
    match family? format with
    | none => none
    | some family =>
        if format.depth = 8 then
          some (if family == "420" then "420jpeg" else family)
        else if isDeep family then
          some s!"{family}p{format.depth} XYSCSS={family}P{format.depth}"
        else none

end Colorspace
end RawVideo
