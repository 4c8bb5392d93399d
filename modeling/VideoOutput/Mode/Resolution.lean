import VideoOutput.Mode.Geometry

/-!
# Named resolutions

A resolution is a named display timing: geometry, aspect ratio, rate and scan. The platform
advertises a fixed list of them, in a fixed order.

The name is what a resolution is requested by, and in the advertised list no name occurs twice. Two
resolutions may have the same geometry and differ in rate or scan. The order of the list counts: it
is the order in which accepted resolutions are told, and it decides which resolution an
identification code without a name is resolved to. The words for aspect ratios, rates and
stereoscopic packings are those of answers; the command line has its own names for aspect ratios.
-/

namespace VideoOutput.Mode

/-- The shape of the picture. -/
inductive Aspect where
  | fourByThree
  | sixteenByNine
  deriving DecidableEq

/-- The ratio as it is written in answers. -/
def Aspect.text : Aspect → String
  | .fourByThree => "4:3"
  | .sixteenByNine => "16:9"

/-- The name of the ratio on the command line. -/
def Aspect.label : Aspect → String
  | .fourByThree => "Ratio4x3"
  | .sixteenByNine => "Ratio16x9"

/-- How a stereoscopic picture is packed. -/
inductive Stereo where
  | flat
  | sideBySide
  | topAndBottom
  deriving DecidableEq

/-- The packing as it is written in answers. -/
def Stereo.text : Stereo → String
  | .flat => "mode2d"
  | .sideBySide => "side_by_side3d"
  | .topAndBottom => "top_and_bottom3d"

/-- Pictures per second. -/
inductive FrameRate where
  | unknown
  | fps24
  | fps25
  | fps30
  | fps60
  | fps23_98
  | fps29_97
  | fps50
  | fps59_94
  deriving DecidableEq

/-- The rate as it is written in answers. -/
def FrameRate.text : FrameRate → String
  | .unknown => "unknown"
  | .fps24 => "24"
  | .fps25 => "25"
  | .fps30 => "30"
  | .fps60 => "60"
  | .fps23_98 => "23.98"
  | .fps29_97 => "29.97"
  | .fps50 => "50"
  | .fps59_94 => "59.94"

/-- The nominal rate in thousandths of a picture per second. -/
def FrameRate.millihertz : FrameRate → Option Nat
  | .unknown => none
  | .fps24 => some 24000
  | .fps25 => some 25000
  | .fps30 => some 30000
  | .fps60 => some 60000
  | .fps23_98 => some 23976
  | .fps29_97 => some 29970
  | .fps50 => some 50000
  | .fps59_94 => some 59940

/-- Whether every picture carries all lines or every other one. -/
inductive Scan where
  | progressive
  | interlaced
  deriving DecidableEq

/-- The scan as it is written in answers. -/
def Scan.text : Scan → String
  | .progressive => "progressive"
  | .interlaced => "interlaced"

/-- A named display timing. -/
structure Resolution where
  name : String
  geometry : Geometry
  aspect : Aspect
  stereo : Stereo
  rate : FrameRate
  scan : Scan
  deriving DecidableEq

namespace Resolution

/-- The resolution carries every other line only. -/
def isInterlaced (r : Resolution) : Bool :=
  r.scan == .interlaced

/-- A flat picture, the only packing the platform advertises. -/
def flat (name : String) (geometry : Geometry) (aspect : Aspect) (rate : FrameRate)
    (scan : Scan) : Resolution :=
  ⟨name, geometry, aspect, .flat, rate, scan⟩

/-- The resolutions the platform advertises, in advertising order. -/
def advertised : List Resolution := [
  flat "480p" .sd480 .fourByThree .fps59_94 .progressive,
  flat "576p50" .sd576 .fourByThree .fps50 .progressive,
  flat "720p" .hd720 .sixteenByNine .fps59_94 .progressive,
  flat "720p50" .hd720 .sixteenByNine .fps50 .progressive,
  flat "1080i" .hd1080 .sixteenByNine .fps59_94 .interlaced,
  flat "1080i50" .hd1080 .sixteenByNine .fps50 .interlaced,
  flat "1080p24" .hd1080 .sixteenByNine .fps24 .progressive,
  flat "1080p25" .hd1080 .sixteenByNine .fps25 .progressive,
  flat "1080p30" .hd1080 .sixteenByNine .fps30 .progressive,
  flat "1080p50" .hd1080 .sixteenByNine .fps50 .progressive,
  flat "1080p60" .hd1080 .sixteenByNine .fps60 .progressive]

end Resolution

end VideoOutput.Mode
