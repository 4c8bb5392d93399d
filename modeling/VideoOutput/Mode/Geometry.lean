/-!
# Pixel geometry

The coarse geometry of a picture. Several refresh rates and pixel repetitions share one geometry.

There are six geometries, and the platform's tables know no others. A geometry is what an
identification code without a name is resolved by, so it is deliberately coarse: it says how many
lines and columns there are, and nothing about the rate or the scan. Names and heights of geometries
are as they are written in answers.
-/

namespace VideoOutput.Mode

/-- A picture size in pixels. -/
inductive Geometry where
  | sd480
  | sd576
  | hd720
  | hd1080
  | uhd2160
  | dci2160
  deriving DecidableEq

namespace Geometry

/-- Pixels per line. -/
def width : Geometry → Nat
  | sd480 => 720
  | sd576 => 720
  | hd720 => 1280
  | hd1080 => 1920
  | uhd2160 => 3840
  | dci2160 => 4096

/-- Lines per picture. -/
def height : Geometry → Nat
  | sd480 => 480
  | sd576 => 576
  | hd720 => 720
  | hd1080 => 1080
  | uhd2160 => 2160
  | dci2160 => 2160

/-- Width and height, as `1280x720`. -/
def text (g : Geometry) : String :=
  toString g.width ++ "x" ++ toString g.height

/-- The name of the geometry in messages and log fields, as `Res1280x720`. -/
def label (g : Geometry) : String :=
  "Res" ++ g.text

/-- Every geometry, smallest first. -/
def all : List Geometry :=
  [sd480, sd576, hd720, hd1080, uhd2160, dci2160]

theorem mem_all (g : Geometry) : g ∈ all := by
  cases g <;> simp [all]

end Geometry

end VideoOutput.Mode
