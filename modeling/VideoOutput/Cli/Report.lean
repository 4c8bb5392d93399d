import VideoOutput.Edid.Identity
import VideoOutput.Json.Value
import VideoOutput.Mode.Catalog
import VideoOutput.Text.Column

/-!
# What commands print

The lines and the JSON texts in which commands describe displays and modes.

A display is described by lines, each with a label and a text that starts in the same column for all
of them. The labels are written with their blanks, so what is printed can be read off the source.
The last line names the resolutions that the display accepts, in the order of the catalog, and is
left out where there are none. The theory tells the lines apart from this text: which labels there
are, what stands behind each, and where the column is.

The JSON form has the same data in another arrangement, with null for what is missing and numbers
for what the lines show in hexadecimal digits. A list of modes and the answer to a query are made
likewise. Nothing here asks a controller or a file, so every text is a function of the identity or
of the catalog.
-/

namespace VideoOutput.Cli

open VideoOutput.Json (Value)

/-- Lines with their ends. -/
def lines (texts : List String) : String :=
  String.join (texts.map (· ++ "\n"))

/-- The names of resolutions in a row. -/
def nameList (resolutions : List Mode.Resolution) : String :=
  ", ".intercalate (resolutions.map Mode.Resolution.name)

/-- The line about the address of a display. -/
def addressText (identity : Edid.Identity) : String :=
  match identity.address with
  | some address => address.text ++ if identity.isRepeater then " (repeater)" else ""
  | none => "none"

/-- The line about what a display accepts, if it accepts anything. -/
def supportedLines : List Mode.Resolution → List String
  | [] => []
  | resolutions => ["supported:        " ++ nameList resolutions]

/-- A display in words. -/
def describe (identity : Edid.Identity) : List String :=
  [ "manufacturer:     " ++ identity.manufacturer,
    "product code:     " ++ Text.hexLiteral 4 identity.productCode.toNat,
    "serial number:    " ++ Text.hexLiteral 8 identity.serialNumber.toNat,
    "manufactured:     " ++ Edid.ManufactureDate.text identity.manufactured,
    "EDID version:     " ++ toString identity.version.toNat ++ "." ++
      toString identity.revision.toNat,
    "extensions:       " ++ toString identity.extensionCount.toNat,
    "monitor name:     " ++ identity.monitorName,
    "physical address: " ++ addressText identity,
    "HDMI:             " ++ if identity.isHdmi then "yes" else "no" ] ++
  supportedLines identity.resolutions

/-- A byte as a JSON value. -/
def byteValue (b : UInt8) : Value :=
  .number b.toNat

/-- A date as a JSON value. -/
def dateValue (date : Edid.ManufactureDate) : Value :=
  .record [
    ("week", .ofOption byteValue date.week),
    ("year", .ofOption .number date.year),
    ("raw_year", byteValue date.rawYear),
    ("model_year", .bool date.isModelYear)]

/-- An address as a JSON value. -/
def addressValue (address : Edid.PhysicalAddress) : Value :=
  .record [
    ("a", byteValue address.a), ("b", byteValue address.b),
    ("c", byteValue address.c), ("d", byteValue address.d)]

/-- A resolution as a JSON value. -/
def resolutionValue (r : Mode.Resolution) : Value :=
  .record [
    ("name", .text r.name),
    ("pixel_resolution", .text r.geometry.text),
    ("aspect_ratio", .text r.aspect.text),
    ("stereo_mode", .text r.stereo.text),
    ("frame_rate", .text r.rate.text),
    ("scan_mode", .text r.scan.text)]

/-- A display as a JSON value. -/
def identityValue (identity : Edid.Identity) : Value :=
  .record [
    ("manufacturer_id", .text identity.manufacturer),
    ("product_code", .number identity.productCode.toNat),
    ("serial_number", .number identity.serialNumber.toNat),
    ("manufacture_date", .ofOption dateValue identity.manufactured),
    ("version", byteValue identity.version),
    ("revision", byteValue identity.revision),
    ("extension_count", byteValue identity.extensionCount),
    ("monitor_name", .text identity.monitorName),
    ("physical_address", .ofOption addressValue identity.address),
    ("is_repeater", .bool identity.isRepeater),
    ("is_hdmi", .bool identity.isHdmi),
    ("supported_resolutions", .list (identity.resolutions.map resolutionValue))]

/-- A resolution with its mode code, as a line. -/
def modeLine (catalog : Mode.Catalog) (r : Mode.Resolution) : String :=
  Text.alignLeft 8 r.name ++ " mode " ++
    Text.alignRight 2 (toString (catalog.codeOf r.name).toNat) ++ "  " ++ r.geometry.text ++
    if r.isInterlaced then " interlaced" else ""

/-- A resolution with its mode code, as a JSON value. -/
def modeValue (catalog : Mode.Catalog) (r : Mode.Resolution) : Value :=
  .record [
    ("name", .text r.name),
    ("mode", .number (catalog.codeOf r.name).toNat),
    ("width", .number r.geometry.width),
    ("height", .number r.geometry.height),
    ("interlaced", .bool r.isInterlaced),
    ("frame_rate_mhz", .ofOption .number r.rate.millihertz)]

end VideoOutput.Cli
