import VideoOutput.Text.Hex

/-!
# Unreadable identification data

Why a blob is refused. Offsets are counted from the start of the block they belong to; block zero is
the base block.

There are five reasons: a blob that is shorter than a block, one that does not begin as a blob does,
a checksum that is not zero, fewer extension blocks than were declared, and an extension block in
which something reaches beyond its end. The first two are about every blob, the next two depend on
the policy. Each reason carries what was found, and a blob with several faults is refused for the
first of them.
-/

namespace VideoOutput.Edid

/-- The reason a blob is refused. -/
inductive ReadError where
  /-- There is no whole base block. -/
  | tooShort (length : Nat)
  /-- The blob does not start with the fixed header. -/
  | badHeader
  /-- The bytes of a block do not sum to zero. -/
  | badChecksum (block : Nat) (sum : UInt8)
  /-- Something in a block extends beyond its room. -/
  | truncated (block offset : Nat)
  /-- Fewer extension blocks are there than the base block declares. -/
  | missingExtensions (declared : UInt8) (present : Nat)
  deriving DecidableEq

/-- The wording of a read error. -/
def ReadError.message : ReadError → String
  | .tooShort length =>
    "EDID too short: " ++ toString length ++ " bytes (need at least 128)"
  | .badHeader => "bad EDID header"
  | .badChecksum block sum =>
    "EDID block " ++ toString block ++ " checksum mismatch (sum=" ++
      Text.hexLiteral 2 sum.toNat ++ ")"
  | .truncated block offset =>
    "EDID block " ++ toString block ++ " truncated at offset " ++ Text.hexLiteral 2 offset
  | .missingExtensions declared present =>
    "EDID declares " ++ toString declared.toNat ++ " extension blocks but only " ++
      toString present ++ " are present"

end VideoOutput.Edid
