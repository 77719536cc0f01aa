/-!
# Checksums

The cyclic redundancy check of 32 bits: the bytes are fed to a shift register, lowest bit first,
which is folded with a fixed polynomial whenever a one falls out. The register starts with all
bits set and is inverted at the end.

## Main definitions

* `Text.Checksum.shift` — one bit
* `Text.Checksum.feed` — one byte
* `Text.checksum` — the checksum of a text's bytes
-/

namespace Tenure.Text

namespace Checksum

/-- The polynomial, its lowest power in the highest bit. -/
def polynomial : UInt32 := 0xEDB88320

/-- Shifts one bit out of the register. -/
def shift (register : UInt32) : UInt32 :=
  if register &&& 1 = 1 then (register >>> 1) ^^^ polynomial else register >>> 1

/-- Feeds one byte to the register. -/
def feed (register : UInt32) (byte : UInt8) : UInt32 :=
  Nat.repeat shift 8 (register ^^^ byte.toUInt32)

end Checksum

/-- The checksum of a text, taken over its bytes. -/
def checksum (text : String) : UInt32 :=
  text.toUTF8.data.foldl Checksum.feed 0xFFFFFFFF ^^^ 0xFFFFFFFF

end Tenure.Text
