import KacheDB.Foundation.Bytes
import KacheDB.Foundation.Text

/-!
# Tags

Tags are encoded in a bit mask of 64 bits: the bit of a tag is taken from the SHA-256 digest of
its text in lower case.  The digest and the lower case are parameters.
-/

namespace KacheDB

open Foundation

/-- What the encoding of tags takes from elsewhere. -/
structure TagEncoding where
  /-- `hashlib.sha256(b).digest()`. -/
  sha256 : Bytes → Bytes
  /-- `s.lower()`. -/
  lower : String → String

/-- Deterministically map a tag string to a bit offset 0..63 using SHA-256. -/
def tagToBit (enc : TagEncoding) (tag : String) : ℕ :=
  ofLittleEndian ((enc.sha256 (encodeUtf8 (enc.lower (strip tag)))).take 8) % 64

/-- Encode an iterable of tag strings into a single 64-bit integer bitmask.  The conjunction of
an integer with `0xFFFFFFFFFFFFFFFF` is its remainder modulo `2 ^ 64`. -/
def tagsToBitmask (enc : TagEncoding) (tags : Option (List String)) (baseMask : ℤ) : ℕ :=
  let mask := (baseMask % 2 ^ 64).toNat
  let mask := (tags.getD []).foldl (fun mask t =>
    if t ≠ "" ∧ strip t ≠ "" then mask ||| 1 <<< tagToBit enc t else mask) mask
  mask % 2 ^ 64

end KacheDB
