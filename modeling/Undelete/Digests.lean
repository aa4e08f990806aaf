import Undelete.Crc32
import Undelete.Sha256

/-!
The digests of a recovery. All that is computed of tables and files is the same with any functions
in their place, but for the warnings and the report entries that hold what the functions give.
-/

namespace Undelete

/-- The checksum of partition tables, and the digest of a recovered file as it is reported. -/
class Digests where
  checksum : Bytes → Nat
  sha256 : Bytes → String

instance Digests.standard : Digests where
  checksum := Crc32.checksum
  sha256 := Sha256.hex

end Undelete
