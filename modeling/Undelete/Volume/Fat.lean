import Undelete.Source
import Undelete.Volume.Geometry

/-!
The file allocation table. Of every four-byte entry the low 28 bits count. A table remembers
the one sector it read last; a read that fails makes it forget.
-/

namespace Undelete

inductive FatEntry where
  | free
  | reserved
  | next (cluster : Nat)
  | bad
  | endOfChain
  deriving Repr, DecidableEq

namespace FatEntry

def mask (raw : Nat) : Nat := raw % 1 <<< 28

def ofRaw (raw : Nat) : FatEntry :=
  match mask raw with
  | 0 => free
  | 1 => reserved
  | value =>
    if value = 0xFFFFFF7 then bad else if 0xFFFFFF8 ≤ value then endOfChain else next value

end FatEntry

structure FatTable where
  geometry : Geometry
  /-- The sector held, with its bytes. -/
  held : Option (Nat × Bytes)

namespace FatTable

def empty (geometry : Geometry) : FatTable := ⟨geometry, none⟩

/-- The bytes of a FAT sector and the sectors read for them. -/
def fetch (table : FatTable) (source : Source) (sector : Nat) :
    Except Failure Bytes × FatTable × List (Nat × Nat) :=
  let readAfresh :=
    let size := table.geometry.bytesPerSector
    match source.read sector size with
    | .ok data => (.ok data, { table with held := some (sector, data) }, [(sector, size)])
    | .error failure => (.error failure, { table with held := none }, [(sector, size)])
  match table.held with
  | some (known, data) => if known = sector then (.ok data, table, []) else readAfresh
  | none => readAfresh

/-- The masked entry of a cluster. -/
def rawEntry (table : FatTable) (source : Source) (cluster : Nat) :
    Except Failure Nat × FatTable × List (Nat × Nat) :=
  let g := table.geometry
  let (answer, later, reads) := table.fetch source (g.fatSector cluster)
  (answer.map fun data => FatEntry.mask (data.field (g.fatOffset cluster) 4), later, reads)

end FatTable

end Undelete
